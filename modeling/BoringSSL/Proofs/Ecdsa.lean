import BoringSSL.Ecdsa
import BoringSSL.Lib.Checked
import BoringSSL.Lib.CuspidalCubic
import BoringSSL.Proofs.Ec
import Mathlib.NumberTheory.LucasPrimality

/-!
# ECDSA

A signature is accepted when `(m/s)G + (r/s)Q` is finite and its x-coordinate is `r` modulo the
order, `m` being the leftmost bits of the digest.  What the signer returns is accepted: the sum is
`k` times the generator for the nonce `k`.  Multiples of points are taken to be exact (`ExactMul`).
-/

namespace BoringSSL.Ecdsa

open ByteLib Montgomery Bn Ec EcGroup CuspidalCubic List

variable {s maxSigLen : ℕ} {eckey : EcKey} {sig : Bytes} {group : EcGroup} {digest : Bytes} {r : ℕ}

/-- The number that the leftmost `k` bits spell, or all of them where there are fewer. -/
def leftmostBits (k : ℕ) (digest : Bytes) : ℕ := beNat digest / 2 ^ (8 * digest.length - k)

lemma leftmostBits_lt (k : ℕ) (digest : Bytes) : leftmostBits k digest < 2 ^ k := by
  rw [leftmostBits, Nat.div_lt_iff_lt_mul (by positivity), ← pow_add]
  calc beNat digest < 256 ^ digest.length := beNat_lt digest
    _ = 2 ^ (8 * digest.length) := by rw [pow_mul]; norm_num
    _ ≤ 2 ^ (k + (8 * digest.length - k)) := Nat.pow_le_pow_right (by norm_num) (by omega)

lemma leftmostBits_take {k : ℕ} {n : ℕ} (hk : k ≤ 8 * n) :
    leftmostBits k (digest.take n) = leftmostBits k digest := by
  by_cases hn : digest.length ≤ n
  · rw [take_of_length_le hn]
  rw [leftmostBits, leftmostBits, length_take, min_eq_left (by omega)]
  have hsplit : beNat digest = beNat (digest.take n) * 256 ^ (digest.length - n)
      + beNat (digest.drop n) := by
    rw [← length_drop, ← beNat_append, take_append_drop]
  have hdrop : beNat (digest.drop n) < 256 ^ (digest.length - n) := by
    simpa using beNat_lt (digest.drop n)
  have hpow : 2 ^ (8 * digest.length - k) = 256 ^ (digest.length - n) * 2 ^ (8 * n - k) := by
    rw [show (256 : ℕ) = 2 ^ 8 by norm_num, ← pow_mul, ← pow_add]
    congr 1
    omega
  rw [hpow, ← Nat.div_div_eq_div_mul, hsplit, mul_comm (beNat _), Nat.mul_add_div (by positivity),
    Nat.div_eq_of_lt hdrop, add_zero]

lemma digestToScalar_eq (digest : Bytes) :
    digestToScalar group digest =
      .ok (leftmostBits (bnNumBits group.order.N) digest % group.order.N) := by
  obtain ⟨bits, hbits⟩ : ∃ bits, bnNumBits group.order.N = bits := ⟨_, rfl⟩
  have hwidth : bits ≤ 64 * group.order.width := hbits ▸ bnNumBits_le order_lt
  have hlen := length_take_le ((bits + 7) / 8) digest
  have hshift : (if 8 * (digest.take ((bits + 7) / 8)).length > bits
      then beNat (digest.take ((bits + 7) / 8)) >>> (8 - bits % 8)
      else beNat (digest.take ((bits + 7) / 8))) = leftmostBits bits digest := by
    rw [← leftmostBits_take (show bits ≤ 8 * ((bits + 7) / 8) by omega), leftmostBits]
    split_ifs with hlong
    · rw [Nat.shiftRight_eq_div_pow]
      congr 2
      omega
    · rw [Nat.sub_eq_zero_of_le (by omega), pow_zero, Nat.div_one]
  have hlt := leftmostBits_lt bits digest
  have hle := le_of_bnNumBits group.order.N_pos
  rw [hbits] at hle
  rw [digestToScalar, hbits]
  rw [bnBigEndianToWords_eq (by omega), ok_bind, hshift]
  refine bnReduceOnce_of_lt order_lt (by omega) (hlt.trans_le ?_)
  exact Nat.pow_le_pow_right (by norm_num) hwidth

lemma ecScalarFromBytes_iff {input : Bytes} {v : ℕ} :
    group.ecScalarFromBytes input = .ok v ↔
      input.length = bnNumBytes group.order.N ∧ beNat input = v ∧ v < group.order.N := by
  rw [ecScalarFromBytes]
  by_cases hlen : input.length = bnNumBytes group.order.N
  · have hwords : bnNumBytes group.order.N ≤ group.order.width * 8 := bnNumBytes_le order_lt
    rw [if_neg (by simpa using hlen), bnBigEndianToWords_eq (by omega), ok_bind]
    split_ifs with hlt
    · refine ⟨nofun, fun ⟨_, h, hv⟩ => ?_⟩
      omega
    · rw [pure_eq_ok, Except.ok.injEq]
      exact ⟨fun h => ⟨hlen, h, by omega⟩, fun h => h.2.1⟩
  · rw [if_pos hlen]
    exact ⟨nofun, fun h => absurd h.1 hlen⟩

lemma orPut_eq_ok {α : Type} {x : Ret α} {reason : Reason} {a : α} :
    orPut x reason = .ok a ↔ x = .ok a := by
  rcases x with (_ | _) | _ <;> simp [orPut, put]

lemma two_lt_order : 2 < group.order.N := by
  have h1 := group.field_gt
  have h2 := group.field_lt
  omega

/-- `a / b` modulo the order. -/
def quotient (group : EcGroup) (a b : ℕ) : ℕ :=
  ((a : ZMod group.order.N) * (b : ZMod group.order.N)⁻¹).val

instance : NeZero group.order.N := ⟨group.order.N_pos.ne'⟩

lemma quotient_lt (a b : ℕ) : quotient group a b < group.order.N := ZMod.val_lt _

lemma cast_quotient (a b : ℕ) :
    (quotient group a b : ZMod group.order.N) = a * (b : ZMod group.order.N)⁻¹ := by
  rw [quotient, ZMod.natCast_val, ZMod.cast_id]

lemma quotient_mod (a b : ℕ) : quotient group (a % group.order.N) b = quotient group a b := by
  rw [quotient, ZMod.natCast_mod, quotient]

/-- `pt` is finite and its x-coordinate is `r` modulo the order. -/
def HasX (pt : group.curve.Point) (r : ℕ) : Prop :=
  ∃ x y h, pt = .some x y h ∧ x.val ≡ r [MOD group.order.N]

lemma xCoordinate_lt {pt : group.curve.Point} (h : group.xCoordinate pt = some r) :
    r < group.order.N := by
  cases pt with
  | zero => cases h
  | some x y hns =>
    cases h
    exact Nat.mod_lt _ group.order.N_pos

lemma hasX_iff {pt : group.curve.Point} (hr : r < group.order.N) :
    HasX pt r ↔ group.xCoordinate pt = some r := by
  cases pt with
  | zero =>
    refine ⟨fun ⟨x, y, h, heq, _⟩ => ?_, nofun⟩
    cases heq
  | some x y h =>
    rw [xCoordinate, Option.some.injEq]
    constructor
    · rintro ⟨x', y', h', heq, hmod⟩
      cases heq
      exact Eq.trans hmod (Nat.mod_eq_of_lt hr)
    · intro hmod
      exact ⟨x, y, h, rfl, Eq.trans hmod (Nat.mod_eq_of_lt hr).symm⟩

section Prime

variable [hn : Fact group.order.N.Prime] {pubKey : EcJacobian} {d k : ℕ}

/-- Both functions divide so: the inverse is taken of a number that is not in Montgomery form. -/
lemma mulMontgomery_inv {a b : ℕ} (ha : a < group.order.N) (hb : b < group.order.N) :
    group.ecScalarMulMontgomery a (group.ecScalarFromMontgomery (group.ecScalarInv0Montgomery b)) =
      quotient group a b := by
  have hinv : group.ecScalarInv0Montgomery b < group.order.N := Modulus.pow_lt hb _
  have hlt : group.ecScalarMulMontgomery a
      (group.ecScalarFromMontgomery (group.ecScalarInv0Montgomery b)) < group.order.N :=
    Modulus.mul_lt (Modulus.lt_R ha) (Modulus.fromMont_lt (Modulus.lt_R hinv))
  apply Modulus.eq_of_cast_eq hlt (quotient_lt a b)
  rw [cast_quotient, ecScalarMulMontgomery, Modulus.cast_mul_decode]
  rw [ecScalarFromMontgomery, Modulus.decode, Modulus.decode_redc, ecScalarInv0Montgomery,
    bnModInverse0PrimeMontSmall, Modulus.decode_pow_sub_two two_lt_order, Modulus.decode, mul_inv,
    inv_inv, mul_assoc, Modulus.R_mul_inv, mul_one]

variable [hp : Fact group.field.N.Prime]

/-- The functions that multiply points return the points they should. -/
structure ExactMul (group : EcGroup) [Fact group.field.N.Prime] (G : group.curve.Point) : Prop where
  base : ∀ k < group.order.N, group.Represents (group.mulBase k) (k • G)
  pub : ∀ k < group.order.N, ∀ l < group.order.N, ∀ (p : EcJacobian) (P : group.curve.Point),
    group.Represents p P →
      ∃ q, group.mulPublic k p l = .ok q ∧ group.Represents q (k • G + l • P)

variable {G : group.curve.Point}

lemma verifyScalars_iff (hmul : ExactMul group G) {Q : group.curve.Point}
    (hQ : group.Represents pubKey Q) (digest : Bytes) (hr : r < group.order.N) (hs0 : 1 ≤ s)
    (hs : s < group.order.N) :
    verifyScalars group pubKey digest r s = .ok () ↔
      HasX (quotient group (leftmostBits (bnNumBits group.order.N) digest) s • G
        + quotient group r s • Q) r := by
  have hne : ecScalarIsZero s = false := by
    rw [ecScalarIsZero, beq_eq_false_iff_ne]
    omega
  obtain ⟨point, hrun, hrep⟩ := hmul.pub _
    (quotient_lt (leftmostBits (bnNumBits group.order.N) digest) s) _ (quotient_lt r s) pubKey Q hQ
  rw [verifyScalars, ecScalarToMontgomeryInvVartime, hne]
  simp only [Bool.false_eq_true, if_false]
  rw [digestToScalar_eq, ok_bind, mulMontgomery_inv (Nat.mod_lt _ group.order.N_pos) hs,
    mulMontgomery_inv hr hs, quotient_mod, ecPointMulScalarPublic, hrun]
  simp only [orPut, ok_bind, ecCmpXCoordinate_iff hrep hr, require_eq_ok, decide_eq_true_eq]
  exact (hasX_iff hr).symm

lemma ecdsaVerifyFixed_iff (hmul : ExactMul group G) {Q : group.curve.Point}
    (hgroup : eckey.group = some group) (hpub : eckey.pubKey = some pubKey)
    (hQ : group.Represents pubKey Q) (digest sig : Bytes) :
    ecdsaVerifyFixed digest sig eckey = .ok () ↔
      sig.length = 2 * bnNumBytes group.order.N ∧
      ∃ r s, r = beNat (sig.take (bnNumBytes group.order.N))
        ∧ s = beNat (sig.drop (bnNumBytes group.order.N))
        ∧ 1 ≤ r ∧ r < group.order.N ∧ 1 ≤ s ∧ s < group.order.N
        ∧ HasX (quotient group (leftmostBits (bnNumBits group.order.N) digest) s • G
          + quotient group r s • Q) r := by
  have hzero : ∀ x, ecScalarIsZero x = false ↔ 1 ≤ x := by
    simp [ecScalarIsZero, Nat.one_le_iff_ne_zero]
  rw [ecdsaVerifyFixed]
  simp only [hgroup, hpub, bind_eq_ok, require_eq_ok, orPut_eq_ok, ecScalarFromBytes_iff, hzero]
  constructor
  · rintro ⟨-, hlen, r, ⟨-, hr, hrN⟩, -, hr0, s, ⟨-, hs, hsN⟩, -, hs0, hrun⟩
    exact ⟨hlen, r, s, hr.symm, hs.symm, hr0, hrN, hs0, hsN,
      (verifyScalars_iff hmul hQ digest hrN hs0 hsN).mp hrun⟩
  · rintro ⟨hlen, r, s, hr, hs, hr0, hrN, hs0, hsN, hx⟩
    refine ⟨(), hlen, r, ⟨?_, hr.symm, hrN⟩, (), hr0, s, ⟨?_, hs.symm, hsN⟩, (), hs0,
      (verifyScalars_iff hmul hQ digest hrN hs0 hsN).mpr hx⟩
    · rw [length_take]
      omega
    · rw [length_drop]
      omega

lemma quotient_add_quotient (hG : addOrderOf G = group.order.N) {m : ℕ}
    (hk : (k : ZMod group.order.N) ≠ 0) (hs : (s : ZMod group.order.N) ≠ 0)
    (hsval : (s : ZMod group.order.N) = (m + d * r) * (k : ZMod group.order.N)⁻¹) :
    quotient group m s • G + quotient group r s • d • G = k • G := by
  rw [← mul_nsmul', ← add_nsmul, nsmul_eq_nsmul_iff_modEq, hG, ← ZMod.natCast_eq_natCast_iff]
  push_cast
  rw [cast_quotient, cast_quotient]
  have hsum : ((m : ZMod group.order.N) + d * r) = s * k := by
    rw [hsval, mul_assoc, inv_mul_cancel₀ hk, mul_one]
  calc (m : ZMod group.order.N) * (s : ZMod group.order.N)⁻¹ + r * (s : ZMod group.order.N)⁻¹ * d
      = (m + d * r) * (s : ZMod group.order.N)⁻¹ := by ring
    _ = k := by rw [hsum, mul_comm (s : ZMod group.order.N), mul_assoc, mul_inv_cancel₀ hs, mul_one]

lemma ecdsaSignImpl_spec (hmul : ExactMul group G) (hd : d < group.order.N) (hk : k < group.order.N)
    (h : ecdsaSignImpl group maxSigLen d k digest = .ok (some sig)) :
    ∃ r s, 1 ≤ r ∧ r < group.order.N ∧ 1 ≤ s ∧ s < group.order.N ∧ HasX (k • G) r
      ∧ (s : ZMod group.order.N) = (leftmostBits (bnNumBits group.order.N) digest + d * r)
        * (k : ZMod group.order.N)⁻¹
      ∧ sig = beBytes (bnNumBytes group.order.N) r ++ beBytes (bnNumBytes group.order.N) s := by
  rw [ecdsaSignImpl] at h
  simp only [bind_eq_ok, require_eq_ok] at h
  obtain ⟨-, -, -, -, point, hpoint, r, hr, h⟩ := h
  have hrep := hmul.base k hk
  have hrun : group.ecPointMulScalarBase k = .ok (group.mulBase k) := by
    rw [ecPointMulScalarBase, simpleIsOnCurve_of_represents hrep]
    rfl
  cases hrun.symm.trans hpoint
  have hx := (ecGetXCoordinateAsScalar_iff hrep).mp hr
  have hrN : r < group.order.N := xCoordinate_lt hx
  split_ifs at h with hr0
  · cases h
  rw [digestToScalar_eq] at h
  -- the product of the key and `r`, out of Montgomery form
  obtain ⟨e, he⟩ : ∃ e, group.ecScalarMulMontgomery d (group.ecScalarToMontgomery r) = e := ⟨_, rfl⟩
  have heN : e < group.order.N :=
    he ▸ Modulus.mul_lt (Modulus.lt_R hd) (Modulus.toMont_lt (Modulus.lt_R hrN))
  have hecast : (e : ZMod group.order.N) = d * r := by
    rw [← he, ecScalarMulMontgomery, Modulus.cast_mul_decode, ecScalarToMontgomery,
      Modulus.decode_toMont]
  have hmN := Nat.mod_lt (leftmostBits (bnNumBits group.order.N) digest) group.order.N_pos
  have hsumN := Nat.mod_lt (e + leftmostBits (bnNumBits group.order.N) digest % group.order.N)
    group.order.N_pos
  simp only [ok_bind, he, ecScalarAdd, bnModAddWords_eq order_lt heN hmN,
    mulMontgomery_inv hsumN hk] at h
  obtain ⟨s, hs⟩ : ∃ s, quotient group ((e + leftmostBits (bnNumBits group.order.N) digest
    % group.order.N) % group.order.N) k = s := ⟨_, rfl⟩
  have hsN : s < group.order.N := hs ▸ quotient_lt _ _
  rw [hs] at h
  split_ifs at h with hs0
  · cases h
  rw [ecScalarToBytes, ecScalarToBytes, bnWordsToBigEndian_eq (hrN.trans (lt_bnNumBytes _)),
    bnWordsToBigEndian_eq (hsN.trans (lt_bnNumBytes _))] at h
  simp only [ecScalarIsZero, beq_iff_eq] at hr0 hs0
  refine ⟨r, s, by omega, hrN, by omega, hsN, (hasX_iff hrN).mpr hx, ?_, ?_⟩
  · rw [← hs, quotient_mod, cast_quotient, Nat.cast_add, ZMod.natCast_mod, hecast, add_comm]
  · exact (Option.some.inj (Except.ok.inj h)).symm

lemma ecdsaVerifyFixed_of_sign (hmul : ExactMul group G) (hG : addOrderOf G = group.order.N)
    (hgroup : eckey.group = some group) (hpub : eckey.pubKey = some pubKey)
    (hQ : group.Represents pubKey (d • G)) (hd : d < group.order.N)
    (hk : k < group.order.N) (h : ecdsaSignImpl group maxSigLen d k digest = .ok (some sig)) :
    ecdsaVerifyFixed digest sig eckey = .ok () := by
  obtain ⟨r, s, hr0, hrN, hs0, hsN, hx, hsval, rfl⟩ := ecdsaSignImpl_spec hmul hd hk h
  have hne : ∀ x < group.order.N, 1 ≤ x → (x : ZMod group.order.N) ≠ 0 := by
    intro x hxN hx0 hzero
    have := Nat.le_of_dvd (by omega) ((ZMod.natCast_eq_zero_iff x _).mp hzero)
    omega
  have hk0 : 1 ≤ k := by
    by_contra hlt
    obtain rfl : k = 0 := by omega
    obtain ⟨x, y, h, hinf, -⟩ := hx
    cases hinf
  have hread : ∀ v < group.order.N,
      beNat (beBytes (bnNumBytes group.order.N) v) = v := fun v hv => by
    rw [beNat_beBytes, Nat.mod_eq_of_lt (hv.trans (lt_bnNumBytes _))]
  refine (ecdsaVerifyFixed_iff hmul hgroup hpub hQ digest _).mpr ⟨by simp; omega, r, s, ?_, ?_,
    hr0, hrN, hs0, hsN, ?_⟩
  · rw [take_left' (beBytes_length _ _), hread r hrN]
  · rw [drop_left' (beBytes_length _ _), hread s hsN]
  · rwa [quotient_add_quotient hG (hne k hk hk0) (hne s hsN hs0) hsval]

/-- Which signatures are accepted, that what the signer returns is among them, and that the
comparison of coordinates is exact. -/
theorem ecdsa_verify_sign (hmul : ExactMul group G) (hG : addOrderOf G = group.order.N)
    {eckey : EcKey} {pubKey : EcJacobian} {d : ℕ} (hgroup : eckey.group = some group)
    (hpub : eckey.pubKey = some pubKey) (hQ : group.Represents pubKey (d • G))
    (hd : d < group.order.N) (digest : Bytes) :
    (∀ sig, ecdsaVerifyFixed digest sig eckey = .ok () ↔
      sig.length = 2 * bnNumBytes group.order.N ∧
      ∃ r s, r = beNat (sig.take (bnNumBytes group.order.N))
        ∧ s = beNat (sig.drop (bnNumBytes group.order.N))
        ∧ 1 ≤ r ∧ r < group.order.N ∧ 1 ≤ s ∧ s < group.order.N
        ∧ HasX (quotient group (leftmostBits (bnNumBits group.order.N) digest) s • G
          + quotient group r s • d • G) r) ∧
    (∀ k < group.order.N, ∀ maxSigLen sig,
      ecdsaSignImpl group maxSigLen d k digest = .ok (some sig) →
      ecdsaVerifyFixed digest sig eckey = .ok ()) ∧
    ∀ (p : EcJacobian) (P : group.curve.Point), group.Represents p P → ∀ r < group.order.N,
      ∃ equal, group.ecCmpXCoordinate p r = .ok equal ∧ (equal = true ↔ HasX P r) := by
  refine ⟨ecdsaVerifyFixed_iff hmul hgroup hpub hQ digest, ?_, ?_⟩
  · intro k hk maxSigLen sig hsign
    exact ecdsaVerifyFixed_of_sign hmul hG hgroup hpub hQ hd hk hsign
  · intro p P hP r hr
    exact ⟨_, ecCmpXCoordinate_iff hP hr, by rw [decide_eq_true_eq, hasX_iff hr]⟩

end Prime

/-! ## A group to sign in

The points of `y² = x³` but the cusp are the additive group of the field: the point of `t` is
`(t⁻², t⁻³)`, or `(1, 1, t)` in Jacobian coordinates. -/

namespace Cusp

def prime : ℕ := 3 * 2 ^ 189 + 1

def modulus : BnMontCtx where
  N := prime
  width := 3
  n0 := 2 ^ 64 - 1
  one_lt_B := by norm_num
  N_pos := by norm_num [prime]
  N_lt := by norm_num [prime]
  neg_inv := by norm_num [prime]

def parameter (p : EcJacobian) : ℕ :=
  modulus.redc (modulus.mul (modulus.mul p.X p.Z) (modulus.pow p.Y (prime - 2)))

def point (t : ℕ) : EcJacobian := ⟨modulus.toMont 1, modulus.toMont 1, modulus.toMont (t % prime)⟩

/-- A group on a cusp. -/
def cuspGroup : EcGroup where
  field := modulus
  order := modulus
  a := 0
  b := 0
  aIsMinus3 := false
  meth := .mont
  mulBase := point
  mulPublic k p l := .ok (point (k + l * parameter p))
  field_gt := by norm_num [modulus, prime]
  order_gt := by norm_num [modulus, prime]
  field_lt := by norm_num [modulus, prime]
  a_lt := modulus.N_pos
  b_lt := modulus.N_pos
  minus3 := by simp
  nistp256 := by simp

example : cuspGroup.simpleIsOnCurve (point 5) = .ok true := by decide +kernel

instance : Fact prime.Prime := ⟨by
  -- ten has order `prime - 1`
  have hpow : ∀ e, ((10 : ℕ) : ZMod modulus.N) ^ e =
      modulus.decode (modulus.pow (modulus.toMont 10) e) := by
    intro e
    rw [Modulus.decode_pow, Modulus.decode_toMont]
  have hone : ∀ x < modulus.N, modulus.decode x = 1 ↔ x = modulus.toMont 1 := by
    intro x hx
    have hlt : modulus.toMont 1 < modulus.N := Modulus.toMont_lt (by decide +kernel)
    rw [← Modulus.decode_inj hx hlt, Modulus.decode_toMont, Nat.cast_one]
  have hten : modulus.toMont 10 < modulus.N := Modulus.toMont_lt (by decide +kernel)
  have hval : ∀ e, ((10 : ℕ) : ZMod modulus.N) ^ e = 1 ↔
      modulus.pow (modulus.toMont 10) e = modulus.toMont 1 := by
    intro e
    rw [hpow, hone _ (Modulus.pow_lt hten e)]
  refine lucas_primality prime ((10 : ℕ) : ZMod modulus.N) ((hval _).mpr (by decide +kernel)) ?_
  intro q hq hdvd
  have hcases : q = 2 ∨ q = 3 := by
    rw [show prime - 1 = 3 * 2 ^ 189 by norm_num [prime]] at hdvd
    rcases hq.dvd_mul.mp hdvd with h | h
    · exact .inr ((Nat.prime_dvd_prime_iff_eq hq Nat.prime_three).mp h)
    · exact .inl ((Nat.prime_dvd_prime_iff_eq hq Nat.prime_two).mp (hq.dvd_of_dvd_pow h))
  rcases hcases with rfl | rfl
  · exact fun h => absurd ((hval _).mp h) (by decide +kernel)
  · exact fun h => absurd ((hval _).mp h) (by decide +kernel)⟩

instance : Fact cuspGroup.field.N.Prime := inferInstanceAs (Fact prime.Prime)

instance : Fact cuspGroup.order.N.Prime := inferInstanceAs (Fact prime.Prime)

lemma isCusp : IsCusp cuspGroup.curve where
  a₁ := rfl
  a₂ := rfl
  a₃ := rfl
  a₄ := Modulus.decode_zero
  a₆ := Modulus.decode_zero

lemma represents_point (t : ℕ) : cuspGroup.Represents (point t) (isCusp.pointOf t) := by
  have hlt : ∀ x < prime, modulus.toMont x < prime := fun x hx =>
    Modulus.toMont_lt (Modulus.lt_R hx)
  have hZ : (point t).Z < cuspGroup.field.N := hlt _ (Nat.mod_lt _ modulus.N_pos)
  have hone : cuspGroup.field.decode (modulus.toMont 1) = 1 :=
    Modulus.decode_toMont (M := modulus) 1 |>.trans Nat.cast_one
  have hdec : cuspGroup.field.decode (point t).Z = t :=
    Modulus.decode_toMont (M := modulus) (t % prime) |>.trans (ZMod.natCast_mod t prime)
  refine ⟨hlt 1 (by norm_num [prime]), hlt 1 (by norm_num [prime]), hZ, ?_⟩
  by_cases ht : (t : ZMod cuspGroup.field.N) = 0
  · rw [ht, isCusp.pointOf_zero]
    exact (Modulus.decode_eq_zero hZ).mp (hdec.trans ht)
  · rw [isCusp.pointOf_of_ne ht]
    refine ⟨fun h => ht ?_, ?_, ?_⟩
    · rw [← hdec, h, Modulus.decode_zero]
    all_goals
      rw [hdec, ← mul_pow, inv_mul_cancel₀ ht, one_pow]
      exact hone

lemma cast_parameter (p : EcJacobian) : (parameter p : ZMod cuspGroup.field.N) =
    cuspGroup.field.decode p.X * cuspGroup.field.decode p.Z * (cuspGroup.field.decode p.Y)⁻¹ := by
  have hinv : cuspGroup.field.decode (cuspGroup.field.pow p.Y (cuspGroup.field.N - 2)) =
      (cuspGroup.field.decode p.Y)⁻¹ :=
    Modulus.decode_pow_sub_two (by norm_num [cuspGroup, modulus, prime]) _
  rw [← hinv, ← Modulus.decode_mul, ← Modulus.decode_mul, ← Modulus.decode_redc]
  rfl

lemma eq_pointOf_parameter {p : EcJacobian} {P : cuspGroup.curve.Point}
    (h : cuspGroup.Represents p P) : P = isCusp.pointOf (parameter p : ZMod cuspGroup.field.N) := by
  obtain ⟨-, -, hZ, hP⟩ := h
  rw [cast_parameter]
  cases P with
  | zero =>
    have hz : p.Z = 0 := hP
    rw [hz, Modulus.decode_zero, mul_zero, zero_mul, isCusp.pointOf_zero]
    rfl
  | some x y hns =>
    obtain ⟨hz, hx, hy⟩ := hP
    have hz' : cuspGroup.field.decode p.Z ≠ 0 := fun h => hz ((Modulus.decode_eq_zero hZ).mp h)
    rw [isCusp.eq_pointOf hns, hx, hy]
    field_simp

lemma exactMul : ExactMul cuspGroup (isCusp.pointOf 1) where
  base k _ := by
    rw [isCusp.nsmul_pointOf, mul_one]
    exact represents_point k
  pub k _ l _ p P hP := by
    refine ⟨_, rfl, ?_⟩
    rw [eq_pointOf_parameter hP, isCusp.nsmul_pointOf, isCusp.nsmul_pointOf, ← isCusp.pointOf_add,
      mul_one]
    simpa using represents_point (k + l * parameter p)

lemma addOrderOf_pointOf_one : addOrderOf (isCusp.pointOf 1) = cuspGroup.order.N := by
  refine addOrderOf_eq_prime ?_ (isCusp.pointOf_ne_zero one_ne_zero)
  rw [isCusp.nsmul_pointOf, mul_one]
  exact (congrArg isCusp.pointOf (CharP.cast_eq_zero (ZMod prime) prime)).trans isCusp.pointOf_zero

def key : EcKey := ⟨some cuspGroup, some (point 3)⟩

def signature : Bytes :=
  72 :: replicate 22 0 ++ 1 :: 12 :: replicate 22 0 ++ [1]

lemma represents_key : cuspGroup.Represents (point 3) (3 • isCusp.pointOf 1) := by
  rw [isCusp.nsmul_pointOf, mul_one]
  exact represents_point 3

theorem ecdsa_verify_sign_cusp :
    ecdsaSignImpl cuspGroup 48 3 2 [1] = .ok (some signature)
      ∧ ecdsaVerifyFixed [1] signature key = .ok ()
      ∧ ∃ equal, cuspGroup.ecCmpXCoordinate (point 3) 1 = .ok equal
        ∧ (equal = true ↔ HasX (3 • isCusp.pointOf 1) 1) := by
  have hsign : ecdsaSignImpl cuspGroup 48 3 2 [1] = .ok (some signature) := by decide +kernel
  obtain ⟨-, hverify, hcmp⟩ := ecdsa_verify_sign exactMul addOrderOf_pointOf_one
    (show key.group = some cuspGroup from rfl) rfl represents_key (by decide +kernel) [1]
  exact ⟨hsign, hverify 2 (by decide +kernel) 48 signature hsign,
    hcmp _ _ represents_key 1 (by decide +kernel)⟩

end Cusp

end BoringSSL.Ecdsa
