import BoringSSL.Ec
import BoringSSL.Proofs.Bn
import Mathlib.AlgebraicGeometry.EllipticCurve.Affine.Point

/-!
# The x-coordinate of a point, as a scalar

`Represents` says which point of the curve Jacobian coordinates in Montgomery form stand for.  The
x-coordinate that `ecGetXCoordinateAsScalar` returns is the affine one reduced modulo the order, and
the comparison without an inversion says the same about it (`ecCmpXCoordinate_iff`).
-/

namespace BoringSSL

open ByteLib Montgomery

namespace Ec

open Bn

namespace EcGroup

variable (group : EcGroup) {a b : ℕ}

instance : NeZero group.field.N := ⟨group.field.N_pos.ne'⟩

/-- The curve of the group. -/
def curve : WeierstrassCurve.Affine (ZMod group.field.N) :=
  ⟨0, 0, 0, group.field.decode group.a, group.field.decode group.b⟩

/-- The point of the curve that Jacobian coordinates in Montgomery form stand for. -/
def Represents (p : EcJacobian) (pt : group.curve.Point) : Prop :=
  p.X < group.field.N ∧ p.Y < group.field.N ∧ p.Z < group.field.N ∧
    match pt with
    | .zero => p.Z = 0
    | .some x y _ => p.Z ≠ 0 ∧ group.field.decode p.X = x * group.field.decode p.Z ^ 2
      ∧ group.field.decode p.Y = y * group.field.decode p.Z ^ 3

/-- The affine x-coordinate of a finite point, reduced modulo the order of the group. -/
def xCoordinate : group.curve.Point → Option ℕ
  | .zero => none
  | .some x _ _ => some (x.val % group.order.N)

variable {group}

lemma order_lt : group.order.N < 2 ^ (64 * group.order.width) := by
  rw [pow_mul]
  exact group.order.N_lt

lemma field_lt_words : group.field.N < 2 ^ (64 * group.field.width) := by
  rw [pow_mul]
  exact group.field.N_lt

section

variable (ha : a < group.field.N)

include ha

lemma ecFelemAdd_spec (hb : b < group.field.N) :
    ∃ c < group.field.N, group.ecFelemAdd a b = .ok c
      ∧ group.field.decode c = group.field.decode a + group.field.decode b := by
  refine ⟨_, Nat.mod_lt _ group.field.N_pos, bnModAddWords_eq field_lt_words ha hb, ?_⟩
  rw [Modulus.decode, ZMod.natCast_mod, Nat.cast_add, add_mul]
  rfl

lemma ecFelemSub_lt (hb : b < group.field.N) :
    group.ecFelemSub a b < group.field.N := bnModSubWords_lt field_lt_words ha hb

lemma decode_ecFelemSub (hb : b < group.field.N) :
    group.field.decode (group.ecFelemSub a b) =
      group.field.decode a - group.field.decode b := by
  rw [Modulus.decode, ecFelemSub, cast_bnModSubWords field_lt_words ha hb, sub_mul]
  rfl

lemma felemMul_lt (hb : b < group.field.N) :
    group.felemMul a b < group.field.N := Modulus.mul_lt (Modulus.lt_R ha) hb

end

lemma decode_felemMul (a b : ℕ) : group.field.decode (group.felemMul a b) =
    group.field.decode a * group.field.decode b := Modulus.decode_mul a b

lemma addAZ4_spec {rh z4 : ℕ} (hrh : rh < group.field.N) (hz : z4 < group.field.N) :
    ∃ c < group.field.N, group.addAZ4 rh z4 = .ok c ∧ group.field.decode c =
      group.field.decode rh + group.field.decode group.a * group.field.decode z4 := by
  rw [addAZ4]
  by_cases h3 : group.aIsMinus3 = true
  · obtain ⟨t, ht, htwo, hdtwo⟩ := ecFelemAdd_spec hz hz
    obtain ⟨u, hu, hthree, hdthree⟩ := ecFelemAdd_spec ht hz
    refine ⟨group.ecFelemSub rh u, ecFelemSub_lt hrh hu, ?_, ?_⟩
    · rw [if_pos h3, htwo, ok_bind, hthree, ok_bind]
      rfl
    · rw [decode_ecFelemSub hrh hu, hdthree, hdtwo, group.minus3 h3]
      ring
  · obtain ⟨c, hc, hadd, hdec⟩ := ecFelemAdd_spec hrh (felemMul_lt hz group.a_lt)
    refine ⟨c, hc, by rw [if_neg h3, hadd], ?_⟩
    rw [hdec, decode_felemMul, mul_comm (group.field.decode z4)]

lemma simpleIsOnCurve_of_represents {p : EcJacobian} {pt : group.curve.Point}
    (hrep : group.Represents p pt) : group.simpleIsOnCurve p = .ok true := by
  obtain ⟨hX, hY, hZ, hpt⟩ := hrep
  have hsq : ∀ {a}, a < group.field.N → group.felemSqr a < group.field.N :=
    fun ha => felemMul_lt ha ha
  have hdsq : ∀ a, group.field.decode (group.felemSqr a) = group.field.decode a ^ 2 := fun a => by
    rw [felemSqr, Modulus.decode_mul, pow_two]
  have hz2 := hsq hZ
  have hz4 := hsq hz2
  obtain ⟨c, hc, hslope, hdc⟩ := addAZ4_spec (hsq hX) hz4
  obtain ⟨rh, hrh, hadd, hdrh⟩ := ecFelemAdd_spec (felemMul_lt hc hX)
    (felemMul_lt group.b_lt (felemMul_lt hz4 hz2))
  have hrun : group.simpleIsOnCurve p =
      .ok (!(p.Z != 0 && group.ecFelemSub (group.felemSqr p.Y) rh != 0)) := by
    rw [simpleIsOnCurve]
    simp only [hslope, ok_bind, hadd, pure_eq_ok]
  rw [hrun]
  cases pt with
  | zero =>
    have hz : p.Z = 0 := hpt
    simp [hz]
  | some x y h =>
    obtain ⟨-, hx, hy⟩ := hpt
    -- the equation of the curve, times `Z⁶`
    have heq := (group.curve.equation_iff x y).mp h.1
    simp only [curve, zero_mul, add_zero] at heq
    have hzero : group.ecFelemSub (group.felemSqr p.Y) rh = 0 := by
      apply (Modulus.decode_eq_zero (ecFelemSub_lt (hsq hY) hrh)).mp
      rw [decode_ecFelemSub (hsq hY) hrh, hdrh, decode_felemMul, decode_felemMul, decode_felemMul,
        hdc, hdsq, hdsq, hdsq, hdsq, hx, hy]
      linear_combination group.field.decode p.Z ^ 6 * heq
    simp [hzero]

section Prime

variable [hp : Fact group.field.N.Prime] {p : EcJacobian} {x y : ZMod group.field.N}
  {pt : group.curve.Point} {r : ℕ} {h : group.curve.Nonsingular x y}

lemma felemInv0_decode (a : ℕ) :
    group.field.decode (group.felemInv0 a) = (group.field.decode a)⁻¹ :=
  Modulus.decode_pow_sub_two (by have := group.field_gt; omega) a

lemma decode_felemSqrN : ∀ (n a : ℕ),
    group.field.decode (group.felemSqrN n a) = group.field.decode a ^ 2 ^ n
  | 0, a => by simp [felemSqrN]
  | n + 1, a => by
    rw [felemSqrN, decode_felemSqrN n, felemSqr, Modulus.decode_mul]
    ring

lemma decode_p256InvSquare (h : group.field.N = p256) (a : ℕ) :
    group.field.decode (group.p256InvSquare a) = (group.field.decode a ^ 2)⁻¹ := by
  have hpow : group.field.decode (group.p256InvSquare a) = group.field.decode a ^ (p256 - 3) := by
    simp only [p256InvSquare, decode_felemSqrN, felemMul, felemSqr, Modulus.decode_mul]
    simp only [← pow_mul, ← pow_succ, ← pow_add, ← pow_two]
    congr 1
  rw [hpow]
  by_cases hz : group.field.decode a = 0
  · rw [hz, zero_pow (by norm_num [p256]), zero_pow (by norm_num), inv_zero]
  · apply eq_inv_of_mul_eq_one_left
    rw [← pow_add, show p256 - 3 + 2 = p256 - 1 by norm_num [p256], ← h,
      ZMod.pow_card_sub_one_eq_one hz]

lemma pointGetAffineX_eq (hrep : group.Represents p (.some x y h)) :
    ∃ xm < group.field.N, group.pointGetAffineX p = .ok xm ∧ group.field.decode xm = x := by
  obtain ⟨hX, -, hZ, hne, hx, -⟩ := hrep
  have hz : group.field.decode p.Z ≠ 0 := fun h => hne ((Modulus.decode_eq_zero hZ).mp h)
  have hinf : simpleIsAtInfinity p = false := by simpa [simpleIsAtInfinity] using hne
  have hinv : ∀ c, group.field.decode c = (group.field.decode p.Z ^ 2)⁻¹ → c < group.field.N →
      group.felemMul p.X c < group.field.N
        ∧ group.field.decode (group.felemMul p.X c) = x := by
    intro c hc hlt
    refine ⟨Modulus.mul_lt (Modulus.lt_R hX) hlt, ?_⟩
    rw [felemMul, Modulus.decode_mul, hx, hc, mul_assoc,
      mul_inv_cancel₀ (pow_ne_zero 2 hz), mul_one]
  have hsqrN : ∀ n a, a < group.field.N → group.felemSqrN n a < group.field.N := by
    intro n
    induction n with
    | zero => exact fun a ha => ha
    | succ n ih => exact fun a ha => ih _ (Modulus.mul_lt (Modulus.lt_R ha) ha)
  have hmul : ∀ a b, a < group.field.N → b < group.field.N →
      group.felemMul a b < group.field.N := fun a b ha hb => Modulus.mul_lt (Modulus.lt_R ha) hb
  rw [pointGetAffineX, hinf]
  cases hm : group.meth with
  | mont =>
    obtain ⟨hlt, hval⟩ := hinv (group.felemSqr (group.felemInv0 p.Z))
      (by rw [felemSqr, Modulus.decode_mul, felemInv0_decode, ← mul_inv, pow_two])
      (hmul _ _ (Modulus.pow_lt hZ _) (Modulus.pow_lt hZ _))
    exact ⟨_, hlt, rfl, hval⟩
  | nistp256 =>
    obtain ⟨hlt, hval⟩ := hinv (group.p256InvSquare p.Z)
      (decode_p256InvSquare (group.nistp256 hm).1 p.Z) (by
        repeat' first | exact hZ | apply hsqrN | apply hmul)
    exact ⟨_, hlt, rfl, hval⟩

lemma ecGetXCoordinateAsScalar_some (hrep : group.Represents p (.some x y h)) :
    group.ecGetXCoordinateAsScalar p = .ok (x.val % group.order.N) := by
  obtain ⟨xm, hlt, hget, hval⟩ := pointGetAffineX_eq hrep
  have hx : group.felemFromMontgomery xm = x.val := by
    apply Modulus.eq_of_cast_eq (Modulus.fromMont_lt (Modulus.lt_R hlt)) x.val_lt
    rw [Modulus.decode_redc, hval, ZMod.natCast_val, ZMod.cast_id]
  have hfit : x.val < 256 ^ bnNumBytes group.field.N := x.val_lt.trans (lt_bnNumBytes _)
  have hbytes : group.ecGetXCoordinateAsBytes p
      = .ok (beBytes (bnNumBytes group.field.N) x.val) := by
    rw [ecGetXCoordinateAsBytes, hget, ok_bind, felemToBytes, hx, bnWordsToBigEndian_eq hfit]
  have hwords : bnNumBytes group.field.N ≤ (group.order.width + 1) * 8 := by
    apply bnNumBytes_le
    have h1 := group.field_lt
    have h2 : group.order.N < 2 ^ (64 * group.order.width) := order_lt
    calc group.field.N < 2 * group.order.N := h1
      _ ≤ 2 * 2 ^ (64 * group.order.width) := by omega
      _ ≤ 2 ^ (64 * (group.order.width + 1)) := by
        grind
  rw [ecGetXCoordinateAsScalar, hbytes, ok_bind, bnBigEndianToWords_eq (by simpa using hwords),
    ok_bind, beNat_beBytes, Nat.mod_eq_of_lt hfit]
  exact bnReduceOnce_eq order_lt (x.val_lt.trans group.field_lt)

lemma ecGetXCoordinateAsScalar_iff (hrep : group.Represents p pt) :
    group.ecGetXCoordinateAsScalar p = .ok r ↔ group.xCoordinate pt = some r := by
  cases pt with
  | zero =>
    have hz : p.Z = 0 := hrep.2.2.2
    have hinf : group.ecGetXCoordinateAsScalar p = put .ecPointAtInfinity := by
      simp only [ecGetXCoordinateAsScalar, ecGetXCoordinateAsBytes, pointGetAffineX,
        simpleIsAtInfinity, hz, beq_self_eq_true, if_true]
      rfl
    rw [hinf]
    exact ⟨nofun, nofun⟩
  | some x y h =>
    rw [ecGetXCoordinateAsScalar_some hrep, xCoordinate, Except.ok.injEq, Option.some.injEq]

lemma simpleCmpXCoordinate_iff (hrep : group.Represents p pt) :
    group.simpleCmpXCoordinate p r = .ok (decide (group.xCoordinate pt = some r)) := by
  cases pt with
  | zero =>
    have hz : p.Z = 0 := hrep.2.2.2
    simp [simpleCmpXCoordinate, simpleIsAtInfinity, hz, xCoordinate]
  | some x y h =>
    have hne : p.Z ≠ 0 := hrep.2.2.2.1
    simp only [simpleCmpXCoordinate, simpleIsAtInfinity, beq_eq_false_iff_ne.mpr hne,
      ecGetXCoordinateAsScalar_some hrep, xCoordinate, ecScalarEqualVartime]
    simp [beq_eq_decide]

/-- `r` is `x`, and so are `r` and the order where that is below the prime: `X` is `r * Z²`. -/
lemma felemMul_eq_iff (hrep : group.Represents p (.some x y h)) (hr : r < group.field.N) :
    group.felemMul r (group.felemMul p.Z p.Z) = group.felemFromMontgomery p.X ↔ x.val = r := by
  obtain ⟨hX, -, hZ, hne, hx, -⟩ := hrep
  have hz : group.field.decode p.Z ^ 2 ≠ 0 :=
    pow_ne_zero 2 fun h => hne ((Modulus.decode_eq_zero hZ).mp h)
  have hzz : group.felemMul p.Z p.Z < group.field.N := Modulus.mul_lt (Modulus.lt_R hZ) hZ
  have hleft : (group.felemMul r (group.felemMul p.Z p.Z) : ZMod group.field.N)
      = r * group.field.decode p.Z ^ 2 := by
    rw [felemMul, Modulus.cast_mul_decode, felemMul, Modulus.decode_mul, pow_two]
  have hright : (group.felemFromMontgomery p.X : ZMod group.field.N)
      = x * group.field.decode p.Z ^ 2 := by
    rw [felemFromMontgomery, Modulus.decode_redc, hx]
  constructor
  · intro heq
    rw [heq, hright] at hleft
    apply Modulus.eq_of_cast_eq x.val_lt hr
    rw [ZMod.natCast_val, ZMod.cast_id]
    exact mul_right_cancel₀ hz hleft
  · intro heq
    have hcast : (group.felemMul r (group.felemMul p.Z p.Z) : ZMod group.field.N)
        = group.felemFromMontgomery p.X := by
      rw [hleft, hright, ← heq, ZMod.natCast_val, ZMod.cast_id]
    exact Modulus.eq_of_cast_eq (Modulus.mul_lt (Modulus.lt_R hr) hzz)
      (Modulus.fromMont_lt (Modulus.lt_R hX)) hcast

lemma cmpXByProduct_iff (hrep : group.Represents p (.some x y h)) (hr : r < group.order.N)
    (hgt : group.order.N < group.field.N) :
    group.cmpXByProduct p r = true ↔ x.val % group.order.N = r := by
  have hlt := x.val_lt
  have h2 := group.field_lt
  have hmod : x.val % group.order.N = r ↔ x.val = r ∨ x.val = r + group.order.N := by
    by_cases hxn : x.val < group.order.N
    · rw [Nat.mod_eq_of_lt hxn]
      omega
    · rw [Nat.mod_eq_sub_mod (by omega), Nat.mod_eq_of_lt (by omega)]
      omega
  have hwords : group.field.N < 2 ^ (64 * group.field.width) := field_lt_words
  rw [hmod, cmpXByProduct]
  simp only [ecFelemEqual, beq_iff_eq, felemMul_eq_iff hrep (hr.trans hgt)]
  by_cases hfirst : x.val = r
  · simp [hfirst]
  · rw [if_neg hfirst]
    by_cases hsum : r + group.order.N < group.field.N
    · have hadd : bnAddWords group.field.width r group.order.N = (r + group.order.N, 0) := by
        rw [bnAddWords, Nat.div_eq_of_lt (by omega), Nat.mod_eq_of_lt (by omega)]
      simp only [hadd]
      rw [if_pos ⟨trivial, hsum⟩, beq_iff_eq, felemMul_eq_iff hrep hsum]
      simp [hfirst]
    · rw [if_neg]
      · simp only [Bool.false_eq_true, false_iff, not_or]
        omega
      · rintro ⟨hcarry, hless⟩
        rcases Nat.div_eq_zero_iff.mp hcarry with h0 | hfit
        · simp at h0
        · simp only [bnAddWords, Nat.mod_eq_of_lt hfit] at hless
          exact hsum hless

lemma ecCmpXCoordinate_iff (hrep : group.Represents p pt) (hr : r < group.order.N) :
    group.ecCmpXCoordinate p r = .ok (decide (group.xCoordinate pt = some r)) := by
  have hproduct : group.order.N < group.field.N →
      (if simpleIsAtInfinity p then pure false else pure (group.cmpXByProduct p r) : Ret Bool)
        = .ok (decide (group.xCoordinate pt = some r)) := by
    intro hgt
    cases pt with
    | zero =>
      have hz : p.Z = 0 := hrep.2.2.2
      simp [simpleIsAtInfinity, hz, xCoordinate]
    | some x y h =>
      have hne : p.Z ≠ 0 := hrep.2.2.2.1
      rw [simpleIsAtInfinity, beq_eq_false_iff_ne.mpr hne]
      simp only [Bool.false_eq_true, if_false, pure_eq_ok, xCoordinate, Option.some.injEq,
        Except.ok.injEq]
      exact (Bool.decide_eq_true.symm).trans
        (Bool.decide_congr (cmpXByProduct_iff hrep hr hgt))
  rw [ecCmpXCoordinate]
  cases hm : group.meth with
  | nistp256 => exact hproduct (group.nistp256 hm).2.1
  | mont =>
    simp only [montCmpXCoordinate]
    split
    · exact simpleCmpXCoordinate_iff hrep
    · rename_i hopt
      simp only [fieldGreaterThanOrder, Bool.or_eq_true, Bool.not_eq_true', decide_eq_false_iff_not,
        not_or, Decidable.not_not] at hopt
      exact hproduct hopt.1

end Prime

end EcGroup

end Ec

end BoringSSL
