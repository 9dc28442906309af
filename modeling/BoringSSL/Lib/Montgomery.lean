import Mathlib.FieldTheory.Finite.Basic

/-!
# Montgomery multiplication

Reduction clears the digits of a number from the lowest up by adding multiples of the modulus, drops
them, and subtracts the modulus at most once (`redc_lt`, `cast_redc`).  Numbers stand for residues
times `R = B ^ width`: `decode` takes that factor out (`decode_mul`).
-/

namespace Montgomery

/-- Each step adds the multiple of `N` that clears the lowest digit, and drops that digit. -/
def reduceLoop (B N n0 : ℕ) : ℕ → ℕ → ℕ
  | 0, t => t
  | k + 1, t => reduceLoop B N n0 k ((t + t % B * n0 % B * N) / B)

/-- An odd modulus and its constants. -/
structure Modulus (B : ℕ) where
  N : ℕ
  width : ℕ
  /-- The inverse of `-N` modulo the base. -/
  n0 : ℕ
  one_lt_B : 1 < B
  N_pos : 0 < N
  N_lt : N < B ^ width
  neg_inv : B ∣ N * n0 + 1

namespace Modulus

variable {B : ℕ} (M : Modulus B)

/-- The power of the base above the modulus. -/
def R : ℕ := B ^ M.width

/-- The factor that takes a residue into Montgomery form. -/
def RR : ℕ := M.R * M.R % M.N

/-- Montgomery reduction. -/
def redc (t : ℕ) : ℕ :=
  let u := reduceLoop B M.N M.n0 M.width t
  if u < M.N then u else u - M.N

/-- Montgomery multiplication. -/
def mul (a b : ℕ) : ℕ := M.redc (a * b)

/-- A number times `R`. -/
def toMont (a : ℕ) : ℕ := M.mul a M.RR

/-- Left to right over the lowest `k` bits of the exponent. -/
def powLoop (a e : ℕ) : ℕ → ℕ → ℕ
  | 0, acc => acc
  | k + 1, acc => powLoop a e k (if e.testBit k then M.mul (M.mul acc acc) a else M.mul acc acc)

/-- Powers by squaring. -/
def pow (a e : ℕ) : ℕ := M.powLoop a e (if e = 0 then 0 else e.log2 + 1) (M.redc M.RR)

/-- The residue a number in Montgomery form stands for. -/
def decode (x : ℕ) : ZMod M.N := x * (M.R : ZMod M.N)⁻¹

lemma reduceStep_mul (t : ℕ) :
    (t + t % B * M.n0 % B * M.N) / B * B = t + t % B * M.n0 % B * M.N := by
  apply Nat.div_mul_cancel
  have hmod : t + t % B * M.n0 % B * M.N ≡ t * (M.N * M.n0 + 1) [MOD B] := by
    have h1 : t % B * M.n0 % B ≡ t * M.n0 [MOD B] :=
      (Nat.mod_modEq _ _).trans ((Nat.mod_modEq t B).mul_right _)
    calc t + t % B * M.n0 % B * M.N
        ≡ t + t * M.n0 * M.N [MOD B] := (h1.mul_right _).add_left _
      _ = t * (M.N * M.n0 + 1) := by ring
  exact (Nat.modEq_zero_iff_dvd.mp
    (hmod.trans (Nat.modEq_zero_iff_dvd.mpr (M.neg_inv.mul_left t))))

/-- What the loop drops is a multiple of the modulus below `B ^ k`. -/
lemma reduceLoop_spec : ∀ (k t : ℕ), ∃ q < B ^ k, reduceLoop B M.N M.n0 k t * B ^ k = t + q * M.N
  | 0, t => ⟨0, by simp, by simp [reduceLoop]⟩
  | k + 1, t => by
    obtain ⟨q, hq, hval⟩ := reduceLoop_spec k ((t + t % B * M.n0 % B * M.N) / B)
    have hdigit : t % B * M.n0 % B < B := Nat.mod_lt _ (Nat.zero_lt_of_lt M.one_lt_B)
    refine ⟨t % B * M.n0 % B + q * B, ?_, ?_⟩
    · calc t % B * M.n0 % B + q * B < (q + 1) * B := by rw [Nat.succ_mul]; omega
        _ ≤ B ^ k * B := Nat.mul_le_mul_right B hq
        _ = B ^ (k + 1) := (pow_succ B k).symm
    · calc reduceLoop B M.N M.n0 (k + 1) t * B ^ (k + 1)
          = reduceLoop B M.N M.n0 k ((t + t % B * M.n0 % B * M.N) / B) * B ^ k * B := by
            rw [reduceLoop, pow_succ, mul_assoc]
        _ = (t + t % B * M.n0 % B * M.N) / B * B + q * M.N * B := by rw [hval, add_mul]
        _ = t + (t % B * M.n0 % B + q * B) * M.N := by rw [M.reduceStep_mul]; ring

lemma coprime_R : Nat.Coprime M.R M.N := by
  apply Nat.Coprime.pow_left
  refine Nat.Coprime.symm (Nat.coprime_of_dvd' fun k _ hkN hkB => ?_)
  exact (Nat.dvd_add_right (hkN.mul_right M.n0)).mp (hkB.trans M.neg_inv)

lemma R_mul_inv : (M.R : ZMod M.N) * (M.R : ZMod M.N)⁻¹ = 1 :=
  ZMod.coe_mul_inv_eq_one M.R M.coprime_R

lemma R_inv_mul : (M.R : ZMod M.N)⁻¹ * (M.R : ZMod M.N) = 1 := by
  rw [mul_comm, M.R_mul_inv]

lemma redc_lt {t : ℕ} (h : t < M.N * M.R) : M.redc t < M.N := by
  obtain ⟨q, hq, hval⟩ := M.reduceLoop_spec M.width t
  have hlt : reduceLoop B M.N M.n0 M.width t < 2 * M.N := by
    refine Nat.lt_of_mul_lt_mul_right (a := M.R) ?_
    have hq' : q * M.N ≤ M.R * M.N := Nat.mul_le_mul_right _ hq.le
    calc reduceLoop B M.N M.n0 M.width t * M.R = t + q * M.N := hval
      _ < M.N * M.R + M.R * M.N := by omega
      _ = 2 * M.N * M.R := by ring
  rw [redc]
  split <;> omega

lemma cast_redc (t : ℕ) : (M.redc t : ZMod M.N) = t * (M.R : ZMod M.N)⁻¹ := by
  obtain ⟨q, -, hval⟩ := M.reduceLoop_spec M.width t
  have hloop : (reduceLoop B M.N M.n0 M.width t : ZMod M.N) = t * (M.R : ZMod M.N)⁻¹ := by
    calc (reduceLoop B M.N M.n0 M.width t : ZMod M.N)
        = reduceLoop B M.N M.n0 M.width t * (M.R * (M.R : ZMod M.N)⁻¹) := by
          rw [M.R_mul_inv, mul_one]
      _ = ((reduceLoop B M.N M.n0 M.width t * B ^ M.width : ℕ) : ZMod M.N)
          * (M.R : ZMod M.N)⁻¹ := by rw [R]; push_cast; ring
      _ = t * (M.R : ZMod M.N)⁻¹ := by rw [hval]; simp
  rw [redc]
  split
  · exact hloop
  · rw [Nat.cast_sub (by omega), hloop]
    simp

variable {M} {a b : ℕ}

lemma mul_lt (ha : a < M.R) (hb : b < M.N) : M.mul a b < M.N := by
  apply M.redc_lt
  rw [mul_comm M.N]
  exact Nat.mul_lt_mul'' ha hb

lemma lt_R (ha : a < M.N) : a < M.R := ha.trans M.N_lt

lemma RR_lt : M.RR < M.N := Nat.mod_lt _ M.N_pos

lemma cast_RR : (M.RR : ZMod M.N) = M.R * M.R := by
  rw [RR, ZMod.natCast_mod, Nat.cast_mul]

lemma cast_mul (a b : ℕ) : (M.mul a b : ZMod M.N) = a * b * (M.R : ZMod M.N)⁻¹ := by
  rw [mul, cast_redc, Nat.cast_mul]

lemma cast_eq_decode (x : ℕ) : (x : ZMod M.N) = M.decode x * M.R := by
  rw [decode, mul_assoc, R_inv_mul, mul_one]

lemma decode_mul (a b : ℕ) : M.decode (M.mul a b) = M.decode a * M.decode b := by
  rw [decode, cast_mul, decode, decode]
  ring

lemma cast_mul_decode (a b : ℕ) : (M.mul a b : ZMod M.N) = a * M.decode b := by
  rw [cast_mul, decode, mul_assoc]

lemma cast_toMont (a : ℕ) : (M.toMont a : ZMod M.N) = a * M.R := by
  rw [toMont, cast_mul, cast_RR, mul_assoc, mul_assoc, M.R_mul_inv, mul_one]

@[simp] lemma decode_toMont (a : ℕ) : M.decode (M.toMont a) = a := by
  rw [decode, cast_toMont, mul_assoc, M.R_mul_inv, mul_one]

lemma decode_redc (a : ℕ) : (M.redc a : ZMod M.N) = M.decode a := M.cast_redc a

lemma toMont_lt (ha : a < M.R) : M.toMont a < M.N := mul_lt ha RR_lt

lemma fromMont_lt (ha : a < M.R) : M.redc a < M.N := by
  apply M.redc_lt
  calc a < M.R := ha
    _ ≤ M.N * M.R := Nat.le_mul_of_pos_left _ M.N_pos

lemma eq_of_cast_eq {N : ℕ} (ha : a < N) (hb : b < N) (h : (a : ZMod N) = b) : a = b := by
  have := (ZMod.natCast_eq_natCast_iff' a b N).mp h
  rwa [Nat.mod_eq_of_lt ha, Nat.mod_eq_of_lt hb] at this

lemma decode_inj (ha : a < M.N) (hb : b < M.N) : M.decode a = M.decode b ↔ a = b := by
  refine ⟨fun h => eq_of_cast_eq ha hb ?_, fun h => h ▸ rfl⟩
  rw [cast_eq_decode, cast_eq_decode b, h]

@[simp] lemma decode_zero : M.decode 0 = 0 := by simp [decode]

lemma decode_eq_zero (ha : a < M.N) : M.decode a = 0 ↔ a = 0 := by
  rw [← decode_zero, decode_inj ha M.N_pos]

lemma powLoop_decode (a e : ℕ) : ∀ (k acc : ℕ),
    M.decode (M.powLoop a e k acc) = M.decode acc ^ 2 ^ k * M.decode a ^ (e % 2 ^ k)
  | 0, acc => by simp [powLoop, Nat.mod_one]
  | k + 1, acc => by
    rw [powLoop, powLoop_decode a e k, Nat.mod_pow_succ, Nat.testBit_eq_decide_div_mod_eq]
    have hbit := Nat.mod_two_eq_zero_or_one (e / 2 ^ k)
    rcases hbit with h0 | h1
    · rw [h0]
      simp only [Nat.zero_ne_one, decide_false, Bool.false_eq_true, if_false, decode_mul]
      ring
    · rw [h1]
      simp only [decide_true, if_true, decode_mul]
      ring

lemma powLoop_lt (ha : a < M.N) (e : ℕ) : ∀ {k acc : ℕ}, acc < M.N → M.powLoop a e k acc < M.N
  | 0, _, hacc => hacc
  | k + 1, acc, hacc => by
    have hsq : M.mul acc acc < M.N := mul_lt (lt_R hacc) hacc
    rw [powLoop]
    refine powLoop_lt ha e ?_
    split
    · exact mul_lt (lt_R hsq) ha
    · exact hsq

lemma pow_lt (ha : a < M.N) (e : ℕ) : M.pow a e < M.N :=
  powLoop_lt ha e (fromMont_lt (lt_R RR_lt))

lemma decode_pow (a e : ℕ) : M.decode (M.pow a e) = M.decode a ^ e := by
  have hone : M.decode (M.redc M.RR) = 1 := by
    rw [decode, cast_redc, cast_RR]
    calc (M.R : ZMod M.N) * M.R * (M.R : ZMod M.N)⁻¹ * (M.R : ZMod M.N)⁻¹
        = (M.R * (M.R : ZMod M.N)⁻¹) * (M.R * (M.R : ZMod M.N)⁻¹) := by ring
      _ = 1 := by rw [M.R_mul_inv, one_mul]
  rw [pow, powLoop_decode, hone, one_pow, one_mul]
  by_cases he : e = 0
  · simp [he]
  · rw [if_neg he, Nat.mod_eq_of_lt Nat.lt_log2_self]

lemma decode_pow_sub_two [Fact M.N.Prime] (hodd : 2 < M.N) (a : ℕ) :
    M.decode (M.pow a (M.N - 2)) = (M.decode a)⁻¹ := by
  rw [decode_pow]
  by_cases h : M.decode a = 0
  · rw [h, inv_zero, zero_pow (by omega)]
  · apply eq_inv_of_mul_eq_one_left
    rw [← pow_succ, show M.N - 2 + 1 = M.N - 1 by omega, ZMod.pow_card_sub_one_eq_one h]

end Modulus

end Montgomery
