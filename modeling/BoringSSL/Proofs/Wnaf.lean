import BoringSSL.Wnaf
import Mathlib.Algebra.BigOperators.Intervals
import Mathlib.Algebra.BigOperators.Ring.Finset
import Mathlib.Tactic.Linarith
import Mathlib.Tactic.LinearCombination
import Mathlib.Tactic.Positivity
import Mathlib.Tactic.Ring

/-!
# The digits of a modified non-adjacent form add up to the scalar

The window of round `j` stands for the bits from `j` on that have come in and for what the digits
below it have borrowed.  In the last rounds the digits are positive, so the window runs empty
(`wnafLoop_spec`); a digit elsewhere leaves the window divisible by `2 ^ (w + 1)`, which keeps the
next `w` digits zero (`wnafLoop_zeros`).
-/

namespace BoringSSL.Wnaf

open BigNum

variable {n : ℕ} {digit : ℤ} {scalar : BitVec n}

/-- What one round does to the window `W`. -/
structure Digit (bits w j : ℕ) (W digit : ℤ) : Prop where
  even : 2 ∣ W - digit
  nonneg : 0 ≤ W - digit
  le : W - digit ≤ 2 * 2 ^ w
  ok : digit = 0 ∨ digit % 2 = 1 ∧ |digit| < 2 ^ w
  zero : 2 ∣ W → digit = 0
  top : bits ≤ j + w + 1 → 0 ≤ digit
  gap : j + w + 1 < bits → digit ≠ 0 → (2 ^ (w + 1) : ℤ) ∣ W - digit

variable {bits w j : ℕ} {W : ℤ}

lemma wnafRound_spec (bits j : ℕ) (hw : 1 ≤ w) (h0 : 0 ≤ W) (hle : W ≤ 2 * 2 ^ w) :
    ∃ digit, wnafRound bits w j W = .ok (digit, W - digit) ∧ Digit bits w j W digit := by
  obtain ⟨v, rfl⟩ := Nat.exists_eq_add_of_le hw
  have hpow : (2 : ℤ) ^ (1 + v) = 2 * 2 ^ v := by ring
  have hpow' : (2 : ℤ) ^ (1 + v + 1) = 4 * 2 ^ v := by ring
  have hpos : (0 : ℤ) < 2 ^ v := by positivity
  simp only [wnafRound, hpow] at hle ⊢
  generalize (2 : ℤ) ^ v = B at hpow hpow' hpos hle
  rw [assert_bind ⟨h0, hle⟩]
  by_cases heven : W % 2 = 0
  · refine ⟨0, by rw [if_pos heven, sub_zero]; rfl, ?_⟩
    constructor <;> omega
  · rw [if_neg heven, assert_bind (by omega)]
    rcases lt_or_ge W (2 * B) with hlt | hge
    · rw [Int.ediv_eq_zero_of_lt h0 hlt, if_neg (by decide), assert_bind (by omega),
        assert_bind (by omega), assert_bind (by omega)]
      refine ⟨W, rfl, ?_⟩
      constructor <;> first | omega | skip
      · rw [hpow, abs_of_nonneg h0]
        omega
      · simp
    · have hdiv : W / (2 * B) = 1 :=
        Int.ediv_eq_iff_of_pos (by omega) |>.mpr (by omega)
      have hmod : W % (2 * B) = W - 2 * B := by rw [Int.emod_def, hdiv, mul_one]
      rw [hdiv, if_pos (by decide), hmod]
      split_ifs with htop
      · rw [assert_bind (by omega), assert_bind (by omega), assert_bind (by omega)]
        refine ⟨_, rfl, ?_⟩
        constructor <;> first | omega | skip
        rw [hpow, abs_of_nonneg (by omega)]
        omega
      · rw [assert_bind (by omega), assert_bind (by omega), assert_bind (by omega)]
        refine ⟨_, rfl, ?_⟩
        constructor <;> first | omega | skip
        · rw [hpow, abs_of_neg (by omega)]
          omega
        · rw [hpow']
          exact fun _ _ => ⟨1, by ring⟩

def nextWindow (scalar : BitVec n) (w j : ℕ) (W digit : ℤ) : ℤ :=
  (W - digit) / 2 + 2 ^ w * (scalar.getLsbD (j + w + 1)).toInt

lemma nextWindow_mem (scalar : BitVec n) (h : Digit bits w j W digit) :
    0 ≤ nextWindow scalar w j W digit ∧ nextWindow scalar w j W digit ≤ 2 * 2 ^ w := by
  have hnonneg := h.nonneg
  have hle := h.le
  rw [nextWindow]
  cases scalar.getLsbD (j + w + 1) <;> simp <;> omega

lemma wnafLoop_succ (scalar : BitVec n) (bits k j : ℕ) (hw : 1 ≤ w) (h0 : 0 ≤ W)
    (hle : W ≤ 2 * 2 ^ w) : ∃ digit, Digit bits w j W digit ∧
      wnafLoop scalar bits w (k + 1) j W =
        (wnafLoop scalar bits w k (j + 1) (nextWindow scalar w j W digit)).map (digit :: ·) := by
  obtain ⟨digit, hrun, hdigit⟩ := wnafRound_spec bits j hw h0 hle
  refine ⟨digit, hdigit, ?_⟩
  rw [wnafLoop, hrun]
  exact assert_bind (nextWindow_mem scalar hdigit).2 _

lemma wnafLoop_zeros (hw : 1 ≤ w) : ∀ {k j m : ℕ} {W : ℤ}
    {out : List ℤ}, 0 ≤ W → W ≤ 2 * 2 ^ w → m ≤ w → (2 ^ m : ℤ) ∣ W →
    wnafLoop scalar bits w k j W = .ok out → ∀ i < m, out.getD i 0 = 0
  | 0, j, m, W, out, _, _, _, _, hrun => by
    intro i _
    by_cases hW : W = 0
    · rw [wnafLoop, assert_bind hW] at hrun
      cases hrun
      rfl
    · rw [wnafLoop, assert, if_neg hW] at hrun
      cases hrun
  | k + 1, j, 0, W, out, _, _, _, _, _ => fun i hi => absurd hi (by omega)
  | k + 1, j, m + 1, W, out, h0, hle, hm, hdvd, hrun => by
    obtain ⟨digit, hdigit, heq⟩ := wnafLoop_succ scalar bits k j hw h0 hle
    obtain rfl : digit = 0 := hdigit.zero ((dvd_pow_self 2 (by omega)).trans hdvd)
    obtain ⟨out', hout, rfl⟩ : ∃ out', wnafLoop scalar bits w k (j + 1)
        (nextWindow scalar w j W 0) = .ok out' ∧ 0 :: out' = out := by
      cases h : wnafLoop scalar bits w k (j + 1) (nextWindow scalar w j W 0) with
      | error e =>
        rw [h, hrun] at heq
        cases heq
      | ok out' =>
        rw [h, hrun] at heq
        cases heq
        exact ⟨out', rfl, rfl⟩
    have hnext : (2 ^ m : ℤ) ∣ nextWindow scalar w j W 0 := by
      obtain ⟨c, rfl⟩ := hdvd
      refine dvd_add ⟨c, ?_⟩ ((pow_dvd_pow 2 (by omega)).mul_right _)
      rw [sub_zero, pow_succ, mul_right_comm, Int.mul_ediv_cancel _ (by decide)]
    obtain ⟨h0', hle'⟩ := nextWindow_mem scalar hdigit
    rintro (_ | i) hi
    · rfl
    · exact wnafLoop_zeros hw h0' hle' (by omega) hnext hout i (by omega)

/-- The window and the bits above it, before and after a round. -/
lemma window_value (scalar : BitVec n) (h : Digit bits w j W digit) :
    W + 2 ^ (w + 1) * (scalar.toNat >>> (j + w + 1) : ℕ) =
      digit + 2 * (nextWindow scalar w j W digit +
        2 ^ (w + 1) * (scalar.toNat >>> (j + 1 + w + 1) : ℕ)) := by
  have hbit : scalar.toNat >>> (j + w + 1) =
      (scalar.getLsbD (j + w + 1)).toNat + 2 * scalar.toNat >>> (j + 1 + w + 1) := by
    have hsucc := Nat.shiftRight_succ scalar.toNat (j + w + 1)
    rw [show j + 1 + w + 1 = j + w + 1 + 1 by omega, hsucc, BitVec.getLsbD, Nat.toNat_testBit,
      ← Nat.shiftRight_eq_div_pow]
    omega
  have htwo := Int.mul_ediv_cancel' h.even
  have htoInt : ((scalar.getLsbD (j + w + 1)).toNat : ℤ) = (scalar.getLsbD (j + w + 1)).toInt := by
    cases scalar.getLsbD (j + w + 1) <;> rfl
  rw [hbit, nextWindow]
  push_cast [htoInt]
  linear_combination -htwo

/-- The digits that the rest of the run writes. -/
structure Digits (bits w j : ℕ) (V : ℤ) (out : List ℤ) : Prop where
  sum : ∑ i ∈ Finset.range out.length, out.getD i 0 * 2 ^ i = V
  ok : ∀ d ∈ out, d = 0 ∨ d % 2 = 1 ∧ |d| < 2 ^ w
  sparse : ∀ i, j + i + w + 1 < bits → out.getD i 0 ≠ 0 →
    ∀ r, 1 ≤ r → r ≤ w → out.getD (i + r) 0 = 0

lemma wnafLoop_spec (hw : 1 ≤ w) (hs : scalar.toNat < 2 ^ bits) :
    ∀ {k j : ℕ} {W : ℤ}, j + k = bits + 1 → 0 ≤ W → W ≤ 2 * 2 ^ w →
    (bits ≤ j + w + 1 → 2 ^ j * W ≤ 2 ^ bits) →
    ∃ out, wnafLoop scalar bits w k j W = .ok out ∧ out.length = k ∧
      Digits bits w j (W + 2 ^ (w + 1) * (scalar.toNat >>> (j + w + 1) : ℕ)) out
  | 0, j, W, hj, h0, hle, htop => by
    obtain rfl : j = bits + 1 := hj
    -- the window has run empty
    have hW : W = 0 := by
      have := htop (by omega)
      rw [pow_succ] at this
      nlinarith
    have hhigh : scalar.toNat >>> (bits + 1 + w + 1) = 0 := by
      rw [Nat.shiftRight_eq_div_pow]
      exact Nat.div_eq_of_lt (hs.trans_le (Nat.pow_le_pow_right (by omega) (by omega)))
    refine ⟨[], by rw [wnafLoop, assert_bind hW]; rfl, rfl, ?_⟩
    rw [hW, hhigh]
    exact ⟨by simp, by simp, by simp⟩
  | k + 1, j, W, hj, h0, hle, htop => by
    obtain ⟨digit, hdigit, heq⟩ := wnafLoop_succ scalar bits k j hw h0 hle
    obtain ⟨h0', hle'⟩ := nextWindow_mem scalar hdigit
    have htwo := Int.mul_ediv_cancel' hdigit.even
    have htop' : bits ≤ j + 1 + w + 1 →
        (2 : ℤ) ^ (j + 1) * nextWindow scalar w j W digit ≤ 2 ^ bits := by
      intro hbits
      have hpos : (0 : ℤ) < 2 ^ j := by positivity
      by_cases hz : bits ≤ j + w + 1
      · have hbit : scalar.getLsbD (j + w + 1) = false :=
          Nat.testBit_lt_two_pow (hs.trans_le (Nat.pow_le_pow_right (by omega) hz))
        have := htop hz
        have := hdigit.top hz
        rw [nextWindow, hbit, Bool.toInt_false, mul_zero, add_zero, pow_succ, mul_assoc, htwo]
        nlinarith
      · obtain rfl : bits = j + 1 + (w + 1) := by omega
        rw [pow_add 2 (j + 1)]
        exact mul_le_mul_of_nonneg_left (by rw [pow_succ']; exact hle') (by positivity)
    obtain ⟨out, hrun, hlen, hout⟩ := wnafLoop_spec hw hs (show j + 1 + k = bits + 1 by omega)
      h0' hle' htop'
    refine ⟨digit :: out, by rw [heq, hrun]; rfl, by rw [List.length_cons, hlen], ?_, ?_, ?_⟩
    · rw [window_value scalar hdigit, ← hout.sum, List.length_cons, Finset.sum_range_succ',
        Finset.mul_sum, add_comm]
      congr 1
      · simp
      · exact Finset.sum_congr rfl fun i _ => by rw [List.getD_cons_succ]; ring
    · exact List.forall_mem_cons.mpr ⟨hdigit.ok, hout.ok⟩
    · rintro (_ | i) hi hne r hr hrw
      · have hdvd : (2 ^ w : ℤ) ∣ nextWindow scalar w j W digit := by
          obtain ⟨c, hc⟩ := hdigit.gap (by omega) hne
          refine dvd_add ⟨c, ?_⟩ (dvd_mul_right _ _)
          rw [hc, pow_succ, mul_right_comm, Int.mul_ediv_cancel _ (by decide)]
        rw [zero_add, ← Nat.sub_add_cancel hr, List.getD_cons_succ]
        exact wnafLoop_zeros hw h0' hle' le_rfl hdvd hrun (r - 1) (by omega)
      · rw [show i + 1 + r = i + r + 1 by omega, List.getD_cons_succ]
        exact hout.sparse i (by omega) hne r hr hrw

/-- For every scalar below `2 ^ bits` no assertion fails, and the digits are a modified
non-adjacent form of it. -/
theorem ecComputeWnaf_spec {width : ℕ} (scalar : BitVec (64 * width)) (hw : 1 ≤ w) (hw7 : w ≤ 7)
    (hbits : 1 ≤ bits) (hs : scalar.toNat < 2 ^ bits) :
    ∃ out, ecComputeWnaf scalar bits w = .ok out ∧ out.length = bits + 1 ∧
      ∑ i ∈ Finset.range (bits + 1), out.getD i 0 * 2 ^ i = scalar.toNat ∧
      (∀ d ∈ out, d = 0 ∨ d % 2 = 1 ∧ |d| < 2 ^ w) ∧
      ∀ j, j + w + 1 < bits → out.getD j 0 ≠ 0 → ∀ r, 1 ≤ r → r ≤ w → out.getD (j + r) 0 = 0 := by
  have hmod : scalar.toNat % 2 ^ 64 % 2 ^ (w + 1) = scalar.toNat % 2 ^ (w + 1) :=
    Nat.mod_mod_of_dvd _ (pow_dvd_pow 2 (by omega))
  have hle := Nat.mod_le scalar.toNat (2 ^ (w + 1))
  obtain ⟨out, hrun, hlen, hout⟩ := wnafLoop_spec hw hs (zero_add (bits + 1))
    (W := (scalar.toNat % 2 ^ (w + 1) : ℕ)) (by omega) (by exact_mod_cast by omega)
    fun _ => by rw [pow_zero, one_mul]; exact_mod_cast by omega
  refine ⟨out, ?_, hlen, ?_, hout.ok, fun j => ?_⟩
  · rw [ecComputeWnaf, assert_bind ⟨hw, hw7⟩, assert_bind (by omega), hmod, hrun]
  · rw [← hlen, hout.sum, zero_add, Nat.shiftRight_eq_div_pow]
    exact_mod_cast Nat.mod_add_div _ _
  · simpa using hout.sparse j

theorem ecComputeWnaf_spec_five : (21 : BitVec (64 * 1)).toNat < 2 ^ 5 ∧
    ∃ out, ecComputeWnaf (21 : BitVec (64 * 1)) 5 2 = .ok out ∧ out.length = 6 :=
  have h : (21 : BitVec (64 * 1)).toNat < 2 ^ 5 := by decide
  ⟨h, (ecComputeWnaf_spec _ (by decide) (by decide) (by decide) h).imp fun _ h => ⟨h.1, h.2.1⟩⟩

end BoringSSL.Wnaf
