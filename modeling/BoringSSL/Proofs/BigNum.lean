import BoringSSL.BigNum
import Mathlib.Data.Nat.Bitwise
import Mathlib.NumberTheory.LegendreSymbol.JacobiSymbol

/-!
# Jacobi symbols and square roots are computed exactly

Each round of `bn_jacobi` takes the factors of two out of the numerator and turns the fraction over,
so the result times the symbol that is left stays the same (`bnJacobi_eq`).  The estimates of
`BN_sqrt` fall to the root (`bnSqrt_eq`).  Division fails for an operand of the greatest length,
since it is shifted first, so both hold for operands that are somewhat shorter.
-/

namespace BoringSSL.BigNum

open NumberTheorySymbols ZMod

variable {s e : ℕ} {n B : ℕ}

lemma lowestBit_spec : ∀ {fuel n : ℕ}, n ≠ 0 → n ≤ fuel →
    ∃ m, n = 2 ^ lowestBit fuel n * (2 * m + 1)
  | 0, n, hn, hle => absurd (Nat.le_zero.mp hle) hn
  | fuel + 1, n, hn, hle => by
    rw [lowestBit]
    by_cases hodd : n % 2 = 1
    · exact ⟨n / 2, by rw [if_pos hodd]; omega⟩
    · obtain ⟨m, hm⟩ := lowestBit_spec (n := n / 2) (by omega) (show _ ≤ fuel by omega)
      refine ⟨m, ?_⟩
      rw [if_neg hodd, pow_succ', mul_assoc, ← hm]
      omega

lemma eq_two_pow_mul_shift (hn : n ≠ 0) :
    n = 2 ^ bnCountLowZeroBits n * (n >>> bnCountLowZeroBits n) ∧
      n >>> bnCountLowZeroBits n % 2 = 1 := by
  obtain ⟨m, hm⟩ := lowestBit_spec hn le_rfl
  have hshift : n >>> bnCountLowZeroBits n = 2 * m + 1 := by
    rw [Nat.shiftRight_eq_div_pow]
    exact Nat.div_eq_of_eq_mul_right (Nat.two_pow_pos _) hm
  exact ⟨by rw [hshift]; exact hm, by omega⟩

lemma bnNumBits_le_iff {k : ℕ} : bnNumBits n ≤ k ↔ n < 2 ^ k := by
  rw [bnNumBits]
  split_ifs with hn
  · simp [hn]
  · rw [Nat.succ_le_iff, Nat.log2_lt hn]

lemma bnMinimalWidth_le_iff {k : ℕ} : bnMinimalWidth n ≤ k ↔ n < 2 ^ (64 * k) := by
  rw [← bnNumBits_le_iff, bnMinimalWidth]
  omega

lemma lt_two_pow_minimalWidth (n : ℕ) : n < 2 ^ (64 * bnMinimalWidth n) :=
  bnMinimalWidth_le_iff.mp le_rfl

lemma lt_bnMinimalWidth {k width : ℕ} (hwidth : 64 * width ≤ k) (hn : 2 ^ k ≤ n) :
    width < bnMinimalWidth n := by
  by_contra hle
  have hlt := bnMinimalWidth_le_iff.mp (not_lt.mp hle)
  exact absurd (Nat.pow_le_pow_right (by omega) hwidth) (not_le.mpr (hn.trans_lt hlt))

/-- A shift by no more than a word adds at most one. -/
lemma bnMinimalWidth_shift_le {width shift : ℕ} (hn : n < 2 ^ (64 * width)) (hshift : shift ≤ 64) :
    bnMinimalWidth (n <<< shift) ≤ width + 1 := by
  rw [bnMinimalWidth_le_iff, Nat.shiftLeft_eq, mul_add, mul_one, pow_add]
  exact Nat.mul_lt_mul_of_lt_of_le hn (Nat.pow_le_pow_right (by omega) hshift) (Nat.two_pow_pos _)

lemma expand_eq {words : ℕ} (h : words ≤ bnMaxWords) : expand words = .ok () := if_neg (by omega)

lemma bnLshift_eq {width shift : ℕ} (h : width + shift / 64 + 1 ≤ bnMaxWords) :
    bnLshift n width shift = .ok (n <<< shift) := by
  rw [bnLshift, expand_eq h]
  rfl

lemma bnLshift_tooLong {width shift : ℕ} (h : bnMaxWords < width + shift / 64 + 1) :
    bnLshift n width shift = put .bignumTooLong := by
  rw [bnLshift, expand, if_pos h]
  rfl

lemma bnUadd_eq {m : ℕ} (hm : bnMinimalWidth m < bnMaxWords) (hn : bnMinimalWidth n < bnMaxWords) :
    bnUadd m n = .ok (m + n) := by
  rw [bnUadd, expand_eq (by omega)]
  rfl

lemma bnSqr_eq (h : 4 * bnMinimalWidth n ≤ bnMaxWords) : bnSqr n = .ok (n * n) := by
  rw [bnSqr, expand_eq (by omega), expand_eq (by split_ifs <;> omega)]
  rfl

lemma bnDiv_eq {width d : ℕ} (hd : d ≠ 0) (hn : n < 2 ^ (64 * width))
    (hwidth : width + 2 ≤ bnMaxWords) (hdwidth : bnMinimalWidth d + 2 ≤ bnMaxWords) :
    bnDiv n width d = .ok (n / d, n % d) := by
  have hshift : 64 - bnNumBits d % 64 ≤ 64 := Nat.sub_le _ _
  rw [bnDiv, if_neg hd]
  generalize 64 - bnNumBits d % 64 = shift at hshift ⊢
  have hsnum := bnMinimalWidth_shift_le hn hshift
  have hsdiv := bnMinimalWidth_shift_le (lt_two_pow_minimalWidth d) hshift
  simp only [bnLshift_eq (show bnMinimalWidth d + shift / 64 + 1 ≤ bnMaxWords by omega),
    bnLshift_eq (show width + shift / 64 + 1 ≤ bnMaxWords by omega), bind, Except.bind]
  rw [expand_eq (by split_ifs <;> omega), expand_eq (by split_ifs <;> omega), expand_eq (by omega)]
  rfl

/-- A number of the greatest length cannot be divided. -/
lemma bnDiv_tooLong {d : ℕ} (hd : d ≠ 0) (hdwidth : bnMinimalWidth d + 2 ≤ bnMaxWords) :
    bnDiv n bnMaxWords d = put .bignumTooLong := by
  have hshift : 64 - bnNumBits d % 64 ≤ 64 := Nat.sub_le _ _
  rw [bnDiv, if_neg hd]
  generalize 64 - bnNumBits d % 64 = shift at hshift ⊢
  simp only [bnLshift_eq (show bnMinimalWidth d + shift / 64 + 1 ≤ bnMaxWords by omega),
    bnLshift_tooLong (show bnMaxWords < bnMaxWords + shift / 64 + 1 by omega), bind, Except.bind]
  rfl

lemma tab_lsw (hB : Odd B) : tab.getD (bnLsw B &&& 7) 0 = J(2 | B) := by
  have hindex : bnLsw B &&& 7 = B % 8 := by
    rw [bnLsw, Nat.and_two_pow_sub_one_eq_mod _ 3]
    omega
  have hlt : B % 8 < 8 := Nat.mod_lt _ (by omega)
  have hodd := Nat.odd_iff.mp hB
  rw [hindex, jacobiSym.at_two hB, χ₈_nat_eq_if_mod_eight]
  interval_cases h : B % 8 <;> first | omega | simp [tab, hodd]

lemma and_and_two_ne_zero (x y : ℕ) : x &&& y &&& 2 ≠ 0 ↔ 2 ≤ x % 4 ∧ 2 ≤ y % 4 := by
  have hbit : x &&& y &&& 2 = ((x &&& y).testBit 1).toNat * 2 ^ 1 := Nat.and_two_pow (x &&& y) 1
  rw [hbit, Nat.testBit_and, Nat.testBit_eq_decide_div_mod_eq, Nat.testBit_eq_decide_div_mod_eq]
  by_cases hx : 2 ≤ x % 4 <;> by_cases hy : 2 ≤ y % 4 <;> simp <;> omega

/-- The factors of two: only the parity of their number matters. -/
lemma mul_symbol_two (hB : Odd B) (i : ℕ) (ret : ℤ) :
    (if i &&& 1 ≠ 0 then ret * tab.getD (bnLsw B &&& 7) 0 else ret) = ret * J(2 | B) ^ i := by
  have hsq : J(2 | B) ^ 2 = 1 := jacobiSym.sq_one (by
    rw [Int.gcd_comm]; exact Nat.Coprime.symm (Nat.coprime_two_left.mpr hB))
  rw [tab_lsw hB, Nat.and_one_is_mod]
  rcases Nat.even_or_odd' i with ⟨k, rfl | rfl⟩
  · simp [pow_mul, hsq]
  · simp [pow_succ, pow_mul, hsq]

/-- Turning the fraction over; the sign of the numerator counts as a factor -1. -/
lemma mul_symbol_swap {A : ℕ} (hA : A % 2 = 1) (hB : B % 2 = 1) (neg : Prop) [Decidable neg]
    (ret : ℤ) :
    (if (if neg then 2 ^ 64 - 1 - bnLsw A else bnLsw A) &&& bnLsw B &&& 2 ≠ 0 then -ret else ret)
        * J(B | A) = ret * J(if neg then -(A : ℤ) else A | B) := by
  have hrec := jacobiSym.quadratic_reciprocity_if hA hB
  have hlswA : bnLsw A % 4 = A % 4 := by rw [bnLsw]; omega
  have hlswB : bnLsw B % 4 = B % 4 := by rw [bnLsw]; omega
  have hcompl : (2 ^ 64 - 1 - bnLsw A) % 4 = 3 - A % 4 := by rw [bnLsw]; omega
  have hneg := jacobiSym.neg A (Nat.odd_iff.mpr hB)
  rw [χ₄_nat_eq_if_mod_four, if_neg (by omega)] at hneg
  simp only [and_and_two_ne_zero, hlswB]
  by_cases hn : neg
  · grind
  · grind

lemma bnJacobiLoop_eq : ∀ {fuel : ℕ} {A : ℤ} {B width : ℕ} (ret : ℤ), A.natAbs < fuel →
    B % 2 = 1 → B < 2 ^ (64 * width) → width + 2 ≤ bnMaxWords →
    bnMinimalWidth A.natAbs + 2 ≤ bnMaxWords →
    bnJacobiLoop fuel A B width ret = .ok (ret * J(A | B))
  | fuel + 1, A, B, width, ret, hfuel, hB, hfits, hwidth, hAwidth => by
    by_cases hA : A = 0
    · rw [bnJacobiLoop, if_pos hA, hA]
      split_ifs with h1
      · rw [h1, jacobiSym.one_right, mul_one]
      · rw [jacobiSym.zero_left (by omega), mul_zero]
    · obtain ⟨heq, hodd⟩ := eq_two_pow_mul_shift (Int.natAbs_ne_zero.mpr hA)
      set i := bnCountLowZeroBits A.natAbs with hi
      set A' := A.natAbs >>> i with hA'
      have hle : A' ≤ A.natAbs := Nat.shiftRight_le _ _
      clear_value A' i
      have hlt : B % A' < A' := Nat.mod_lt _ (by omega)
      have hA'width : bnMinimalWidth A' ≤ bnMinimalWidth A.natAbs :=
        bnMinimalWidth_le_iff.mpr (hle.trans_lt (lt_two_pow_minimalWidth _))
      have hremwidth : bnMinimalWidth (B % A') ≤ bnMinimalWidth A' :=
        bnMinimalWidth_le_iff.mpr (hlt.trans (lt_two_pow_minimalWidth _))
      -- the numerator is a power of two times an odd number of its sign
      have hval : A = 2 ^ i * (if A < 0 then -(A' : ℤ) else A') := by
        have habs : (A.natAbs : ℤ) = 2 ^ i * A' := by exact_mod_cast heq
        split_ifs with hneg
        · rw [mul_neg, ← habs]; omega
        · rw [← habs]; omega
      rw [bnJacobiLoop, if_neg hA]
      simp only [← hi, ← hA', bnDiv_eq (show A' ≠ 0 by omega) hfits hwidth (by omega), bind,
        Except.bind]
      rw [bnJacobiLoop_eq _ (by omega) hodd (lt_two_pow_minimalWidth _) (by omega)
        (by rw [Int.natAbs_natCast]; omega), Int.natCast_mod, ← jacobiSym.mod_left,
        mul_symbol_two (Nat.odd_iff.mpr hB), mul_symbol_swap hodd hB]
      conv_rhs => rw [hval, jacobiSym.mul_left, jacobiSym.pow_left]
      rw [mul_assoc]

/-- For every odd `b > 0` the loop ends, with the Jacobi symbol, if two words more than the operands
have are not too many. -/
theorem bnJacobi_eq (a b : Operand) {m : ℕ} (hm : Odd m) (hb : b.value = m)
    (hawidth : a.width + 2 ≤ bnMaxWords) (hbwidth : b.width + 2 ≤ bnMaxWords) :
    bnJacobi a b = .ok J(a.value | m) := by
  have hodd := Nat.odd_iff.mp hm
  have hfits := b.fits
  have haminimal := bnMinimalWidth_le_iff.mpr a.fits
  rw [hb, Int.natAbs_natCast] at hfits
  rw [bnJacobi, hb, Int.natAbs_natCast, if_neg (by omega), if_neg (by omega),
    bnJacobiLoop_eq 1 (by omega) hodd hfits hbwidth (by omega), one_mul]

theorem bnJacobi_of_negative :
    bnJacobi ⟨-2, 1, by decide, by decide⟩ ⟨15, 2, by decide, by decide⟩ = .ok J(-2 | 15) :=
  bnJacobi_eq _ _ (m := 15) (by decide) rfl (by decide) (by decide)

lemma bnJacobi_tooLong {a b : Operand} (ha : a.value ≠ 0) (hawidth : a.width + 2 ≤ bnMaxWords)
    (hb : 0 < b.value) (hodd : b.value.natAbs % 2 = 1) (hbwidth : b.width = bnMaxWords) :
    bnJacobi a b = put .bignumTooLong := by
  have hshift := eq_two_pow_mul_shift (Int.natAbs_ne_zero.mpr ha)
  have hle : a.value.natAbs >>> bnCountLowZeroBits a.value.natAbs ≤ a.value.natAbs :=
    Nat.shiftRight_le _ _
  have hminimal := bnMinimalWidth_le_iff.mpr (hle.trans_lt a.fits)
  rw [bnJacobi, if_neg (by omega), if_neg (by omega), bnJacobiLoop, if_neg ha, hbwidth]
  simp only [bnDiv_tooLong (show a.value.natAbs >>> bnCountLowZeroBits a.value.natAbs ≠ 0 by omega)
    (by omega), bind, Except.bind]
  rfl

lemma natAbs_two_pow_add_one (k : ℕ) : (2 ^ k + 1 : ℤ).natAbs = 2 ^ k + 1 := by
  exact_mod_cast Int.natAbs_natCast (2 ^ k + 1)

lemma two_pow_le_natAbs (k : ℕ) : 2 ^ k ≤ (2 ^ k + 1 : ℤ).natAbs := by
  rw [natAbs_two_pow_add_one]
  omega

lemma two_pow_add_one_mod_two {k : ℕ} (hk : 0 < k) : (2 ^ k + 1 : ℤ).natAbs % 2 = 1 := by
  have heven : 2 ∣ 2 ^ k := dvd_pow_self 2 hk.ne'
  rw [natAbs_two_pow_add_one]
  omega

lemma two_pow_add_one_lt {k l : ℕ} (hk : 0 < k) (h : k < l) :
    (2 ^ k + 1 : ℤ).natAbs < 2 ^ l := by
  have hle : 2 ^ (k + 1) ≤ 2 ^ l := Nat.pow_le_pow_right (by omega) h
  have hone : 2 ^ 0 < 2 ^ k := Nat.pow_lt_pow_right (by omega) hk
  rw [natAbs_two_pow_add_one]
  omega

/-- An odd number of the greatest length. -/
def longOdd : Operand where
  value := 2 ^ 536870846 + 1
  width := bnMaxWords
  fits := two_pow_add_one_lt (by decide) (by decide)
  width_le := le_rfl

/-- `bn_jacobi` fails for the symbol (3 | 2 ^ 536870846 + 1). -/
theorem bnJacobi_longOdd :
    bnMinimalWidth longOdd.value.natAbs = longOdd.width ∧ longOdd.value.natAbs % 2 = 1 ∧
      bnJacobi ⟨3, 1, by decide, by decide⟩ longOdd = put .bignumTooLong := by
  have hvalue : longOdd.value = 2 ^ 536870846 + 1 := rfl
  have hodd : longOdd.value.natAbs % 2 = 1 := by
    rw [hvalue]
    exact two_pow_add_one_mod_two (by decide)
  have hlong : 8388606 < bnMinimalWidth longOdd.value.natAbs := by
    exact lt_bnMinimalWidth (k := 536870846) (by decide) (two_pow_le_natAbs _)
  exact ⟨le_antisymm (bnMinimalWidth_le_iff.mpr longOdd.fits) hlong, hodd,
    bnJacobi_tooLong (by decide) (by decide) (Int.add_pos (by positivity) one_pos) hodd rfl⟩

/-- An estimate is never below the root, whatever the one before it was. -/
lemma le_newton (he : 0 < e) (hs : s * s ≤ n) : s ≤ (n / e + e) / 2 := by
  have hdiv : 2 * s - e ≤ n / e := by
    rw [Nat.le_div_iff_mul_le he]
    rcases Nat.le_total e (2 * s) with h | h
    · obtain ⟨d, hd⟩ := Nat.exists_eq_add_of_le h
      rw [hd, Nat.add_sub_cancel_left]
      nlinarith [sq_nonneg ((d : ℤ) - e)]
    · simp [Nat.sub_eq_zero_of_le h]
  omega

lemma newton_lt (hlt : s < e) : (s * s / e + e) / 2 < e := by
  have hdiv : s * s / e < e := Nat.div_lt_of_lt_mul (Nat.mul_self_lt_mul_self hlt)
  omega

lemma div_newton_le (hn : 0 < n) (he : 0 < e) : n / ((n / e + e) / 2) ≤ n.sqrt + 2 := by
  have hle : n.sqrt ≤ (n / e + e) / 2 := le_newton he (Nat.sqrt_le n)
  have hlt := Nat.lt_succ_sqrt n
  refine (Nat.div_le_div_left hle (Nat.sqrt_pos.mpr hn)).trans (Nat.div_le_of_le_mul ?_)
  linarith

/-! The estimates of a number of `width` words have about half of them. -/

section Widths

variable {width : ℕ} (hfits : n < 2 ^ (64 * width)) (hwidth : width + 3 ≤ bnMaxWords / 2)

lemma bnMinimalWidth_half_le {m : ℕ} (h : m ≤ 2 ^ (32 * width) + 1) :
    bnMinimalWidth m ≤ width / 2 + 1 := by
  rw [bnMinimalWidth_le_iff]
  have hle : 2 ^ (32 * width + 2) ≤ 2 ^ (64 * (width / 2 + 1)) :=
    Nat.pow_le_pow_right (by omega) (by omega)
  have hpos : 0 < 2 ^ (32 * width) := Nat.two_pow_pos _
  rw [pow_add] at hle
  omega

include hfits

lemma sqrt_lt_half : n.sqrt < 2 ^ (32 * width) := by
  rw [Nat.sqrt_lt', ← pow_mul]
  exact hfits.trans_eq (congrArg _ (by omega))

lemma init_le_half : 1 <<< (bnNumBits n / 2) ≤ 2 ^ (32 * width)
    ∧ n / 1 <<< (bnNumBits n / 2) ≤ 2 ^ (32 * width) := by
  have hbits := bnNumBits_le_iff.mpr hfits
  have hlt : n < 2 ^ bnNumBits n := bnNumBits_le_iff.mp le_rfl
  rw [Nat.one_shiftLeft]
  refine ⟨Nat.pow_le_pow_right (by omega) (by omega), Nat.div_le_of_le_mul (hlt.le.trans ?_)⟩
  rw [← pow_add]
  exact Nat.pow_le_pow_right (by omega) (by omega)

include hwidth

lemma bnSqrtStep_eq (he : 0 < e) (hle : e ≤ 2 ^ (32 * width))
    (hquot : n / e ≤ 2 ^ (32 * width) + 1) :
    bnSqrtStep n width e = .ok ((n / e + e) / 2, (n / e + e) / 2 * ((n / e + e) / 2)) := by
  have hewidth := bnMinimalWidth_half_le (hle.trans (Nat.le_succ _))
  have hqwidth := bnMinimalWidth_half_le hquot
  have hnext : (n / e + e) / 2 ≤ 2 ^ (32 * width) + 1 := by omega
  have hnextWidth := bnMinimalWidth_half_le hnext
  simp only [bnSqrtStep, bnDiv_eq he.ne' hfits (by omega) (by omega), bind, Except.bind,
    bnUadd_eq (show bnMinimalWidth (n / e) < bnMaxWords by omega)
      (show bnMinimalWidth e < bnMaxWords by omega),
    bnSqr_eq (show 4 * bnMinimalWidth ((n / e + e) / 2) ≤ bnMaxWords by omega)]
  rfl

/-- The distance of the square falls until the loop ends; for a square it ends at the root. -/
lemma bnSqrtLoop_spec (hn : 0 < n) : ∀ {fuel e : ℕ}, 0 < e → e ≤ 2 ^ (32 * width) →
    n / e ≤ 2 ^ (32 * width) + 1 → (n - (e * e : ℕ) : ℤ).natAbs < fuel →
    ∃ r, bnSqrtLoop n width fuel e (some (n - (e * e : ℕ) : ℤ).natAbs) = .ok (r, r * r) ∧
      ∀ s, n = s * s → s ≤ e → r = s
  | fuel + 1, e, he, hle, hquot, hfuel => by
    have hpos : 0 < (n / e + e) / 2 := le_newton (s := 1) he (by omega)
    have hle' : (n / e + e) / 2 ≤ 2 ^ (32 * width) := by omega
    have hquot' := (div_newton_le hn he).trans (Nat.succ_le_succ (sqrt_lt_half hfits))
    rw [bnSqrtLoop, bnSqrtStep_eq hfits hwidth he hle hquot]
    simp only [Option.any_some, decide_eq_true_eq]
    generalize he' : (n / e + e) / 2 = e' at hpos hle' hquot' ⊢
    by_cases hstop : (n - (e * e : ℕ) : ℤ).natAbs ≤ (n - (e' * e' : ℕ) : ℤ).natAbs
    · refine ⟨e', if_pos hstop, ?_⟩
      rintro s rfl hs
      rcases Nat.eq_or_lt_of_le hs with rfl | hlt
      · rw [← he', Nat.mul_div_cancel _ he]
        omega
      · have hge : s ≤ e' := he' ▸ le_newton he le_rfl
        have hle : s * s ≤ e' * e' := Nat.mul_self_le_mul_self hge
        have hlt' : e' * e' < e * e := Nat.mul_self_lt_mul_self (he' ▸ newton_lt hlt)
        omega
    · obtain ⟨r, hr, hroot⟩ := bnSqrtLoop_spec hn hpos hle' hquot' (show _ < fuel by omega)
      refine ⟨r, by rw [if_neg hstop, hr], fun s hs _ => hroot s hs ?_⟩
      exact he' ▸ le_newton he hs.ge

lemma bnSqrtLoop_init (hn : 0 < n) :
    ∃ r, bnSqrtLoop n width (n * n + 2) (1 <<< (bnNumBits n / 2)) none = .ok (r, r * r) ∧
      ∀ s, n = s * s → r = s := by
  obtain ⟨hle, hquot⟩ := init_le_half hfits
  have hself : 1 <<< (bnNumBits n / 2) ≤ n := by
    rw [Nat.one_shiftLeft]
    refine le_trans (Nat.pow_le_pow_right (by omega) ?_) (Nat.log2_self_le hn.ne')
    rw [bnNumBits, if_neg hn.ne']
    omega
  have he : 0 < 1 <<< (bnNumBits n / 2) := by
    rw [Nat.one_shiftLeft]
    exact Nat.two_pow_pos _
  generalize 1 <<< (bnNumBits n / 2) = e at hle hquot hself he ⊢
  have hquot' := (div_newton_le hn he).trans (Nat.succ_le_succ (sqrt_lt_half hfits))
  rw [bnSqrtLoop, bnSqrtStep_eq hfits hwidth he hle (hquot.trans (Nat.le_succ _))]
  have hdiv : n / e ≤ n := Nat.div_le_self _ _
  have hsq : (n / e + e) / 2 * ((n / e + e) / 2) ≤ n * n := Nat.mul_self_le_mul_self (by omega)
  have hmul : n ≤ n * n := Nat.le_mul_self n
  have hpos : 0 < (n / e + e) / 2 := le_newton (s := 1) he (by omega)
  have hge : ∀ s, n = s * s → s ≤ (n / e + e) / 2 := fun s hs => le_newton he hs.ge
  have hle' : (n / e + e) / 2 ≤ 2 ^ (32 * width) := by omega
  generalize (n / e + e) / 2 = e' at hsq hpos hge hle' hquot' ⊢
  obtain ⟨r, hr, hroot⟩ :=
    bnSqrtLoop_spec hfits hwidth hn hpos hle' hquot' (show _ < n * n + 1 by omega)
  exact ⟨r, hr, fun s hs => hroot s hs (hge s hs)⟩

end Widths

/-- `BN_sqrt` ends, and succeeds for the squares alone, with the root, if its argument has less than
half of the words that a `BIGNUM` may have. -/
theorem bnSqrt_eq (input : Operand) {n : ℕ} (hinput : input.value = n)
    (hwidth : input.width + 3 ≤ bnMaxWords / 2) :
    bnSqrt input = if IsSquare n then .ok n.sqrt else put .notASquare := by
  have hfits := input.fits
  rw [hinput, Int.natAbs_natCast] at hfits
  rcases Nat.eq_zero_or_pos n with rfl | hn
  · rw [bnSqrt, hinput]
    rfl
  · obtain ⟨r, hr, hroot⟩ := bnSqrtLoop_init hfits hwidth hn
    have hbits := bnNumBits_le_iff.mpr hfits
    rw [bnSqrt, hinput, if_neg (by omega), if_neg (by omega), Int.natAbs_natCast]
    simp only [bnLshift_eq (show 1 + bnNumBits n / 2 / 64 + 1 ≤ bnMaxWords by omega), hr, bind,
      Except.bind]
    by_cases hsquare : IsSquare n
    · obtain ⟨s, rfl⟩ := hsquare
      rw [hroot s rfl, if_neg (by simp), if_pos ⟨s, rfl⟩, Nat.sqrt_eq]
      rfl
    · rw [if_neg hsquare, if_pos fun h => hsquare ⟨r, h.symm⟩]

theorem bnSqrt_eq_six : bnSqrt ⟨36, 2, by decide, by decide⟩ = .ok 6 := by
  rw [bnSqrt_eq _ (n := 36) rfl (by decide), if_pos ⟨6, rfl⟩, show 36 = 6 * 6 by rfl, Nat.sqrt_eq]

lemma bnSqrt_tooLong {input : Operand} (hpos : 0 < input.value)
    (hwidth : input.width = bnMaxWords) : bnSqrt input = put .bnLib := by
  have hfits := input.fits
  have hbits := bnNumBits_le_iff.mpr hfits
  have hmax : bnMaxWords = 8388607 := rfl
  have he : 1 <<< (bnNumBits input.value.natAbs / 2) ≠ 0 := by
    rw [Nat.one_shiftLeft]
    exact (Nat.two_pow_pos _).ne'
  have hinit := bnMinimalWidth_half_le ((init_le_half hfits).1.trans (Nat.le_succ _))
  rw [bnSqrt, if_neg (by omega), if_neg (by omega)]
  simp only [bnLshift_eq
    (show 1 + bnNumBits input.value.natAbs / 2 / 64 + 1 ≤ bnMaxWords by omega), bind, Except.bind,
    hwidth, bnSqrtLoop, bnSqrtStep, bnDiv_tooLong he (by omega)]
  rfl

lemma natAbs_two_pow (k : ℕ) : (2 ^ k : ℤ).natAbs = 2 ^ k := Int.natAbs_pow 2 k

lemma natAbs_two_pow_lt {k l : ℕ} (h : k < l) : (2 ^ k : ℤ).natAbs < 2 ^ l := by
  rw [natAbs_two_pow]
  exact Nat.pow_lt_pow_right (by omega) h

/-- A square of the greatest length. -/
def longSquare : Operand where
  value := 2 ^ 536870846
  width := bnMaxWords
  fits := natAbs_two_pow_lt (by decide)
  width_le := le_rfl

/-- `BN_sqrt` fails for the square of `2 ^ 268435423`. -/
theorem bnSqrt_longSquare :
    bnMinimalWidth longSquare.value.natAbs = longSquare.width ∧
      longSquare.value = 2 ^ 268435423 * 2 ^ 268435423 ∧ bnSqrt longSquare = put .bnLib := by
  have hlong : 8388606 < bnMinimalWidth longSquare.value.natAbs :=
    lt_bnMinimalWidth (k := 536870846) (by decide) (natAbs_two_pow _).ge
  exact ⟨le_antisymm (bnMinimalWidth_le_iff.mpr longSquare.fits) hlong,
    pow_add 2 268435423 268435423, bnSqrt_tooLong (pow_pos two_pos _) rfl⟩

end BoringSSL.BigNum
