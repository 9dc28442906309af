import Mathlib.Algebra.GroupWithZero.Nat
import Mathlib.Data.List.Basic

/-!
# Records in a stream

Records of some lengths are put one after another in a stream.  `complete len n log` are those that
lie within its first `n` places.
-/

namespace ByteLib

variable {α β : Type*} (len : α → ℕ)

/-- The length of all entries. -/
def totalLen (log : List α) : ℕ := (log.map len).sum

/-- The entries that `n` bytes hold whole. -/
def complete : ℕ → List α → List α
  | _, [] => []
  | n, r :: log => if len r ≤ n then r :: complete (n - len r) log else []

variable {len}

@[simp] lemma totalLen_nil : totalLen len [] = 0 := rfl

@[simp] lemma totalLen_append (a b : List α) :
    totalLen len (a ++ b) = totalLen len a + totalLen len b := by
  simp [totalLen]

lemma totalLen_concat (log : List α) (r : α) :
    totalLen len (log ++ [r]) = totalLen len log + len r := by
  simp [totalLen]

lemma complete_isPrefix : ∀ (n : ℕ) (log : List α), complete len n log <+: log
  | _, [] => List.prefix_rfl
  | n, r :: log => by
    unfold complete
    split_ifs
    · exact List.cons_prefix_cons.mpr ⟨rfl, complete_isPrefix _ log⟩
    · exact List.nil_prefix

lemma complete_mono : ∀ {n m : ℕ} (log : List α), n ≤ m → complete len n log <+: complete len m log
  | _, _, [], _ => List.prefix_rfl
  | n, m, r :: log, h => by
    unfold complete
    by_cases hr : len r ≤ n
    · rw [if_pos hr, if_pos (Nat.le_trans hr h)]
      exact List.cons_prefix_cons.mpr ⟨rfl, complete_mono log (Nat.sub_le_sub_right h _)⟩
    · rw [if_neg hr]
      exact List.nil_prefix

lemma complete_eq_self : ∀ {n : ℕ} (log : List α), totalLen len log ≤ n → complete len n log = log
  | _, [], _ => rfl
  | n, r :: log, h => by
    have hlen : totalLen len (r :: log) = len r + totalLen len log := by simp [totalLen]
    unfold complete
    rw [if_pos (by omega), complete_eq_self log (by omega)]

lemma complete_concat : ∀ (n : ℕ) (log : List α) (r : α), complete len n (log ++ [r])
    = if totalLen len (log ++ [r]) ≤ n then log ++ [r] else complete len n log
  | n, [], r => by simp [complete, totalLen]
  | n, q :: log, r => by
    have hlen : totalLen len (q :: log ++ [r]) = len q + totalLen len (log ++ [r]) := by
      simp [totalLen]
    rw [List.cons_append, complete, complete, complete_concat (n - len q) log r]
    rw [← List.cons_append, hlen]
    by_cases hq : len q ≤ n
    · grind
    · rw [if_neg hq, if_neg hq, if_neg (by omega)]

section Contents

variable {g : α → List β}

lemma flatMap_isPrefix {a b : List α} (h : a <+: b) : a.flatMap g <+: b.flatMap g := by
  obtain ⟨c, rfl⟩ := h
  exact ⟨c.flatMap g, by simp⟩

lemma flatMap_complete_of_le {n m : ℕ} {log : List α}
    (h : (complete len n log).flatMap g = log.flatMap g) (hnm : n ≤ m) :
    (complete len m log).flatMap g = log.flatMap g := by
  have hle := flatMap_isPrefix (g := g) (complete_mono log hnm : complete len n log <+: _)
  rw [h] at hle
  exact ((flatMap_isPrefix (complete_isPrefix m log)).eq_of_length_le hle.length_le)

lemma flatMap_complete_concat {n : ℕ} {log : List α} {r : α} (hr : g r = []) :
    (complete len n (log ++ [r])).flatMap g = (complete len n log).flatMap g := by
  rw [complete_concat]
  split_ifs with h
  · rw [complete_eq_self log (by rw [totalLen_append] at h; omega)]
    simp [hr]
  · rfl

end Contents

end ByteLib
