import Mathlib.Data.List.Basic
import Mathlib.Tactic.Ring

/-!
# Text in lines of a fixed width

`wrap n sep text` is the text cut after every `n` symbols, each line ended by `sep`; the last line
may be shorter, but is not empty.  Texts of whole lines can be wrapped apart (`wrap_append`), and
without the separators the text is back (`filter_wrap`).
-/

namespace Wrap

open List

variable {α : Type*} {n : ℕ} {sep : α}

/-- Lines of `n`, each with its end. -/
def wrap (n : ℕ) (sep : α) (text : List α) : List α :=
  if n = 0 ∨ text.length ≤ n then if text.isEmpty then [] else text ++ [sep]
  else text.take n ++ sep :: wrap n sep (text.drop n)
termination_by text.length
decreasing_by
  rw [length_drop]
  omega

@[simp] lemma wrap_nil : wrap n sep [] = [] := by
  rw [wrap]
  simp

lemma wrap_short {text : List α} (h : text ≠ []) (hn : text.length ≤ n) :
    wrap n sep text = text ++ [sep] := by
  rw [wrap]
  simp [h, hn]

lemma wrap_line {line rest : List α} (hn : 0 < n) (h : line.length = n) :
    wrap n sep (line ++ rest) = line ++ sep :: wrap n sep rest := by
  subst h
  by_cases hrest : rest = []
  · subst hrest
    rw [List.append_nil, wrap_short (ne_nil_of_length_pos hn) (Nat.le_refl _), wrap_nil]
  · have hpos := length_pos_iff.mpr hrest
    rw [wrap]
    simp only [length_append, take_left, drop_left]
    rw [if_neg (by omega)]

lemma wrap_append (hn : 0 < n) (rest : List α) : ∀ {k : ℕ} {text : List α}, text.length = k * n →
    wrap n sep (text ++ rest) = wrap n sep text ++ wrap n sep rest
  | 0, text, h => by
    have : text = [] := length_eq_zero_iff.mp (by omega)
    simp [this]
  | k + 1, text, h => by
    have hk : (k + 1) * n = k * n + n := Nat.succ_mul k n
    have hline : (text.take n).length = n := by
      rw [length_take, h]
      omega
    have hrec := wrap_append hn rest (show (text.drop n).length = k * n by
      rw [length_drop, h]
      omega)
    conv_lhs => rw [← take_append_drop n text, append_assoc, wrap_line hn hline, hrec]
    conv_rhs => rw [← take_append_drop n text, wrap_line hn hline]
    simp

lemma wrap_length (hn : 0 < n) : ∀ {k : ℕ} {text : List α}, text.length = k * n →
    (wrap n sep text).length = k * (n + 1)
  | 0, text, h => by
    have : text = [] := length_eq_zero_iff.mp (by omega)
    simp [this]
  | k + 1, text, h => by
    have hk : (k + 1) * n = k * n + n := Nat.succ_mul k n
    have hline : (text.take n).length = n := by
      rw [length_take, h]
      omega
    have hrest : (text.drop n).length = k * n := by
      rw [length_drop, h]
      omega
    rw [← take_append_drop n text, wrap_line hn hline, length_append, length_cons,
      wrap_length hn hrest, hline]
    ring

lemma filter_wrap [DecidableEq α] (text : List α) (h : sep ∉ text) :
    (wrap n sep text).filter (· ≠ sep) = text := by
  have hkeep : ∀ l : List α, (∀ x ∈ l, x ∈ text) → l.filter (· ≠ sep) = l := fun l hl =>
    filter_eq_self.mpr fun x hx => by
      have : x ≠ sep := fun heq => h (heq ▸ hl x hx)
      simpa using this
  fun_induction wrap n sep text with
  | case1 text _ hempty => simpa using List.isEmpty_iff.mp hempty
  | case2 text _ _ =>
    grind
  | case3 text _ ih =>
    have hdrop : ∀ x ∈ text.drop n, x ∈ text := fun x hx => mem_of_mem_drop hx
    rw [filter_append, filter_cons_of_neg (by simp), hkeep _ fun x hx => mem_of_mem_take hx,
      ih (fun hx => h (hdrop _ hx)) fun l hl => hkeep l fun x hx => hdrop x (hl x hx),
      take_append_drop]

end Wrap
