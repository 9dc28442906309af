import Mathlib.Data.Set.Insert

/-!
# A sliding window over a set of numbers

A window of `w` bits tells apart the numbers that have been recorded and those that have not, down
to `w` below the largest.  What has been recorded is a set; `Tracks` says that the window stands for
it, and `Tracks.discards_iff` what the window then answers.
-/

namespace ByteLib

/-- Bit `i` of `map` is for `top - i`. -/
structure Window (w : ℕ) where
  map : BitVec w
  top : ℕ

namespace Window

variable {w : ℕ}

/-- A window with nothing seen. -/
def empty (w : ℕ) : Window w := ⟨0, 0⟩

/-- Whether a number is too old or was seen. -/
def discards (win : Window w) (n : ℕ) : Bool :=
  if win.top < n then false else w ≤ win.top - n || win.map.getLsbD (win.top - n)

/-- Moves the window up to `n`. -/
def slide (win : Window w) (n : ℕ) : Window w :=
  if win.top < n then ⟨if w ≤ n - win.top then 0 else win.map <<< (n - win.top), n⟩ else win

/-- Marks a number as seen. -/
def record (win : Window w) (n : ℕ) : Window w :=
  let win := win.slide n
  if win.top - n < w then { win with map := win.map ||| BitVec.twoPow w (win.top - n) } else win

/-- The window stands for the set. -/
structure Tracks (win : Window w) (seen : Set ℕ) : Prop where
  le_top : ∀ n ∈ seen, n ≤ win.top
  top_mem : win.top ∈ seen ∨ (win.top = 0 ∧ seen = ∅)
  bits : ∀ i < w, win.map.getLsbD i = true ↔ i ≤ win.top ∧ win.top - i ∈ seen

lemma tracks_empty (w : ℕ) : (empty w).Tracks ∅ :=
  ⟨by simp, .inr ⟨rfl, rfl⟩, by simp [empty]⟩

namespace Tracks

variable {win : Window w} {seen : Set ℕ} {n : ℕ}

lemma discards_iff (h : win.Tracks seen) (hw : 0 < w) :
    win.discards n = true ↔ n ∈ seen ∨ ∃ m ∈ seen, n + w ≤ m := by
  unfold discards
  split_ifs with hlt
  · simp only [false_iff, not_or, not_exists, not_and]
    refine ⟨fun hn => absurd (h.le_top n hn) (by omega), fun m hm => ?_⟩
    have := h.le_top m hm
    omega
  simp only [Bool.or_eq_true, decide_eq_true_eq]
  constructor
  · rintro (hfar | hbit)
    · rcases h.top_mem with htop | ⟨hzero, -⟩
      · exact .inr ⟨win.top, htop, by omega⟩
      · omega
    · have hi : win.top - n < w := BitVec.lt_of_getLsbD hbit
      have hmem := ((h.bits _ hi).mp hbit).2
      exact .inl (by rwa [Nat.sub_sub_self (by omega)] at hmem)
  · rintro (hn | ⟨m, hm, hle⟩)
    · by_cases hfar : w ≤ win.top - n
      · exact .inl hfar
      · refine .inr ((h.bits _ (by omega)).mpr ⟨by omega, ?_⟩)
        rwa [Nat.sub_sub_self (by omega)]
    · have := h.le_top m hm
      exact .inl (by omega)

lemma bits_slide (h : win.Tracks seen) {i : ℕ} (hi : i < w) :
    (win.slide n).map.getLsbD i = true ↔ i ≤ (win.slide n).top ∧ (win.slide n).top - i ∈ seen := by
  unfold slide
  split_ifs with hlt hfar
  · simp only [BitVec.ofNat_eq_ofNat, BitVec.getLsbD_zero, Bool.false_eq_true, false_iff, not_and]
    intro hle hmem
    have := h.le_top _ hmem
    omega
  · simp only [BitVec.getLsbD_shiftLeft, Bool.and_eq_true, decide_eq_true_eq, Bool.not_eq_true',
      decide_eq_false_iff_not]
    constructor
    · rintro ⟨⟨-, hge⟩, hbit⟩
      obtain ⟨h1, h2⟩ := (h.bits _ (by omega)).mp hbit
      exact ⟨by omega, by rwa [show n - i = win.top - (i - (n - win.top)) by omega]⟩
    · rintro ⟨hle, hmem⟩
      have := h.le_top _ hmem
      refine ⟨⟨hi, by omega⟩, (h.bits _ (by omega)).mpr ⟨by omega, ?_⟩⟩
      rwa [show win.top - (i - (n - win.top)) = n - i by omega]
  · exact h.bits i hi

lemma record (h : win.Tracks seen) (n : ℕ) : (win.record n).Tracks (insert n seen) := by
  have hslide : (win.slide n).top = max win.top n := by
    by_cases hlt : win.top < n
    · rw [slide, if_pos hlt, max_eq_right hlt.le]
    · rw [slide, if_neg hlt, max_eq_left (Nat.le_of_not_lt hlt)]
  have htop : (win.record n).top = max win.top n := by
    rw [← hslide]
    unfold Window.record
    simp only []
    split_ifs <;> rfl
  refine ⟨?_, ?_, fun i hi => ?_⟩
  · rw [htop]
    rintro m (rfl | hm)
    · exact le_max_right _ _
    · exact (h.le_top m hm).trans (le_max_left _ _)
  · rw [htop]
    rcases le_or_gt win.top n with hle | hlt
    · exact .inl (.inl (max_eq_right hle))
    · rw [max_eq_left hlt.le]
      exact .inl (.inr (h.top_mem.resolve_right fun h0 => by omega))
  · have hbits := h.bits_slide (n := n) hi
    unfold Window.record
    simp only [hslide]
    split_ifs with hin
    · grind
    · grind

end Tracks

end Window

end ByteLib
