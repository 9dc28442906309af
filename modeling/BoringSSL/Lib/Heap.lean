import Mathlib.Order.Basic

/-!
# Binary heaps and sorting by them

A sequence is a function on places.  `HeapFrom le f s num` says that every place from `s` on is at
least its children among the first `num` places.  Sifting moves the one exception to the larger
child (`Sifting.move`).  In `Sorting le f m num` the places from `m` on are done.
-/

namespace Heap

variable {c p i j : ℕ} {α : Type*} {le : α → α → Prop} {f g : ℕ → α} {s i n m num : ℕ}

/-- The children in a heap. -/
def IsChild (c p : ℕ) : Prop := c = 2 * p + 1 ∨ c = 2 * p + 2

lemma IsChild.lt (h : IsChild c p) : p < c := by
  unfold IsChild at h
  omega

lemma IsChild.unique {q : ℕ} (h : IsChild c p) (h' : IsChild c q) : p = q := by
  unfold IsChild at h h'
  omega

lemma exists_isChild (h : 0 < c) : ∃ p, IsChild c p :=
  ⟨(c - 1) / 2, by unfold IsChild; omega⟩

variable (le) in
/-- Each place from `s` on is at least its children among the first `num` places. -/
def HeapFrom (f : ℕ → α) (s num : ℕ) : Prop :=
  ∀ ⦃p c⦄, s ≤ p → IsChild c p → c < num → le (f c) (f p)

variable (le) in
/-- All places from `s` on are, but for the place `i`; its children are at most its parent. -/
structure Sifting (f : ℕ → α) (s i num : ℕ) : Prop where
  except : ∀ ⦃p c⦄, s ≤ p → p ≠ i → IsChild c p → c < num → le (f c) (f p)
  grand : ∀ ⦃p c⦄, s ≤ p → IsChild i p → IsChild c i → c < num → le (f c) (f p)

/-- Two entries exchanged. -/
def swap (f : ℕ → α) (i j : ℕ) : ℕ → α := fun k => if k = i then f j else if k = j then f i else f k

@[simp] lemma swap_left (f : ℕ → α) (i j : ℕ) : swap f i j i = f j := by simp [swap]

@[simp] lemma swap_right (f : ℕ → α) (i j : ℕ) : swap f i j j = f i := by
  by_cases h : j = i <;> simp [swap, h]

lemma swap_of_ne (f : ℕ → α) {k : ℕ} (hi : k ≠ i) (hj : k ≠ j) : swap f i j k = f k := by
  simp [swap, hi, hj]

lemma Sifting.start (h : HeapFrom le f (i + 1) num) : Sifting le f i i num where
  except p c hp hne hc hlt := h (by omega) hc hlt
  grand p c hp hi hc hlt := absurd hi.lt (by omega)

lemma Sifting.stop (h : Sifting le f s i num)
    (hi : ∀ ⦃c⦄, IsChild c i → c < num → le (f c) (f i)) : HeapFrom le f s num := by
  intro p c hp hc hlt
  by_cases hpi : p = i
  · subst hpi
    exact hi hc hlt
  · exact h.except hp hpi hc hlt

lemma Sifting.move (h : Sifting le f s i num) (hs : s ≤ i) (hn : IsChild n i) (hnum : n < num)
    (hmax : ∀ ⦃c⦄, IsChild c i → c < num → le (f c) (f n)) (hle : le (f i) (f n)) :
    Sifting le (swap f i n) s n num where
  except p c hp hpn hc hlt := by
    by_cases hpi : p = i
    · subst hpi
      rw [swap_left]
      by_cases hcn : c = n
      · subst hcn
        rwa [swap_right]
      · rw [swap_of_ne _ (by have := hc.lt; omega) hcn]
        exact hmax hc hlt
    · rw [swap_of_ne _ hpi hpn]
      by_cases hci : c = i
      · subst hci
        rw [swap_left]
        exact h.grand hp hc hn hnum
      · rw [swap_of_ne _ hci fun hcn => hpi (hc.unique (hcn ▸ hn))]
        exact h.except hp hpi hc hlt
  grand p c hp hpn hc hlt := by
    obtain rfl := hpn.unique hn
    have hin := hn.lt
    have hnc := hc.lt
    rw [swap_left, swap_of_ne _ (by omega) (by omega)]
    exact h.except (by omega) (by omega) hc hlt

section Order

variable (htrans : ∀ a b c, le a b → le b c → le a c) (hrefl : ∀ a, le a a)

include htrans hrefl in
lemma HeapFrom.root_max (h : HeapFrom le f 0 num) : ∀ k < num, le (f k) (f 0) := by
  intro k
  induction k using Nat.strongRecOn with
  | ind k ih =>
    intro hk
    rcases Nat.eq_zero_or_pos k with rfl | hpos
    · exact hrefl _
    · obtain ⟨p, hp⟩ := exists_isChild hpos
      have hlt := hp.lt
      exact htrans _ _ _ (h (Nat.zero_le _) hp hk) (ih p hlt (by omega))

/-- `g` has the values of `f` on the first `m` places in some order, and is `f` elsewhere. -/
structure Rearranges (g f : ℕ → α) (m : ℕ) : Prop where
  mem : ∀ ⦃k⦄, k < m → ∃ j < m, g k = f j
  eq : ∀ ⦃k⦄, m ≤ k → g k = f k

lemma Rearranges.refl (f : ℕ → α) (m : ℕ) : Rearranges f f m :=
  ⟨fun k hk => ⟨k, hk, rfl⟩, fun _ _ => rfl⟩

lemma Rearranges.trans {e : ℕ → α} (h : Rearranges g f m) (h' : Rearranges f e m) :
    Rearranges g e m := by
  refine ⟨fun k hk => ?_, fun k hk => (h.eq hk).trans (h'.eq hk)⟩
  obtain ⟨j, hj, hgj⟩ := h.mem hk
  obtain ⟨l, hl, hfl⟩ := h'.mem hj
  exact ⟨l, hl, hgj.trans hfl⟩

lemma Rearranges.swap (f : ℕ → α) (hi : i < m) (hj : j < m) : Rearranges (Heap.swap f i j) f m := by
  refine ⟨fun k hk => ?_, fun k hk => swap_of_ne _ (by omega) (by omega)⟩
  by_cases hki : k = i
  · exact ⟨j, hj, by rw [hki, swap_left]⟩
  · by_cases hkj : k = j
    · exact ⟨i, hi, by rw [hkj, swap_right]⟩
    · exact ⟨k, hk, swap_of_ne _ hki hkj⟩

variable (le) in
/-- The first `m` places are a heap, and the others up to `num` are in order and above it. -/
structure Sorting (f : ℕ → α) (m num : ℕ) : Prop where
  heap : HeapFrom le f 0 m
  tail : ∀ ⦃i j⦄, m ≤ i → i ≤ j → j < num → le (f i) (f j)
  below : ∀ ⦃i j⦄, i < m → m ≤ j → j < num → le (f i) (f j)

lemma Sorting.init (h : HeapFrom le f 0 num) : Sorting le f num num where
  heap := h
  tail i j hi hij hj := absurd hj (by omega)
  below i j hi hj hlt := absurd hlt (by omega)

include htrans hrefl in
/-- The root changes places with the last place of the heap, and the rest is made a heap again. -/
lemma Sorting.take (h : Sorting le f (m + 1) num) (hg : Rearranges g (Heap.swap f 0 m) m)
    (hheap : HeapFrom le g 0 m) : Sorting le g m num := by
  have hmax := h.heap.root_max htrans hrefl
  have hlast : ∀ {j}, m ≤ j → j < num → le (f 0) (g j) := by
    intro j hj hlt
    rw [hg.eq hj]
    rcases Nat.eq_or_lt_of_le hj with rfl | hj'
    · rw [swap_right]
      exact hrefl _
    · rw [swap_of_ne _ (by omega) (by omega)]
      exact h.below (by omega) hj' hlt
  refine ⟨hheap, fun i j hi hij hj => ?_, fun i j hi hj hlt => ?_⟩
  · rcases Nat.eq_or_lt_of_le hi with rfl | hi'
    · rw [hg.eq (Nat.le_refl m), swap_right]
      exact hlast hij hj
    · rw [hg.eq hi, hg.eq (by omega), swap_of_ne _ (by omega) (by omega),
        swap_of_ne _ (by omega) (by omega)]
      exact h.tail hi' hij hj
  · obtain ⟨k, hk, hgk⟩ := hg.mem hi
    refine htrans _ _ _ ?_ (hlast hj hlt)
    rw [hgk]
    by_cases hk0 : k = 0
    · rw [hk0, swap_left]
      exact hmax m (by omega)
    · rw [swap_of_ne _ hk0 (by omega)]
      exact hmax k (by omega)

end Order

end Heap
