import BoringSSL.Stack

/-!
# The sorted flag of a stack

Every call but `OPENSSL_sk_set` keeps a stack that is flagged as sorted in order, or clears the flag
(`apply_flagOk`), and in a stack in order the binary search finds what the linear search finds
(`skFind_firstMatch`).  A stack is never too long for the counters of the sort
(`heapSortChecked_eq`).
-/

namespace BoringSSL

open List Option

namespace Stack

variable {P C : Type} {null : P} {cmp : C → P → P → ℤ}

open Heap

/-! ## Heap sort -/

section HeapSort

variable {call : P → P → ℤ} {i j num : ℕ} {data : Array P}

/-- The elements by index. -/
def seq (null : P) (data : Array P) : ℕ → P := fun i => data.getD i null

lemma seq_swap (null : P) (data : Array P) (hi : i < data.size) (hj : j < data.size) :
    seq null (data.swapIfInBounds i j) = Heap.swap (seq null data) i j := by
  funext k
  simp only [seq, Heap.swap, Array.getD_eq_getD_getElem?]
  by_cases hk : k < data.size
  · grind
  · grind

/-- The order of a comparison. -/
def le (call : P → P → ℤ) (a b : P) : Prop := call a b ≤ 0

lemma le_of_not_lt (hcall : IsOrder call) {a b : P} (h : ¬ call a b < 0) : le call b a :=
  (hcall.flip b a).mpr (Int.not_lt.mp h)

lemma le_refl (hcall : IsOrder call) (a : P) : le call a a := by
  have := hcall.flip a a
  unfold le
  omega

/-- `next` is the place itself or a child of it, and has the largest of the elements there. -/
lemma nextIdx_spec (hcall : IsOrder call) (null : P) (data : Array P) (hleft : leftIdx i < num) :
    let next := nextIdx null call num data i
    (next = i ∨ (IsChild next i ∧ next < num))
      ∧ le call (seq null data i) (seq null data next)
      ∧ ∀ ⦃c⦄, IsChild c i → c < num → le call (seq null data c) (seq null data next) := by
  have hL : IsChild (leftIdx i) i := .inl rfl
  have hR : IsChild (leftIdx i + 1) i := .inr rfl
  have hchild : ∀ {c}, IsChild c i → c = leftIdx i ∨ c = leftIdx i + 1 := id
  simp only [nextIdx]
  by_cases h1 : call (data.getD i null) (data.getD (leftIdx i) null) < 0
  · have hiL : le call (seq null data i) (seq null data (leftIdx i)) := Int.le_of_lt h1
    simp only [if_pos h1]
    by_cases h2 : leftIdx i + 1 < num
        ∧ call (data.getD (leftIdx i) null) (data.getD (leftIdx i + 1) null) < 0
    · have hLR : le call (seq null data (leftIdx i)) (seq null data (leftIdx i + 1)) :=
        Int.le_of_lt h2.2
      rw [if_pos h2]
      refine ⟨.inr ⟨hR, h2.1⟩, hcall.trans _ _ _ hiL hLR, fun c hc hlt => ?_⟩
      obtain rfl | rfl := hchild hc
      · exact hLR
      · exact le_refl hcall _
    · rw [if_neg h2]
      refine ⟨.inr ⟨hL, hleft⟩, hiL, fun c hc hlt => ?_⟩
      obtain rfl | rfl := hchild hc
      · exact le_refl hcall _
      · exact le_of_not_lt hcall fun h => h2 ⟨hlt, h⟩
  · have hLi : le call (seq null data (leftIdx i)) (seq null data i) := le_of_not_lt hcall h1
    simp only [if_neg h1]
    by_cases h2 : leftIdx i + 1 < num
        ∧ call (data.getD i null) (data.getD (leftIdx i + 1) null) < 0
    · have hiR : le call (seq null data i) (seq null data (leftIdx i + 1)) := Int.le_of_lt h2.2
      rw [if_pos h2]
      refine ⟨.inr ⟨hR, h2.1⟩, hiR, fun c hc hlt => ?_⟩
      obtain rfl | rfl := hchild hc
      · exact hcall.trans _ _ _ hLi hiR
      · exact le_refl hcall _
    · rw [if_neg h2]
      refine ⟨.inl rfl, le_refl hcall _, fun c hc hlt => ?_⟩
      obtain rfl | rfl := hchild hc
      · exact hLi
      · exact le_of_not_lt hcall fun h => h2 ⟨hlt, h⟩

lemma swapIfInBounds_perm (data : Array P) (hi : i < data.size) (hj : j < data.size) :
    (data.swapIfInBounds i j).Perm data := by
  rw [Array.swapIfInBounds_def, dif_pos hi, dif_pos hj]
  exact Array.swap_perm hi hj

lemma downHeap_spec (hcall : IsOrder call) (null : P) {s : ℕ} : ∀ {fuel i : ℕ} {data : Array P},
    num ≤ data.size → num ≤ i + fuel → s ≤ i → i < num → Sifting (le call) (seq null data) s i num →
    HeapFrom (le call) (seq null (downHeap null call num fuel data i)) s num
      ∧ Rearranges (seq null (downHeap null call num fuel data i)) (seq null data) num
      ∧ (downHeap null call num fuel data i).Perm data
  | 0, i, data, hsize, hfuel, hs, hi, h => by omega
  | fuel + 1, i, data, hsize, hfuel, hs, hi, h => by
    rw [downHeap]
    split_ifs with hleft
    · refine ⟨h.stop fun c hc hlt => ?_, .refl _ _, Array.Perm.refl _⟩
      unfold leftIdx at hleft
      unfold IsChild at hc
      omega
    obtain ⟨hnext, hle, hmax⟩ := nextIdx_spec hcall null data (Nat.lt_of_not_le hleft)
    simp only []
    generalize nextIdx null call num data i = next at hnext hle hmax
    split_ifs with hstop
    · subst hstop
      exact ⟨h.stop hmax, .refl _ _, Array.Perm.refl _⟩
    obtain ⟨hchild, hlt⟩ := hnext.resolve_left (Ne.symm hstop)
    have hgt := hchild.lt
    have hmove := h.move hs hchild hlt hmax hle
    rw [← seq_swap null data (by omega) (by omega)] at hmove
    obtain ⟨hheap, hre, hperm⟩ := downHeap_spec hcall null (by simpa using hsize)
      (show num ≤ next + fuel by omega) (by omega) hlt hmove
    refine ⟨hheap, hre.trans ?_, hperm.trans (swapIfInBounds_perm data (by omega) (by omega))⟩
    rw [seq_swap null data (by omega) (by omega)]
    exact .swap _ hi hlt

lemma buildHeap_spec (hcall : IsOrder call) (null : P) : ∀ {i : ℕ} {data : Array P},
    data.size = num → i < num → HeapFrom (le call) (seq null data) (i + 1) num →
    HeapFrom (le call) (seq null (buildHeap null call num i data)) 0 num
      ∧ (buildHeap null call num i data).Perm data
  | 0, data, hsize, hi, h => by
    obtain ⟨hheap, -, hperm⟩ := downHeap_spec hcall null hsize.ge
      (show num ≤ 0 + num by omega) le_rfl hi (.start h)
    exact ⟨hheap, hperm⟩
  | i + 1, data, hsize, hi, h => by
    obtain ⟨hheap, -, hperm⟩ := downHeap_spec hcall null hsize.ge (show num ≤ i + 1 + num by omega)
      le_rfl hi (.start h)
    obtain ⟨hheap', hperm'⟩ := buildHeap_spec hcall null (hperm.size_eq.trans hsize)
      (by omega) hheap
    exact ⟨hheap', hperm'.trans hperm⟩

lemma takeHeap_spec (hcall : IsOrder call) (null : P) : ∀ {i : ℕ} {data : Array P},
    data.size = num → i < num → Sorting (le call) (seq null data) (i + 1) num →
    Sorting (le call) (seq null (takeHeap null call i data)) 1 num
      ∧ (takeHeap null call i data).Perm data
  | 0, data, _, _, h => ⟨h, Array.Perm.refl _⟩
  | i + 1, data, hsize, hi, h => by
    have hswap := seq_swap null data (show 0 < data.size by omega)
      (show i + 1 < data.size by omega)
    have hperm₀ := swapIfInBounds_perm data (show 0 < data.size by omega)
      (show i + 1 < data.size by omega)
    have hsize₀ := hperm₀.size_eq.trans hsize
    have hstart : HeapFrom (le call) (Heap.swap (seq null data) 0 (i + 1)) (0 + 1) (i + 1) := by
      intro p c hp hc hlt
      have := hc.lt
      rw [swap_of_ne _ (by omega) (by omega), swap_of_ne _ (by omega) (by omega)]
      exact h.heap (Nat.zero_le _) hc (by omega)
    rw [← hswap] at hstart
    obtain ⟨hheap, hre, hperm⟩ := downHeap_spec hcall null (show i + 1 ≤ _ by rw [hsize₀]; omega)
      (show i + 1 ≤ 0 + (i + 1) by omega) le_rfl (Nat.succ_pos i) (.start hstart)
    rw [hswap] at hre
    have hnext := h.take (fun a b c => hcall.trans a b c) (le_refl hcall) hre hheap
    obtain ⟨hsorted, hperm'⟩ := takeHeap_spec hcall null (hperm.size_eq.trans hsize₀)
      (by omega) hnext
    exact ⟨hsorted, hperm'.trans (hperm.trans hperm₀)⟩

lemma ascending_of_seq (null : P)
    (h : ∀ i j, i ≤ j → j < data.size → le call (seq null data i) (seq null data j)) :
    Ascending call data := by
  rw [Ascending, pairwise_iff_getElem]
  intro i j hi hj hij
  have hlt := h i j (by omega) (by simpa using hj)
  simpa [seq, le, show i < data.size by simpa using hi, show j < data.size by simpa using hj]
    using hlt

lemma heapSort_spec (hcall : IsOrder call) (null : P) (data : Array P) :
    Ascending call (heapSort null call data) ∧ (heapSort null call data).Perm data := by
  rw [heapSort]
  split_ifs with hsize
  · have hstart : HeapFrom (le call) (seq null data) (parentIdx (data.size - 1) + 1) data.size := by
      intro p c hp hc hlt
      unfold parentIdx at hp
      unfold IsChild at hc
      omega
    obtain ⟨hheap, hperm⟩ := buildHeap_spec hcall null rfl
      (show parentIdx (data.size - 1) < data.size by unfold parentIdx; omega) hstart
    have hinit : Sorting (le call) (seq null (buildHeap null call data.size
        (parentIdx (data.size - 1)) data)) (data.size - 1 + 1) data.size := by
      rw [Nat.sub_add_cancel (by omega)]
      exact .init hheap
    obtain ⟨hsorted, hperm'⟩ := takeHeap_spec hcall null hperm.size_eq (by omega) hinit
    refine ⟨ascending_of_seq null fun i j hij hj => ?_, hperm'.trans hperm⟩
    rw [(hperm'.trans hperm).size_eq] at hj
    rcases Nat.eq_zero_or_pos i with rfl | hpos
    · rcases Nat.eq_zero_or_pos j with rfl | hpos'
      · exact le_refl hcall _
      · exact hsorted.below (by omega) hpos' hj
    · exact hsorted.tail hpos hij hj
  · refine ⟨?_, Array.Perm.refl _⟩
    refine ascending_of_seq null fun i j hij hj => ?_
    obtain rfl : i = j := by omega
    exact le_refl hcall _

/-! ## Every index in range -/

lemma swapChecked_eq (hi : i < data.size) (hj : j < data.size) :
    swapChecked data i j = some (data.swapIfInBounds i j) := by
  simp [swapChecked, hi, hj, Array.swapIfInBounds_def, Array.swap_def, Array.setIfInBounds]

lemma lessChecked_eq (null : P) (hi : i < data.size) (hj : j < data.size) :
    lessChecked call data i j = some (decide (call (data.getD i null) (data.getD j null) < 0)) := by
  simp [lessChecked, hi, hj]

lemma downHeap_size (null : P) (num : ℕ) : ∀ (fuel : ℕ) (data : Array P) (i : ℕ),
    (downHeap null call num fuel data i).size = data.size
  | 0, _, _ => rfl
  | fuel + 1, data, i => by
    simp only [downHeap]
    split_ifs
    · rfl
    · rfl
    · rw [downHeap_size null num fuel, Array.size_swapIfInBounds]

lemma takeHeap_size (null : P) : ∀ (i : ℕ) (data : Array P),
    (takeHeap null call i data).size = data.size
  | 0, _ => rfl
  | i + 1, data => by
    rw [takeHeap, takeHeap_size null i, downHeap_size, Array.size_swapIfInBounds]

lemma buildHeap_size (null : P) (num : ℕ) : ∀ (i : ℕ) (data : Array P),
    (buildHeap null call num i data).size = data.size
  | 0, data => downHeap_size null num num data 0
  | i + 1, data => by rw [buildHeap, buildHeap_size null num i, downHeap_size]

lemma nextIdx_lt (null : P) (data : Array P) (hleft : leftIdx i < num) :
    nextIdx null call num data i = i
      ∨ i < nextIdx null call num data i ∧ nextIdx null call num data i < num := by
  have hgt : i < leftIdx i := by unfold leftIdx; omega
  by_cases hless : call (data.getD i null) (data.getD (leftIdx i) null) < 0 <;>
    simp only [nextIdx, hless, if_true, if_false] <;> split_ifs <;> omega

lemma nextIdxChecked_eq (null : P) (hnum : num ≤ data.size) (hsize : 2 * data.size < sizeMod)
    (hleft : leftIdx i < num) :
    nextIdxChecked call num data i (leftIdx i) = some (nextIdx null call num data i) := by
  have hgt : i < leftIdx i := by unfold leftIdx; omega
  have hright : (leftIdx i + 1) % sizeMod = leftIdx i + 1 := Nat.mod_eq_of_lt (by omega)
  have hfirst : (if call (data.getD i null) (data.getD (leftIdx i) null) < 0 then leftIdx i else i)
      < data.size := by
    split_ifs <;> omega
  simp only [nextIdxChecked, nextIdx, lessChecked_eq null (show i < data.size by omega)
    (show leftIdx i < data.size by omega), bind_some, hright, decide_eq_true_eq]
  by_cases hlast : leftIdx i + 1 < num
  · rw [if_pos hlast, lessChecked_eq null hfirst (by omega)]
    simp [hlast]
  · simp [hlast]

lemma downHeapChecked_eq (null : P) : ∀ {rounds i : ℕ} {data : Array P},
    num ≤ data.size → 2 * data.size < sizeMod → i < num → num ≤ i + rounds →
    downHeapChecked call num rounds data i = some (downHeap null call num rounds data i)
  | 0, i, data, _, _, hi, hrounds => by omega
  | rounds + 1, i, data, hnum, hsize, hi, hrounds => by
    have hleft : (2 * i + 1) % sizeMod = leftIdx i := Nat.mod_eq_of_lt (by omega)
    simp only [downHeapChecked, downHeap, hleft]
    by_cases hstop : leftIdx i ≥ num
    · rw [if_pos hstop, if_pos hstop]
    rw [if_neg hstop, if_neg hstop, nextIdxChecked_eq null hnum hsize (by omega), bind_some]
    obtain ⟨next, hnext⟩ : ∃ next, nextIdx null call num data i = next := ⟨_, rfl⟩
    have hlt : next = i ∨ i < next ∧ next < num := hnext ▸ nextIdx_lt null data (by omega)
    rw [hnext]
    by_cases hsame : i = next
    · rw [if_pos hsame, if_pos hsame]
    obtain ⟨hdown, hnextNum⟩ := hlt.resolve_left (Ne.symm hsame)
    rw [if_neg hsame, if_neg hsame, swapChecked_eq (by omega) (by omega), bind_some]
    exact downHeapChecked_eq null (by simpa using hnum) (by simpa using hsize) hnextNum (by omega)

/-- The counter of the first loop runs down to zero and wraps around, and that ends it. -/
lemma buildHeapChecked_eq (null : P) : ∀ {i rounds : ℕ} {data : Array P},
    data.size = num → 2 * num < sizeMod → i < num → i + 2 ≤ rounds →
    buildHeapChecked call num rounds i data = some (buildHeap null call num i data)
  | 0, rounds + 2, data, hsize, hnum, hi, _ => by
    have hwrap : ¬ (0 + sizeMod - 1) % sizeMod < num := by
      rw [Nat.mod_eq_of_lt] <;> simp only [sizeMod] at hnum ⊢ <;> omega
    rw [buildHeapChecked, if_pos hi, downHeapChecked_eq null hsize.ge (by omega) hi (by omega),
      bind_some, buildHeapChecked, if_neg hwrap, buildHeap]
  | i + 1, rounds + 1, data, hsize, hnum, hi, hrounds => by
    have hdown : (i + 1 + sizeMod - 1) % sizeMod = i := by
      rw [show i + 1 + sizeMod - 1 = i + sizeMod by omega, Nat.add_mod_right,
        Nat.mod_eq_of_lt (by omega)]
    rw [buildHeapChecked, if_pos hi, downHeapChecked_eq null hsize.ge (by omega) hi (by omega),
      bind_some, hdown, buildHeap]
    exact buildHeapChecked_eq null ((downHeap_size ..).trans hsize) hnum (by omega) (by omega)

lemma takeHeapChecked_eq (null : P) : ∀ {i rounds : ℕ} {data : Array P},
    2 * data.size < sizeMod → i < data.size → i + 1 ≤ rounds →
    takeHeapChecked call rounds i data = some (takeHeap null call i data)
  | 0, rounds + 1, data, _, _, _ => rfl
  | i + 1, rounds + 1, data, hsize, hi, hrounds => by
    rw [takeHeapChecked, if_pos (Nat.succ_pos i), swapChecked_eq (by omega) hi, bind_some,
      downHeapChecked_eq null (by simpa using hi.le) (by simpa using hsize) (Nat.succ_pos i)
        (by omega), bind_some, takeHeap]
    refine takeHeapChecked_eq null ?_ ?_ (by omega) <;>
      rw [downHeap_size, Array.size_swapIfInBounds] <;> omega

lemma heapSortChecked_eq (null : P) (hsize : 2 * data.size < sizeMod) :
    heapSortChecked call data = some (heapSort null call data) := by
  rw [heapSortChecked, heapSort]
  by_cases htwo : data.size ≥ 2
  · have hparent : parentIdx (data.size - 1) + 2 ≤ data.size + 1 := by unfold parentIdx; omega
    rw [if_pos htwo, if_pos htwo, buildHeapChecked_eq null rfl hsize (by omega) hparent, bind_some]
    have hbuilt : (buildHeap null call data.size (parentIdx (data.size - 1)) data).size
        = data.size := buildHeap_size ..
    exact takeHeapChecked_eq null (by omega) (by omega) (by omega)
  · rw [if_neg htwo, if_neg htwo]

end HeapSort

variable {sk : Stack P C}

/-! ## The flag -/

variable (cmp) in
/-- A stack flagged as sorted is in order, if its comparison function is an order. -/
def FlagOk (sk : Stack P C) : Prop :=
  sk.sorted = true → ∀ c, sk.comp = some c → IsOrder (cmp c) → Ascending (cmp c) sk.data

lemma FlagOk.sublist {sk' : Stack P C} (h : FlagOk cmp sk) (hsorted : sk'.sorted = sk.sorted)
    (hcomp : sk'.comp = sk.comp) (hdata : sk'.data.toList.Sublist sk.data.toList) :
    FlagOk cmp sk' :=
  fun hs c hc hord => (h (hsorted ▸ hs) c (hcomp ▸ hc) hord).sublist hdata

lemma flagOk_of_not_sorted (h : sk.sorted = false) : FlagOk cmp sk :=
  fun hs => absurd hs (by simp [h])

lemma skInsert_flagOk (h : FlagOk cmp sk) (p : P) (place : ℕ) (reallocOk : Bool) :
    FlagOk cmp (sk.skInsert p place reallocOk).1 := by
  unfold skInsert
  by_cases hmax : sk.num ≥ intMax
  · rwa [if_pos hmax]
  · rw [if_neg hmax]
    split
    · exact h
    · exact flagOk_of_not_sorted rfl

lemma skDelete_flagOk (h : FlagOk cmp sk) (place : ℕ) : FlagOk cmp (sk.skDelete null place).1 := by
  unfold skDelete
  split_ifs
  · exact h
  · exact h.sublist rfl rfl (by simpa using eraseIdx_sublist _ _)

lemma deleteIfLoop_sublist (call : ℕ → P → Bool) : ∀ (i : ℕ) (rest : List P) (kept : Array P),
    (deleteIfLoop call i rest kept).toList.Sublist (kept.toList ++ rest)
  | _, [], kept => by simp [deleteIfLoop]
  | i, p :: rest, kept => by
    refine (deleteIfLoop_sublist call (i + 1) rest _).trans ?_
    split_ifs
    · simp
    · exact Sublist.append_left (sublist_cons_self p rest) _

lemma skDelete_num_le (sk : Stack P C) (place : ℕ) : (sk.skDelete null place).1.num ≤ sk.num := by
  unfold skDelete
  split_ifs
  · exact le_rfl
  · have hsub : (sk.data.eraseIdxIfInBounds place).toList.Sublist sk.data.toList := by
      simpa using eraseIdx_sublist _ _
    exact hsub.length_le

lemma skInsert_num_le (h : sk.num ≤ intMax) (p : P) (place : ℕ) (reallocOk : Bool) :
    (sk.skInsert p place reallocOk).1.num ≤ intMax := by
  unfold skInsert
  by_cases hmax : sk.num ≥ intMax
  · rwa [if_pos hmax]
  rw [if_neg hmax]
  split
  · exact h
  · unfold num at hmax ⊢
    split_ifs <;> simp <;> omega

lemma skSort_num (sk : Stack P C) : (sk.skSort null cmp).num = sk.num := by
  unfold skSort
  split
  · rfl
  · split_ifs
    · rfl
    · simp only [num, heapSort]
      split_ifs
      · rw [takeHeap_size, buildHeap_size]
      · rfl

lemma skSort_flagOk (h : FlagOk cmp sk) : FlagOk cmp (sk.skSort null cmp) := by
  unfold skSort
  split
  · exact h
  · next c hc =>
    split_ifs
    · exact h
    · intro _ c' hc' hord
      cases hc.symm.trans hc'
      exact (heapSort_spec hord null sk.data).1

variable [DecidableEq P] [DecidableEq C]

lemma apply_flagOk (h : FlagOk cmp sk) {op : Op P C} (hop : KeepsOrder null cmp sk op) :
    FlagOk cmp (sk.apply null cmp op) := by
  cases op with
  | insert p place reallocOk => exact skInsert_flagOk h p place reallocOk
  | push p reallocOk => exact skInsert_flagOk h p sk.num reallocOk
  | pop =>
    simp only [apply, skPop]
    split_ifs
    · exact h
    · exact skDelete_flagOk h _
  | shift =>
    simp only [apply, skShift]
    split_ifs
    · exact h
    · exact skDelete_flagOk h _
  | delete place => exact skDelete_flagOk h place
  | deletePtr p =>
    simp only [apply, skDeletePtr]
    split
    · exact skDelete_flagOk h _
    · exact h
  | deleteIf call =>
    exact h.sublist rfl rfl (by
      simpa [apply, skDeleteIf] using deleteIfLoop_sublist call 0 sk.data.toList #[])
  | set i value =>
    intro hs c hc hord
    have hflag : ∀ sk' : Stack P C, sk' = (sk.skSet null i value).1 →
        sk'.sorted = sk.sorted ∧ sk'.comp = sk.comp := by
      rintro _ rfl
      unfold skSet
      split_ifs <;> exact ⟨rfl, rfl⟩
    obtain ⟨h1, h2⟩ := hflag _ rfl
    exact hop (h1 ▸ hs) c (h2 ▸ hc) hord
  | zero =>
    simp only [apply, skZero]
    split_ifs
    · exact h
    · exact flagOk_of_not_sorted rfl
  | sort => exact skSort_flagOk h
  | setCmpFunc comp =>
    simp only [apply, skSetCmpFunc]
    by_cases hc : sk.comp = comp
    · subst hc
      simpa [FlagOk] using h
    · exact flagOk_of_not_sorted (by simp [hc])
  | dup => exact h

lemma reachable_flagOk (h : Reachable null cmp (KeepsOrder null cmp) sk) : FlagOk cmp sk := by
  induction h with
  | new comp => exact flagOk_of_not_sorted rfl
  | step _ hmay ih => exact apply_flagOk ih hmay

lemma apply_num_le (h : sk.num ≤ intMax) (op : Op P C) : (sk.apply null cmp op).num ≤ intMax := by
  cases op with
  | insert p place reallocOk => exact skInsert_num_le h p place reallocOk
  | push p reallocOk => exact skInsert_num_le h p sk.num reallocOk
  | pop =>
    simp only [apply, skPop]
    split_ifs
    · exact h
    · exact (skDelete_num_le sk _).trans h
  | shift =>
    simp only [apply, skShift]
    split_ifs
    · exact h
    · exact (skDelete_num_le sk _).trans h
  | delete place => exact (skDelete_num_le sk place).trans h
  | deletePtr p =>
    simp only [apply, skDeletePtr]
    split
    · exact (skDelete_num_le sk _).trans h
    · exact h
  | deleteIf call =>
    have hsub := (deleteIfLoop_sublist call 0 sk.data.toList #[]).length_le
    exact le_trans (by simpa [apply, skDeleteIf, num] using hsub) h
  | set i value =>
    simp only [apply, skSet]
    split_ifs
    · exact h
    · simpa [num] using h
  | zero =>
    simp only [apply, skZero]
    split_ifs
    · exact h
    · exact Nat.zero_le _
  | sort => exact (skSort_num sk).trans_le h
  | setCmpFunc comp => exact h
  | dup => exact h

lemma reachable_num_le {may : Stack P C → Op P C → Prop} (h : Reachable null cmp may sk) :
    sk.num ≤ intMax := by
  induction h with
  | new comp => exact Nat.zero_le _
  | step _ _ ih => exact apply_num_le ih _

/-- Sorting ends without an access outside the array and permutes the elements, and it leaves them
in order exactly if it was not flagged as sorted, or was in order. -/
theorem skSort_sorts {may : Stack P C → Op P C → Prop} {sk : Stack P C}
    (hreach : Reachable null cmp may sk) {c : C} (hc : sk.comp = some c)
    (hord : IsOrder (cmp c)) :
    ∃ sk', sk.skSortChecked cmp = some sk' ∧ sk' = sk.skSort null cmp ∧ sk'.data.Perm sk.data
      ∧ (Ascending (cmp c) sk'.data ↔ (sk.sorted = true → Ascending (cmp c) sk.data)) := by
  have hsize : 2 * sk.data.size < sizeMod := by
    have := reachable_num_le hreach
    unfold num intMax at this
    unfold sizeMod
    omega
  refine ⟨sk.skSort null cmp, ?_, rfl, ?_⟩
  · simp only [skSortChecked, skSort, hc, heapSortChecked_eq null hsize, map_some]
    split_ifs <;> rfl
  · simp only [skSort, hc]
    split_ifs with hs
    · exact ⟨Array.Perm.refl _, fun hasc _ => hasc, fun hflag => hflag hs⟩
    · obtain ⟨hasc, hperm⟩ := heapSort_spec hord null sk.data
      exact ⟨hperm, fun _ hflag => absurd hflag hs, fun _ => hasc⟩

/-! ## Finding -/

/-- `r` is the first of the `n` places where `eq` holds, if there is one. -/
def FirstMatch (eq : ℕ → Prop) (n : ℕ) : Option ℕ → Prop
  | some i => i < n ∧ eq i ∧ ∀ j < i, ¬ eq j
  | none => ∀ i < n, ¬ eq i

lemma firstMatch_find (eq : ℕ → Prop) [DecidablePred eq] (n : ℕ) :
    FirstMatch eq n ((List.range n).find? fun i => eq i) := by
  rcases hr : (List.range n).find? fun i => eq i with _ | i
  · simpa [FirstMatch] using find?_range_eq_none.mp hr
  · have h := find?_range_eq_some.mp hr
    simp only [decide_eq_true_eq, mem_range, Bool.not_eq_eq_eq_not, Bool.not_true,
      decide_eq_false_iff_not] at h
    exact ⟨h.2.1, h.1, h.2.2⟩

/-- The comparisons of a needle with elements in order: first greater, then equal, then less. -/
structure Falls (call : ℕ → ℤ) (n : ℕ) : Prop where
  neg : ∀ i j, i ≤ j → j < n → call i < 0 → call j < 0
  pos : ∀ i j, i ≤ j → j < n → 0 < call j → 0 < call i

/-- The places before `lo` are too low, and those from `hi` on too high, or `hi` is just after a
match. -/
lemma findSorted_firstMatch {call : ℕ → ℤ} {n : ℕ} (hcall : Falls call n) :
    ∀ {fuel lo hi : ℕ}, hi ≤ n → hi - lo < fuel → (∀ i < lo, 0 < call i) →
      ((∀ i, hi ≤ i → i < n → call i < 0) ∨ (lo < hi ∧ call (hi - 1) = 0)) →
      FirstMatch (fun i => call i = 0) n (findSorted call fuel lo hi)
  | fuel + 1, lo, hi, hn, hfuel, hlo, hhi => by
    rw [findSorted]
    by_cases hlt : lo < hi
    · rw [if_pos hlt]
      obtain ⟨mid, hmid⟩ : ∃ mid, mid = lo + (hi - lo - 1) / 2 := ⟨_, rfl⟩
      simp only [← hmid]
      by_cases hpos : call mid > 0
      · rw [if_pos hpos]
        refine findSorted_firstMatch hcall hn (by omega) (fun i hi' => ?_) ?_
        · exact hcall.pos i mid (by omega) (by omega) hpos
        · grind
      rw [if_neg hpos]
      by_cases hneg : call mid < 0
      · rw [if_pos hneg]
        refine findSorted_firstMatch hcall (by omega) (by omega) hlo (.inl fun i hi' hlt' => ?_)
        exact hcall.neg mid i hi' hlt' hneg
      have hzero : call mid = 0 := by omega
      split_ifs with hone
      · refine ⟨by omega, hzero, fun j hj => ?_⟩
        have := hlo j (by omega)
        omega
      · exact findSorted_firstMatch hcall (by omega) (by omega) hlo
          (.inr ⟨by omega, by simpa using hzero⟩)
    · rw [if_neg hlt]
      intro i hi'
      rcases hhi with h | h
      · grind
      · exact absurd h.1 hlt

omit [DecidableEq P] in
lemma Ascending.getD_le {call : P → P → ℤ} (hcall : IsOrder call) {data : Array P}
    (h : Ascending call data) {i j : ℕ} (hij : i ≤ j) (hj : j < data.size) :
    call (data.getD i null) (data.getD j null) ≤ 0 := by
  rcases Nat.eq_or_lt_of_le hij with rfl | hlt
  · exact le_refl hcall _
  · have := pairwise_iff_getElem.mp h i j (by simpa using hlt.trans hj) (by simpa using hj) hlt
    simpa [hj, hlt.trans hj] using this

omit [DecidableEq P] in
lemma Ascending.falls {call : P → P → ℤ} (hcall : IsOrder call) {data : Array P}
    (h : Ascending call data) (p : P) : Falls (fun i => call p (data.getD i null)) data.size := by
  refine ⟨fun i j hij hj hneg => ?_, fun i j hij hj hpos => ?_⟩
  · by_contra hge
    have hjp := (hcall.flip (data.getD j null) p).mpr (Int.not_lt.mp hge)
    have hip := (hcall.flip _ _).mp (hcall.trans _ _ _ (h.getD_le hcall hij hj) hjp)
    omega
  · by_contra hle
    have := hcall.trans _ _ _ (Int.not_lt.mp hle) (h.getD_le hcall hij hj)
    omega

omit [DecidableEq P] [DecidableEq C] in
lemma FlagOk.ascending (null : P) (h : FlagOk cmp sk) {c : C} (hc : sk.comp = some c)
    (hord : IsOrder (cmp c)) (hs : sk.skIsSorted = true) : Ascending (cmp c) sk.data := by
  by_cases hflag : sk.sorted = true
  · exact h hflag c hc hord
  · have hnum : sk.num < 2 := by simpa [skIsSorted, hflag, hc] using hs
    refine ascending_of_seq null fun i j hij hj => ?_
    obtain rfl : i = j := by unfold num at hnum; omega
    exact le_refl hord _

omit [DecidableEq C] in
lemma skFind_firstMatch (h : FlagOk cmp sk) {c : C} (hc : sk.comp = some c) (hord : IsOrder (cmp c))
    {p : P} (hp : p ≠ null) :
    FirstMatch (fun i => cmp c p (sk.data.getD i null) = 0) sk.num (sk.skFind null cmp p) := by
  simp only [skFind, hc]
  rw [if_neg hp]
  by_cases hs : sk.skIsSorted = true
  · rw [if_neg (by simp [hs])]
    exact findSorted_firstMatch ((h.ascending null hc hord hs).falls hord p) le_rfl
      (by omega) nofun (.inl fun i hi hlt => absurd hlt (by unfold num at hi; omega))
  · rw [if_pos (by simpa using hs)]
    exact firstMatch_find _ _

/-- In a run whose calls of `OPENSSL_sk_set` leave flagged stacks in order, a stack that says it is
sorted is in order, and a needle's first match is found. -/
theorem reachable_find {sk : Stack P C} (h : Reachable null cmp (KeepsOrder null cmp) sk) :
    (∀ c, sk.comp = some c → IsOrder (cmp c) →
        (sk.skIsSorted = true → Ascending (cmp c) sk.data)
        ∧ ∀ p, p ≠ null →
          FirstMatch (fun i => cmp c p (sk.data.getD i null) = 0) sk.num (sk.skFind null cmp p))
      ∧ (sk.comp = none → ∀ p,
          FirstMatch (fun i => sk.data.getD i null = p) sk.num (sk.skFind null cmp p)) := by
  have hflag := reachable_flagOk h
  refine ⟨fun c hc hord => ⟨hflag.ascending null hc hord, fun p hp => ?_⟩, fun hc p => ?_⟩
  · exact skFind_firstMatch hflag hc hord hp
  · simp only [skFind, hc]
    exact firstMatch_find _ _

def natCmp (_ : Unit) (a b : ℕ) : ℤ := (a : ℤ) - b

def sortedThree : Stack ℕ Unit :=
  (((((skNew (some ())).apply 0 natCmp (.push 3 true)).apply 0 natCmp (.push 1 true)).apply 0 natCmp
    (.push 2 true)).apply 0 natCmp .sort)

lemma natCmp_isOrder : IsOrder (natCmp ()) :=
  ⟨fun a b => by unfold natCmp; omega, fun a b c => by unfold natCmp; omega⟩

example : sortedThree.skFind 0 natCmp 3 = some 2 := by decide +kernel

theorem reachable_find_three : sortedThree.data = #[1, 2, 3]
    ∧ FirstMatch (fun i => natCmp () 2 (sortedThree.data.getD i 0) = 0) sortedThree.num
      (sortedThree.skFind 0 natCmp 2) := by
  have hreach : Reachable 0 natCmp (KeepsOrder 0 natCmp) sortedThree :=
    .step (.step (.step (.step (.new _) trivial) trivial) trivial) trivial
  exact ⟨by decide +kernel, ((reachable_find hreach).1 () (by decide +kernel) natCmp_isOrder).2 2
    (by decide)⟩

/-- The first element of a sorted stack is replaced by a larger one: the stack still says that it is
sorted, and the new element is not found. -/
theorem skFind_after_set :
    let sk := (sortedThree.skSet 0 0 5).1
    sk.data = #[5, 2, 3] ∧ sk.skIsSorted = true ∧ ¬ Ascending (natCmp ()) sk.data
      ∧ sk.skFind 0 natCmp 5 = none := by
  refine ⟨by decide +kernel, by decide +kernel, ?_, by decide +kernel⟩
  have hdata : (sortedThree.skSet 0 0 5).1.data = #[5, 2, 3] := by decide +kernel
  rw [hdata]
  simp [Ascending, natCmp]

example : sortedThree.skSortChecked natCmp = some sortedThree := by decide +kernel

theorem skSort_sorts_three :
    let sk := (((skNew (some ())).apply 0 natCmp (.push 3 true)).apply 0 natCmp
      (.push 1 true)).apply 0 natCmp (.push 2 true)
    sk.data = #[3, 1, 2] ∧ ∃ sk', sk.skSortChecked natCmp = some sk'
      ∧ sk'.data.Perm #[3, 1, 2] ∧ Ascending (natCmp ()) sk'.data := by
  intro sk
  have hdata : sk.data = #[3, 1, 2] := by decide +kernel
  have hreach : Reachable 0 natCmp (fun _ _ => True) sk :=
    .step (.step (.step (.new _) trivial) trivial) trivial
  have hcomp : sk.comp = some () := by decide +kernel
  obtain ⟨sk', hsort, -, hperm, hasc⟩ := skSort_sorts hreach hcomp natCmp_isOrder
  exact ⟨hdata, sk', hsort, hdata ▸ hperm, hasc.mpr fun hs => absurd hs (by decide +kernel)⟩

/-- After `OPENSSL_sk_set` on a sorted stack, the flag that is still set keeps it from being sorted
again. -/
theorem skSort_after_set :
    let sk := (sortedThree.skSet 0 0 5).1
    sk.comp = some () ∧ IsOrder (natCmp ()) ∧ sk.data = #[5, 2, 3]
      ∧ (sk.skSort 0 natCmp).data = #[5, 2, 3]
      ∧ ¬ Ascending (natCmp ()) (sk.skSort 0 natCmp).data := by
  intro sk
  have hsort : (sk.skSort 0 natCmp).data = #[5, 2, 3] := by decide +kernel
  refine ⟨by decide +kernel, natCmp_isOrder, by decide +kernel, hsort, ?_⟩
  rw [hsort]
  simp [Ascending, natCmp]

end Stack

end BoringSSL
