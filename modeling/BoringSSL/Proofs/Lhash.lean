import BoringSSL.Lhash
import Mathlib

/-!
# The hash table is a map

A table stands for a map keyed by the equivalence of `cmp` when its elements are the map's, each
item is in the chain its hash belongs to, and `num_items` counts them (`Represents`).  Each call
does to the map what it should (`apply_represents`).
-/

namespace BoringSSL

open List Option

namespace Lhash

variable {i newNumBuckets : ℕ} {P A : Type} {hash : P → UInt32} {cmp : P → P → ℤ} {lh : Lhash P}

/-- Elements that compare equal. -/
def cmpSetoid (h : Equivalence fun a b => cmp a b = 0) : Setoid P := ⟨fun a b => cmp a b = 0, h⟩

instance (h : Equivalence fun a b => cmp a b = 0) : DecidableRel (cmpSetoid h) :=
  fun a b => inferInstanceAs (Decidable (cmp a b = 0))

/-- Each item carries the hash of its element, and is in the chain this belongs to. -/
structure Filed (hash : P → UInt32) (lh : Lhash P) : Prop where
  room : kMinNumBuckets ≤ lh.numBuckets
  placed : ∀ i, ∀ it ∈ lh.chain i, it.hash = hash it.data ∧ it.hash.toNat % lh.numBuckets = i

/-- The table holds the elements of the map. -/
structure Represents (hash : P → UInt32) {S : Setoid P} (lh : Lhash P) (m : Keyed S) : Prop
    extends Filed hash lh where
  count : lh.numItems = lh.items.length
  lists : m.Lists lh.elements

section Chains

lemma mem_items_of_mem_chain {it : LhashItem P} (h : it ∈ lh.chain i) : it ∈ lh.items := by
  unfold chain at h
  by_cases hi : i < lh.buckets.size
  · rw [Array.getD_eq_getD_getElem?, Array.getElem?_eq_getElem hi, getD_some] at h
    exact mem_flatten.mpr ⟨_, Array.getElem_mem_toList hi, h⟩
  · simp [hi] at h

lemma exists_chain_of_mem_items {it : LhashItem P} (h : it ∈ lh.items) :
    ∃ i, it ∈ lh.chain i := by
  obtain ⟨c, hc, hit⟩ := mem_flatten.mp h
  obtain ⟨i, hi, rfl⟩ := getElem_of_mem hc
  exact ⟨i, by simpa [chain, show i < lh.buckets.size by simpa using hi] using hit⟩

lemma exists_rest (bs : Array (List (LhashItem P))) (hi : i < bs.size) :
    ∃ rest, bs.toList.flatten.Perm (bs.getD i [] ++ rest)
      ∧ ∀ f, (bs.modify i f).toList.flatten.Perm (f (bs.getD i []) ++ rest) := by
  have hi' : i < bs.toList.length := by simpa using hi
  refine ⟨(bs.toList.take i).flatten ++ (bs.toList.drop (i + 1)).flatten, ?_, fun f => ?_⟩
  · have hsplit : bs.toList = bs.toList.take i ++ bs.getD i [] :: bs.toList.drop (i + 1) := by
      rw [Array.getD_eq_getD_getElem?, Array.getElem?_eq_getElem hi, getD_some,
        ← Array.getElem_toList hi, ← drop_eq_getElem_cons, take_append_drop]
    conv_lhs => rw [hsplit]
    simp only [flatten_append, flatten_cons]
    exact perm_append_comm_assoc _ _ _
  · have hsplit : (bs.modify i f).toList
        = bs.toList.take i ++ f (bs.getD i []) :: bs.toList.drop (i + 1) := by
      rw [Array.toList_modify, modify_eq_take_cons_drop hi']
      simp [hi]
    rw [hsplit]
    simp only [flatten_append, flatten_cons]
    exact perm_append_comm_assoc _ _ _

variable {slot : Slot} {rest : List (LhashItem P)}

@[simp] lemma store_numItems : (lh.store slot rest).numItems = lh.numItems := rfl

@[simp] lemma store_callbackDepth :
    (lh.store slot rest).callbackDepth = lh.callbackDepth := rfl

@[simp] lemma store_numBuckets : (lh.store slot rest).numBuckets = lh.numBuckets := by
  simp [store, numBuckets]

lemma store_chain (rest : List (LhashItem P)) (h : slot.bucket < lh.numBuckets) (i : ℕ) :
    (lh.store slot rest).chain i
    = if i = slot.bucket then (lh.chain slot.bucket).take slot.pos ++ rest else lh.chain i := by
  unfold numBuckets at h
  by_cases hi : i = slot.bucket
  · subst hi
    simp [store, chain, h, Array.getElem_modify]
  · simp [store, chain, hi, Array.getElem?_modify, Ne.symm hi]

lemma exists_store_items (h : slot.bucket < lh.numBuckets) :
    ∃ others, lh.items.Perm (lh.chain slot.bucket ++ others)
      ∧ ∀ rest, (lh.store slot rest).items.Perm
        ((lh.chain slot.bucket).take slot.pos ++ rest ++ others) := by
  obtain ⟨others, hitems, hmodify⟩ := exists_rest lh.buckets h
  exact ⟨others, hitems, fun rest => hmodify _⟩

lemma Filed.store (hf : Filed hash lh) (h : slot.bucket < lh.numBuckets)
    (hrest : ∀ it ∈ rest, it.hash = hash it.data ∧ it.hash.toNat % lh.numBuckets = slot.bucket) :
    Filed hash (lh.store slot rest) := by
  refine ⟨by simpa using hf.room, fun i it hit => ?_⟩
  rw [store_chain rest h] at hit
  rw [store_numBuckets]
  split_ifs at hit with hi
  · rcases mem_append.mp hit with hit | hit
    · exact hi ▸ hf.placed _ it (mem_of_mem_take hit)
    · exact hi ▸ hrest it hit
  · exact hf.placed i it hit

lemma Filed.mod_lt (hf : Filed hash lh) (n : ℕ) : n % lh.numBuckets < lh.numBuckets :=
  Nat.mod_lt _ (lt_of_lt_of_le (by decide) hf.room)

lemma Filed.mem_chain (hf : Filed hash lh) {it : LhashItem P} (hit : it ∈ lh.items) :
    it ∈ lh.chain ((hash it.data).toNat % lh.numBuckets) := by
  obtain ⟨i, hi⟩ := exists_chain_of_mem_items hit
  obtain ⟨hhash, hmod⟩ := hf.placed i it hi
  rwa [← hhash, hmod]

end Chains

section Search

lemma findIdx_cases {α : Type} (p : α → Bool) (l : List α) :
    (∃ pre x suf, l = pre ++ x :: suf ∧ l.findIdx p = pre.length ∧ p x = true)
      ∨ l.findIdx p = l.length ∧ ∀ x ∈ l, p x = false := by
  rcases Nat.lt_or_ge (l.findIdx p) l.length with h | h
  · refine .inl ⟨l.take (l.findIdx p), l[l.findIdx p], l.drop (l.findIdx p + 1), ?_, ?_, ?_⟩
    · rw [← drop_eq_getElem_cons, take_append_drop]
    · rw [length_take, min_eq_left h.le]
    · exact findIdx_getElem
  · grind

variable {slot : Slot} {pre suf : List (LhashItem P)} {it : LhashItem P}

lemma load_eq_some (h : lh.chain slot.bucket = pre ++ it :: suf) (hpos : slot.pos = pre.length) :
    lh.load slot = some it := by
  simp [load, h, hpos]

lemma next_eq (h : lh.chain slot.bucket = pre ++ it :: suf) (hpos : slot.pos = pre.length) :
    lh.next slot = suf := by
  simp [next, h, hpos, drop_append]

lemma load_eq_none (hpos : slot.pos = (lh.chain slot.bucket).length) : lh.load slot = none := by
  simp [load, hpos]

lemma elements_perm {l : List (LhashItem P)} (h : lh.items.Perm l) :
    lh.elements.Perm (l.map (·.data)) := h.map _

lemma mem_elements {v : P} : v ∈ lh.elements ↔ ∃ it ∈ lh.items, it.data = v := List.mem_map

lemma Filed.search_cases (hf : Filed hash lh) (keyHash : UInt32) (p : P → Bool) :
    let b := keyHash.toNat % lh.numBuckets
    let pos := (lh.chain b).findIdx fun cur => p cur.data
    (∃ pre it suf, lh.chain b = pre ++ it :: suf ∧ pos = pre.length ∧ p it.data = true)
      ∨ pos = (lh.chain b).length ∧ ∀ v ∈ lh.elements, hash v = keyHash → p v = false := by
  intro b pos
  rcases findIdx_cases (fun cur : LhashItem P => p cur.data) (lh.chain b) with h | ⟨hpos, hnone⟩
  · exact .inl h
  · refine .inr ⟨hpos, fun v hv hhash => ?_⟩
    obtain ⟨it, hit, rfl⟩ := mem_elements.mp hv
    exact hnone it (by simpa [b, ← hhash] using hf.mem_chain hit)

lemma Filed.hashed (hf : Filed hash lh) {it : LhashItem P} (hit : it ∈ lh.items) :
    it.hash = hash it.data := by
  obtain ⟨i, hi⟩ := exists_chain_of_mem_items hit
  exact (hf.placed i it hi).1

end Search

section Rebucket

lemma foldl_rebucketItem (hnew : 0 < newNumBuckets) :
    ∀ (l : List (LhashItem P)) (bs : Array (List (LhashItem P))), bs.size = newNumBuckets →
      (∀ i, ∀ it ∈ bs.getD i [], it.hash.toNat % newNumBuckets = i) →
      (l.foldl (rebucketItem newNumBuckets) bs).size = newNumBuckets
        ∧ (∀ i, ∀ it ∈ (l.foldl (rebucketItem newNumBuckets) bs).getD i [],
          it.hash.toNat % newNumBuckets = i)
        ∧ (l.foldl (rebucketItem newNumBuckets) bs).toList.flatten.Perm (l ++ bs.toList.flatten)
  | [], _, hsize, hplaced => ⟨hsize, hplaced, .refl _⟩
  | cur :: l, bs, hsize, hplaced => by
    have hlt : cur.hash.toNat % newNumBuckets < bs.size := by
      rw [hsize]
      exact Nat.mod_lt _ hnew
    have hplaced' : ∀ i, ∀ it ∈ (rebucketItem newNumBuckets bs cur).getD i [],
        it.hash.toNat % newNumBuckets = i := by
      intro i it hit
      by_cases hi : cur.hash.toNat % newNumBuckets = i
      · subst hi
        rcases (by simpa [rebucketItem, hlt, Array.getElem_modify] using hit) with rfl | hit
        · rfl
        · exact hplaced _ it (by simpa [hlt] using hit)
      · exact hplaced i it (by simpa [rebucketItem, Array.getElem?_modify, hi] using hit)
    obtain ⟨hsize', hplaced', hperm⟩ := foldl_rebucketItem hnew l
      (rebucketItem newNumBuckets bs cur) (by simpa [rebucketItem] using hsize) hplaced'
    obtain ⟨others, hitems, hmodify⟩ := exists_rest bs hlt
    refine ⟨hsize', hplaced', hperm.trans ?_⟩
    calc l ++ (rebucketItem newNumBuckets bs cur).toList.flatten
        |>.Perm (l ++ cur :: bs.toList.flatten) :=
          ((hmodify _).trans (hitems.symm.cons cur)).append_left l
      _ |>.Perm (cur :: (l ++ bs.toList.flatten)) := perm_middle

variable {S : Setoid P} {m : Keyed S}

lemma lhRebucket_represents (h : Represents hash lh m)
    (hnew : kMinNumBuckets ≤ newNumBuckets) (allocOk : Bool) :
    Represents hash (lh.lhRebucket newNumBuckets allocOk) m := by
  unfold lhRebucket
  by_cases hsize : 8 * newNumBuckets % sizeMod / 8 ≠ newNumBuckets
  · rwa [if_pos hsize]
  rw [if_neg hsize]
  by_cases halloc : allocOk = false
  · rwa [if_pos halloc]
  rw [if_neg halloc]
  obtain ⟨hsize', hplaced, hperm⟩ := foldl_rebucketItem
    (lt_of_lt_of_le (by decide) hnew) lh.items (Array.replicate newNumBuckets []) (by simp)
    (fun i it hit => by by_cases hi : i < newNumBuckets <;> simp [hi] at hit)
  have hfold : lh.buckets.foldl (fun newBuckets chain =>
      chain.foldl (rebucketItem newNumBuckets) newBuckets) (Array.replicate newNumBuckets [])
      = lh.items.foldl (rebucketItem newNumBuckets) (Array.replicate newNumBuckets []) := by
    rw [items, foldl_flatten, Array.foldl_toList]
  rw [hfold]
  have hitems : (lh.items.foldl (rebucketItem newNumBuckets)
      (Array.replicate newNumBuckets [])).toList.flatten.Perm lh.items := by
    simpa using hperm
  refine ⟨⟨by simpa [numBuckets, hsize'] using hnew, fun i it hit => ⟨?_, ?_⟩⟩, ?_, ?_⟩
  · exact h.hashed (hitems.mem_iff.mp (mem_items_of_mem_chain hit))
  · rw [numBuckets, hsize']
    exact hplaced i it hit
  · exact h.count.trans hitems.symm.length_eq
  · exact h.lists.perm (elements_perm hitems.symm)

lemma lhMaybeResize_represents (h : Represents hash lh m) (allocOk : Bool) :
    Represents hash (lh.lhMaybeResize allocOk) m := by
  have hroom := h.room
  unfold lhMaybeResize
  dsimp only
  split_ifs
  · exact h
  · exact lhRebucket_represents h (by omega) allocOk
  · exact h
  · exact lhRebucket_represents h le_rfl allocOk
  · exact lhRebucket_represents h (by omega) allocOk
  · exact h

end Rebucket

section Calls

variable {heq : Equivalence fun a b => cmp a b = 0} {m : Keyed (cmpSetoid heq)}

lemma Represents.search (h : Represents hash lh m) (hhash : ∀ a b, cmp a b = 0 → hash a = hash b)
    (data : P) : ∀ slot, slot = (lh.getNextPtrAndHash hash cmp data).1 →
    slot.bucket < lh.numBuckets ∧
      ((∃ pre it suf, lh.chain slot.bucket = pre ++ it :: suf ∧ slot.pos = pre.length
          ∧ cmp it.data data = 0 ∧ m.get data = some it.data)
        ∨ slot.pos = (lh.chain slot.bucket).length ∧ m.get data = none
          ∧ (∀ v ∈ lh.elements, ¬ cmpSetoid heq v data)) := by
  rintro slot rfl
  refine ⟨h.mod_lt _, ?_⟩
  rcases h.search_cases (hash data) fun v => cmp v data = 0 with
    ⟨pre, it, suf, hchain, hpos, hp⟩ | ⟨hpos, hnone⟩
  · have hit : it.data ∈ lh.elements :=
      mem_elements.mpr ⟨it, mem_items_of_mem_chain (by rw [hchain]; simp), rfl⟩
    have hcmp : cmp it.data data = 0 := by simpa using hp
    exact .inl ⟨pre, it, suf, hchain, hpos, hcmp, h.lists.get_eq_some hit hcmp⟩
  · have hnone' : ∀ v ∈ lh.elements, ¬ cmpSetoid heq v data := fun v hv hcmp =>
      of_decide_eq_false (hnone v hv (hhash v data hcmp)) hcmp
    exact .inr ⟨hpos, h.lists.get_eq_none_iff.mpr hnone', hnone'⟩

lemma lhRetrieve_eq (h : Represents hash lh m) (hhash : ∀ a b, cmp a b = 0 → hash a = hash b) :
    lh.lhRetrieve hash cmp = m.get := by
  funext data
  obtain ⟨-, ⟨pre, it, suf, hchain, hpos, -, hget⟩ | ⟨hpos, hget, -⟩⟩ := h.search hhash data _ rfl
  · rw [hget, lhRetrieve, load_eq_some hchain hpos, map_some]
  · rw [hget, lhRetrieve, load_eq_none hpos, map_none]

lemma lhRetrieveKey_cases (h : Represents hash lh m) (keyHash : UInt32) (cmpKey : P → ℤ) :
    (∃ v ∈ m.stored, cmpKey v = 0 ∧ lh.lhRetrieveKey keyHash cmpKey = some v)
      ∨ (lh.lhRetrieveKey keyHash cmpKey = none
        ∧ ∀ v ∈ m.stored, hash v = keyHash → cmpKey v ≠ 0) := by
  rcases h.search_cases keyHash fun v => cmpKey v = 0 with
    ⟨pre, it, suf, hchain, hpos, hp⟩ | ⟨hpos, hnone⟩
  · have hit : it.data ∈ lh.elements :=
      mem_elements.mpr ⟨it, mem_items_of_mem_chain (by rw [hchain]; simp), rfl⟩
    have hload : lh.load (lh.getNextPtrByKey keyHash cmpKey) = some it := load_eq_some hchain hpos
    exact .inl ⟨it.data, (h.lists.mem_iff _).mp hit, by simpa using hp, by
      rw [lhRetrieveKey, hload, map_some]⟩
  · have hload : lh.load (lh.getNextPtrByKey keyHash cmpKey) = none := load_eq_none hpos
    exact .inr ⟨by rw [lhRetrieveKey, hload, map_none], fun v hv hhash =>
      of_decide_eq_false (hnone v ((h.lists.mem_iff v).mpr hv) hhash)⟩

lemma elements_perm_cons {items pre suf others : List (LhashItem P)} {it : LhashItem P}
    (h : items.Perm (pre ++ it :: suf ++ others)) :
    items.Perm (it :: (pre ++ suf ++ others)) := by
  refine h.trans ?_
  rw [append_assoc, cons_append, append_assoc]
  exact perm_middle

lemma lhInsert_represents (h : Represents hash lh m)
    (hhash : ∀ a b, cmp a b = 0 → hash a = hash b) (data : P) (itemOk allocOk : Bool) :
    (∃ lh', lh.lhInsert hash cmp data itemOk allocOk = (lh', true, m.get data)
        ∧ (m.get data = none → itemOk = true) ∧ Represents hash lh' (m.insert data))
      ∨ (lh.lhInsert hash cmp data itemOk allocOk = (lh, false, none) ∧ itemOk = false
        ∧ m.get data = none) := by
  obtain ⟨hb, hcases⟩ := h.search hhash data _ rfl
  obtain ⟨others, hitems, hstore⟩ := exists_store_items hb
  rcases hcases with ⟨pre, it, suf, hchain, hpos, hcmp, hget⟩ | ⟨hpos, hget, hnone⟩
  · simp only [lhInsert, load_eq_some hchain hpos, next_eq hchain hpos, ← hget]
    refine .inl ⟨_, rfl, by simp [hget], ?_⟩
    specialize hstore ({ it with data } :: suf)
    simp only [hchain, hpos, take_left] at hitems hstore
    have hplaced : ∀ x ∈ { it with data } :: suf, x.hash = hash x.data
        ∧ x.hash.toNat % lh.numBuckets = (lh.getNextPtrAndHash hash cmp data).1.bucket := by
      intro x hx
      rcases mem_cons.mp hx with rfl | hx
      · obtain ⟨hit, hmod⟩ := h.placed _ it (by rw [hchain]; simp)
        exact ⟨hit.trans (hhash _ _ hcmp), hmod⟩
      · exact h.placed _ x (by rw [hchain]; simp [hx])
    refine ⟨h.toFiled.store hb hplaced, ?_, ?_⟩
    · rw [store_numItems, h.count, hitems.length_eq, hstore.length_eq]
      simp
    · have hold := h.lists.perm (elements_perm (elements_perm_cons hitems))
      exact (hold.insert_old hcmp).perm (elements_perm (elements_perm_cons hstore)).symm
  · simp only [lhInsert, load_eq_none hpos]
    by_cases hok : itemOk = false
    · subst hok
      exact .inr ⟨rfl, rfl, hget⟩
    rw [if_neg hok, ← hget]
    refine .inl ⟨_, rfl, fun _ => by simpa using hok, lhMaybeResize_represents ?_ _⟩
    specialize hstore [⟨data, hash data⟩]
    simp only [hpos, take_length] at hstore
    have hplaced : ∀ x ∈ [(⟨data, hash data⟩ : LhashItem P)], x.hash = hash x.data
        ∧ x.hash.toNat % lh.numBuckets = (lh.getNextPtrAndHash hash cmp data).1.bucket := by
      intro x hx
      obtain rfl := mem_singleton.mp hx
      exact ⟨rfl, rfl⟩
    have hfiled := h.toFiled.store hb hplaced
    have hperm := elements_perm_cons hstore
    rw [List.append_nil] at hperm
    refine ⟨⟨hfiled.room, hfiled.placed⟩, ?_, ?_⟩
    · show lh.numItems + 1 = (lh.store _ [⟨data, hash data⟩]).items.length
      rw [h.count, hitems.length_eq, hperm.length_eq, length_cons]
    · have hall := h.lists.perm (elements_perm hitems)
      exact (hall.insert_new fun v hv => hnone v ((elements_perm hitems).mem_iff.mpr hv)).perm
        (elements_perm hperm).symm

lemma Represents.remove (h : Represents hash lh m) {slot : Slot} (hb : slot.bucket < lh.numBuckets)
    {pre suf : List (LhashItem P)} {it : LhashItem P}
    (hchain : lh.chain slot.bucket = pre ++ it :: suf) (hpos : slot.pos = pre.length) {data : P}
    (hcmp : cmp it.data data = 0) : Represents hash
      { lh.store slot (lh.next slot) with numItems := lh.numItems - 1 } (m.erase data) := by
  obtain ⟨others, hitems, hstore⟩ := exists_store_items hb
  rw [next_eq hchain hpos]
  specialize hstore suf
  simp only [hchain, hpos, take_left] at hitems hstore
  have hitems := elements_perm_cons hitems
  have hfiled : Filed hash (lh.store slot suf) := h.toFiled.store hb fun x hx =>
    h.placed _ x (by rw [hchain]; simp [hx])
  refine ⟨⟨hfiled.room, hfiled.placed⟩, ?_, ?_⟩
  · show lh.numItems - 1 = (lh.store _ _).items.length
    rw [h.count, hitems.length_eq, hstore.length_eq, length_cons, Nat.add_sub_cancel]
  · exact ((h.lists.perm (elements_perm hitems)).erase hcmp).perm (elements_perm hstore).symm

lemma lhDelete_represents (h : Represents hash lh m)
    (hhash : ∀ a b, cmp a b = 0 → hash a = hash b) (data : P) (allocOk : Bool) :
    (lh.lhDelete hash cmp data allocOk).2 = m.get data
      ∧ Represents hash (lh.lhDelete hash cmp data allocOk).1 (m.erase data) := by
  obtain ⟨hb, ⟨pre, it, suf, hchain, hpos, hcmp, hget⟩ | ⟨hpos, hget, -⟩⟩ :=
    h.search hhash data _ rfl
  · simp only [lhDelete, load_eq_some hchain hpos, hget]
    exact ⟨trivial, lhMaybeResize_represents (h.remove hb hchain hpos hcmp) allocOk⟩
  · simp only [lhDelete, load_eq_none hpos, hget]
    exact ⟨trivial, (Keyed.erase_eq_self hget).symm ▸ h⟩

end Calls

section Doall

variable {heq : Equivalence fun a b => cmp a b = 0} {m : Keyed (cmpSetoid heq)}

lemma Represents.chain_apart (h : Represents hash lh m) (i : ℕ) :
    (lh.chain i).Pairwise fun a b => cmp a.data b.data ≠ 0 := by
  by_cases hi : i < lh.numBuckets
  · obtain ⟨others, hitems, -⟩ := exists_rest lh.buckets hi
    have hapart := (h.lists.perm (elements_perm hitems)).apart
    rw [map_append, pairwise_append, pairwise_map] at hapart
    exact hapart.1
  · have hnil : lh.chain i = [] := by
      unfold numBuckets at hi
      simp [chain, hi]
    rw [hnil]
    exact .nil

/-- The call deletes the element it visits: the chain loses it, and no other chain changes. -/
lemma lhDelete_visited (h : Represents hash lh m) (hdepth : 0 < lh.callbackDepth) (allocOk : Bool)
    {kept next : List (LhashItem P)} {cur : LhashItem P}
    (hchain : lh.chain i = kept ++ cur :: next) :
    ∀ lh', lh' = (lh.lhDelete hash cmp cur.data allocOk).1 →
      Represents hash lh' (m.erase cur.data) ∧ lh'.callbackDepth = lh.callbackDepth
        ∧ lh'.numBuckets = lh.numBuckets
        ∧ ∀ j, lh'.chain j = if j = i then kept ++ next else lh.chain j := by
  rintro lh' rfl
  obtain ⟨hcur, hmod⟩ := h.placed i cur (by rw [hchain]; simp)
  have hb : (lh.getNextPtrAndHash hash cmp cur.data).1.bucket = i := by
    rw [← hmod, hcur]
    rfl
  have hpos : (lh.getNextPtrAndHash hash cmp cur.data).1.pos = kept.length := by
    have hapart := h.chain_apart i
    rw [hchain, pairwise_append] at hapart
    have hkept : ∀ x ∈ kept, cmp x.data cur.data ≠ 0 := fun x hx =>
      hapart.2.2 x hx cur (by simp)
    show (lh.chain (lh.getNextPtrAndHash hash cmp cur.data).1.bucket).findIdx _ = _
    rw [hb, hchain, findIdx_append, findIdx_eq_length.mpr (by simpa using hkept)]
    simp [findIdx_cons, heq.refl cur.data]
  have hlt : (lh.getNextPtrAndHash hash cmp cur.data).1.bucket < lh.numBuckets := h.mod_lt _
  rw [← hb] at hchain
  simp only [lhDelete, load_eq_some hchain hpos, lhMaybeResize, store_callbackDepth, hdepth,
    if_true]
  refine ⟨h.remove hlt hchain hpos (heq.refl _), trivial, store_numBuckets, fun j => ?_⟩
  have := store_chain (lh.next (lh.getNextPtrAndHash hash cmp cur.data).1) hlt j
  rw [next_eq hchain hpos, hchain, hpos, take_left, hb] at this
  rw [next_eq hchain hpos]
  exact this

variable {func : Callback P A} {allocOk : Bool}

lemma doallChain_represents (hhash : ∀ a b, cmp a b = 0 → hash a = hash b) :
    ∀ {next kept : List (LhashItem P)} {lh : Lhash P} {m : Keyed (cmpSetoid heq)} {arg : A},
      Represents hash lh m → 0 < lh.callbackDepth → lh.chain i = kept ++ next →
      ∀ lh' arg' visited, doallChain hash cmp func allocOk next lh arg = (lh', arg', visited) →
        visited = next.map (·.data)
          ∧ Represents hash lh' (visit func visited m arg).1 ∧ arg' = (visit func visited m arg).2
          ∧ lh'.callbackDepth = lh.callbackDepth ∧ lh'.numBuckets = lh.numBuckets
          ∧ ∀ j, j ≠ i → lh'.chain j = lh.chain j
  | [], kept, lh, m, arg, h, hdepth, hchain, lh', arg', visited, hrun => by
    obtain ⟨rfl, rfl, rfl⟩ : lh = lh' ∧ arg = arg' ∧ [] = visited := by
      simpa [doallChain] using hrun
    exact ⟨rfl, h, rfl, rfl, rfl, fun _ _ => rfl⟩
  | cur :: next, kept, lh, m, arg, h, hdepth, hchain, lh', arg', visited, hrun => by
    simp only [doallChain, lhRetrieve_eq h hhash] at hrun
    obtain ⟨⟨arg₁, deletes⟩, hfunc⟩ : ∃ r, func m.get arg cur.data = r := ⟨_, rfl⟩
    rw [hfunc] at hrun
    obtain ⟨lh₁, hlh₁⟩ : ∃ lh₁, (if deletes then (lh.lhDelete hash cmp cur.data allocOk).1 else lh)
      = lh₁ := ⟨_, rfl⟩
    obtain ⟨⟨lh₂, arg₂, visited₂⟩, hnext⟩ :
        ∃ r, doallChain hash cmp func allocOk next lh₁ arg₁ = r :=
      ⟨_, rfl⟩
    simp only [hlh₁, hnext, Prod.mk.injEq] at hrun
    obtain ⟨rfl, rfl, rfl⟩ := hrun
    simp only [visit, hfunc]
    cases deletes with
    | false =>
      subst hlh₁
      obtain ⟨rfl, hrest⟩ := doallChain_represents hhash h hdepth
        (show lh.chain i = (kept ++ [cur]) ++ next by simp [hchain]) _ _ _ hnext
      exact ⟨rfl, hrest⟩
    | true =>
      obtain ⟨h₁, hdepth₁, hnum₁, hchain₁⟩ :=
        lhDelete_visited h hdepth allocOk hchain lh₁ hlh₁.symm
      obtain ⟨rfl, h₂, harg, hdepth₂, hnum₂, hchain₂⟩ := doallChain_represents hhash h₁
        (hdepth₁ ▸ hdepth) (by rw [hchain₁, if_pos rfl]) _ _ _ hnext
      exact ⟨rfl, h₂, harg, hdepth₂.trans hdepth₁, hnum₂.trans hnum₁, fun j hj =>
        (hchain₂ j hj).trans (by rw [hchain₁, if_neg hj])⟩

lemma visit_append (func : Callback P A) : ∀ (l l' : List P) (m : Keyed (cmpSetoid heq)) (arg : A),
    visit func (l ++ l') m arg
      = visit func l' (visit func l m arg).1 (visit func l m arg).2
  | [], _, _, _ => rfl
  | _ :: l, l', _, _ => visit_append func l l' _ _

lemma doallBuckets_represents (hhash : ∀ a b, cmp a b = 0 → hash a = hash b) :
    ∀ {todo i : ℕ} {lh : Lhash P} {m : Keyed (cmpSetoid heq)} {arg : A},
      Represents hash lh m → 0 < lh.callbackDepth → i + todo = lh.numBuckets →
      ∀ lh' arg' visited, doallBuckets hash cmp func allocOk todo i lh arg = (lh', arg', visited) →
        visited = (lh.buckets.toList.drop i).flatten.map (·.data)
          ∧ Represents hash lh' (visit func visited m arg).1
          ∧ arg' = (visit func visited m arg).2
  | 0, i, lh, m, arg, h, hdepth, hi, lh', arg', visited, hrun => by
    obtain ⟨rfl, rfl, rfl⟩ : lh = lh' ∧ arg = arg' ∧ [] = visited := by
      simpa [doallBuckets] using hrun
    refine ⟨?_, h, rfl⟩
    rw [drop_eq_nil_of_le (by simpa [numBuckets] using hi.ge)]
    rfl
  | todo + 1, i, lh, m, arg, h, hdepth, hi, lh', arg', visited, hrun => by
    obtain ⟨⟨lh₁, arg₁, visited₁⟩, hchain⟩ :
      ∃ r, doallChain hash cmp func allocOk (lh.chain i) lh arg = r := ⟨_, rfl⟩
    obtain ⟨⟨lh₂, arg₂, visited₂⟩, hnext⟩ :
      ∃ r, doallBuckets hash cmp func allocOk todo (i + 1) lh₁ arg₁ = r := ⟨_, rfl⟩
    simp only [doallBuckets, hchain, hnext, Prod.mk.injEq] at hrun
    obtain ⟨rfl, rfl, rfl⟩ := hrun
    obtain ⟨hvisited₁, h₁, rfl, hdepth₁, hnum₁, hchain₁⟩ :=
      doallChain_represents hhash h hdepth (nil_append _).symm _ _ _ hchain
    obtain ⟨hvisited₂, h₂, rfl⟩ := doallBuckets_represents hhash h₁ (hdepth₁ ▸ hdepth)
      (show i + 1 + todo = lh₁.numBuckets by omega) _ _ _ hnext
    have hsame : lh₁.buckets.toList.drop (i + 1) = lh.buckets.toList.drop (i + 1) := by
      unfold numBuckets at hnum₁
      refine ext_getElem (by simp [hnum₁]) fun j hj hj' => ?_
      have hj₁ : i + 1 + j < lh₁.buckets.size := by simp at hj; omega
      have := hchain₁ (i + 1 + j) (by omega)
      simpa [chain, hj₁, hnum₁ ▸ hj₁] using this
    have hdrop : lh.buckets.toList.drop i = lh.chain i :: lh.buckets.toList.drop (i + 1) := by
      have hlt : i < lh.buckets.size := by unfold numBuckets at hi; omega
      rw [drop_eq_getElem_cons (by simpa using hlt)]
      simp [chain, hlt]
    rw [visit_append]
    refine ⟨?_, h₂, rfl⟩
    rw [hvisited₁, hvisited₂, hsame, hdrop, flatten_cons, map_append]

lemma Represents.setDepth (h : Represents hash lh m) (depth : ℕ) :
    Represents hash { lh with callbackDepth := depth } m :=
  ⟨⟨h.room, h.placed⟩, h.count, h.lists⟩

lemma lhDoallArg_represents (h : Represents hash lh m)
    (hhash : ∀ a b, cmp a b = 0 → hash a = hash b) (arg : A) :
    ∀ lh' arg' visited, lh.lhDoallArg hash cmp func allocOk arg = (lh', arg', visited) →
      m.Lists visited ∧ Represents hash lh' (visit func visited m arg).1
        ∧ arg' = (visit func visited m arg).2 := by
  intro lh' arg' visited hrun
  unfold lhDoallArg at hrun
  obtain ⟨lh₀, hlh₀⟩ : ∃ lh₀, (if lh.callbackDepth < uintMax
    then { lh with callbackDepth := lh.callbackDepth + 1 } else lh) = lh₀ := ⟨_, rfl⟩
  rw [hlh₀] at hrun
  have h₀ : Represents hash lh₀ m ∧ 0 < lh₀.callbackDepth ∧ lh₀.elements = lh.elements := by
    rw [← hlh₀]
    split_ifs with hlt
    · exact ⟨h.setDepth _, Nat.succ_pos _, rfl⟩
    · exact ⟨h, lt_of_lt_of_le (by decide) (not_lt.mp hlt), rfl⟩
  obtain ⟨⟨lh₁, arg₁, visited₁⟩, hwalk⟩ :
    ∃ r, doallBuckets hash cmp func allocOk lh₀.numBuckets 0 lh₀ arg = r := ⟨_, rfl⟩
  simp only [hwalk, Prod.mk.injEq] at hrun
  obtain ⟨rfl, rfl, rfl⟩ := hrun
  obtain ⟨hvisited, h₁, harg⟩ := doallBuckets_represents hhash h₀.1 h₀.2.1 (zero_add _) _ _ _ hwalk
  refine ⟨?_, lhMaybeResize_represents ?_ allocOk, harg⟩
  · rw [hvisited, drop_zero]
    exact h₀.1.lists
  · split
    · exact h₁.setDepth _
    · exact h₁

end Doall

section Runs

variable {heq : Equivalence fun a b => cmp a b = 0} {m : Keyed (cmpSetoid heq)}

lemma lhNew_represents (heq : Equivalence fun a b => cmp a b = 0) :
    Represents hash (lhNew : Lhash P) (Keyed.empty (cmpSetoid heq)) := by
  have hitems : (lhNew : Lhash P).items = [] := by simp [items, lhNew]
  refine ⟨⟨by simp [lhNew, numBuckets], fun i it hit => ?_⟩, ?_, ?_⟩
  · have := mem_items_of_mem_chain hit
    simp [hitems] at this
  · rfl
  · exact Keyed.lists_empty

lemma apply_represents (h : Represents hash lh m) (hhash : ∀ a b, cmp a b = 0 → hash a = hash b)
    (op : Op P A) : ∃ m', MapStep hash m op (lh.apply hash cmp op).2 m'
      ∧ Represents hash (lh.apply hash cmp op).1 m' := by
  cases op with
  | insert data itemOk allocOk =>
    simp only [apply]
    rcases lhInsert_represents h hhash data itemOk allocOk with
      ⟨lh', hins, hok, h'⟩ | ⟨hins, rfl, hnone⟩
    · rw [hins]
      exact ⟨_, .insert hok, h'⟩
    · rw [hins]
      exact ⟨m, .insertFails hnone, h⟩
  | delete data allocOk =>
    obtain ⟨hget, h'⟩ := lhDelete_represents h hhash data allocOk
    refine ⟨_, ?_, h'⟩
    simp only [apply, hget]
    exact .delete
  | retrieve data =>
    refine ⟨m, ?_, h⟩
    simp only [apply, lhRetrieve_eq h hhash]
    exact .retrieve
  | retrieveKey keyHash cmpKey =>
    refine ⟨m, ?_, h⟩
    simp only [apply]
    rcases lhRetrieveKey_cases h keyHash cmpKey with ⟨v, hv, hkey, hr⟩ | ⟨hr, hmiss⟩
    · exact hr ▸ .keyFound hv hkey
    · exact hr ▸ .keyMissing hmiss
  | doallArg func arg allocOk =>
    obtain ⟨⟨lh', arg', visited⟩, hrun⟩ : ∃ r, lh.lhDoallArg hash cmp func allocOk arg = r :=
      ⟨_, rfl⟩
    obtain ⟨hl, h', rfl⟩ := lhDoallArg_represents h hhash arg _ _ _ hrun
    simp only [apply, hrun]
    exact ⟨_, .doallArg hl, h'⟩

lemma run_represents (hhash : ∀ a b, cmp a b = 0 → hash a = hash b) :
    ∀ (ops : List (Op P A)) {lh : Lhash P} {m : Keyed (cmpSetoid heq)}, Represents hash lh m →
      ∃ m', MapRun hash m ops (run hash cmp ops lh).2 m'
        ∧ Represents hash (run hash cmp ops lh).1 m'
  | [], _, m, h => ⟨m, .nil, h⟩
  | op :: ops, _, _, h => by
    obtain ⟨m₁, hstep, h₁⟩ := apply_represents h hhash op
    obtain ⟨m₂, hrun, h₂⟩ := run_represents hhash ops h₁
    exact ⟨m₂, .cons hstep hrun, h₂⟩

/-- A run of calls on a new table gives back what the same run on an empty map does; the table then
holds the elements of the map, each in the chain of its hash, and counts them. -/
theorem run_refines_map (heq : Equivalence fun a b => cmp a b = 0)
    (hhash : ∀ a b, cmp a b = 0 → hash a = hash b) (ops : List (Op P A)) :
    ∃ m, MapRun hash (Keyed.empty (cmpSetoid heq)) ops (run hash cmp ops lhNew).2 m
      ∧ Represents hash (run hash cmp ops lhNew).1 m
      ∧ (run hash cmp ops lhNew).1.numItems = m.stored.ncard := by
  obtain ⟨m, hrun, h⟩ := run_represents hhash ops (lhNew_represents heq)
  refine ⟨m, hrun, h, ?_⟩
  rw [h.count, h.lists.ncard_stored, elements, length_map]

def fstCmp (a b : ℕ × ℕ) : ℤ := (a.1 : ℤ) - b.1

def fstHash (a : ℕ × ℕ) : UInt32 := UInt32.ofNat a.1

def replaceAndDelete : List (Op (ℕ × ℕ) Unit) :=
  [.insert (1, 10) true true, .insert (2, 20) true true, .insert (1, 11) true true,
    .doallArg (fun _ _ v => ((), v.1 = 1)) () true, .retrieve (1, 0), .retrieve (2, 0)]

lemma fstCmp_equivalence : Equivalence fun a b => fstCmp a b = 0 :=
  ⟨fun a => by unfold fstCmp; omega, fun h => by unfold fstCmp at *; omega,
    fun h h' => by unfold fstCmp at *; omega⟩

theorem run_refines_map_pairs :
    (run fstHash fstCmp replaceAndDelete lhNew).2
      = [.inserted true none, .inserted true none, .inserted true (some (1, 10)),
        .visited () [(1, 11), (2, 20)], .retrieved none, .retrieved (some (2, 20))]
    ∧ ∃ m, MapRun fstHash (Keyed.empty (cmpSetoid fstCmp_equivalence)) replaceAndDelete
        (run fstHash fstCmp replaceAndDelete lhNew).2 m
      ∧ Represents fstHash (run fstHash fstCmp replaceAndDelete lhNew).1 m
      ∧ (run fstHash fstCmp replaceAndDelete lhNew).1.numItems = m.stored.ncard := by
  refine ⟨by decide +kernel, run_refines_map fstCmp_equivalence (fun a b h => ?_) _⟩
  have hfst : a.1 = b.1 := by unfold fstCmp at h; omega
  rw [fstHash, fstHash, hfst]

end Runs

end Lhash

end BoringSSL
