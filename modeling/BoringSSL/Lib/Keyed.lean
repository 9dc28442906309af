import Mathlib.Data.Set.Card

/-!
# Maps keyed by an equivalence

A map whose elements are their own keys: it holds at most one element of each class of an
equivalence, and is asked for it by any element of the class.  `Lists m l` says that the list `l`
has each element of `m` once; the operations on `m` are matched by those on such a list.
-/

/-- A map whose elements are their own keys. -/
@[ext]
structure Keyed {P : Type*} (S : Setoid P) where
  get : P → Option P
  congr : ∀ {a b}, S a b → get a = get b
  own : ∀ {a v}, get a = some v → S v a

namespace Keyed

open List

variable {P : Type*} {S : Setoid P} {m : Keyed S} {d v : P} {l : List P}

/-- The map with no elements. -/
def empty (S : Setoid P) : Keyed S := ⟨fun _ => none, fun _ => rfl, nofun⟩

/-- The elements of a map. -/
def stored (m : Keyed S) : Set P := {v | m.get v = some v}

lemma get_eq_some_iff : m.get d = some v ↔ m.get v = some v ∧ S v d :=
  ⟨fun h => ⟨(m.congr (m.own h)).trans h, m.own h⟩, fun h => (m.congr h.2).symm.trans h.1⟩

section Update

variable [DecidableRel S] (m d)

/-- `d` in the place of the element of its class, if there is one. -/
def insert : Keyed S where
  get a := if S d a then some d else m.get a
  congr {a b} hab := by
    have hiff : S d a ↔ S d b := ⟨fun h => S.trans h hab, fun h => S.trans h (S.symm hab)⟩
    simp only [hiff, m.congr hab]
  own {a v} h := by
    by_cases hd : S d a
    · rw [if_pos hd] at h
      exact Option.some.inj h ▸ hd
    · rw [if_neg hd] at h
      exact m.own h

/-- The map without the element of the class of `d`. -/
def erase : Keyed S where
  get a := if S d a then none else m.get a
  congr {a b} hab := by
    have hiff : S d a ↔ S d b := ⟨fun h => S.trans h hab, fun h => S.trans h (S.symm hab)⟩
    simp only [hiff, m.congr hab]
  own {a v} h := by
    by_cases hd : S d a
    · simp [hd] at h
    · rw [if_neg hd] at h
      exact m.own h

end Update

/-- Each element of the map stands in the list, once. -/
structure Lists (m : Keyed S) (l : List P) : Prop where
  apart : l.Pairwise fun a b => ¬ S a b
  mem_iff : ∀ v, v ∈ l ↔ m.get v = some v

lemma lists_empty : Lists (empty S) [] := ⟨.nil, fun v => by simp [empty]⟩

lemma Lists.perm (h : Lists m l) {l' : List P} (hp : l.Perm l') : Lists m l' :=
  ⟨(hp.pairwise_iff fun hab hba => hab (S.symm hba)).mp h.apart,
    fun v => hp.mem_iff.symm.trans (h.mem_iff v)⟩

lemma Lists.get_eq_none_iff (h : Lists m l) : m.get d = none ↔ ∀ v ∈ l, ¬ S v d := by
  constructor
  · intro hd v hv hvd
    have := get_eq_some_iff.mpr ⟨(h.mem_iff v).mp hv, hvd⟩
    rw [hd] at this
    cases this
  · intro hl
    cases hd : m.get d with
    | none => rfl
    | some v =>
      obtain ⟨hv, hvd⟩ := get_eq_some_iff.mp hd
      exact absurd hvd (hl v ((h.mem_iff v).mpr hv))

lemma Lists.get_eq_some (h : Lists m l) (hv : v ∈ l) (hvd : S v d) : m.get d = some v :=
  get_eq_some_iff.mpr ⟨(h.mem_iff v).mp hv, hvd⟩

lemma Lists.nodup (h : Lists m l) : l.Nodup :=
  h.apart.imp fun {a b} hab (heq : a = b) => hab (heq ▸ S.refl a)

lemma Lists.ncard_stored (h : Lists m l) : m.stored.ncard = l.length := by
  classical
  have hset : m.stored = (l.toFinset : Set P) := by
    simp [stored, h.mem_iff]
  rw [hset, Set.ncard_coe_finset, toFinset_card_of_nodup h.nodup]

variable [DecidableRel S]

lemma Lists.insert_new (h : Lists m l) (hd : ∀ v ∈ l, ¬ S v d) : Lists (m.insert d) (d :: l) := by
  refine ⟨pairwise_cons.mpr ⟨fun v hv hdv => hd v hv (S.symm hdv), h.apart⟩, fun v => ?_⟩
  show v ∈ d :: l ↔ (if S d v then some d else m.get v) = some v
  by_cases hdv : S d v
  · have hvl : v ∉ l := fun hv => hd v hv (S.symm hdv)
    simp [hdv, hvl, eq_comm]
  · have hne : v ≠ d := fun heq => hdv (heq ▸ S.refl d)
    simp [hdv, hne, h.mem_iff]

lemma Lists.insert_old {old : P} (h : Lists m (old :: l)) (hold : S old d) :
    Lists (m.insert d) (d :: l) := by
  have hl : ∀ v ∈ l, ¬ S v d := fun v hv hvd =>
    rel_of_pairwise_cons h.apart hv (S.trans hold (S.symm hvd))
  refine ⟨pairwise_cons.mpr ⟨fun v hv hdv => hl v hv (S.symm hdv), h.apart.of_cons⟩, fun v => ?_⟩
  show v ∈ d :: l ↔ (if S d v then some d else m.get v) = some v
  by_cases hdv : S d v
  · have hvl : v ∉ l := fun hv => hl v hv (S.symm hdv)
    simp [hdv, hvl, eq_comm]
  · have hne : v ≠ d := fun heq => hdv (heq ▸ S.refl d)
    have hne' : v ≠ old := fun heq => hdv (heq ▸ S.symm hold)
    have := h.mem_iff v
    simp only [mem_cons, hne', false_or] at this
    simp [hdv, hne, this]

lemma Lists.erase {old : P} (h : Lists m (old :: l)) (hold : S old d) :
    Lists (m.erase d) l := by
  refine ⟨h.apart.of_cons, fun v => ?_⟩
  show v ∈ l ↔ (if S d v then none else m.get v) = some v
  by_cases hdv : S d v
  · have hvl : v ∉ l := fun hv => rel_of_pairwise_cons h.apart hv (S.trans hold hdv)
    simp [hdv, hvl]
  · have hne : v ≠ old := fun heq => hdv (heq ▸ S.symm hold)
    have := h.mem_iff v
    simp only [mem_cons, hne, false_or] at this
    simp [hdv, this]

lemma erase_eq_self (h : m.get d = none) : m.erase d = m := by
  ext a v
  show (if S d a then none else m.get a) = some v ↔ _
  by_cases hda : S d a
  · simp [hda, ← m.congr hda, h]
  · simp [hda]

end Keyed
