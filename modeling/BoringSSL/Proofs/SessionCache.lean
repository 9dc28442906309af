import BoringSSL.SessionCache
import BoringSSL.Proofs.Lhash

/-!
# The session cache is a list without two sessions of one ID

A session is put in front of the list, takes the place of the one that has its ID, and the oldest go
when there are too many (`insertInto`).  `Cached` says that the hash table and the links both stand
for the list, and that one reference to each of its sessions is the context's own.
-/

namespace BoringSSL.SessionCache

open ByteLib Link List

variable {now : ℕ} {allocOk : ℕ → Bool}
  {S : Type} [DecidableEq S] {sessionId : Bytes} {itemOk : Bool}

/-! ## The links -/

namespace SessionList

variable {st st' : SessionList S} {s : S} {l l₁ l₂ : List S}

lemma setSession_session (st : SessionList S) (s x : S) (v : Session S) :
    (st.setSession s v).session x = if x = s then v else st.session x := Function.update_apply ..

section Links

variable (st : SessionList S) (s x : S) (a : Link S)

@[simp] lemma setNext_next :
    ((st.setNext s a).session x).next = if x = s then a else (st.session x).next := by
  rw [setNext, setSession_session]
  split <;> rfl

@[simp] lemma setNext_prev : ((st.setNext s a).session x).prev = (st.session x).prev := by
  rw [setNext, setSession_session]
  split <;> simp [*]

@[simp] lemma setPrev_prev :
    ((st.setPrev s a).session x).prev = if x = s then a else (st.session x).prev := by
  rw [setPrev, setSession_session]
  split <;> rfl

@[simp] lemma setPrev_next : ((st.setPrev s a).session x).next = (st.session x).next := by
  rw [setPrev, setSession_session]
  split <;> simp [*]

end Links

/-- The sessions differ in their links only. -/
def SameData (st st' : SessionList S) : Prop :=
  ∀ x, st'.session x
    = { st.session x with next := (st'.session x).next, prev := (st'.session x).prev }

omit [DecidableEq S] in
lemma SameData.refl (st : SessionList S) : SameData st st := fun _ => rfl

lemma SameData.setSession (h : SameData st st') (next prev : Link S) :
    SameData st (st'.setSession s { st'.session s with next, prev }) := by
  intro x
  rw [setSession_session]
  split
  · next hx => rw [hx, h s]
  · exact h x

lemma SameData.setNext (h : SameData st st') (a : Link S) : SameData st (st'.setNext s a) :=
  h.setSession a _

lemma SameData.setPrev (h : SameData st st') (a : Link S) : SameData st (st'.setPrev s a) :=
  h.setSession _ a

/-- The links are those of the list, and the context's fields its ends. -/
structure Linked (st : SessionList S) (l : List S) : Prop where
  nodup : l.Nodup
  next : ∀ x, (st.session x).next = nextIn l x
  prev : ∀ x, (st.session x).prev = prevIn l x
  head : st.sessionCacheHead = l.head?
  tail : st.sessionCacheTail = l.getLast?

lemma Linked.setSession (h : Linked st l) {v : Session S} (hnext : v.next = (st.session s).next)
    (hprev : v.prev = (st.session s).prev) : Linked (st.setSession s v) l := by
  refine ⟨h.nodup, fun x => ?_, fun x => ?_, h.head, h.tail⟩
  all_goals rw [setSession_session]
  · rw [apply_ite Session.next, hnext, ← h.next]
    split <;> simp [*]
  · rw [apply_ite Session.prev, hprev, ← h.prev]
    split <;> simp [*]

omit [DecidableEq S] in
lemma toLast_concat (l : List S) (p : S) : toLast (l ++ [p]) = .node p := by
  simp [toLast]

lemma sslSessionListRemove_links (hnext : (st.session s).next = toFirst l₂)
    (hprev : (st.session s).prev = toLast l₁) : ∃ st', st.sslSessionListRemove s = some st'
      ∧ SameData st st'
      ∧ (∀ x, (st'.session x).next = if x = s then .null
          else if l₁.getLast? = some x then toFirst l₂ else (st.session x).next)
      ∧ (∀ x, (st'.session x).prev = if x = s then .null
          else if l₂.head? = some x then toLast l₁ else (st.session x).prev)
      ∧ st'.sessionCacheHead = (if l₁ = [] then l₂.head? else st.sessionCacheHead)
      ∧ st'.sessionCacheTail = (if l₂ = [] then l₁.getLast? else st.sessionCacheTail) := by
  unfold sslSessionListRemove
  rw [hnext, hprev, if_neg (not_or.mpr ⟨toFirst_ne_null l₂, toLast_ne_null l₁⟩)]
  have hsame := SameData.refl st
  rcases l₁.eq_nil_or_concat with rfl | ⟨L, p, rfl⟩
  · rcases l₂ with - | ⟨n, l₂⟩
    · exact ⟨_, rfl, (hsame.setPrev _).setNext _, by simp, by simp, rfl, rfl⟩
    · exact ⟨_, rfl, ((hsame.setPrev _).setPrev _).setNext _, by simp,
        by simp [eq_comm, toLast], rfl, rfl⟩
  · rw [concat_eq_append, toLast_concat]
    rcases l₂ with - | ⟨n, l₂⟩
    · exact ⟨_, rfl, ((hsame.setNext _).setPrev _).setNext _, by simp [eq_comm, toFirst], by simp,
        by simp [setNext, setPrev, setSession], by simp [setNext, setPrev, setSession]⟩
    · exact ⟨_, rfl, (((hsame.setPrev _).setNext _).setPrev _).setNext _,
        by simp [eq_comm, toFirst], by simp [eq_comm],
        by simp [setNext, setPrev, setSession], by simp [setNext, setPrev, setSession]⟩

lemma Linked.remove (h : Linked st (l₁ ++ s :: l₂)) :
    ∃ st', st.sslSessionListRemove s = some st' ∧ SameData st st' ∧ Linked st' (l₁ ++ l₂) := by
  obtain ⟨hnotMem, hrest⟩ := nodup_cons.mp (nodup_middle.mp h.nodup)
  have hs : s ∉ l₁ := fun hmem => hnotMem (mem_append_left _ hmem)
  obtain ⟨st', hremove, hdata, hnext, hprev, hhead, htail⟩ :=
    sslSessionListRemove_links ((h.next s).trans (nextIn_self hs))
      ((h.prev s).trans (prevIn_self hs))
  refine ⟨st', hremove, hdata, hrest, fun x => ?_, fun x => ?_, ?_, ?_⟩
  · rw [hnext, h.next]
    split
    · next hx => rw [hx, nextIn_of_notMem hnotMem]
    · next hx => exact (nextIn_remove hx (nodup_append.mp hrest).1).symm
  · rw [hprev, h.prev]
    split
    · next hx => exact hx ▸ (prevFrom_of_notMem hnotMem).symm
    · next hx => exact (prevIn_remove hx hrest).symm
  · rw [hhead, h.head]
    cases l₁ <;> simp
  · rw [htail, h.tail]
    rcases l₂.eq_nil_or_concat with rfl | ⟨L, a, rfl⟩
    · simp
    · rw [concat_eq_append, if_neg (by simp), ← cons_append, ← append_assoc,
        ← append_assoc, getLast?_concat, getLast?_concat]

lemma Linked.erase (h : Linked st l) (hs : s ∈ l) :
    ∃ st', st.sslSessionListRemove s = some st' ∧ SameData st st' ∧ Linked st' (l.erase s) := by
  obtain ⟨l₁, l₂, rfl⟩ := append_of_mem hs
  have hmid : s ∉ l₁ := by
    have := (nodup_cons.mp (nodup_middle.mp h.nodup)).1
    exact fun hmem => this (mem_append_left _ hmem)
  rw [erase_append_right _ hmid, erase_cons_head]
  exact h.remove

lemma Linked.add (h : Linked st l) (hs : s ∉ l) :
    ∃ st', st.sslSessionListAdd s = some st' ∧ SameData st st' ∧ Linked st' (s :: l) := by
  have hnull : (st.session s).next = .null := (h.next s).trans (nextIn_of_notMem hs)
  have hnodup : (s :: l).Nodup := nodup_cons.mpr ⟨hs, h.nodup⟩
  have hprevs : prevIn (s :: l) s = .front := if_pos rfl
  unfold sslSessionListAdd
  rw [hnull, if_neg (by simp), Option.bind_eq_bind, Option.bind_some]
  dsimp only
  rw [h.head]
  cases l with
  | nil =>
    refine ⟨_, rfl, ((SameData.refl st).setPrev _).setNext _, hnodup, fun x => ?_, fun x => ?_, rfl,
      rfl⟩
    · rw [setNext_next, setPrev_next]
      exact congrArg (if x = s then Link.back else ·) (h.next x)
    · rw [setNext_prev, setPrev_prev]
      exact congrArg (if x = s then Link.front else ·) (h.prev x)
  | cons a l =>
    refine ⟨_, rfl, (((SameData.refl st).setNext _).setPrev _).setPrev _, hnodup, fun x => ?_,
      fun x => ?_, rfl, h.tail.trans (getLast?_cons_cons).symm⟩
    · rw [setPrev_next, setPrev_next, setNext_next, h.next]
      rfl
    · rw [setPrev_prev, setPrev_prev, setNext_prev, h.prev]
      by_cases hx : x = s
      · rw [if_pos hx, hx, hprevs]
      · rw [if_neg hx, prevIn_cons hx]
        simp [eq_comm]

/-! ## The table -/

omit [DecidableEq S] in
lemma sslSessionCmp_eq_zero {a b : S} :
    st.sslSessionCmp a b = 0 ↔ (st.session a).sessionId = (st.session b).sessionId := by
  unfold sslSessionCmp
  split <;> simp [*]

omit [DecidableEq S] in
lemma sslSessionCmp_equivalence (st : SessionList S) :
    Equivalence fun a b => st.sslSessionCmp a b = 0 where
  refl _ := sslSessionCmp_eq_zero.mpr rfl
  symm h := sslSessionCmp_eq_zero.mpr (sslSessionCmp_eq_zero.mp h).symm
  trans h h' := sslSessionCmp_eq_zero.mpr
    ((sslSessionCmp_eq_zero.mp h).trans (sslSessionCmp_eq_zero.mp h'))

omit [DecidableEq S] in
lemma sslSessionHash_of_cmp (st : SessionList S) (a b : S) (h : st.sslSessionCmp a b = 0) :
    st.sslSessionHash a = st.sslSessionHash b :=
  congrArg sslHashSessionId (sslSessionCmp_eq_zero.mp h)

/-- No two have one ID. -/
def Apart (st : SessionList S) (l : List S) : Prop :=
  l.Pairwise fun a b => (st.session a).sessionId ≠ (st.session b).sessionId

lemma Apart.eq_of_sessionId (h : Apart st l) {a b : S} (ha : a ∈ l) (hb : b ∈ l)
    (hab : (st.session a).sessionId = (st.session b).sessionId) : a = b := by
  by_contra hne
  have : Std.Symm fun a b : S => (st.session a).sessionId ≠ (st.session b).sessionId :=
    ⟨fun _ _ => Ne.symm⟩
  exact List.Pairwise.forall h ha hb hne hab

lemma Apart.find?_eq_some (h : Apart st l) {v : S} (hv : v ∈ l)
    (hid : (st.session v).sessionId = sessionId) :
    l.find? (fun x => (st.session x).sessionId = sessionId) = some v := by
  cases hfind : l.find? (fun x => (st.session x).sessionId = sessionId) with
  | none =>
    exact absurd hid (by simpa using find?_eq_none.mp hfind v hv)
  | some x =>
    have hx : (st.session x).sessionId = sessionId := by simpa using find?_some hfind
    rw [h.eq_of_sessionId (mem_of_find?_eq_some hfind) hv (hx.trans hid.symm)]

def keyed (st : SessionList S) (l : List S) :
    Keyed (Lhash.cmpSetoid st.sslSessionCmp_equivalence) where
  get a := l.find? fun x => (st.session x).sessionId = (st.session a).sessionId
  congr h := by rw [sslSessionCmp_eq_zero.mp h]
  own h := sslSessionCmp_eq_zero.mpr (by simpa using find?_some h)

lemma Apart.lists (h : Apart st l) : (st.keyed l).Lists l where
  apart := h.imp fun hne hcmp => hne (sslSessionCmp_eq_zero.mp hcmp)
  mem_iff _ := ⟨fun hv => h.find?_eq_some hv rfl, mem_of_find?_eq_some⟩

/-- The table holds the sessions of the list. -/
structure Tabled (st : SessionList S) (lh : Lhash S) (l : List S) : Prop where
  filed : Lhash.Filed st.sslSessionHash lh
  count : lh.numItems = lh.items.length
  perm : lh.elements.Perm l
  apart : Apart st l

variable {lh : Lhash S}

lemma Tabled.represents (h : Tabled st lh l) :
    Lhash.Represents st.sslSessionHash lh (st.keyed l) :=
  ⟨h.filed, h.count, h.apart.lists.perm h.perm.symm⟩

omit [DecidableEq S] in
lemma Tabled.of_represents {m : Keyed (Lhash.cmpSetoid st.sslSessionCmp_equivalence)}
    (h : Lhash.Represents st.sslSessionHash lh m) (hl : m.Lists l) : Tabled st lh l where
  filed := h.toFiled
  count := h.count
  perm := (perm_ext_iff_of_nodup h.lists.nodup hl.nodup).mpr fun v =>
    (h.lists.mem_iff v).trans (hl.mem_iff v).symm
  apart := hl.apart.imp fun hne hid => hne (sslSessionCmp_eq_zero.mpr hid)

section

variable (h : Tabled st lh l)

include h

omit [DecidableEq S] in
lemma Tabled.numItems : lh.numItems = l.length := by
  rw [h.count, ← h.perm.length_eq, Lhash.elements, length_map]

omit [DecidableEq S] in
lemma Tabled.mem_elements : s ∈ lh.elements ↔ s ∈ l := h.perm.mem_iff

omit [DecidableEq S] in
lemma Tabled.congr (hid : ∀ x ∈ l, (st'.session x).sessionId = (st.session x).sessionId) :
    Tabled st' lh l where
  filed := by
    refine ⟨h.filed.room, fun i it hit => ?_⟩
    obtain ⟨hhash, hmod⟩ := h.filed.placed i it hit
    have hmem : it.data ∈ l := h.mem_elements.mp
      (Lhash.mem_elements.mpr ⟨it, Lhash.mem_items_of_mem_chain hit, rfl⟩)
    exact ⟨hhash.trans (congrArg sslHashSessionId (hid _ hmem)).symm, hmod⟩
  count := h.count
  perm := h.perm
  apart := h.apart.imp_of_mem fun ha hb hne => by rwa [hid _ ha, hid _ hb]

lemma Tabled.retrieve (s : S) :
    lh.lhRetrieve st.sslSessionHash st.sslSessionCmp s
      = l.find? fun x => (st.session x).sessionId = (st.session s).sessionId :=
  congrFun (Lhash.lhRetrieve_eq h.represents st.sslSessionHash_of_cmp) s

lemma Tabled.retrieve_eq_some :
    lh.lhRetrieve st.sslSessionHash st.sslSessionCmp s = some s ↔ s ∈ l := by
  rw [h.retrieve]
  exact ⟨mem_of_find?_eq_some, fun hs => h.apart.find?_eq_some hs rfl⟩

lemma Tabled.retrieveKey (sessionId : Bytes) :
    lh.lhRetrieveKey (sslHashSessionId sessionId)
        (fun x => if sessionId = (st.session x).sessionId then 0 else 1)
      = l.find? fun x => (st.session x).sessionId = sessionId := by
  rcases Lhash.lhRetrieveKey_cases h.represents (sslHashSessionId sessionId)
    fun x => if sessionId = (st.session x).sessionId then 0 else 1
    with ⟨v, hv, hkey, hr⟩ | ⟨hr, hmiss⟩
  · have hid : sessionId = (st.session v).sessionId := by simpa using hkey
    rw [hr]
    exact (h.apart.find?_eq_some ((h.apart.lists.mem_iff v).mpr hv) hid.symm).symm
  · rw [hr, eq_comm, find?_eq_none]
    intro v hv hid
    have hid : (st.session v).sessionId = sessionId := by simpa using hid
    exact hmiss v ((h.apart.lists.mem_iff v).mp hv) (congrArg sslHashSessionId hid)
      (if_pos hid.symm)

lemma Tabled.delete (hs : s ∈ l) (allocOk : Bool) :
    ∃ lh', lh.lhDelete st.sslSessionHash st.sslSessionCmp s allocOk = (lh', some s)
      ∧ Tabled st lh' (l.erase s) := by
  obtain ⟨hold, hrep⟩ :=
    Lhash.lhDelete_represents h.represents st.sslSessionHash_of_cmp s allocOk
  refine ⟨_, Prod.ext rfl (hold.trans (h.apart.find?_eq_some hs rfl)), .of_represents hrep ?_⟩
  exact (h.apart.lists.perm (perm_cons_erase hs)).erase (sslSessionCmp_eq_zero.mpr rfl)

lemma Tabled.replace {old : S} (hold : old ∈ l)
    (hid : (st.session old).sessionId = (st.session s).sessionId) (itemOk allocOk : Bool) :
    ∃ lh', lh.lhInsert st.sslSessionHash st.sslSessionCmp s itemOk allocOk = (lh', true, some old)
      ∧ Tabled st lh' (s :: l.erase old) := by
  have hget : (st.keyed l).get s = some old := h.apart.find?_eq_some hold hid
  have hlists := (h.apart.lists.perm (perm_cons_erase hold)).insert_old
    (sslSessionCmp_eq_zero.mpr hid : st.sslSessionCmp old s = 0)
  rcases Lhash.lhInsert_represents h.represents st.sslSessionHash_of_cmp s itemOk allocOk with
    ⟨lh', hins, -, hrep⟩ | ⟨-, -, hnone⟩
  · exact ⟨lh', by rw [hins, hget], .of_represents hrep hlists⟩
  · rw [hget] at hnone
    cases hnone

lemma Tabled.insert (hid : ∀ x ∈ l, (st.session x).sessionId ≠ (st.session s).sessionId)
    (itemOk allocOk : Bool) :
    ∃ lh', lh.lhInsert st.sslSessionHash st.sslSessionCmp s itemOk allocOk = (lh', itemOk, none)
      ∧ Tabled st lh' (if itemOk then s :: l else l) := by
  have hapart : ∀ v ∈ l, ¬ st.sslSessionCmp v s = 0 := fun v hv hcmp =>
    hid v hv (sslSessionCmp_eq_zero.mp hcmp)
  have hget : (st.keyed l).get s = none := h.apart.lists.get_eq_none_iff.mpr hapart
  rcases Lhash.lhInsert_represents h.represents st.sslSessionHash_of_cmp s itemOk allocOk with
    ⟨lh', hins, hok, hrep⟩ | ⟨hins, rfl, -⟩
  · rw [hok hget] at hins ⊢
    exact ⟨lh', by rw [hins, hget], .of_represents hrep (h.apart.lists.insert_new hapart)⟩
  · exact ⟨lh, hins, h⟩

end

/-! ## References -/

/-- The sessions differ in their links and references only. -/
def SameContents (st st' : SessionList S) : Prop :=
  ∀ x, (st'.session x).sessionId = (st.session x).sessionId
    ∧ (st'.session x).time = (st.session x).time ∧ (st'.session x).timeout = (st.session x).timeout

omit [DecidableEq S] in
lemma SameContents.trans {st₁ st₂ : SessionList S} (h : SameContents st st₁)
    (h' : SameContents st₁ st₂) : SameContents st st₂ := fun x =>
  ⟨(h' x).1.trans (h x).1, (h' x).2.1.trans (h x).2.1, (h' x).2.2.trans (h x).2.2⟩

omit [DecidableEq S] in
lemma SameData.sameContents (h : SameData st st') : SameContents st st' := fun x => by
  rw [h x]
  exact ⟨rfl, rfl, rfl⟩

/-- The list, with one reference to each of its sessions besides those that are `owned`. -/
structure Listed (st : SessionList S) (owned : S → ℕ) (l : List S) : Prop where
  linked : st.Linked l
  held : ∀ s, (st.session s).references = owned s + if s ∈ l then 1 else 0

def bump (owned : S → ℕ) (s : S) : S → ℕ := Function.update owned s (owned s + 1)

variable {owned : S → ℕ}

lemma bump_apply (owned : S → ℕ) (s x : S) :
    bump owned s x = owned x + if x = s then 1 else 0 := by
  rw [bump, Function.update_apply]
  split
  · next h => rw [h]
  · rfl

lemma bump_comm (owned : S → ℕ) (s t : S) : bump (bump owned s) t = bump (bump owned t) s := by
  funext x
  rw [bump_apply, bump_apply, bump_apply, bump_apply]
  omega

lemma Listed.setReferences {owned' : S → ℕ} {n : ℕ} (h : Listed st owned l)
    (hs : n + owned s = (st.session s).references + owned' s)
    (hx : ∀ x, x ≠ s → owned' x = owned x) :
    SameContents st (st.setSession s { st.session s with references := n })
      ∧ Listed (st.setSession s { st.session s with references := n }) owned' l := by
  refine ⟨fun x => ?_, h.linked.setSession rfl rfl, fun x => ?_⟩
  all_goals
    rw [setSession_session]
    by_cases heq : x = s
  · simp [heq]
  · simp [heq]
  · have := h.held s
    rw [if_pos heq, heq]
    dsimp only
    omega
  · rw [if_neg heq, hx x heq, h.held]

lemma Listed.upRef (h : Listed st owned l) (s : S) :
    SameContents st (st.sslSessionUpRef s) ∧ Listed (st.sslSessionUpRef s) (bump owned s) l := by
  refine h.setReferences ?_ fun x hx => ?_
  · rw [bump_apply, if_pos rfl]
    omega
  · rw [bump_apply, if_neg hx, Nat.add_zero]

lemma Listed.free (h : Listed st (bump owned s) l) :
    ∃ st', st.sslSessionFree (some s) = some st' ∧ SameContents st st' ∧ Listed st' owned l := by
  have hs := h.held s
  rw [bump_apply, if_pos rfl] at hs
  refine ⟨_, by rw [sslSessionFree, if_neg (by omega)], h.setReferences ?_ fun x hx => ?_⟩
  · rw [bump_apply, if_pos rfl]
    omega
  · rw [bump_apply, if_neg hx, Nat.add_zero]

lemma Listed.unlink (h : Listed st owned l) (hs : s ∈ l) :
    ∃ st', st.sslSessionListRemove s = some st' ∧ SameContents st st'
      ∧ Listed st' (bump owned s) (l.erase s) := by
  obtain ⟨st', hremove, hsame, hlinked⟩ := h.linked.erase hs
  refine ⟨st', hremove, hsame.sameContents, hlinked, fun x => ?_⟩
  rw [hsame x, bump_apply]
  refine (h.held x).trans ?_
  by_cases hx : x = s
  · rw [hx, if_pos hs, if_pos rfl, if_neg h.linked.nodup.not_mem_erase]
  · rw [if_neg hx]
    simp only [mem_erase_of_ne hx, Nat.add_zero]

lemma Listed.link (h : Listed st (bump owned s) l) (hs : s ∉ l) :
    ∃ st', st.sslSessionListAdd s = some st' ∧ SameContents st st'
      ∧ Listed st' owned (s :: l) := by
  obtain ⟨st', hadd, hsame, hlinked⟩ := h.linked.add hs
  refine ⟨st', hadd, hsame.sameContents, hlinked, fun x => ?_⟩
  rw [hsame x]
  refine (h.held x).trans ?_
  rw [bump_apply]
  by_cases hx : x = s
  · rw [hx, if_pos rfl, if_neg hs, if_pos mem_cons_self]
  · simp only [mem_cons, hx, false_or, if_false, Nat.add_zero]

/-- A session goes from the list, and the context's reference to it goes too. -/
lemma Listed.drop (h : Listed st owned l) (hs : s ∈ l) :
    ∃ st', (do (← st.sslSessionListRemove s).sslSessionFree (some s)) = some st'
      ∧ SameContents st st' ∧ Listed st' owned (l.erase s) := by
  obtain ⟨st₁, hremove, hsame₁, h₁⟩ := h.unlink hs
  obtain ⟨st₂, hfree, hsame₂, h₂⟩ := h₁.free
  exact ⟨st₂, by rw [hremove, Option.bind_eq_bind, Option.bind_some, hfree], hsame₁.trans hsame₂,
    h₂⟩

end SessionList

/-! ## The cache as a list -/

/-- What a session is, apart from where it is linked and how often it is referred to. -/
structure Contents where
  sessionId : Bytes
  time : ℕ
  timeout : ℕ

/-- What the cache reads of the sessions and of the context. -/
structure View (S : Type) where
  contents : S → Contents
  size : ℕ
  mode : CacheMode
  handshakes : ℕ

namespace View

variable (v : View S) (l : List S)

def hasId (s : S) : Bool := (v.contents s).sessionId ≠ []

/-- The oldest sessions go while there are too many.  One that has no ID is in the way. -/
def evict : List S := l.take v.size ++ (l.drop v.size).rdropWhile v.hasId

def enforce : List S := if v.size = 0 then l else v.evict l

def insertInto (s : S) (itemOk : Bool) : List S :=
  if s ∈ l then l
  else if itemOk = false ∧ ∀ x ∈ l, (v.contents x).sessionId ≠ (v.contents s).sessionId then l
  else v.enforce (s :: l.filter fun x => (v.contents x).sessionId ≠ (v.contents s).sessionId)

/-- A call that inserts `s`: it is not there, and there is memory for a new item or an old one to
take the place of. -/
def Inserts (s : S) (itemOk : Bool) : Prop :=
  s ∉ l ∧ (itemOk = true ∨ ∃ x ∈ l, (v.contents x).sessionId = (v.contents s).sessionId)

def removeFrom (s : Option S) : List S :=
  match s with
  | none => l
  | some s => if v.hasId s then l.erase s else l

def expired (time : ℕ) (s : S) : Bool :=
  let deadline := ((v.contents s).time + (v.contents s).timeout) % 2 ^ 64
  time = 0 || deadline < (v.contents s).time || time > deadline

def flushAt (time : ℕ) : List S := l.filter fun s => !v.expired time s

def update (s : S) (server resumable : Bool) (now : ℕ) (itemOk : Bool) : List S :=
  if resumable && server && v.mode.server && !v.mode.noInternalStore then
    if !v.mode.noAutoClear && v.handshakes + 1 ≥ 255 then v.flushAt (v.insertInto l s itemOk) now
    else v.insertInto l s itemOk
  else l

def timeValid (now : ℕ) (s : S) : Bool :=
  (v.contents s).time ≤ now && (v.contents s).timeout > now - (v.contents s).time

/-- A session that is found and is too old is removed. -/
def keepValid (now : ℕ) (s : S) : List S :=
  if v.timeValid now s then l else v.removeFrom l (some s)

def find (sessionId : Bytes) : Option S :=
  if v.mode.noInternalLookup then none
  else l.find? fun s => (v.contents s).sessionId = sessionId

def lookup (sessionId : Bytes) (getSessionCb : Option (SslCtx.External S)) (now : ℕ)
    (itemOk : Bool) : List S :=
  if sessionId = [] ∨ sessionId.length > 32 then l
  else
    match v.find l sessionId, getSessionCb with
    | some s, _ => v.keepValid l now s
    | none, some (.found s _) =>
      v.keepValid (if v.mode.noInternalStore then l else v.insertInto l s itemOk) now s
    | none, _ => l

/-- What a call makes of the list. -/
def step : Op S → List S
  | .addSession s itemOk _ => v.insertInto l s itemOk
  | .removeSession s _ => v.removeFrom l s
  | .flushSessions time _ => v.flushAt l time
  | .updateCache s server resumable now itemOk _ _ => v.update l s server resumable now itemOk
  | .lookup sessionId getSessionCb now itemOk _ => v.lookup l sessionId getSessionCb now itemOk
  | _ => l

variable {v l}

omit [DecidableEq S] in
lemma evict_of_le (h : l.length ≤ v.size) : v.evict l = l := by
  rw [evict, take_of_length_le h, drop_of_length_le h, rdropWhile_nil, List.append_nil]

omit [DecidableEq S] in
lemma evict_concat {t : S} (h : v.size ≤ l.length) :
    v.evict (l ++ [t]) = if v.hasId t then v.evict l else l ++ [t] := by
  rw [evict, take_append_of_le_length h, drop_append_of_le_length h, rdropWhile_concat]
  split
  · rfl
  · rw [← append_assoc, take_append_drop]

/-- A session that is inserted is in front; it has taken the place of the one with its ID, and the
oldest have gone. -/
lemma Inserts.insertInto {s : S} (h : v.Inserts l s itemOk) :
    v.insertInto l s itemOk
      = v.enforce (s :: l.filter fun x => (v.contents x).sessionId ≠ (v.contents s).sessionId) := by
  rw [View.insertInto, if_neg h.1, if_neg]
  rintro ⟨hitem, hall⟩
  rcases h.2 with hok | ⟨x, hx, hid⟩
  · exact Bool.false_ne_true (hitem.symm.trans hok)
  · exact hall x hx hid

end View

namespace SslCtx

open SessionList (bump bump_apply bump_comm)

/-- What decides on the list. -/
def view (ctx : SslCtx S) : View S where
  contents s := ⟨(ctx.session s).sessionId, (ctx.session s).time, (ctx.session s).timeout⟩
  size := ctx.sessionCacheSize
  mode := ctx.sessionCacheMode
  handshakes := ctx.handshakesSinceCacheFlush

variable {ctx ctx' : SslCtx S} {owned : S → ℕ} {l : List S} {s : S}

omit [DecidableEq S] in
lemma view_of_sameContents {st : SessionList S} (h : ctx.toSessionList.SameContents st)
    (sessions : Lhash S) : view { ctx with toSessionList := st, sessions } = ctx.view := by
  simp only [view, View.mk.injEq, and_true]
  funext x
  rw [(h x).1, (h x).2.1, (h x).2.2]

omit [DecidableEq S] in
@[simp] lemma view_mode (ctx : SslCtx S) : ctx.view.mode = ctx.sessionCacheMode := rfl

/-- The table and the list hold the same sessions, and the context has one reference to each. -/
structure Cached (ctx : SslCtx S) (owned : S → ℕ) (l : List S) : Prop where
  linked : ctx.toSessionList.Linked l
  tabled : ctx.toSessionList.Tabled ctx.sessions l
  held : ∀ s, (ctx.session s).references = owned s + if s ∈ l then 1 else 0

omit [DecidableEq S] in
lemma onList_eq {st : SessionList S} {f : SessionList S → Option (SessionList S)}
    (h : f ctx.toSessionList = some st) :
    ctx.onList f = some { ctx with toSessionList := st } := by
  rw [onList, h, Option.map_some]

lemma Cached.listed (h : Cached ctx owned l) : ctx.toSessionList.Listed owned l :=
  ⟨h.linked, h.held⟩

lemma Cached.of_listed {st : SessionList S} {sessions : Lhash S} (h : st.Listed owned l)
    (hsame : ctx.toSessionList.SameContents st) (htab : ctx.toSessionList.Tabled sessions l) :
    view { ctx with toSessionList := st, sessions } = ctx.view
      ∧ Cached { ctx with toSessionList := st, sessions } owned l :=
  ⟨view_of_sameContents hsame sessions, h.linked, htab.congr fun x _ => (hsame x).1, h.held⟩

lemma Cached.upRef (h : Cached ctx owned l) (s : S) :
    (ctx.upRef s).view = ctx.view ∧ Cached (ctx.upRef s) (bump owned s) l := by
  obtain ⟨hsame, h'⟩ := h.listed.upRef s
  exact Cached.of_listed h' hsame h.tabled

lemma Cached.free (h : Cached ctx (bump owned s) l) :
    ∃ ctx', ctx.onList (·.sslSessionFree (some s)) = some ctx' ∧ ctx'.view = ctx.view
      ∧ Cached ctx' owned l := by
  obtain ⟨st, hfree, hsame, h'⟩ := h.listed.free
  exact ⟨_, onList_eq hfree, Cached.of_listed h' hsame h.tabled⟩

lemma Cached.removeSession (h : Cached ctx owned l) (s : Option S) (allocOk : Bool) :
    ∃ removed ctx', ctx.removeSession s allocOk = some (removed, ctx') ∧ ctx'.view = ctx.view
      ∧ (removed = true ↔ ∃ t ∈ s, t ∈ l ∧ ctx.view.hasId t)
      ∧ Cached ctx' owned (ctx.view.removeFrom l s) := by
  cases s with
  | none => exact ⟨false, ctx, rfl, rfl, by simp, h⟩
  | some s =>
    have hid : ctx.view.hasId s = decide ((ctx.session s).sessionId ≠ []) := rfl
    rw [SslCtx.removeSession, View.removeFrom]
    by_cases hempty : (ctx.session s).sessionId = []
    · rw [if_pos hempty]
      have hno : ctx.view.hasId s = false := by simp [hid, hempty]
      exact ⟨false, ctx, rfl, rfl, by simp [hno], by simpa [hno] using h⟩
    have hyes : ctx.view.hasId s = true := by simp [hid, hempty]
    rw [if_neg hempty, hyes, if_pos rfl]
    by_cases hs : s ∈ l
    · obtain ⟨sessions, hdelete, htab⟩ := h.tabled.delete hs allocOk
      obtain ⟨st₁, hremove, hsame₁, h₁⟩ := h.listed.unlink hs
      obtain ⟨st₂, hfree, hsame₂, h₂⟩ := h₁.free
      obtain ⟨hview, h'⟩ := Cached.of_listed h₂ (hsame₁.trans hsame₂) htab
      rw [if_pos (h.tabled.retrieve_eq_some.mpr hs), hdelete]
      refine ⟨true, _, ?_, hview, by simp [hs, hyes], h'⟩
      simp [onList, hremove, hfree]
    · rw [if_neg fun hfound => hs (h.tabled.retrieve_eq_some.mp hfound)]
      refine ⟨false, ctx, rfl, rfl, by simp [hs], ?_⟩
      rwa [erase_of_not_mem hs]

lemma Cached.enforceLimit (allocOk : ℕ → Bool) : ∀ {fuel : ℕ} {ctx : SslCtx S} {l : List S},
    Cached ctx owned l → l.length < fuel →
    ∃ ctx', enforceLimit allocOk fuel ctx = some ctx' ∧ ctx'.view = ctx.view
      ∧ Cached ctx' owned (ctx.view.evict l)
  | 0, _, _, _, hfuel => absurd hfuel (Nat.not_lt_zero _)
  | fuel + 1, ctx, l, h, hfuel => by
    rw [SslCtx.enforceLimit, h.tabled.numItems, h.linked.tail]
    split_ifs with hmany
    · obtain ⟨removed, ctx₁, hremove, hview, hremoved, h₁⟩ :=
        h.removeSession l.getLast? (allocOk fuel)
      rw [hremove, Option.bind_eq_bind, Option.bind_some]
      dsimp only
      rcases l.eq_nil_or_concat with rfl | ⟨L, t, rfl⟩
      · exact absurd hmany (Nat.not_lt_zero _)
      rw [concat_eq_append] at *
      have hle : ctx.view.size ≤ L.length := by
        rw [length_append, length_singleton] at hmany
        exact Nat.lt_succ_iff.mp hmany
      rw [View.evict_concat hle]
      have hlast : ctx.view.removeFrom (L ++ [t]) (L ++ [t]).getLast?
          = if ctx.view.hasId t then L else L ++ [t] := by
        have hnotMem : t ∉ L := by
          have hnodup := (nodup_append.mp h.linked.nodup).2.2
          exact fun hmem => hnodup t hmem t (mem_singleton_self t) rfl
        rw [getLast?_concat]
        simp only [View.removeFrom]
        rw [erase_append_right _ hnotMem, erase_cons_head, List.append_nil]
      rw [hlast] at h₁
      by_cases hid : ctx.view.hasId t
      · rw [if_pos hid] at h₁ ⊢
        have hyes : removed = true := hremoved.mpr ⟨t, by simp, by simp, hid⟩
        rw [length_append, length_singleton] at hfuel
        obtain ⟨ctx₂, hrest, hview₂, h₂⟩ :=
          Cached.enforceLimit allocOk h₁ (Nat.lt_of_succ_lt_succ hfuel)
        rw [if_pos hyes]
        exact ⟨ctx₂, hrest, hview₂.trans hview, hview ▸ h₂⟩
      · grind
    · refine ⟨ctx, rfl, rfl, ?_⟩
      rw [View.evict_of_le (Nat.le_of_not_lt hmany)]
      exact h

lemma Cached.enforce (h : Cached ctx owned l) (allocOk : ℕ → Bool) :
    ∃ ctx', ctx.enforceCacheSize allocOk = some ctx' ∧ ctx'.view = ctx.view
      ∧ Cached ctx' owned (ctx.view.enforce l) := by
  unfold enforceCacheSize
  split_ifs with hsize
  · rw [View.enforce, if_neg (show ctx.view.size ≠ 0 from hsize.ne')]
    exact h.enforceLimit allocOk (by rw [h.tabled.numItems]; exact Nat.lt_succ_self _)
  · rw [View.enforce, if_pos (show ctx.view.size = 0 from Nat.eq_zero_of_not_pos hsize)]
    exact ⟨ctx, rfl, rfl, h⟩

lemma onList_none (ctx : SslCtx S) : ctx.onList (·.sslSessionFree none) = some ctx := rfl

omit [DecidableEq S] in
lemma onList_some (ctx : SslCtx S) : ctx.onList some = some ctx := rfl

lemma Cached.addSessionLocked (h : Cached ctx (bump owned s) l) (itemOk : Bool)
    (allocOk : ℕ → Bool) :
    ∃ added ctx', ctx.addSessionLocked s itemOk allocOk = some (added, ctx')
      ∧ ctx'.view = ctx.view ∧ (added = true → ctx.view.Inserts l s itemOk)
      ∧ Cached ctx' owned (ctx.view.insertInto l s itemOk) := by
  unfold SslCtx.addSessionLocked
  by_cases hfresh : ∀ x ∈ l, (ctx.session x).sessionId ≠ (ctx.session s).sessionId
  · have hs : s ∉ l := fun hmem => hfresh s hmem rfl
    obtain ⟨sessions, hinsert, htab⟩ :=
      h.tabled.insert hfresh itemOk (allocOk (ctx.sessions.numItems + 2))
    rw [hinsert]
    cases itemOk with
    | false =>
      obtain ⟨ctx₁, hfree, hview, h₁⟩ := h.free
      refine ⟨false, ctx₁, by simp [hfree], hview, nofun, ?_⟩
      rwa [View.insertInto, if_neg hs, if_pos ⟨rfl, hfresh⟩]
    | true =>
      have hall : l.filter (fun x => (ctx.view.contents x).sessionId
          ≠ (ctx.view.contents s).sessionId) = l :=
        filter_eq_self.mpr fun x hx => decide_eq_true (hfresh x hx)
      obtain ⟨st, hadd, hsame, h₁⟩ := h.listed.link hs
      obtain ⟨hview₁, h₁⟩ := Cached.of_listed h₁ hsame htab
      obtain ⟨ctx₂, henforce, hview₂, h₂⟩ := h₁.enforce allocOk
      have hadd : onList { ctx with sessions } (·.sslSessionListAdd s) = some _ := onList_eq hadd
      refine ⟨true, ctx₂, ?_, hview₂.trans hview₁, fun _ => ⟨hs, .inl rfl⟩, ?_⟩
      · simp only [Bool.not_true, Bool.false_eq_true, if_false, reduceCtorEq, onList_some, hadd,
          henforce, onList_none, Option.bind_eq_bind, Option.bind_some]
      · rw [View.Inserts.insertInto ⟨hs, .inl rfl⟩, hall]
        exact hview₁ ▸ h₂
  · obtain ⟨old, hold, hid⟩ : ∃ x ∈ l, (ctx.session x).sessionId = (ctx.session s).sessionId := by
      simpa using hfresh
    obtain ⟨sessions, hinsert, htab⟩ :=
      h.tabled.replace hold hid itemOk (allocOk (ctx.sessions.numItems + 2))
    rw [hinsert]
    by_cases hsame : old = s
    · subst hsame
      have h₀ : Cached { ctx with sessions } (bump owned old) l :=
        ⟨h.linked, ⟨htab.filed, htab.count, htab.perm.trans (perm_cons_erase hold).symm,
          h.tabled.apart⟩, h.held⟩
      obtain ⟨ctx₁, hfree, hview, h₁⟩ := h₀.free
      refine ⟨false, ctx₁, ?_, hview, nofun, ?_⟩
      · grind
      · rwa [View.insertInto, if_pos hold]
    · have hs : s ∉ l := fun hmem => hsame (h.tabled.apart.eq_of_sessionId hold hmem hid)
      have hfilter : l.filter (fun x => (ctx.view.contents x).sessionId
          ≠ (ctx.view.contents s).sessionId) = l.erase old := by
        rw [h.linked.nodup.erase_eq_filter]
        refine filter_congr fun x hx => ?_
        rw [decide_not, decide_eq_decide.mpr ⟨fun hxs =>
          h.tabled.apart.eq_of_sessionId hx hold (hxs.trans hid.symm), fun hx => hx ▸ hid⟩]
        rfl
      rw [View.Inserts.insertInto ⟨hs, .inr ⟨old, hold, hid⟩⟩, hfilter]
      obtain ⟨st₁, hremove, hsame₁, h₁⟩ := h.listed.unlink hold
      rw [bump_comm] at h₁
      obtain ⟨st₂, hadd, hsame₂, h₂⟩ := h₁.link fun hmem => hs (mem_of_mem_erase hmem)
      obtain ⟨hview₂, h₂⟩ := Cached.of_listed h₂ (hsame₁.trans hsame₂) htab
      obtain ⟨ctx₃, henforce, hview₃, h₃⟩ := h₂.enforce allocOk
      obtain ⟨ctx₄, hfree, hview₄, h₄⟩ := h₃.free
      refine ⟨true, ctx₄, ?_, hview₄.trans (hview₃.trans hview₂),
        fun _ => ⟨hs, .inr ⟨old, hold, hid⟩⟩, hview₂ ▸ h₄⟩
      have hremove : onList { ctx with sessions } (·.sslSessionListRemove old) = some _ :=
        onList_eq hremove
      have hadd : onList { ctx with toSessionList := st₁, sessions } (·.sslSessionListAdd s)
        = some _ := onList_eq hadd
      simp [hsame, hremove, hadd, henforce, hfree]

lemma Cached.sslCtxAddSession (h : Cached ctx owned l) (s : S) (itemOk : Bool)
    (allocOk : ℕ → Bool) :
    ∃ added ctx', ctx.sslCtxAddSession s itemOk allocOk = some (added, ctx')
      ∧ ctx'.view = ctx.view ∧ (added = true → ctx.view.Inserts l s itemOk)
      ∧ Cached ctx' owned (ctx.view.insertInto l s itemOk) := by
  obtain ⟨hview, h⟩ := h.upRef s
  obtain ⟨added, ctx', hadd, hview', hadded, h'⟩ := h.addSessionLocked itemOk allocOk
  rw [hview] at hadded h'
  exact ⟨added, ctx', hadd, hview'.trans hview, hadded, h'⟩

/-! ### Flushing -/

omit [DecidableEq S] in
lemma expired_of_sameContents {st st' : SessionList S} (h : st.SameContents st') (time : ℕ)
    (s : S) : expired st' time s = expired st time s := by
  unfold SslCtx.expired
  rw [(h s).2.1, (h s).2.2]

lemma filter_erase_expired {p : S → Bool} {vs : List S} (hnodup : l.Nodup) (hp : p s = true) :
    (l.erase s).filter (fun x => !(decide (x ∈ vs) && p x))
      = l.filter fun x => !(decide (x ∈ s :: vs) && p x) := by
  rw [hnodup.erase_eq_filter, List.filter_filter]
  refine filter_congr fun x _ => ?_
  by_cases hx : x = s
  · simp [hx, hp]
  · simp [hx]

lemma filter_cons_kept {p : S → Bool} {vs : List S} (hp : p s = false) :
    l.filter (fun x => !(decide (x ∈ vs) && p x))
      = l.filter fun x => !(decide (x ∈ s :: vs) && p x) := by
  grind

/-- The iteration over the table, from a state of the sessions that came of `st₀`: those that are
visited and too old go from the map and from the list. -/
lemma visit_timeout {st₀ : SessionList S} (time : ℕ) : ∀ {vs l : List S}
    {m : Keyed (Lhash.cmpSetoid st₀.sslSessionCmp_equivalence)} {st : SessionList S},
    m.Lists l → st.Listed owned l → st₀.SameContents st → vs.Nodup → (∀ x ∈ vs, x ∈ l) →
    ∀ l', l' = l.filter (fun x => !(decide (x ∈ vs) && expired st₀ time x)) →
    ∃ st', (Lhash.visit (timeoutDoallArg time) vs m (some st)).2 = some st'
      ∧ (Lhash.visit (timeoutDoallArg time) vs m (some st)).1.Lists l' ∧ st'.Listed owned l'
      ∧ st₀.SameContents st'
  | [], l, m, st, hm, hl, hsame, _, _, l', hl' => by
    have hall : l' = l := by simp [hl']
    rw [hall]
    exact ⟨st, rfl, hm, hl, hsame⟩
  | v :: vs, l, m, st, hm, hl, hsame, hnodup, hmem, l', hl' => by
    obtain ⟨hv, hvs⟩ := nodup_cons.mp hnodup
    have hvl : v ∈ l := hmem v mem_cons_self
    rw [Lhash.visit, timeoutDoallArg]
    rw [expired_of_sameContents hsame time v]
    by_cases hold : expired st₀ time v = true
    · obtain ⟨st₁, hdrop, hsame₁, hl₁⟩ := hl.drop hvl
      have hm₁ : (m.erase v).Lists (l.erase v) :=
        (hm.perm (perm_cons_erase hvl)).erase (SessionList.sslSessionCmp_eq_zero.mpr rfl)
      have hmem₁ : ∀ x ∈ vs, x ∈ l.erase v := fun x hx =>
        (mem_erase_of_ne fun heq : x = v => hv (heq ▸ hx)).mpr
          (hmem x (mem_cons_of_mem _ hx))
      rw [if_pos hold, hdrop]
      exact visit_timeout time hm₁ hl₁ (hsame.trans hsame₁) hvs hmem₁ l'
        (hl'.trans (filter_erase_expired hl.linked.nodup hold).symm)
    · rw [if_neg hold]
      exact visit_timeout time hm hl hsame hvs (fun x hx => hmem x (mem_cons_of_mem _ hx)) l'
        (hl'.trans (filter_cons_kept (Bool.eq_false_iff.mpr hold)).symm)

section

variable (h : Cached ctx owned l)

include h

lemma Cached.sslCtxFlushSessions (time : ℕ) (allocOk : Bool) :
    ∃ ctx', ctx.sslCtxFlushSessions time allocOk = some ctx' ∧ ctx'.view = ctx.view
      ∧ Cached ctx' owned (ctx.view.flushAt l time) := by
  obtain ⟨⟨sessions, arg, visited⟩, hdoall⟩ : ∃ r, ctx.sessions.lhDoallArg ctx.sslSessionHash
    ctx.sslSessionCmp (timeoutDoallArg time) allocOk (some ctx.toSessionList) = r := ⟨_, rfl⟩
  obtain ⟨hlists, hrep, harg⟩ := Lhash.lhDoallArg_represents h.tabled.represents
    ctx.toSessionList.sslSessionHash_of_cmp (some ctx.toSessionList) _ _ _ hdoall
  have hvisited (x : S) : x ∈ visited ↔ x ∈ l :=
    (hlists.mem_iff x).trans (h.tabled.apart.lists.mem_iff x).symm
  have hflush : ctx.view.flushAt l time = l.filter fun x =>
      !(decide (x ∈ visited) && expired ctx.toSessionList time x) := by
    refine filter_congr fun x hx => ?_
    rw [decide_eq_true ((hvisited x).mpr hx), Bool.true_and]
    rfl
  obtain ⟨st, hst, hm, hl, hsame⟩ := visit_timeout time h.tabled.apart.lists h.listed
    (fun _ => ⟨rfl, rfl, rfl⟩) hlists.nodup (fun x hx => (hvisited x).mp hx) _ hflush
  refine ⟨{ ctx with toSessionList := st, sessions }, ?_,
    Cached.of_listed hl hsame (.of_represents hrep hm)⟩
  rw [SslCtx.sslCtxFlushSessions, hdoall]
  dsimp only
  rw [harg, hst, Option.map_some]

/-! ### Handshakes -/

lemma Cached.autoClear (now : ℕ) (allocOk : Bool) :
    ∃ ctx', ctx.autoClear now allocOk = some ctx' ∧ ctx'.view.contents = ctx.view.contents
      ∧ Cached ctx' owned
        (if !ctx.view.mode.noAutoClear && ctx.view.handshakes + 1 ≥ 255
          then ctx.view.flushAt l now else l) := by
  unfold SslCtx.autoClear
  rw [view_mode]
  cases ctx.sessionCacheMode.noAutoClear with
  | true => exact ⟨ctx, rfl, rfl, h⟩
  | false =>
    rw [if_neg Bool.false_ne_true]
    by_cases hmany : ctx.handshakesSinceCacheFlush + 1 ≥ 255
    · have h₀ : Cached { ctx with handshakesSinceCacheFlush := 0 } owned l :=
        ⟨h.linked, h.tabled, h.held⟩
      obtain ⟨ctx', hflush, hview, h'⟩ := h₀.sslCtxFlushSessions now allocOk
      rw [if_pos hmany, if_pos (by simpa [view] using hmany)]
      exact ⟨ctx', hflush, by rw [hview]; rfl, h'⟩
    · rw [if_neg hmany, if_neg (by simpa [view] using hmany)]
      exact ⟨_, rfl, rfl, h.linked, h.tabled, h.held⟩

lemma Cached.updateInternal (s : S) (server : Bool) (now : ℕ) (itemOk : Bool) (allocOk : ℕ → Bool) :
    ∃ ctx', ctx.updateInternal s server now itemOk allocOk = some ctx'
      ∧ ctx'.view.contents = ctx.view.contents ∧ Cached ctx' owned
        (if server && !ctx.view.mode.noInternalStore then
          if !ctx.view.mode.noAutoClear && ctx.view.handshakes + 1 ≥ 255
            then ctx.view.flushAt (ctx.view.insertInto l s itemOk) now
            else ctx.view.insertInto l s itemOk
        else l) := by
  unfold SslCtx.updateInternal
  rw [view_mode]
  by_cases hstore : (server && !ctx.sessionCacheMode.noInternalStore) = true
  · rw [if_pos hstore, if_pos hstore]
    obtain ⟨added, ctx₁, hadd, hview₁, -, h₁⟩ := h.sslCtxAddSession s itemOk allocOk
    obtain ⟨ctx₂, hclear, hcontents, h₂⟩ := h₁.autoClear now (allocOk 0)
    rw [SslCtx.sslCtxAddSession] at hadd
    rw [hview₁] at h₂ hcontents
    refine ⟨ctx₂, ?_, hcontents, h₂⟩
    rw [hadd, Option.bind_eq_bind, Option.bind_some]
    exact hclear
  · rw [if_neg hstore, if_neg hstore]
    exact ⟨ctx, rfl, rfl, h⟩

lemma Cached.sslUpdateCache (s : S) (server resumable : Bool) (now : ℕ) (itemOk : Bool)
    (allocOk : ℕ → Bool) (newSessionCb : Option Bool) :
    ∃ ctx', ctx.sslUpdateCache s server resumable now itemOk allocOk newSessionCb = some ctx'
      ∧ Cached ctx'
        (if (resumable && (if server then ctx.sessionCacheMode.server
          else ctx.sessionCacheMode.client) && newSessionCb = some true)
          then bump owned s else owned)
        (ctx.view.update l s server resumable now itemOk) := by
  obtain ⟨mode, hmode⟩ : ∃ mode, (if server then ctx.sessionCacheMode.server
    else ctx.sessionCacheMode.client) = mode := ⟨_, rfl⟩
  have hcond : (resumable && server && ctx.view.mode.server && !ctx.view.mode.noInternalStore)
      = ((resumable && mode) && (server && !ctx.view.mode.noInternalStore)) := by
    rw [← hmode]
    cases server
    · simp
    · cases resumable <;> simp [view]
  unfold SslCtx.sslUpdateCache View.update
  rw [hcond, hmode]
  by_cases hcalled : (resumable && mode) = true
  · have hgo : ¬ (!resumable || !mode) = true := by simpa using hcalled
    rw [if_neg hgo, hcalled, Bool.true_and, Bool.true_and]
    obtain ⟨ctx₁, hupdate, -, h₁⟩ := h.updateInternal s server now itemOk allocOk
    rw [hupdate, Option.bind_eq_bind, Option.bind_some]
    rcases newSessionCb with - | kept
    · exact ⟨ctx₁, rfl, h₁⟩
    cases kept with
    | true => exact ⟨_, rfl, (h₁.upRef s).2⟩
    | false =>
      obtain ⟨ctx₂, hfree, -, h₂⟩ := (h₁.upRef s).2.free
      exact ⟨ctx₂, hfree, h₂⟩
  · grind

end

lemma Cached.lookupFound (h : Cached ctx (bump owned s) l) (now : ℕ) (allocOk : ℕ → Bool) :
    ∃ ctx', ctx.lookupFound s now allocOk
        = some (.ok (if ctx.view.timeValid now s then some s else none), ctx')
      ∧ Cached ctx' (if ctx.view.timeValid now s then bump owned s else owned)
        (ctx.view.keepValid l now s) := by
  have hvalid : sslSessionIsTimeValid ctx.toSessionList now s = ctx.view.timeValid now s := by
    unfold sslSessionIsTimeValid View.timeValid
    split_ifs with hnow
    · rw [decide_eq_false (show ¬ (ctx.view.contents s).time ≤ now from
        Nat.not_le_of_lt hnow), Bool.false_and]
    · rw [decide_eq_true (show (ctx.view.contents s).time ≤ now from
        Nat.le_of_not_lt hnow), Bool.true_and]
      rfl
  unfold SslCtx.lookupFound View.keepValid
  rw [hvalid]
  split_ifs with hok
  · exact ⟨ctx, rfl, h⟩
  · obtain ⟨removed, ctx₁, hremove, hview, -, h₁⟩ := h.removeSession (some s) (allocOk 0)
    obtain ⟨ctx₂, hfree, -, h₂⟩ := h₁.free
    refine ⟨ctx₂, ?_, h₂⟩
    rw [sslCtxRemoveSession, hremove, Option.bind_eq_bind, Option.bind_some]
    dsimp only
    rw [hfree]
    rfl

lemma Cached.storeExternal (h : Cached ctx owned l) (s : S) (itemOk : Bool)
    (allocOk : ℕ → Bool) : ∃ ctx', ctx.storeExternal s itemOk allocOk = some ctx'
      ∧ ctx'.view = ctx.view ∧ Cached ctx' owned
        (if ctx.view.mode.noInternalStore then l else ctx.view.insertInto l s itemOk) := by
  unfold SslCtx.storeExternal
  rw [view_mode]
  split_ifs
  · exact ⟨ctx, rfl, rfl, h⟩
  · obtain ⟨added, ctx₁, hadd, hview, -, h₁⟩ := h.sslCtxAddSession s itemOk allocOk
    exact ⟨ctx₁, by rw [hadd, Option.map_some], hview, h₁⟩

lemma Cached.lookupInternal (h : Cached ctx owned l) (sessionId : Bytes) :
    ctx.lookupInternal sessionId = ctx.view.find l sessionId := by
  unfold SslCtx.lookupInternal View.find
  rw [h.tabled.retrieveKey]
  rfl

/-- The references that are held elsewhere, when a callback has handed over its own. -/
def unbump (owned : S → ℕ) (s : S) : S → ℕ := Function.update owned s (owned s - 1)

lemma bump_unbump {owned : S → ℕ} (h : 0 < owned s) : bump (unbump owned s) s = owned := by
  funext x
  rw [bump_apply, unbump, Function.update_apply]
  by_cases hx : x = s
  · rw [if_pos hx, if_pos hx, hx]
    omega
  · rw [if_neg hx, if_neg hx, Nat.add_zero]

lemma Cached.external (h : Cached ctx (bump owned s) l) (now : ℕ) (itemOk : Bool)
    (allocOk : ℕ → Bool) :
    ∃ ctx', (do (← ctx.storeExternal s itemOk allocOk).lookupFound s now allocOk)
        = some (.ok (if ctx.view.timeValid now s then some s else none), ctx')
      ∧ Cached ctx' (if ctx.view.timeValid now s then bump owned s else owned)
        (ctx.view.keepValid (if ctx.view.mode.noInternalStore then l
          else ctx.view.insertInto l s itemOk) now s) := by
  obtain ⟨ctx₁, hstore, hview, h₁⟩ := h.storeExternal s itemOk allocOk
  obtain ⟨ctx₂, hfound, h₂⟩ := h₁.lookupFound now allocOk
  rw [hview] at hfound h₂
  exact ⟨ctx₂, by rw [hstore, Option.bind_eq_bind, Option.bind_some, hfound], h₂⟩

end SslCtx

/-! ## The order of the list -/

namespace View

variable {v : View S} {l : List S} {s : S}

omit [DecidableEq S] in
lemma evict_append (v : View S) (l : List S) : ∃ gone, v.evict l ++ gone = l := by
  obtain ⟨gone, hgone⟩ := List.rdropWhile_prefix v.hasId (l.drop v.size)
  exact ⟨gone, by rw [evict, append_assoc, hgone, take_append_drop]⟩

omit [DecidableEq S] in
lemma enforce_append (v : View S) (l : List S) : ∃ gone, v.enforce l ++ gone = l := by
  unfold enforce
  split
  · exact ⟨[], List.append_nil l⟩
  · exact v.evict_append l

omit [DecidableEq S] in
lemma enforce_sublist (v : View S) (l : List S) : (v.enforce l).Sublist l := by
  obtain ⟨gone, hgone⟩ := v.enforce_append l
  have := sublist_append_left (v.enforce l) gone
  rwa [hgone] at this

lemma removeFrom_sublist (v : View S) (l : List S) (s : Option S) :
    (v.removeFrom l s).Sublist l := by
  cases s with
  | none => exact Sublist.refl l
  | some s =>
    show (if v.hasId s then l.erase s else l).Sublist l
    split
    · exact erase_sublist
    · exact Sublist.refl l

lemma keepValid_sublist (v : View S) (l : List S) (now : ℕ) (s : S) :
    (v.keepValid l now s).Sublist l := by
  unfold keepValid
  split
  · exact Sublist.refl l
  · exact v.removeFrom_sublist l (some s)

/-- What a call that may insert `s` can make of the list. -/
def grown (l : List S) (s : S) : List S := if s ∈ l then l else s :: l

lemma sublist_grown (l : List S) (s : S) : l.Sublist (grown l s) := by
  unfold grown
  split
  · exact Sublist.refl l
  · exact sublist_cons_self s l

lemma insertInto_sublist (v : View S) (l : List S) (s : S) (itemOk : Bool) :
    (v.insertInto l s itemOk).Sublist (grown l s) := by
  unfold insertInto
  by_cases hs : s ∈ l
  · rw [if_pos hs]
    exact sublist_grown l s
  rw [if_neg hs]
  split
  · exact sublist_grown l s
  · rw [grown, if_neg hs]
    exact (v.enforce_sublist _).trans (filter_sublist.cons_cons s)

lemma update_sublist (v : View S) (l : List S) (s : S) (server resumable : Bool) (now : ℕ)
    (itemOk : Bool) : (v.update l s server resumable now itemOk).Sublist (grown l s) := by
  unfold update
  split
  · split
    · exact filter_sublist.trans (v.insertInto_sublist l s itemOk)
    · exact v.insertInto_sublist l s itemOk
  · exact sublist_grown l s

end View

/-! ## Runs -/

namespace World

variable {w w' : World S} {l l' : List S} {s : S}

/-- The cache is the list, from the last insertion to the first. -/
structure Consistent (w : World S) (l : List S) : Prop where
  cached : w.ctx.Cached w.owned l
  ordered : l.Sublist w.log
  once : w.log.Nodup

lemma Consistent.cached_iff (h : Consistent w l) : w.cached s = true ↔ s ∈ l := by
  rw [World.cached, decide_eq_true_iff]
  exact h.cached.tabled.mem_elements

lemma Consistent.after (h : Consistent w l) {ctx : SslCtx S} {owned : S → ℕ}
    (hctx : ctx.Cached owned l') (hl' : l'.Sublist (View.grown l s)) :
    Consistent { w.after s ctx with owned } l' := by
  have hlog : l'.Sublist (w.after s ctx).log ∧ (w.after s ctx).log.Nodup := by
    have hmem : s ∈ ctx.sessions.elements ↔ s ∈ l' := hctx.tabled.mem_elements
    have hwas : w.cached s = true ↔ s ∈ l := h.cached_iff
    unfold View.grown at hl'
    unfold World.after
    split_ifs at hl' with hs
    · rw [if_neg fun hnew => absurd (hwas.mpr hs) (by simpa using hnew.1)]
      exact ⟨hl'.trans h.ordered, h.once⟩
    by_cases hs' : s ∈ l'
    · have hnot : (!w.cached s) = true := by simpa using fun hc => hs (hwas.mp hc)
      rw [if_pos ⟨hnot, hmem.mpr hs'⟩]
      have herase : l.Sublist (w.log.erase s) := by
        have := h.ordered.erase s
        rwa [erase_of_not_mem hs] at this
      exact ⟨hl'.trans (herase.cons_cons s), nodup_cons.mpr ⟨h.once.not_mem_erase, h.once.erase s⟩⟩
    · rw [if_neg fun hnew => hs' (hmem.mp hnew.2)]
      rcases sublist_cons_iff.mp hl' with hl' | ⟨r, rfl, -⟩
      · exact ⟨hl'.trans h.ordered, h.once⟩
      · exact absurd mem_cons_self hs'
  exact ⟨hctx, hlog.1, hlog.2⟩

lemma Consistent.shrink (h : Consistent w l) {ctx : SslCtx S} {owned : S → ℕ}
    (hctx : ctx.Cached owned l') (hl' : l'.Sublist l) : Consistent { w with ctx, owned } l' :=
  ⟨hctx, hl'.trans h.ordered, h.once⟩

lemma addOwned_ite (w : World S) (s : S) (b : Bool) : w.addOwned s (if b then 1 else 0)
    = { w with owned := if b then SessionList.bump w.owned s else w.owned } := by
  cases b
  · rw [addOwned, if_neg Bool.false_ne_true, if_neg Bool.false_ne_true, Nat.add_zero,
      Function.update_eq_self]
  · rfl

lemma receive_ite (w : World S) (s : S) (b : Bool) : w.receive (.ok (if b then some s else none))
    = { w with owned := if b then SessionList.bump w.owned s else w.owned } := by
  cases b <;> rfl

lemma handOver_of_not_missed {ctx : SslCtx S}
    (h : ¬ ((sessionId ≠ [] ∧ sessionId.length ≤ 32) ∧ w.ctx.lookupInternal sessionId = none))
    (getSessionCb : Option (SslCtx.External S)) :
    w.handOver sessionId getSessionCb ctx = { w with ctx } := by
  unfold handOver
  split
  · rw [if_neg h]
  · rfl

lemma Consistent.addSession (h : Consistent w l) (s : S) (itemOk : Bool) (allocOk : ℕ → Bool) :
    ∃ w', w.step (.addSession s itemOk allocOk) = some w'
      ∧ Consistent w' (w.ctx.view.insertInto l s itemOk) := by
  obtain ⟨added, ctx, hadd, -, -, hctx⟩ := h.cached.sslCtxAddSession s itemOk allocOk
  refine ⟨w.after s ctx, ?_, h.after hctx (w.ctx.view.insertInto_sublist l s itemOk)⟩
  rw [step, hadd]
  rfl

lemma Consistent.updateCache (h : Consistent w l) (s : S) (server resumable : Bool) (now : ℕ)
    (itemOk : Bool) (allocOk : ℕ → Bool) (newSessionCb : Option Bool) :
    ∃ w', w.step (.updateCache s server resumable now itemOk allocOk newSessionCb) = some w'
      ∧ Consistent w' (w.ctx.view.update l s server resumable now itemOk) := by
  obtain ⟨ctx, hupdate, hctx⟩ :=
    h.cached.sslUpdateCache s server resumable now itemOk allocOk newSessionCb
  refine ⟨_, by rw [step, hupdate]; rfl, ?_⟩
  rw [addOwned_ite]
  exact h.after hctx (w.ctx.view.update_sublist l s server resumable now itemOk)

lemma step_lookup {getSessionCb : Option (SslCtx.External S)}
    {out : SslCtx.LookupResult S} {ctx : SslCtx S}
    (h : w.ctx.sslLookupSession sessionId getSessionCb now itemOk allocOk = some (out, ctx)) :
    w.step (.lookup sessionId getSessionCb now itemOk allocOk)
      = some ((w.handOver sessionId getSessionCb ctx).receive out) := by
  rw [step, h]
  rfl

lemma Consistent.lookupExternal (h : Consistent w l) {s : S} {copy : Bool} (now : ℕ)
    (itemOk : Bool) (allocOk : ℕ → Bool) (howned : copy = false → 0 < w.owned s) :
    ∃ out ctx, (do
        let ctx ← (if copy then w.ctx.upRef s else w.ctx).storeExternal s itemOk allocOk
        ctx.lookupFound s now allocOk) = some (out, ctx)
      ∧ Consistent ((if copy then w.after s ctx else (w.after s ctx).takeOwned s).receive out)
        (w.ctx.view.keepValid (if w.ctx.view.mode.noInternalStore then l
          else w.ctx.view.insertInto l s itemOk) now s) := by
  have hsublist : (w.ctx.view.keepValid (if w.ctx.view.mode.noInternalStore then l
      else w.ctx.view.insertInto l s itemOk) now s).Sublist (View.grown l s) := by
    refine (w.ctx.view.keepValid_sublist _ now s).trans ?_
    split
    · exact View.sublist_grown l s
    · exact w.ctx.view.insertInto_sublist l s itemOk
  cases copy with
  | true =>
    obtain ⟨hview, h₁⟩ := h.cached.upRef s
    obtain ⟨ctx, hfound, h₂⟩ := h₁.external now itemOk allocOk
    rw [hview] at hfound h₂
    refine ⟨_, ctx, hfound, ?_⟩
    rw [receive_ite]
    exact h.after h₂ hsublist
  | false =>
    have h₁ := h.cached
    rw [← SslCtx.bump_unbump (howned rfl)] at h₁
    obtain ⟨ctx, hfound, h₂⟩ := h₁.external now itemOk allocOk
    refine ⟨_, ctx, hfound, ?_⟩
    rw [receive_ite]
    exact h.after h₂ hsublist

lemma Consistent.lookup (h : Consistent w l) {getSessionCb : Option (SslCtx.External S)}
    (ha : w.Allowed (.lookup sessionId getSessionCb now itemOk allocOk)) :
    ∃ w', w.step (.lookup sessionId getSessionCb now itemOk allocOk) = some w'
      ∧ Consistent w' (w.ctx.view.lookup l sessionId getSessionCb now itemOk) := by
  unfold View.lookup
  by_cases hbad : sessionId = [] ∨ sessionId.length > 32
  · rw [if_pos hbad]
    refine ⟨_, step_lookup (if_pos hbad), ?_⟩
    rw [handOver_of_not_missed fun hmissed => hbad.elim hmissed.1.1 (by omega)]
    exact h
  have hgood : sessionId ≠ [] ∧ sessionId.length ≤ 32 := by
    rw [not_or] at hbad
    exact ⟨hbad.1, Nat.le_of_not_lt hbad.2⟩
  rw [if_neg hbad, ← h.cached.lookupInternal]
  have hcall : w.ctx.sslLookupSession sessionId getSessionCb now itemOk allocOk = _ := if_neg hbad
  cases hfind : w.ctx.lookupInternal sessionId with
  | some s =>
    obtain ⟨hview, h₁⟩ := h.cached.upRef s
    obtain ⟨ctx, hfound, h₂⟩ := h₁.lookupFound now allocOk
    rw [hview] at hfound h₂
    rw [hfind] at hcall
    refine ⟨_, step_lookup (hcall.trans hfound), ?_⟩
    rw [receive_ite, handOver_of_not_missed fun hmissed => by simp [hfind] at hmissed]
    exact h.shrink h₂ (w.ctx.view.keepValid_sublist l now s)
  | none =>
    rw [hfind] at hcall
    rcases getSessionCb with - | cb
    · exact ⟨_, step_lookup hcall, h⟩
    cases cb with
    | null | pending => exact ⟨_, step_lookup hcall, h⟩
    | found s copy =>
      have howned : copy = false → 0 < w.owned s := by
        rintro rfl
        exact ha s false rfl
      obtain ⟨out, ctx, hfound, h'⟩ := h.lookupExternal now itemOk allocOk howned
      refine ⟨_, step_lookup (hcall.trans hfound), ?_⟩
      rw [handOver]
      rwa [if_pos ⟨hgood, hfind⟩]

lemma Consistent.setSession (h : Consistent w l) {v : Session S} {owned : S → ℕ}
    (hnext : v.next = (w.ctx.session s).next) (hprev : v.prev = (w.ctx.session s).prev)
    (hid : s ∈ l → v.sessionId = (w.ctx.session s).sessionId)
    (hrefs : v.references = owned s + if s ∈ l then 1 else 0)
    (howned : ∀ x, x ≠ s → owned x = w.owned x) :
    Consistent { w with
      ctx := { w.ctx with toSessionList := w.ctx.toSessionList.setSession s v }, owned } l := by
  refine h.shrink ⟨h.cached.linked.setSession hnext hprev, h.cached.tabled.congr fun x hx => ?_,
    fun x => ?_⟩ (Sublist.refl l)
  all_goals
    rw [SessionList.setSession_session]
    split
  · next heq => rw [heq, hid (heq ▸ hx)]
  · rfl
  · next heq => rw [heq, hrefs]
  · next hne => rw [howned x hne, h.cached.held]

lemma Consistent.step (h : Consistent w l) {op : Op S} (ha : w.Allowed op) :
    ∃ w', w.step op = some w' ∧ Consistent w' (w.ctx.view.step l op) := by
  cases op with
  | addSession s itemOk allocOk => exact h.addSession s itemOk allocOk
  | removeSession s allocOk =>
    obtain ⟨removed, ctx, hremove, -, -, hctx⟩ := h.cached.removeSession s allocOk
    refine ⟨_, ?_, h.shrink hctx (w.ctx.view.removeFrom_sublist l s)⟩
    rw [World.step, SslCtx.sslCtxRemoveSession, hremove]
    rfl
  | flushSessions time allocOk =>
    obtain ⟨ctx, hflush, -, hctx⟩ := h.cached.sslCtxFlushSessions time allocOk
    refine ⟨_, ?_, h.shrink hctx filter_sublist⟩
    rw [World.step, hflush]
    rfl
  | updateCache s server resumable now itemOk allocOk newSessionCb =>
    exact h.updateCache s server resumable now itemOk allocOk newSessionCb
  | lookup sessionId getSessionCb now itemOk allocOk => exact h.lookup ha
  | configure size mode =>
    exact ⟨_, rfl, h.shrink ⟨h.cached.linked, h.cached.tabled, h.cached.held⟩ (Sublist.refl l)⟩
  | create s sessionId time timeout =>
    have hdead : w.owned s = 0 ∧ s ∉ l := by
      have hlive : ¬ (0 < w.owned s ∨ w.cached s = true) := ha
      rw [h.cached_iff, not_or] at hlive
      exact ⟨Nat.eq_zero_of_not_pos hlive.1, hlive.2⟩
    refine ⟨_, rfl, h.setSession ?_ ?_ (fun hs => absurd hs hdead.2) ?_ fun x hx => ?_⟩
    · exact ((h.cached.linked.next s).trans (nextIn_of_notMem hdead.2)).symm
    · exact ((h.cached.linked.prev s).trans (prevFrom_of_notMem hdead.2)).symm
    · rw [if_neg hdead.2, Function.update_self, hdead.1]
    · exact Function.update_of_ne hx _ _
  | retain s => exact ⟨_, rfl, h.shrink (h.cached.upRef s).2 (Sublist.refl l)⟩
  | release s =>
    have hcached := h.cached
    rw [← SslCtx.bump_unbump ha] at hcached
    obtain ⟨ctx, hfree, -, hctx⟩ := hcached.free
    refine ⟨_, ?_, h.shrink hctx (Sublist.refl l)⟩
    rw [World.step, hfree]
    rfl
  | change s sessionId time timeout =>
    refine ⟨_, rfl, h.setSession rfl rfl (fun hs => ha.2 (h.cached_iff.mpr hs)) (h.cached.held s)
      fun _ _ => rfl⟩

/-- A new context: no session is cached, here or in any other context. -/
structure Initial (w : World S) : Prop where
  sessions : w.ctx.sessions = .lhNew
  head : w.ctx.sessionCacheHead = none
  tail : w.ctx.sessionCacheTail = none
  unlinked : ∀ s, (w.ctx.session s).next = .null ∧ (w.ctx.session s).prev = .null
  counted : ∀ s, (w.ctx.session s).references = w.owned s
  log : w.log = []

/-- A run of allowed calls. -/
inductive Run : World S → List (Op S) → World S → Prop
  | nil {w : World S} : Run w [] w
  | cons {w w' w'' : World S} {op : Op S} {ops : List (Op S)} (ha : w.Allowed op)
    (hstep : w.step op = some w') (h : Run w' ops w'') : Run w (op :: ops) w''

lemma Initial.consistent (h : Initial w) : Consistent w [] := by
  have hnew : w.ctx.toSessionList.Tabled w.ctx.sessions [] := by
    rw [h.sessions]
    exact .of_represents (Lhash.lhNew_represents _) Keyed.lists_empty
  refine ⟨⟨⟨nodup_nil, fun x => (h.unlinked x).1, fun x => (h.unlinked x).2, h.head, h.tail⟩,
    hnew, h.counted⟩, ?_, ?_⟩
  · exact nil_sublist _
  · rw [h.log]
    exact nodup_nil

lemma Run.consistent {ops : List (Op S)} (h : Run w ops w') :
    ∀ {l : List S}, Consistent w l → ∃ l', Consistent w' l' := by
  induction h with
  | nil => exact fun hl => ⟨_, hl⟩
  | cons ha hstep _ ih =>
    intro l hl
    obtain ⟨w₁, hstep₁, h₁⟩ := hl.step ha
    cases hstep.symm.trans hstep₁
    exact ih h₁

end World

namespace View

variable {v : View S} {l : List S} {s : S}

omit [DecidableEq S] in
lemma mem_enforce_cons (v : View S) (l : List S) (s : S) : s ∈ v.enforce (s :: l) := by
  unfold enforce
  by_cases hsize : v.size = 0
  · rw [if_pos hsize]
    exact mem_cons_self
  · obtain ⟨n, hn⟩ := Nat.exists_eq_succ_of_ne_zero hsize
    rw [if_neg hsize, evict, hn, take_succ_cons]
    exact mem_append_left _ mem_cons_self

omit [DecidableEq S] in
/-- Evictions end when there are not too many sessions, or the oldest one cannot be removed. -/
lemma length_enforce_le (hsize : v.size ≠ 0) (l : List S) : (v.enforce l).length ≤ v.size
    ∨ ∃ s, (v.enforce l).getLast? = some s ∧ v.hasId s = false := by
  rw [enforce, if_neg hsize, evict]
  rcases ((l.drop v.size).rdropWhile v.hasId).eq_nil_or_concat with hnil | ⟨L, s, hrest⟩
  · left
    rw [hnil, List.append_nil, length_take]
    exact Nat.min_le_left _ _
  · right
    have hne : (l.drop v.size).rdropWhile v.hasId ≠ [] := by simp [hrest]
    have hlast := rdropWhile_last_not v.hasId (l.drop v.size) hne
    simpa [hrest] using hlast

end View

/-- After any run, the table and the list hold the same sessions, and every further call does to
both what it should do to the list.  A session that is added replaces the one with its ID, and those
that are evicted are the last of the list. -/
theorem World.sessionCache_consistent {w w' : World S} {ops : List (Op S)} (hinit : w.Initial)
    (hrun : w.Run ops w') : ∃ l, w'.Consistent l
      ∧ (∀ op, w'.Allowed op → ∃ w'', w'.step op = some w''
        ∧ w''.Consistent (w'.ctx.view.step l op))
      ∧ ∀ s ∉ l, ∀ itemOk allocOk, (itemOk = true
          ∨ ∃ x ∈ l, (w'.ctx.session x).sessionId = (w'.ctx.session s).sessionId) →
        ∀ l', l' = w'.ctx.view.step l (.addSession s itemOk allocOk) → s ∈ l'
          ∧ (∀ x ∈ l, (w'.ctx.session x).sessionId = (w'.ctx.session s).sessionId → x ∉ l')
          ∧ (∃ evicted, l' ++ evicted = s :: l.filter fun x =>
            (w'.ctx.session x).sessionId ≠ (w'.ctx.session s).sessionId)
          ∧ (w'.ctx.sessionCacheSize ≠ 0 → l'.length ≤ w'.ctx.sessionCacheSize
            ∨ ∃ last, l'.getLast? = some last ∧ (w'.ctx.session last).sessionId = []) := by
  obtain ⟨l, hl⟩ := hrun.consistent hinit.consistent
  refine ⟨l, hl, fun op ha => hl.step ha, ?_⟩
  intro s hs itemOk allocOk hroom l' hl'
  rw [show w'.ctx.view.step l (.addSession s itemOk allocOk) = _ from
    View.Inserts.insertInto ⟨hs, hroom⟩] at hl'
  obtain ⟨evicted, hevicted⟩ := w'.ctx.view.enforce_append
    (s :: l.filter fun x => (w'.ctx.session x).sessionId ≠ (w'.ctx.session s).sessionId)
  subst hl'
  refine ⟨View.mem_enforce_cons _ _ s, fun x hx hid hmem => ?_, ⟨evicted, hevicted⟩,
    fun hsize => ?_⟩
  · rcases mem_cons.mp ((View.enforce_sublist _ _).subset hmem) with rfl | hkept
    · exact hs hx
    · exact of_decide_eq_true (mem_filter.mp hkept).2 hid
  · refine (View.length_enforce_le hsize _).imp_right fun ⟨last, hlast, hid⟩ => ⟨last, hlast, ?_⟩
    exact not_not.mp (of_decide_eq_false hid)

def exampleWorld : World Bool where
  ctx :=
    { session := fun s => ⟨[if s then 1 else 2], 0, 0, 1, .null, .null⟩
      sessionCacheHead := none
      sessionCacheTail := none
      sessions := .lhNew
      sessionCacheSize := 1
      sessionCacheMode := ⟨false, true, false, false, false⟩
      handshakesSinceCacheFlush := 0 }
  owned := fun _ => 1
  log := []

def World.adding (w : World Bool) (s : Bool) : World Bool :=
  (w.step (.addSession s true fun _ => true)).getD w

lemma World.step_adding {w : World Bool} {s : Bool}
    (h : (w.step (.addSession s true fun _ => true)).isSome) :
    w.step (.addSession s true fun _ => true) = some (w.adding s) := by
  obtain ⟨w', hw'⟩ := Option.isSome_iff_exists.mp h
  rw [adding, hw', Option.getD_some]

example : (exampleWorld.adding true).cached true = true := by decide +kernel

lemma exampleWorld_initial : exampleWorld.Initial :=
  ⟨rfl, rfl, rfl, fun _ => ⟨rfl, rfl⟩, fun _ => rfl, rfl⟩

lemma exampleWorld_run :
    exampleWorld.Run [.addSession true true fun _ => true] (exampleWorld.adding true) :=
  .cons (.inl (by decide)) (World.step_adding (by decide +kernel)) .nil

theorem World.sessionCache_consistent_two :
    ∃ w' l, exampleWorld.Run
        [.addSession true true fun _ => true, .addSession false true fun _ => true] w'
      ∧ (w'.ctx.sessionCacheHead, w'.ctx.sessionCacheTail, w'.ctx.sessions.numItems)
        = (some false, some false, 1)
      ∧ w'.Consistent l := by
  have hrun : exampleWorld.Run
      [.addSession true true fun _ => true, .addSession false true fun _ => true]
      ((exampleWorld.adding true).adding false) :=
    .cons (.inl (by decide)) (step_adding (by decide +kernel))
      (.cons (.inl (by decide +kernel)) (step_adding (by decide +kernel)) .nil)
  obtain ⟨l, hl, -⟩ := sessionCache_consistent exampleWorld_initial hrun
  exact ⟨_, l, hrun, by decide +kernel, hl⟩

/-! ## The size of the cache -/

/-- A call that adds a session leaves no more of them than the cache is to hold, if all have IDs. -/
theorem World.sslCtxAddSession_within_size {w w' : World S} {ops : List (Op S)}
    (hinit : w.Initial) (hrun : w.Run ops w') (hsize : w'.ctx.sessionCacheSize ≠ 0)
    (hids : ∀ x, w'.cached x = true → (w'.ctx.session x).sessionId ≠ []) {s : S}
    (hs : (w'.ctx.session s).sessionId ≠ []) {allocOk : ℕ → Bool} {ctx : SslCtx S}
    (hadd : w'.ctx.sslCtxAddSession s itemOk allocOk = some (true, ctx)) :
    ctx.sessionCacheSize = w'.ctx.sessionCacheSize
      ∧ ctx.sessions.numItems ≤ ctx.sessionCacheSize := by
  obtain ⟨l, hl⟩ := hrun.consistent hinit.consistent
  obtain ⟨added, ctx', hadd', hview, hadded, hctx⟩ := hl.cached.sslCtxAddSession s itemOk allocOk
  cases hadd.symm.trans hadd'
  have hsame : ctx.sessionCacheSize = w'.ctx.sessionCacheSize := congrArg View.size hview
  refine ⟨hsame, ?_⟩
  rw [hctx.tabled.numItems, hsame, (hadded rfl).insertInto]
  refine (View.length_enforce_le hsize _).resolve_right ?_
  rintro ⟨last, hlast, hid⟩
  have hempty : (w'.ctx.session last).sessionId = [] := not_not.mp (of_decide_eq_false hid)
  rcases mem_cons.mp ((View.enforce_sublist _ _).subset (mem_of_getLast? hlast)) with rfl | hmem
  · exact hs hempty
  · exact hids last (hl.cached_iff.mpr (mem_filter.mp hmem).1) hempty

theorem World.sslCtxAddSession_within_size_two : ∃ ctx,
    (exampleWorld.adding true).ctx.sslCtxAddSession false true (fun _ => true) = some (true, ctx)
      ∧ ctx.sessions.numItems ≤ ctx.sessionCacheSize := by
  obtain ⟨⟨added, ctx⟩, hadd⟩ := Option.isSome_iff_exists.mp
    (show ((exampleWorld.adding true).ctx.sslCtxAddSession false true fun _ => true).isSome by
      decide +kernel)
  have htrue : (((exampleWorld.adding true).ctx.sslCtxAddSession false true fun _ => true).map
    Prod.fst) = some true := by decide +kernel
  rw [hadd] at htrue
  obtain rfl : added = true := Option.some.inj htrue
  exact ⟨ctx, hadd, (sslCtxAddSession_within_size exampleWorld_initial exampleWorld_run
    (by decide +kernel) (by decide +kernel) (by decide +kernel) hadd).2⟩

/-- As in `exampleWorld`, but one of the sessions has no ID. -/
def namelessWorld : World Bool :=
  { exampleWorld with
    ctx := { exampleWorld.ctx with
      session := fun s => ⟨if s then [] else [2], 0, 0, 1, .null, .null⟩ } }

/-- Once it is the oldest, the session without an ID stays, and so does every other. -/
theorem World.sslCtxAddSession_beyond_size : namelessWorld.Initial
    ∧ namelessWorld.Run [.addSession true true fun _ => true] (namelessWorld.adding true)
    ∧ (((namelessWorld.adding true).ctx.sslCtxAddSession false true fun _ => true).map
      fun (added, ctx) => (added, ctx.sessionCacheSize, ctx.sessions.numItems))
      = some (true, 1, 2) :=
  ⟨⟨rfl, rfl, rfl, fun _ => ⟨rfl, rfl⟩, fun _ => rfl, rfl⟩,
    .cons (.inl (by decide)) (step_adding (by decide +kernel)) .nil, by decide +kernel⟩

/-! ## Expiry -/

/-- A session that was made by then is too old for `ssl_session_is_time_valid` at `time`. -/
def ExpiredAsOf (st : SessionList S) (time : ℕ) (s : S) : Prop :=
  (st.session s).time ≤ time ∧ SslCtx.sslSessionIsTimeValid st time s = false

omit [DecidableEq S] in
/-- The two tests differ when the sum overflows, and at the last second. -/
lemma expired_agrees_iff {st : SessionList S} {time : ℕ} {s : S} (htime : 0 < time)
    (hlt : time < 2 ^ 64)
    (htyped : (st.session s).time < 2 ^ 64 ∧ (st.session s).timeout < 2 ^ 32) :
    (SslCtx.expired st time s = true ↔ ExpiredAsOf st time s)
      ↔ (st.session s).time + (st.session s).timeout < 2 ^ 64
        ∧ time ≠ (st.session s).time + (st.session s).timeout := by
  simp only [SslCtx.expired, ExpiredAsOf, SslCtx.sslSessionIsTimeValid, Bool.or_eq_true,
    decide_eq_true_eq]
  split_ifs with hnow
  · omega
  · simp only [decide_eq_false_iff_not]
    omega

/-- A flush leaves the sessions that have not expired, except that it keeps those in their last
second and drops those whose time and timeout together do not fit 64 bits. -/
theorem World.flushSessions_agrees_iff {w w' : World S} {ops : List (Op S)} (hinit : w.Initial)
    (hrun : w.Run ops w') (time : ℕ) (htime : 0 < time) (hlt : time < 2 ^ 64)
    (htyped : ∀ x, w'.cached x = true →
      (w'.ctx.session x).time < 2 ^ 64 ∧ (w'.ctx.session x).timeout < 2 ^ 32) (allocOk : Bool) :
    ∃ w'', w'.step (.flushSessions time allocOk) = some w''
      ∧ ((∀ x, w''.cached x = true
          ↔ w'.cached x = true ∧ ¬ ExpiredAsOf w'.ctx.toSessionList time x)
        ↔ ∀ x, w'.cached x = true →
          (w'.ctx.session x).time + (w'.ctx.session x).timeout < 2 ^ 64
            ∧ time ≠ (w'.ctx.session x).time + (w'.ctx.session x).timeout) := by
  obtain ⟨l, hl⟩ := hrun.consistent hinit.consistent
  obtain ⟨w'', hstep, hl''⟩ :=
    hl.step (show w'.Allowed (.flushSessions time allocOk) from trivial)
  refine ⟨w'', hstep, forall_congr' fun x => ?_⟩
  have hkept : x ∈ w'.ctx.view.step l (.flushSessions time allocOk)
      ↔ x ∈ l ∧ (!SslCtx.expired w'.ctx.toSessionList time x) = true := mem_filter
  rw [hl''.cached_iff, hkept, ← hl.cached_iff, and_congr_right_iff, Bool.not_eq_true',
    ← Bool.not_eq_true]
  refine imp_congr_right fun hx => ?_
  rw [not_iff_not, expired_agrees_iff htime hlt (htyped x hx)]

theorem World.flushSessions_agrees_iff_five : ∃ w'',
    (exampleWorld.adding true).step (.flushSessions 5 true) = some w'' ∧ ∀ x, w''.cached x = true
      ↔ (exampleWorld.adding true).cached x = true
        ∧ ¬ ExpiredAsOf (exampleWorld.adding true).ctx.toSessionList 5 x := by
  obtain ⟨w'', hstep, hiff⟩ :=
    flushSessions_agrees_iff exampleWorld_initial exampleWorld_run 5 (by decide) (by decide)
      (by decide +kernel) true
  exact ⟨w'', hstep, hiff.mpr (by decide +kernel)⟩

/-- One session ends at 150, and the sum of the other's time and timeout is not a 64-bit number. -/
def datedWorld : World Bool :=
  { exampleWorld with
    ctx := { exampleWorld.ctx with
      session := fun s => if s then ⟨[1], 100, 50, 1, .null, .null⟩
        else ⟨[2], 2 ^ 64 - 1, 10, 1, .null, .null⟩
      sessionCacheSize := 2 } }

/-- The first is rejected from 150 on and stays, the second is not even made by then and goes. -/
theorem World.flushSessions_disagrees : datedWorld.Initial
    ∧ datedWorld.Run [.addSession true true fun _ => true, .addSession false true fun _ => true]
      ((datedWorld.adding true).adding false)
    ∧ (((datedWorld.adding true).adding false).step (.flushSessions 150 true)).map
      (fun w => (w.cached true, w.cached false)) = some (true, false)
    ∧ SslCtx.sslSessionIsTimeValid datedWorld.ctx.toSessionList 150 true = false
    ∧ (datedWorld.ctx.session true).time ≤ 150 ∧ 150 < (datedWorld.ctx.session false).time :=
  ⟨⟨rfl, rfl, rfl, fun s => by cases s <;> exact ⟨rfl, rfl⟩, fun s => by cases s <;> rfl, rfl⟩,
    .cons (.inl (by decide)) (step_adding (by decide +kernel))
      (.cons (.inl (by decide +kernel)) (step_adding (by decide +kernel)) .nil),
    by decide +kernel, by decide, by decide, by decide⟩

end BoringSSL.SessionCache
