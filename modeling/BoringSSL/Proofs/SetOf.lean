import BoringSSL.Proofs.Cbs
import BoringSSL.SetOf

/-!
# Flushing a SET OF

The comparison is the lexicographic order of the encodings (`compareSetOfElement_neg`,
`compareSetOfElement_pos`).  Both loops read the contents the same way, into the one list of
elements whose concatenation they are (`IsDerConcat`), so what is written back has the length of
what was read and stays inside it.
-/

namespace BoringSSL

open ByteLib List Option

variable {d : ℕ} {cbb : Cbb} {e contents : Bytes} {es : List Bytes}

lemma compareSetOfElement_cons (x y : UInt8) (a b : Bytes) :
    compareSetOfElement (x :: a) (y :: b)
      = if x = y then compareSetOfElement a b else (x.toNat : ℤ) - y.toNat := by
  have hmin : (if a.length < b.length then a.length + 1 else b.length + 1)
      = (if a.length < b.length then a.length else b.length) + 1 := (apply_ite (· + 1) ..).symm
  simp only [compareSetOfElement, length_cons, Nat.add_lt_add_iff_right,
    Nat.add_right_cancel_iff, hmin, take_succ_cons, opensslMemcmp]
  by_cases hxy : x = y
  · simp only [hxy, if_true]
  · have hne : (x.toNat : ℤ) - y.toNat ≠ 0 := by
      have := mt UInt8.toNat_inj.mp hxy
      omega
    simp only [if_neg hxy, if_pos hne]

lemma compareSetOfElement_nil_nil : compareSetOfElement [] [] = 0 := rfl

lemma compareSetOfElement_nil_cons (y : UInt8) (b : Bytes) :
    compareSetOfElement [] (y :: b) = -1 := by
  simp [compareSetOfElement, opensslMemcmp]

lemma compareSetOfElement_cons_nil (x : UInt8) (a : Bytes) :
    compareSetOfElement (x :: a) [] = 1 := by
  simp [compareSetOfElement, opensslMemcmp]

lemma compareSetOfElement_neg : ∀ a b : Bytes, compareSetOfElement a b < 0 ↔ a < b
  | [], [] => by simp [compareSetOfElement_nil_nil]
  | [], y :: b => by simp [compareSetOfElement_nil_cons]
  | x :: a, [] => by simp [compareSetOfElement_cons_nil]
  | x :: a, y :: b => by
    rw [compareSetOfElement_cons, cons_lt_cons_iff]
    by_cases hxy : x = y
    · simp [hxy, compareSetOfElement_neg a b]
    · simp [hxy, UInt8.lt_iff_toNat_lt, sub_neg]

lemma compareSetOfElement_flip : ∀ a b : Bytes, compareSetOfElement a b = -compareSetOfElement b a
  | [], [] => rfl
  | [], y :: b => by rw [compareSetOfElement_nil_cons, compareSetOfElement_cons_nil]
  | x :: a, [] => by rw [compareSetOfElement_nil_cons, compareSetOfElement_cons_nil]; rfl
  | x :: a, y :: b => by
    rw [compareSetOfElement_cons, compareSetOfElement_cons]
    by_cases hxy : x = y
    · simp only [hxy, if_true, compareSetOfElement_flip a b]
    · simp only [if_neg hxy, if_neg (Ne.symm hxy), neg_sub]

lemma compareSetOfElement_nonpos (a b : Bytes) : compareSetOfElement a b ≤ 0 ↔ a ≤ b := by
  have hflip := compareSetOfElement_flip a b
  have hneg := compareSetOfElement_neg b a
  rw [← List.not_lt, ← hneg]
  omega

lemma compareSetOfElement_isOrder : IsOrder compareSetOfElement where
  flip a b := by
    have := compareSetOfElement_flip a b
    omega
  trans a b c hab hbc := by
    rw [compareSetOfElement_nonpos] at hab hbc ⊢
    exact Std.le_trans hab hbc

/-- A DER element. -/
def IsDerElement (e : Bytes) : Prop :=
  ∃ tag body, Asn1TagOk tag ∧ body.length ≤ 0xffffffff ∧ e = derElement tag body

/-- The contents are the DER elements `es`, one after the other. -/
structure IsDerConcat (contents : Bytes) (es : List Bytes) : Prop where
  elements : ∀ e ∈ es, IsDerElement e
  contents_eq : contents = es.flatten

lemma IsDerElement.pos (h : IsDerElement e) : 0 < e.length := by
  obtain ⟨tag, body, -, -, rfl⟩ := h
  simp only [derElement, length_append, identifierOctets]
  split_ifs <;> simp

lemma cbsGetAnyAsn1Element_append (h : IsDerElement e) (rest : Bytes) :
    ∃ r, cbsGetAnyAsn1Element (e ++ rest) = some r ∧ r.out = e ∧ r.cbs = rest := by
  obtain ⟨tag, body, hok, hlen, rfl⟩ := h
  exact ⟨_, cbsGetAnyAsn1Element_derElement hok hlen rest, rfl, rfl⟩

lemma isDerElement_of_get {s : Bytes} {r : Asn1Element} (h : cbsGetAnyAsn1Element s = some r) :
    IsDerElement r.out ∧ s = r.out ++ r.cbs := by
  obtain ⟨body, hr⟩ := cbsGetAnyAsn1Element_iff.mp h
  exact ⟨⟨r.tag, body, hr.tagOk, hr.length_le, hr.out⟩, hr.split⟩

lemma IsDerConcat.cons (he : IsDerElement e) (h : IsDerConcat contents es) :
    IsDerConcat (e ++ contents) (e :: es) where
  elements := forall_mem_cons.mpr ⟨he, h.elements⟩
  contents_eq := by rw [flatten_cons, h.contents_eq]

lemma IsDerConcat.perm {es' : List Bytes} (h : IsDerConcat contents es) (hp : es'.Perm es) :
    IsDerConcat es'.flatten es' where
  elements e he := h.elements e (hp.mem_iff.mp he)
  contents_eq := rfl

lemma readElements_isDerConcat : ∀ {es : List Bytes} {contents : Bytes},
    IsDerConcat contents es → readElements es.length contents = some es
  | [], _, _ => rfl
  | e :: es, _, h => by
    obtain ⟨he, hes⟩ := forall_mem_cons.mp h.elements
    obtain ⟨r, hget, rfl, hrest⟩ := cbsGetAnyAsn1Element_append he es.flatten
    have ih : readElements es.length es.flatten = some es := readElements_isDerConcat ⟨hes, rfl⟩
    rw [h.contents_eq, flatten_cons, length_cons, readElements, hget, bind_some,
      hrest, ih, map_some]

lemma countElements_isDerConcat : ∀ {fuel : ℕ} {es : List Bytes} {contents : Bytes},
    contents.length ≤ fuel → IsDerConcat contents es → countElements fuel contents = some es.length
  | fuel, [], _, _, h => by
    rw [h.contents_eq]
    cases fuel <;> rfl
  | fuel, e :: es, contents, hfuel, h => by
    obtain ⟨he, hes⟩ := forall_mem_cons.mp h.elements
    have hpos := he.pos
    have hlen : contents.length = e.length + es.flatten.length := by
      rw [h.contents_eq, flatten_cons, length_append]
    obtain ⟨fuel, rfl⟩ : ∃ n, fuel = n + 1 := ⟨fuel - 1, by omega⟩
    obtain ⟨x, s, rfl⟩ : ∃ x s, contents = x :: s :=
      exists_cons_of_length_pos (by omega)
    obtain ⟨r, hget, rfl, hrest⟩ := cbsGetAnyAsn1Element_append he es.flatten
    have ih : countElements fuel es.flatten = some es.length :=
      countElements_isDerConcat (by omega) ⟨hes, rfl⟩
    rw [countElements, h.contents_eq, flatten_cons, hget, bind_some, hrest, ih]
    · rfl
    · simp

lemma isDerConcat_of_countElements : ∀ {fuel n : ℕ} {contents : Bytes},
    countElements fuel contents = some n → ∃ es, IsDerConcat contents es
  | _, _, [], _ => ⟨[], by simp, rfl⟩
  | fuel + 1, n, x :: s, h => by
    simp only [countElements, bind_eq_some_iff, map_eq_some_iff] at h
    obtain ⟨r, hget, k, hcount, -⟩ := h
    obtain ⟨he, hs⟩ := isDerElement_of_get hget
    obtain ⟨es, hes⟩ := isDerConcat_of_countElements hcount
    exact ⟨r.out :: es, hs ▸ hes.cons he⟩

lemma writeElements_eq : ∀ {es : List Bytes} {buf : Bytes} {pos : ℕ},
    pos + es.flatten.length ≤ buf.length → writeElements buf pos es = overwrite buf pos es.flatten
  | [], buf, pos, _ => by simp [writeElements]
  | e :: es, buf, pos, h => by
    rw [flatten_cons, length_append] at h
    have hlen : (overwrite buf pos e).length = buf.length := overwrite_length (by omega)
    rw [writeElements, writeElements_eq (by omega), overwrite_overwrite_right (by omega),
      flatten_cons]

/-- The contents of the CBB at depth `d` lie in its buffer, as `CBB_len` asserts. -/
structure ContentsOk (cbb : Cbb) (d : ℕ) : Prop where
  start_le : cbbStart cbb d ≤ cbb.base.len
  len_le : cbb.base.len ≤ cbb.base.buf.length

/-- `cbb'` is `cbb` but for the contents at depth `d`, which have kept their length. -/
structure SameOutside (cbb cbb' : Cbb) (d : ℕ) : Prop where
  eq_with : cbb' = { cbb with base := { cbb.base with buf := cbb'.base.buf } }
  length_eq : cbb'.base.buf.length = cbb.base.buf.length
  front : cbb'.base.buf.take (cbbStart cbb d) = cbb.base.buf.take (cbbStart cbb d)
  back : cbb'.base.buf.drop cbb.base.len = cbb.base.buf.drop cbb.base.len

/-- `cbb` with other contents of the same length at depth `d`. -/
def Cbb.withContents (cbb : Cbb) (d : ℕ) (contents : Bytes) : Cbb :=
  { cbb with base := { cbb.base with buf := overwrite cbb.base.buf (cbbStart cbb d) contents } }

lemma cbbStart_congr {c c' : Cbb} (h : c'.children.take d = c.children.take d) :
    cbbStart c' d = cbbStart c d := by
  cases d with
  | zero => rfl
  | succ d =>
    have hget : ∀ l : List CbbChild, l[d]? = (l.take (d + 1))[d]? := fun l =>
      (getElem?_take_of_lt (Nat.lt_succ_self d)).symm
    simp only [cbbStart, hget c.children, hget c'.children, h]

lemma cbbStart_withContents (cbb : Cbb) (d : ℕ) (contents : Bytes) :
    ∀ k, cbbStart (cbb.withContents d contents) k = cbbStart cbb k
  | 0 => rfl
  | _ + 1 => rfl

lemma ContentsOk.length_contents (h : ContentsOk cbb d) :
    cbbStart cbb d + (cbbContents cbb d).length = cbb.base.len := by
  have := h.start_le
  have := h.len_le
  rw [cbbContents, length_drop, length_take]
  omega

lemma ContentsOk.withContents (h : ContentsOk cbb d)
    (hlen : contents.length = (cbbContents cbb d).length) :
    ContentsOk (cbb.withContents d contents) d
      ∧ cbbContents (cbb.withContents d contents) d = contents
      ∧ SameOutside cbb (cbb.withContents d contents) d := by
  have hlens := h.length_contents
  have hle := h.len_le
  have hbuf : (overwrite cbb.base.buf (cbbStart cbb d) contents).length = cbb.base.buf.length :=
    overwrite_length (by omega)
  refine ⟨⟨?_, ?_⟩, ?_, rfl, hbuf, ?_, ?_⟩
  · exact h.start_le
  · exact hle.trans_eq hbuf.symm
  · rw [cbbContents, cbbStart_withContents]
    simp only [Cbb.withContents]
    rw [← hlens, ← hlen, take_overwrite_end (by omega), drop_left']
    rw [length_take]
    omega
  · simp only [Cbb.withContents]
    rw [overwrite, append_assoc, take_append_of_le_length, take_take, min_self]
    rw [length_take]
    omega
  · simp only [Cbb.withContents]
    rw [overwrite, ← hlens, ← hlen, drop_append_of_le_length, drop_eq_nil_of_le]
    · simp
    all_goals
      rw [length_append, length_take]
      omega

lemma ContentsOk.withContents_self (h : ContentsOk cbb d) :
    cbb.withContents d (cbbContents cbb d) = cbb := by
  have hfront : cbb.base.buf.take (cbbStart cbb d)
      = (cbb.base.buf.take cbb.base.len).take (cbbStart cbb d) := by
    rw [take_take, min_eq_left h.start_le]
  have hbuf : overwrite cbb.base.buf (cbbStart cbb d) (cbbContents cbb d) = cbb.base.buf := by
    rw [overwrite, h.length_contents, hfront, cbbContents, take_append_drop, take_append_drop]
  rw [Cbb.withContents, hbuf]

/-- `qsort` sorts, given a comparison that is an order. -/
def Sorts (qsort : (Bytes → Bytes → ℤ) → List Bytes → List Bytes) : Prop :=
  ∀ call, IsOrder call → ∀ l, (qsort call l).Perm l ∧ (qsort call l).Pairwise (call · · ≤ 0)

variable {qsort : (Bytes → Bytes → ℤ) → List Bytes → List Bytes}

lemma Sorts.pairwise_le (h : Sorts qsort) (l : List Bytes) :
    (qsort compareSetOfElement l).Pairwise (· ≤ ·) :=
  (h _ compareSetOfElement_isOrder l).2.imp fun hab => (compareSetOfElement_nonpos _ _).mp hab

/-- Sorting what is in order already gives it back: the order tells every two encodings apart. -/
lemma Sorts.eq_self (h : Sorts qsort) {l : List Bytes} (hl : l.Pairwise (· ≤ ·)) :
    qsort compareSetOfElement l = l :=
  (h _ compareSetOfElement_isOrder l).1.eq_of_pairwise
    (fun _ _ _ _ hab hba => Std.le_antisymm hab hba) (h.pairwise_le l) hl

variable {mallocOk : Bool} {cbb c : Cbb} {d : ℕ}

lemma cbbFlushAsn1SetOf_not_concat (hc : cbbFlush cbb d = (true, c))
    (h : ∀ es, ¬ IsDerConcat (cbbContents c d) es) :
    cbbFlushAsn1SetOf qsort mallocOk cbb d = (false, c) := by
  have hcount : countElements (cbbContents c d).length (cbbContents c d) = none := by
    by_contra hne
    obtain ⟨n, hn⟩ := ne_none_iff_exists'.mp hne
    obtain ⟨es, hes⟩ := isDerConcat_of_countElements hn
    exact h es hes
  simp only [cbbFlushAsn1SetOf, hc, hcount, Bool.not_true, Bool.false_eq_true, if_false]

lemma Sorts.length_flatten (h : Sorts qsort) (hes : IsDerConcat contents es) :
    (qsort compareSetOfElement es).flatten.length = contents.length := by
  rw [hes.contents_eq]
  exact (h _ compareSetOfElement_isOrder es).1.flatten.length_eq

/-- With elements that both loops read, the call sorts them, or runs out of memory. -/
lemma cbbFlushAsn1SetOf_concat (hc : cbbFlush cbb d = (true, c)) (hq : Sorts qsort)
    (hok : ContentsOk c d) (hes : IsDerConcat (cbbContents c d) es) :
    cbbFlushAsn1SetOf qsort mallocOk cbb d
      = if es.length < 2 ∨ mallocOk = true then
          (true, c.withContents d (qsort compareSetOfElement es).flatten)
        else (false, c) := by
  have hwrite : writeElements c.base.buf (cbbStart c d) (qsort compareSetOfElement es)
      = overwrite c.base.buf (cbbStart c d) (qsort compareSetOfElement es).flatten := by
    refine writeElements_eq ?_
    rw [hq.length_flatten hes, hok.length_contents]
    exact hok.len_le
  simp only [cbbFlushAsn1SetOf, hc, countElements_isDerConcat le_rfl hes,
    readElements_isDerConcat hes, hwrite, Bool.not_true, Bool.false_eq_true, if_false]
  by_cases hfew : es.length < 2
  · have hself : qsort compareSetOfElement es = es :=
      hq.eq_self (by
        match es, hfew with
        | [], _ => exact .nil
        | [e], _ => exact pairwise_singleton _ _)
    rw [if_pos hfew, if_pos (Or.inl hfew), hself, ← hes.contents_eq, hok.withContents_self]
  · cases mallocOk <;> simp [hfew, Cbb.withContents]

lemma cbbFlush_self (hchildren : cbb.children.length ≤ d) (herror : cbb.base.error = false) :
    cbbFlush cbb d = (true, cbb) := by
  simp [cbbFlush, drop_eq_nil_of_le hchildren, take_of_length_le hchildren, cbbFlushChain, herror]

lemma Stands.contentsOk {lim : ℕ} {oc : List CbbChild} {before inner : Bytes}
    (h : Stands cbb lim oc (before ++ inner) []) (hstart : cbbStart cbb oc.length = before.length) :
    ContentsOk cbb oc.length ∧ cbbContents cbb oc.length = inner := by
  have hlen := h.holds.len
  have hcontent := h.holds.content
  simp only [layout] at hlen hcontent
  refine ⟨⟨?_, h.holds.le_cap.trans_eq h.holds.size.symm⟩, ?_⟩
  · rw [hstart, hlen, length_append]
    omega
  · rw [cbbContents, hstart, hcontent, drop_left]

lemma cbbFlushAsn1SetOf_again (hchildren : cbb.children.length ≤ d)
    (herror : cbb.base.error = false) (hq : Sorts qsort) (hok : ContentsOk cbb d)
    (hes : IsDerConcat (cbbContents cbb d) es) (hsorted : es.Pairwise (· ≤ ·)) :
    (cbbFlushAsn1SetOf qsort mallocOk cbb d).2 = cbb := by
  rw [cbbFlushAsn1SetOf_concat (cbbFlush_self hchildren herror) hq hok hes, hq.eq_self hsorted,
    ← hes.contents_eq, hok.withContents_self]
  split_ifs <;> rfl

/-- For a CBB that calls have brought in order, with the bytes `before` up to the contents of the
child at depth `oc.length`, and `inner` written and `fs` open in it. -/
theorem cbbFlushAsn1SetOf_sorts (hq : Sorts qsort) (mallocOk : Bool) {lim : ℕ}
    {oc : List CbbChild} {before inner : Bytes} {fs : List Frame}
    (h : Stands cbb lim oc (before ++ inner) fs)
    (hstart : cbbStart cbb oc.length = before.length) :
    let f := cbbFlush cbb oc.length
    let r := cbbFlushAsn1SetOf qsort mallocOk cbb oc.length
    IsOrder compareSetOfElement ∧ (∀ a b, compareSetOfElement a b ≤ 0 ↔ a ≤ b)
      ∧ (f.1 = false → r = f)
      ∧ (f.1 = true → cbbContents f.2 oc.length = inner ++ frameBytes fs
        ∧ (r.1 = false → r.2 = f.2)
        ∧ ((∀ es, ¬ IsDerConcat (cbbContents f.2 oc.length) es) → r.1 = false)
        ∧ ∀ es, IsDerConcat (cbbContents f.2 oc.length) es →
          (r.1 = true ↔ es.length < 2 ∨ mallocOk = true)
          ∧ (r.1 = true → ∃ sorted : List Bytes, sorted.Perm es ∧ sorted.Pairwise (· ≤ ·)
            ∧ cbbContents r.2 oc.length = sorted.flatten ∧ SameOutside f.2 r.2 oc.length
            ∧ ∀ again, (cbbFlushAsn1SetOf qsort again r.2 oc.length).2 = r.2)) := by
  intro f r
  refine ⟨compareSetOfElement_isOrder, compareSetOfElement_nonpos, fun hf => ?_, fun hf => ?_⟩
  · simp only [r, f, cbbFlushAsn1SetOf] at hf ⊢
    rw [hf]
    rfl
  obtain ⟨c, hc, hstands⟩ : ∃ c, cbbFlush cbb oc.length = (true, c)
      ∧ Stands c lim oc (before ++ inner ++ frameBytes fs) [] := by
    refine h.flush.1 (Classical.byContradiction fun hno => ?_)
    exact absurd (hf.symm.trans (h.flush.2 hno).1) (by simp)
  have hchildren : c.children = oc := by simpa [chainOf] using hstands.chain
  have hstart' : cbbStart c oc.length = before.length := by
    rw [← hstart]
    exact cbbStart_congr (by rw [hchildren, h.chain, take_left, take_length])
  rw [append_assoc] at hstands
  obtain ⟨hok, hcontents⟩ := hstands.contentsOk hstart'
  have hnone : (∀ es, ¬ IsDerConcat (cbbContents c oc.length) es) → r = (false, c) :=
    cbbFlushAsn1SetOf_not_concat hc
  have hsome : ∀ es, IsDerConcat (cbbContents c oc.length) es →
      r = if es.length < 2 ∨ mallocOk = true then
          (true, c.withContents oc.length (qsort compareSetOfElement es).flatten)
        else (false, c) := fun es => cbbFlushAsn1SetOf_concat hc hq hok
  have hfail : r.1 = false → r.2 = c := by
    grind
  simp only [f, hc]
  refine ⟨hcontents, hfail, fun hno => by rw [hnone hno], fun es hes => ?_⟩
  have hr := hsome es hes
  by_cases hmem : es.length < 2 ∨ mallocOk = true
  · rw [if_pos hmem] at hr
    obtain ⟨hperm, -⟩ := hq _ compareSetOfElement_isOrder es
    obtain ⟨hok', hcontents', houtside⟩ := hok.withContents (hq.length_flatten hes)
    simp only [hr]
    refine ⟨iff_of_true trivial hmem, fun _ => ⟨qsort compareSetOfElement es, hperm,
      hq.pairwise_le es, hcontents', houtside, fun again => ?_⟩⟩
    exact cbbFlushAsn1SetOf_again (congrArg List.length hchildren).le hstands.holds.noError hq hok'
      (by rw [hcontents']; exact hes.perm hperm) (hq.pairwise_le es)
  · grind

theorem cbbFlushAsn1SetOf_sorts_two :
    let qsort := fun (call : Bytes → Bytes → ℤ) l => l.insertionSort (call · · ≤ 0)
    let buf : Bytes := [0x31, 0x00, 0x04, 0x01, 0x02, 0x04, 0x01, 0x01]
    let cbb : Cbb := ⟨⟨buf, 8, 8, true, false, 0⟩, [⟨1, 1, true⟩]⟩
    (cbbFlushAsn1SetOf qsort true cbb 1).2.base.buf
        = [0x31, 0x00, 0x04, 0x01, 0x01, 0x04, 0x01, 0x02]
      ∧ ∃ sorted : List Bytes, sorted.Perm [[0x04, 0x01, 0x02], [0x04, 0x01, 0x01]]
        ∧ sorted.Pairwise (· ≤ ·) := by
  intro qsort buf cbb
  have hq : Sorts qsort := fun call hcall l =>
    have : Std.Total (call · · ≤ 0) := ⟨fun a b => by have := hcall.flip a b; omega⟩
    have : IsTrans Bytes (call · · ≤ 0) := ⟨hcall.trans⟩
    ⟨l.perm_insertionSort _, l.pairwise_insertionSort _⟩
  have hstands : Stands cbb (cbb.base.limit) [⟨1, 1, true⟩] ([0x31, 0x00] ++ buf.drop 2) [] :=
    ⟨⟨rfl, by decide, rfl, by decide, rfl, rfl, rfl⟩, rfl⟩
  have hes : IsDerConcat (buf.drop 2) [[0x04, 0x01, 0x02], [0x04, 0x01, 0x01]] :=
    ⟨by
      have hoctets : ∀ b, IsDerElement [0x04, 0x01, b] := fun b =>
        ⟨0x04, [b], by decide, by simp, by simp [derElement, identifierOctets, lengthOctets]⟩
      simpa using ⟨hoctets 2, hoctets 1⟩, rfl⟩
  obtain ⟨-, -, -, h⟩ := cbbFlushAsn1SetOf_sorts hq true hstands rfl
  obtain ⟨sorted, hperm, hsorted, -⟩ := ((h rfl).2.2.2 _ hes).2 (by decide +kernel)
  exact ⟨by decide +kernel, sorted, hperm, hsorted⟩

end BoringSSL
