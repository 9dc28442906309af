import BoringSSL.Lib.Bits
import BoringSSL.PkiName
import BoringSSL.Proofs.PkiParser

/-!
# Matching names and normalising them

Two attributes match exactly if their normal forms are equal (`normalForm`).  An RDN is normalised
to the sorted encodings of its attributes' normal forms, so matching, which takes attributes in any
order, is equality there.
-/

namespace BoringSSL.Pki

open ByteLib List Option

variable {e body b na : Bytes} {tag : UInt32}
  {charset : CharsetEnforcement} {out a p n : Bytes} {es : List Bytes}
  {as : List X509NameAttribute}

lemma normalizeRest_cons_of_ne {c : UInt8} (hc : c ≠ 0x20) (rest : Bytes) :
    ∃ d, normalizeRest charset (c :: rest) =
        (if charset.allows c = true ∨ (0x41 ≤ c ∧ c ≤ 0x5a) then
          (normalizeRest charset rest).map (d :: ·) else none)
      ∧ d ≠ 0x20 ∧ ¬ (0x41 ≤ d ∧ d ≤ 0x5a) := by
  by_cases hupper : 0x41 ≤ c ∧ c ≤ 0x5a
  · have hfold : ∀ c : UInt8, 0x41 ≤ c ∧ c ≤ 0x5a →
        c + 0x20 ≠ 0x20 ∧ ¬ (0x41 ≤ c + 0x20 ∧ c + 0x20 ≤ 0x5a) := forall_byte (by decide +kernel)
    refine ⟨c + 0x20, ?_, hfold c hupper⟩
    rw [normalizeRest.eq_def]
    simp [hc, hupper]
  · refine ⟨c, ?_, hc, hupper⟩
    rw [normalizeRest.eq_def]
    simp [hc, hupper]

lemma normalizeRest_keep {d : UInt8} (hd : d ≠ 0x20) (hlower : ¬ (0x41 ≤ d ∧ d ≤ 0x5a))
    (rest : Bytes) : normalizeRest .noEnforcement (d :: rest) =
      (normalizeRest .noEnforcement rest).map (d :: ·) := by
  rw [normalizeRest.eq_def]
  simp [hd, hlower, CharsetEnforcement.allows]

/-- What the loop writes it would write again, and it starts with no space unless it read one. -/
lemma normalizeRest_idempotent : ∀ {s out : Bytes},
    normalizeRest charset s = some out → normalizeRest .noEnforcement out = some out
      ∧ (s.head? ≠ some 0x20 → s ≠ [] → ∃ d rest, out = d :: rest ∧ d ≠ 0x20)
      ∧ (s.head? ≠ some 0x20 → out.head? ≠ some 0x20)
  | [], out, h => by
    obtain rfl : [] = out := by simpa [normalizeRest] using h
    exact ⟨rfl, fun _ h => absurd rfl h, by simp⟩
  | c :: rest, out, h => by
    by_cases hc : c = 0x20
    · subst hc
      refine ⟨?_, fun h => absurd rfl h, fun h => absurd rfl h⟩
      cases rest with
      | nil =>
        obtain rfl : [] = out := by simpa [normalizeRest] using h
        rfl
      | cons next rest =>
        rw [normalizeRest] at h
        by_cases hnext : next = 0x20
        · simp only [if_true, ne_eq, hnext, not_true_eq_false, if_false] at h
          exact (normalizeRest_idempotent h).1
        · simp only [if_true, ne_eq, hnext, not_false_eq_true] at h
          obtain ⟨out, hrun, rfl⟩ := map_eq_some_iff.mp h
          obtain ⟨hagain, hhead, -⟩ := normalizeRest_idempotent hrun
          obtain ⟨d, tail, rfl, hd⟩ := hhead (by simpa using hnext) (by simp)
          rw [normalizeRest]
          simp [hd, hagain]
    · obtain ⟨d, hrun, hd, hlower⟩ := @normalizeRest_cons_of_ne charset c hc rest
      rw [hrun] at h
      split_ifs at h
      obtain ⟨out, hrest, rfl⟩ := map_eq_some_iff.mp h
      obtain ⟨hagain, -, -⟩ := normalizeRest_idempotent hrest
      refine ⟨?_, fun _ _ => ⟨d, out, rfl, hd⟩, fun _ => by simpa using hd⟩
      rw [normalizeRest_keep hd hlower, hagain]
      rfl

lemma normalizeDirectoryString_idempotent {s : Bytes}
    (h : normalizeDirectoryString charset s = some out) :
    normalizeDirectoryString .noEnforcement out = some out := by
  obtain ⟨hagain, -, hhead⟩ := normalizeRest_idempotent h
  have hstart : (s.dropWhile (· = 0x20)).head? ≠ some 0x20 := by
    intro hspace
    have := head?_dropWhile_not (fun c : UInt8 => decide (c = 0x20)) s
    rw [hspace] at this
    simp at this
  have hdrop : out.dropWhile (· = 0x20) = out := by
    cases out with
    | nil => rfl
    | cons d out =>
      have hd : ¬ d = 0x20 := by simpa using hhead hstart
      rw [dropWhile_cons_of_neg (by simpa using hd)]
  rw [normalizeDirectoryString, hdrop, hagain]

def normalForm (a : X509NameAttribute) : Option X509NameAttribute :=
  if isNormalizableDirectoryString a.valueTag then
    (normalizeValue a).map (⟨a.type, asn1Utf8String, ·⟩)
  else some a

lemma normalizeValue_again {a : X509NameAttribute} (h : normalizeValue a = some out)
    (type : Bytes) : normalizeValue ⟨type, asn1Utf8String, out⟩ = some out := by
  have hout : ∃ charset s, normalizeDirectoryString charset s = some out := by
    obtain ⟨s, -, hrun⟩ := bind_eq_some_iff.mp h
    split_ifs at hrun
    all_goals exact ⟨_, s, hrun⟩
  obtain ⟨charset, s, hrun⟩ := hout
  exact normalizeDirectoryString_idempotent hrun

lemma matching_iff {a b na nb : X509NameAttribute} (ha : normalForm a = some na)
    (hb : normalForm b = some nb) :
    (decide (a.type = b.type) && verifyValueMatch a b) = true ↔ na = nb := by
  have hutf8 : isNormalizableDirectoryString asn1Utf8String = true := by decide
  rw [normalForm] at ha hb
  rw [verifyValueMatch, Bool.and_eq_true, decide_eq_true_eq]
  split_ifs at ha with hsa <;> split_ifs at hb with hsb
  · obtain ⟨va, hva, rfl⟩ := map_eq_some_iff.mp ha
    obtain ⟨vb, hvb, rfl⟩ := map_eq_some_iff.mp hb
    simp [hsa, hsb, hva, hvb]
  · obtain ⟨va, hva, rfl⟩ := map_eq_some_iff.mp ha
    cases hb
    have htag : a.valueTag ≠ b.valueTag := fun h => hsb (h ▸ hsa)
    refine iff_of_false (by simp [hsb, htag]) fun h => hsb ?_
    rw [← h]
    exact hutf8
  · obtain ⟨vb, hvb, rfl⟩ := map_eq_some_iff.mp hb
    cases ha
    have htag : a.valueTag ≠ b.valueTag := fun h => hsa (h ▸ hsb)
    refine iff_of_false (by simp [hsa, htag]) fun h => hsa ?_
    rw [h]
    exact hutf8
  · cases ha
    cases hb
    have hiff : a = b ↔ a.type = b.type ∧ a.valueTag = b.valueTag ∧ a.value = b.value := by
      cases a
      cases b
      simp
    rw [hiff]
    by_cases htag : a.valueTag = b.valueTag <;> simp [hsb, htag]

/-- The encoding of an attribute. -/
def IsAttribute (a : X509NameAttribute) (e : Bytes) : Prop :=
  ∃ typeTlv valueTlv, IsTlv asn1Object a.type typeTlv ∧ IsTlv a.valueTag a.value valueTlv
    ∧ IsTlv asn1Sequence (typeTlv ++ valueTlv) e

lemma reads_attribute : Reads readAttribute IsAttribute where
  iff := by
    intro cbs a rest
    simp only [readAttribute, bind_eq_bind, bind_eq_some_iff, Prod.exists,
      readSequence_eq, readTag_eq_some_iff, readTagAndValue_eq_some_iff, finished_eq_some_iff]
    constructor
    · rintro ⟨_, _, ⟨e, he, rfl⟩, type, _, ⟨typeTlv, htype, rfl⟩, tag, value, _,
        ⟨valueTlv, hvalue, rfl⟩, -, rfl, h⟩
      cases h
      rw [List.append_nil] at he
      exact ⟨e, ⟨typeTlv, valueTlv, htype, hvalue, he⟩, rfl⟩
    · rintro ⟨e, ⟨typeTlv, valueTlv, htype, hvalue, he⟩, rfl⟩
      exact ⟨_, _, ⟨e, he, rfl⟩, a.type, _, ⟨typeTlv, htype, rfl⟩, a.valueTag, a.value, [],
        ⟨valueTlv, hvalue, by simp⟩, (), rfl, rfl⟩
  ne_nil := by
    rintro a e ⟨typeTlv, valueTlv, -, -, h⟩
    exact h.ne_nil

lemma IsAttribute.unique {a : X509NameAttribute} {e' : Bytes} (h : IsAttribute a e)
    (h' : IsAttribute a e') : e = e' := by
  obtain ⟨t, v, ht, hv, he⟩ := h
  obtain ⟨t', v', ht', hv', he'⟩ := h'
  rw [he.eq, he'.eq, ht.eq, ht'.eq, hv.eq, hv'.eq]

lemma cbbAddAsn1_eq_some :
    cbbAddAsn1 tag body = some out ↔ body.length ≤ 0xfffffffe ∧ out = derElement tag body := by
  rw [cbbAddAsn1]
  split_ifs with h
  · exact ⟨nofun, fun h' => absurd h'.1 (by omega)⟩
  · grind

lemma IsTlv.of_add (htag : Asn1TagOk tag)
    (h : cbbAddAsn1 tag body = some out) : IsTlv tag body out := by
  obtain ⟨hlen, rfl⟩ := cbbAddAsn1_eq_some.mp h
  exact ⟨rfl, by omega, htag⟩

lemma normalizeAttribute_eq_some {a : X509NameAttribute} (htag : Asn1TagOk a.valueTag)
    (h : normalizeAttribute a = some e) : ∃ b, normalForm a = some b ∧ IsAttribute b e
      ∧ normalizeAttribute b = some e := by
  simp only [normalizeAttribute, bind_eq_bind, bind_eq_some_iff] at h
  obtain ⟨typeTlv, htype, valueTlv, hvalue, hseq⟩ := h
  have hobject := IsTlv.of_add (by decide) htype
  have hsequence := IsTlv.of_add (by decide) hseq
  have hutf8 : isNormalizableDirectoryString asn1Utf8String = true := by decide
  have hutf8Ok : Asn1TagOk asn1Utf8String := by decide
  rw [normalizeAttributeValue] at hvalue
  split_ifs at hvalue with hstring
  · obtain ⟨out, hnorm, hadd⟩ := bind_eq_some_iff.mp hvalue
    refine ⟨⟨a.type, asn1Utf8String, out⟩, by rw [normalForm, if_pos hstring, hnorm]; rfl,
      ⟨typeTlv, valueTlv, hobject, IsTlv.of_add hutf8Ok hadd, hsequence⟩, ?_⟩
    simp only [normalizeAttribute, normalizeAttributeValue, hutf8, if_true,
      normalizeValue_again hnorm, bind_eq_bind, bind_some, htype, hadd, hseq]
  · refine ⟨a, by rw [normalForm, if_neg hstring],
      ⟨typeTlv, valueTlv, hobject, IsTlv.of_add htag hvalue, hsequence⟩, ?_⟩
    simp only [normalizeAttribute, normalizeAttributeValue, hstring, Bool.false_eq_true, if_false,
      bind_eq_bind, bind_some, htype, hvalue, hseq]

lemma setOfElementLe_iff : setOfElementLe a b = true ↔ a ≤ b := by
  simp [setOfElementLe, Std.not_lt]

lemma sorted_mergeSort (es : List Bytes) :
    (es.mergeSort setOfElementLe).Pairwise fun a b => setOfElementLe a b = true := by
  refine pairwise_mergeSort (fun a b c hab hbc => ?_) (fun a b => ?_) es
  · rw [setOfElementLe_iff] at hab hbc ⊢
    exact Std.le_trans hab hbc
  · rw [Bool.or_eq_true, setOfElementLe_iff, setOfElementLe_iff]
    exact Std.le_total

lemma mergeSort_eq_iff {es' : List Bytes} :
    es.mergeSort setOfElementLe = es'.mergeSort setOfElementLe ↔ es.Perm es' := by
  constructor
  · intro h
    exact (mergeSort_perm es _).symm.trans (h ▸ mergeSort_perm es' _)
  · intro h
    have hperm : (es.mergeSort setOfElementLe).Perm (es'.mergeSort setOfElementLe) :=
      (mergeSort_perm es _).trans (h.trans (mergeSort_perm es' _).symm)
    refine hperm.eq_of_pairwise (fun a b _ _ hab hba => ?_) (sorted_mergeSort es)
      (sorted_mergeSort es')
    rw [setOfElementLe_iff] at hab hba
    exact Std.le_antisymm hab hba

lemma cbbFlushAsn1SetOf_flatten (h : ∀ e ∈ es, ∃ tag value, IsTlv tag value e) :
    cbbFlushAsn1SetOf es.flatten = some (es.mergeSort setOfElementLe).flatten := by
  rw [cbbFlushAsn1SetOf, readAll_rawTlv h, bind_eq_bind, bind_some]
  split_ifs with hlen
  · match es, hlen with
    | [], _ => simp
    | [e], _ => simp
  · rfl

/-- The loop pairs off the attributes that `f` takes to the same value. -/
lemma verifyAttributesMatch_iff {β : Type} {f : X509NameAttribute → β} :
    ∀ {as bs : List X509NameAttribute}, as.length = bs.length →
      (∀ a ∈ as, ∀ b ∈ bs, (decide (a.type = b.type) && verifyValueMatch a b) = true ↔ f a = f b) →
      (verifyAttributesMatch as bs = true ↔ (as.map f).Perm (bs.map f))
  | [], bs, hlen, _ => by
    obtain rfl := length_eq_zero_iff.mp hlen.symm
    simp [verifyAttributesMatch]
  | a :: as, bs, hlen, hmatch => by
    have ha := hmatch a mem_cons_self
    rw [verifyAttributesMatch]
    by_cases hany : (bs.any fun b => decide (a.type = b.type) && verifyValueMatch a b) = true
    · obtain ⟨x, hx, hxmatch⟩ := List.any_eq_true.mp hany
      obtain ⟨b, l₁, l₂, -, hb, rfl, herase⟩ := exists_of_eraseP
        (p := fun b : X509NameAttribute => decide (a.type = b.type) && verifyValueMatch a b)
        hx hxmatch
      have hfb : f a = f b := (ha b (by simp)).mp hb
      have hperm : ((l₁ ++ b :: l₂).map f).Perm (f a :: (l₁ ++ l₂).map f) := by
        rw [hfb, ← map_cons]
        exact perm_middle.map f
      rw [if_pos hany, herase, verifyAttributesMatch_iff]
      · rw [map_cons, hperm.congr_right, perm_cons]
      · simp only [length_cons, length_append] at hlen ⊢
        omega
      · grind
    · rw [if_neg hany]
      refine iff_of_false Bool.false_ne_true fun hperm => hany ?_
      have hmem := hperm.mem_iff.mp (List.mem_map_of_mem (mem_cons_self))
      obtain ⟨b, hb, heq⟩ := List.mem_map.mp hmem
      exact List.any_eq_true.mpr ⟨b, hb, (ha b hb).mpr heq.symm⟩

lemma readRdn_eq_some : readRdn p = some as ↔ readAll readAttribute p = some as ∧ as ≠ [] := by
  simp only [readRdn, bind_eq_bind, bind_eq_some_iff]
  constructor
  · simp
  · rintro ⟨hread, hne⟩
    exact ⟨as, hread, if_neg hne⟩

/-- What an RDN is normalised to: the encodings of its attributes' normal forms. -/
structure RdnNormal (p : Bytes) (as : List X509NameAttribute) (es : List Bytes) (n : Bytes) :
    Prop where
  read : readRdn p = some as
  tagOk : ∀ a ∈ as, Asn1TagOk a.valueTag
  encoded : Forall₂ (fun a e => normalizeAttribute a = some e) as es
  add : cbbAddAsn1 asn1Set (es.mergeSort setOfElementLe).flatten = some n

lemma RdnNormal.isTlv (h : RdnNormal p as es n) :
    IsTlv asn1Set (es.mergeSort setOfElementLe).flatten n :=
  IsTlv.of_add (by decide) h.add

lemma tlv_of_encoded (htag : ∀ a ∈ as, Asn1TagOk a.valueTag)
    (h : Forall₂ (fun a e => normalizeAttribute a = some e) as es) :
    ∀ e ∈ es, ∃ tag value, IsTlv tag value e := by
  intro e he
  obtain ⟨a, ha, hnorm⟩ := exists_of_forall₂_right h he
  obtain ⟨b, -, ⟨t, v, -, -, hseq⟩, -⟩ := normalizeAttribute_eq_some (htag a ha) hnorm
  exact ⟨_, _, hseq⟩

lemma normalizeRdn_eq_some (h : normalizeRdn p = some n) : ∃ as es, RdnNormal p as es n := by
  simp only [normalizeRdn, bind_eq_bind, bind_eq_some_iff] at h
  obtain ⟨as, hread, es, hes, contents, hflush, hadd⟩ := h
  rw [mapM_eq_some_iff] at hes
  have htag : ∀ a ∈ as, Asn1TagOk a.valueTag := by
    obtain ⟨ts, hts, -⟩ := reads_attribute.readAll_iff.mp (readRdn_eq_some.mp hread).1
    intro a ha
    obtain ⟨t, -, ⟨_, _, -, hv, -⟩⟩ := exists_of_forall₂_left hts ha
    exact hv.tagOk
  rw [cbbFlushAsn1SetOf_flatten (tlv_of_encoded htag hes)] at hflush
  cases hflush
  exact ⟨as, es, hread, htag, hes, hadd⟩

lemma map_getD_of_forall₂ (h : Forall₂ (fun a e => normalizeAttribute a = some e) as es) :
    as.map (fun a => (normalizeAttribute a).getD []) = es := by
  induction h with
  | nil => rfl
  | cons ha _ ih => rw [map_cons, ih, ha, getD_some]

lemma verifyRdnMatch_iff {q m : Bytes} (hp : normalizeRdn p = some m)
    (hq : normalizeRdn q = some n) : verifyRdnMatch p q = true ↔ m = n := by
  obtain ⟨as, es, hm⟩ := normalizeRdn_eq_some hp
  obtain ⟨bs, fs, hn⟩ := normalizeRdn_eq_some hq
  have hmatch : ∀ a ∈ as, ∀ b ∈ bs, (decide (a.type = b.type) && verifyValueMatch a b) = true ↔
        (normalizeAttribute a).getD [] = (normalizeAttribute b).getD [] := by
    intro a ha b hb
    obtain ⟨e, -, he⟩ := exists_of_forall₂_left hm.encoded ha
    obtain ⟨f, -, hf⟩ := exists_of_forall₂_left hn.encoded hb
    obtain ⟨na, hna, hea, -⟩ := normalizeAttribute_eq_some (hm.tagOk a ha) he
    obtain ⟨nb, hnb, hfb, -⟩ := normalizeAttribute_eq_some (hn.tagOk b hb) hf
    rw [matching_iff hna hnb, he, hf, getD_some, getD_some]
    constructor
    · rintro rfl
      exact hea.unique hfb
    · rintro rfl
      exact reads_attribute.inj hea hfb
  have hperm : m = n ↔ es.Perm fs := by
    rw [← mergeSort_eq_iff]
    constructor
    · rintro rfl
      have hflat := (reads_tag asn1Set).inj hm.isTlv hn.isTlv
      refine flatten_inj (fun e he => ?_) (fun e he => ?_) hflat
      · exact tlv_of_encoded hm.tagOk hm.encoded e (mem_mergeSort.mp he)
      · exact tlv_of_encoded hn.tagOk hn.encoded e (mem_mergeSort.mp he)
    · intro h
      have hadd := hm.add
      rw [h, hn.add] at hadd
      exact (Option.some.inj hadd).symm
  rw [verifyRdnMatch, hm.read, hn.read, hperm]
  simp only [Bool.and_eq_true, decide_eq_true_eq]
  constructor
  · rintro ⟨hlen, h⟩
    have := (verifyAttributesMatch_iff hlen hmatch).mp h
    rwa [map_getD_of_forall₂ hm.encoded, map_getD_of_forall₂ hn.encoded] at this
  · intro h
    have hlen : as.length = bs.length := by
      rw [hm.encoded.length_eq, hn.encoded.length_eq, h.length_eq]
    refine ⟨hlen, (verifyAttributesMatch_iff hlen hmatch).mpr ?_⟩
    rwa [map_getD_of_forall₂ hm.encoded, map_getD_of_forall₂ hn.encoded]

lemma normalizeRdn_idempotent (h : normalizeRdn p = some n) :
    ∃ contents, IsTlv asn1Set contents n ∧ normalizeRdn contents = some n := by
  obtain ⟨as, es, hn⟩ := normalizeRdn_eq_some h
  refine ⟨_, hn.isTlv, ?_⟩
  obtain ⟨sorted, hsorted⟩ : ∃ sorted, es.mergeSort setOfElementLe = sorted := ⟨_, rfl⟩
  have hadd := hn.add
  rw [hsorted] at hadd ⊢
  -- each encoding is that of an attribute in normal form
  have hforms : ∀ e ∈ sorted, ∃ b, IsAttribute b e ∧ normalizeAttribute b = some e := by
    intro e he
    rw [← hsorted, mem_mergeSort] at he
    obtain ⟨a, ha, hnorm⟩ := exists_of_forall₂_right hn.encoded he
    obtain ⟨b, -, hb, hagain⟩ := normalizeAttribute_eq_some (hn.tagOk a ha) hnorm
    exact ⟨b, hb, hagain⟩
  obtain ⟨bs, hbs⟩ := exists_forall₂ hforms
  have hperm : sorted.Perm es := hsorted ▸ mergeSort_perm es _
  have hresort : sorted.mergeSort setOfElementLe = sorted := by
    rw [mergeSort_eq_iff.mpr hperm, hsorted]
  have hread : readRdn sorted.flatten = some bs := by
    refine readRdn_eq_some.mpr ⟨reads_attribute.readAll_flatten (hbs.imp fun _ _ h => h.1), ?_⟩
    rintro rfl
    have hlen := hbs.length_eq.trans hperm.length_eq
    rw [← hn.encoded.length_eq] at hlen
    exact (readRdn_eq_some.mp hn.read).2 (length_eq_zero_iff.mp hlen.symm)
  have hflush : cbbFlushAsn1SetOf sorted.flatten = some sorted.flatten := by
    rw [cbbFlushAsn1SetOf_flatten, hresort]
    intro e he
    obtain ⟨b, ⟨t, v, -, -, hseq⟩, -⟩ := hforms e he
    exact ⟨_, _, hseq⟩
  simp only [normalizeRdn, hread, bind_eq_bind, bind_some,
    mapM_eq_some_iff.mpr (hbs.imp fun _ _ h => h.2), hflush, hadd]

/-- The RDNs of a name, their encodings there, and the encodings of what they are normalised to. -/
structure NameNormal (a : Bytes) (rdns tlvs ns : List Bytes) : Prop where
  encoded : Forall₂ (IsTlv asn1Set) rdns tlvs
  eq : a = tlvs.flatten
  normalized : Forall₂ (fun p n => normalizeRdn p = some n) rdns ns

lemma readConstructed_set : readConstructed asn1Set = readTag asn1Set := by
  funext cbs
  exact readConstructed_eq (by decide)

lemma normalizeName_eq_some :
    normalizeName a = some na ↔ ∃ rdns tlvs ns, NameNormal a rdns tlvs ns ∧ na = ns.flatten := by
  simp only [normalizeName, readConstructed_set, bind_eq_bind, bind_eq_some_iff,
    (reads_tag asn1Set).readAll_iff, mapM_eq_some_iff, Option.some.injEq]
  constructor
  · rintro ⟨rdns, ⟨tlvs, htlvs, rfl⟩, ns, hns, rfl⟩
    exact ⟨rdns, tlvs, ns, ⟨htlvs, rfl, hns⟩, rfl⟩
  · rintro ⟨rdns, tlvs, ns, ⟨htlvs, rfl, hns⟩, rfl⟩
    exact ⟨rdns, ⟨tlvs, htlvs, rfl⟩, ns, hns, rfl⟩

lemma NameNormal.isTlv {rdns tlvs ns : List Bytes} (h : NameNormal a rdns tlvs ns) :
    ∀ n ∈ ns, ∃ tag value, IsTlv tag value n := by
  intro n hn
  obtain ⟨p, -, hp⟩ := exists_of_forall₂_right h.normalized hn
  obtain ⟨contents, htlv, -⟩ := normalizeRdn_idempotent hp
  exact ⟨_, _, htlv⟩

lemma normalizeName_idempotent (h : normalizeName a = some na) : normalizeName na = some na := by
  obtain ⟨rdns, tlvs, ns, hname, rfl⟩ := normalizeName_eq_some.mp h
  have hforms : ∀ n ∈ ns, ∃ contents, IsTlv asn1Set contents n
      ∧ normalizeRdn contents = some n := by
    intro n hn
    obtain ⟨p, -, hp⟩ := exists_of_forall₂_right hname.normalized hn
    exact normalizeRdn_idempotent hp
  obtain ⟨contents, hcontents⟩ := exists_forall₂ hforms
  exact normalizeName_eq_some.mpr ⟨contents, ns, ns,
    ⟨hcontents.imp fun _ _ h => h.1, rfl, hcontents.imp fun _ _ h => h.2⟩, rfl⟩

lemma flatten_eq_nil_iff {rdns tlvs : List Bytes} (h : Forall₂ (IsTlv asn1Set) rdns tlvs) :
    tlvs.flatten = [] ↔ rdns = [] := by
  cases h with
  | nil => simp
  | cons htlv _ => simp [htlv.ne_nil]

/-- A list of sets starts with a byte, and the first of them is read off it. -/
lemma readTag_flatten_cons {a a' : Bytes} (h : IsTlv asn1Set a a') (as : List Bytes) :
    ∃ c t, (a' :: as).flatten = c :: t ∧ readTag asn1Set (c :: t) = some (a, as.flatten) := by
  obtain ⟨c, t, hc⟩ := exists_cons_of_ne_nil (append_ne_nil_of_left_ne_nil h.ne_nil as.flatten)
  exact ⟨c, t, hc, hc ▸ (reads_tag asn1Set).read_append h as.flatten⟩

lemma countRdns_flatten : ∀ {as bs as' bs' : List Bytes} {fuel : ℕ},
    Forall₂ (IsTlv asn1Set) as as' → Forall₂ (IsTlv asn1Set) bs bs' →
    as'.flatten.length ≤ fuel → countRdns fuel as'.flatten bs'.flatten =
      some ((as'.drop bs'.length).flatten, (bs'.drop as'.length).flatten)
  | [], bs, [], bs', fuel, _, _, _ => by
    rw [flatten_nil, countRdns.eq_def]
    simp
  | a :: as, [], a' :: as', [], fuel, .cons ha _, _, _ => by
    obtain ⟨c, t, hc, -⟩ := readTag_flatten_cons ha as'
    rw [flatten_nil, hc, countRdns.eq_def]
    simp [hc]
  | a :: as, b :: bs, a' :: as', b' :: bs', fuel, .cons ha has, .cons hb hbs, hfuel => by
    have hpos := length_pos_iff.mpr ha.ne_nil
    rw [flatten_cons, length_append] at hfuel
    obtain ⟨fuel, rfl⟩ : ∃ f, fuel = f + 1 := ⟨fuel - 1, by omega⟩
    have ih := countRdns_flatten has hbs (show as'.flatten.length ≤ fuel by omega)
    obtain ⟨c, t, hc, hreada⟩ := readTag_flatten_cons ha as'
    obtain ⟨d, u, hd, hreadb⟩ := readTag_flatten_cons hb bs'
    rw [hc, hd, countRdns, hreada, bind_eq_bind, bind_some]
    simp [hreadb, ih]

lemma matchRdns_flatten : ∀ {as bs as' bs' ns ms : List Bytes} {fuel : ℕ},
    Forall₂ (IsTlv asn1Set) as as' → Forall₂ (IsTlv asn1Set) bs bs' →
    Forall₂ (fun p n => normalizeRdn p = some n) as ns →
    Forall₂ (fun p n => normalizeRdn p = some n) bs ms →
    as'.flatten.length ≤ fuel →
    (matchRdns fuel as'.flatten bs'.flatten = true ↔ ns <+: ms ∨ ms <+: ns)
  | [], bs, [], bs', [], ms, fuel, _, _, _, _, _ => by
    rw [flatten_nil, matchRdns.eq_def]
    simp
  | a :: as, [], a' :: as', [], n :: ns, [], fuel, .cons ha _, _, _, _, _ => by
    obtain ⟨c, t, hc, -⟩ := readTag_flatten_cons ha as'
    rw [flatten_nil, hc, matchRdns.eq_def]
    simp
  | a :: as, b :: bs, a' :: as', b' :: bs', n :: ns, m :: ms, fuel, .cons ha has, .cons hb hbs,
      .cons hn hns, .cons hm hms, hfuel => by
    have hpos := length_pos_iff.mpr ha.ne_nil
    rw [flatten_cons, length_append] at hfuel
    obtain ⟨fuel, rfl⟩ : ∃ f, fuel = f + 1 := ⟨fuel - 1, by omega⟩
    have ih := matchRdns_flatten has hbs hns hms (show as'.flatten.length ≤ fuel by omega)
    obtain ⟨c, t, hc, hreada⟩ := readTag_flatten_cons ha as'
    obtain ⟨d, u, hd, hreadb⟩ := readTag_flatten_cons hb bs'
    rw [hc, hd, matchRdns, readConstructed_set, hreada, hreadb]
    simp only [Bool.and_eq_true, verifyRdnMatch_iff hn hm, ih, cons_prefix_cons]
    tauto

lemma verifyNameMatchInternal_iff {as as' ns bs bs' ms : List Bytes}
    (ha : NameNormal a as as' ns) (hb : NameNormal b bs bs' ms) (matchType : NameMatchType) :
    verifyNameMatchInternal a b matchType = true ↔
      ms <+: ns ∧ (matchType = .exactMatch → ns.length ≤ ms.length) := by
  have hlenA : as'.length = ns.length := by rw [← ha.encoded.length_eq, ha.normalized.length_eq]
  have hlenB : bs'.length = ms.length := by rw [← hb.encoded.length_eq, hb.normalized.length_eq]
  have hrest : ∀ {rdns tlvs : List Bytes} (k : ℕ), Forall₂ (IsTlv asn1Set) rdns tlvs →
      ((tlvs.drop k).flatten = [] ↔ tlvs.length ≤ k) := by
    intro rdns tlvs k h
    rw [flatten_eq_nil_iff (forall₂_drop k h), drop_eq_nil_iff, h.length_eq]
  have hmatch := matchRdns_flatten ha.encoded hb.encoded ha.normalized hb.normalized le_rfl
  rw [verifyNameMatchInternal, ha.eq, hb.eq, countRdns_flatten ha.encoded hb.encoded le_rfl]
  simp only [ne_eq, hrest _ ha.encoded, hrest _ hb.encoded, hlenA, hlenB]
  by_cases hlong : ms.length ≤ ns.length
  · by_cases hexact : matchType = .exactMatch ∧ ¬ ns.length ≤ ms.length
    · grind
    · rw [if_neg (not_not.mpr hlong), if_neg hexact, hmatch]
      refine ⟨fun h => ⟨?_, by tauto⟩, fun h => .inr h.1⟩
      rcases h with h | h
      · rw [h.eq_of_length_le hlong]
      · exact h
  · grind

/-- Names match if they are normalised to the same string, a name is in the subtree of another if
its normal form starts with the RDNs of the other's, and normal forms are normalised to themselves.
-/
theorem normalizeName_decides {a b na nb : Bytes} (ha : normalizeName a = some na)
    (hb : normalizeName b = some nb) :
    (verifyNameMatch a b = true ↔ na = nb)
      ∧ (∃ ra rb, readAll readRawTlv na = some ra ∧ readAll readRawTlv nb = some rb
        ∧ (verifyNameInSubtree a b = true ↔ rb <+: ra))
      ∧ normalizeName na = some na := by
  refine ⟨?_, ?_, normalizeName_idempotent ha⟩
  · obtain ⟨as, as', ns, hA, rfl⟩ := normalizeName_eq_some.mp ha
    obtain ⟨bs, bs', ms, hB, rfl⟩ := normalizeName_eq_some.mp hb
    rw [verifyNameMatch, verifyNameMatchInternal_iff hA hB]
    constructor
    · rintro ⟨hpre, hlen⟩
      rw [hpre.eq_of_length_le (hlen rfl)]
    · intro h
      obtain rfl := flatten_inj hA.isTlv hB.isTlv h
      exact ⟨prefix_rfl, fun _ => le_rfl⟩
  · obtain ⟨as, as', ns, hA, rfl⟩ := normalizeName_eq_some.mp ha
    obtain ⟨bs, bs', ms, hB, rfl⟩ := normalizeName_eq_some.mp hb
    refine ⟨ns, ms, readAll_rawTlv hA.isTlv, readAll_rawTlv hB.isTlv, ?_⟩
    rw [verifyNameInSubtree, verifyNameMatchInternal_iff hA hB]
    simp

theorem normalizeName_decides_commonName :
    verifyNameMatch [0x31, 12, 0x30, 10, 6, 3, 0x55, 4, 3, 0x13, 3, 0x41, 0x20, 0x62]
      [0x31, 13, 0x30, 11, 6, 3, 0x55, 4, 3, 0xc, 4, 0x61, 0x20, 0x20, 0x42] = true := by
  have ha : normalizeName [0x31, 12, 0x30, 10, 6, 3, 0x55, 4, 3, 0x13, 3, 0x41, 0x20, 0x62] =
      some [0x31, 12, 0x30, 10, 6, 3, 0x55, 4, 3, 0xc, 3, 0x61, 0x20, 0x62] := by decide +kernel
  have hb : normalizeName [0x31, 13, 0x30, 11, 6, 3, 0x55, 4, 3, 0xc, 4, 0x61, 0x20, 0x20, 0x42] =
      some [0x31, 12, 0x30, 10, 6, 3, 0x55, 4, 3, 0xc, 3, 0x61, 0x20, 0x62] := by decide +kernel
  exact (normalizeName_decides ha hb).1.mpr rfl

end BoringSSL.Pki
