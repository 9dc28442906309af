import BoringSSL.Ber
import BoringSSL.Proofs.Cbs

/-!
# BER to DER

`cbs_find_ber` finds nothing exactly in the DER encoding of values without constructed strings,
nested no deeper than `kMaxDepth`.  `cbs_convert_ber` reads the values of its whole input
(`cbsConvertBer_sound`), so what `CBS_asn1_ber_to_der` converts is the first value only where
nothing comes after it.
-/

namespace BoringSSL

open ByteLib List Option

variable {s inp l : Bytes} {e : Asn1Element} {t : BaseTag} {next : Asn1} {lookingForEoc : Bool}
  {tag : UInt32} {x : Asn1} {n : ℕ}

/-! ## Tags -/

lemma asn1Constructed_toBitVec : asn1Constructed.toBitVec = BitVec.twoPow 32 29 := by decide

lemma constructed_iff : tag &&& asn1Constructed ≠ 0 ↔ tag.toBitVec.getLsbD 29 = true := by
  rw [Ne, ← UInt32.toBitVec_inj, UInt32.toBitVec_and, asn1Constructed_toBitVec, BitVec.and_twoPow]
  cases tag.toBitVec.getLsbD 29 <;> simp
  decide

lemma and_not_constructed (h : tag &&& asn1Constructed = 0) : tag &&& ~~~asn1Constructed = tag := by
  have hbit := mt constructed_iff.mpr (not_not.mpr h)
  apply UInt32.toBitVec_inj.mp
  simp only [UInt32.toBitVec_and, UInt32.toBitVec_not, asn1Constructed_toBitVec]
  grind

lemma and_not_or_constructed (h : tag &&& asn1Constructed ≠ 0) :
    (tag &&& ~~~asn1Constructed) ||| asn1Constructed = tag := by
  have hbit := constructed_iff.mp h
  apply UInt32.toBitVec_inj.mp
  simp only [UInt32.toBitVec_or, UInt32.toBitVec_and, UInt32.toBitVec_not, asn1Constructed_toBitVec]
  grind

lemma or_constructed_and_not (h : tag &&& asn1Constructed = 0) :
    (tag ||| asn1Constructed) &&& ~~~asn1Constructed = tag := by
  have hbit := mt constructed_iff.mpr (not_not.mpr h)
  apply UInt32.toBitVec_inj.mp
  simp only [UInt32.toBitVec_or, UInt32.toBitVec_and, UInt32.toBitVec_not, asn1Constructed_toBitVec]
  grind

lemma or_constructed_and (tag : UInt32) : (tag ||| asn1Constructed) &&& asn1Constructed ≠ 0 := by
  rw [constructed_iff]
  simp [asn1Constructed_toBitVec]

def baseTag (tag : UInt32) (h : Asn1TagOk tag) : BaseTag :=
  ⟨tag &&& ~~~asn1Constructed, by rw [UInt32.and_assoc]; simp, h⟩

lemma baseTag_primitive (h : Asn1TagOk tag) (hp : tag &&& asn1Constructed = 0) :
    (baseTag tag h).val = tag := and_not_constructed hp

lemma baseTag_constructed (h : Asn1TagOk tag) (hc : tag &&& asn1Constructed ≠ 0) :
    (baseTag tag h).val ||| asn1Constructed = tag := and_not_or_constructed hc

namespace BaseTag

variable (t : BaseTag)

lemma tagOk : Asn1TagOk t.val := by
  rw [Asn1TagOk, and_not_constructed t.base]
  exact t.ne_zero

lemma constructed_tagOk : Asn1TagOk (t.val ||| asn1Constructed) := by
  rw [Asn1TagOk, or_constructed_and_not t.base]
  exact t.ne_zero

lemma isStringType_constructed : isStringType (t.val ||| asn1Constructed) = isStringType t.val := by
  rw [isStringType, isStringType, or_constructed_and_not t.base, and_not_constructed t.base]

end BaseTag

/-! ## The scan -/

namespace Asn1

/-- The values have no constructed strings, and a DER read takes the length of each. -/
def IsDer : Asn1 → Prop
  | nil => True
  | primitive _ contents next => contents.length ≤ 0xffffffff ∧ next.IsDer
  | constructed tag children next =>
    isStringType tag.val = false ∧ children.der.length ≤ 0xffffffff ∧ children.IsDer ∧ next.IsDer

def depth : Asn1 → ℕ
  | nil => 0
  | primitive _ _ next => next.depth
  | constructed _ children next => max (children.depth + 1) next.depth

end Asn1

lemma cbsSkip_header {header body : Bytes} :
    cbsSkip (header ++ body) header.length = some body := by
  have hget : cbsGet (header ++ body) header.length = some (header, body) :=
    cbsGet_eq_some.mpr ⟨rfl, rfl⟩
  simp [cbsSkip, hget]

lemma derElement_length_lt (tag : UInt32) (body : Bytes) :
    body.length + 1 < (derElement tag body).length := by
  have h1 := Writes.identifierOctets_length_pos tag
  have h2 := lengthOctets_length_pos body.length
  simp only [derElement, length_append]
  omega

lemma derElement_append_ne_nil (tag : UInt32) (body rest : Bytes) :
    derElement tag body ++ rest ≠ [] := by
  have h := derElement_length_lt tag body
  intro hnil
  rw [(append_eq_nil_iff.mp hnil).1] at h
  simp at h

lemma cbsFindBer_der : ∀ (x : Asn1) {fuel d : ℕ}, x.IsDer → d + x.depth ≤ kMaxDepth →
    x.der.length < fuel → cbsFindBer fuel x.der d = some false
  | .nil, fuel + 1, d, _, hd, _ => by
    rw [cbsFindBer, if_neg (by omega), if_pos (by rfl)]
  | .primitive t contents next, fuel + 1, d, ⟨hlen, hnext⟩, hd, hf => by
    have hlt := derElement_length_lt t.val contents
    simp only [Asn1.der, length_append] at hf ⊢
    rw [cbsFindBer, if_neg (by omega), if_neg (derElement_append_ne_nil _ _ _),
      cbsGetAnyBerAsn1Element_of_der (cbsGetAnyAsn1Element_derElement t.tagOk hlen _)]
    simp only [bind_some, Bool.false_eq_true, if_false, t.base, ne_eq, not_true_eq_false]
    exact cbsFindBer_der next hnext hd (by omega)
  | .constructed t children next, fuel + 1, d, ⟨hstr, hlen, hch, hnext⟩, hd, hf => by
    have hlt := derElement_length_lt (t.val ||| asn1Constructed) children.der
    simp only [Asn1.depth] at hd
    simp only [Asn1.der, length_append] at hf ⊢
    have hskip : cbsSkip (derElement (t.val ||| asn1Constructed) children.der)
        ((identifierOctets (t.val ||| asn1Constructed)).length
          + (lengthOctets children.der.length).length) = some children.der := by
      rw [← length_append]
      exact cbsSkip_header
    rw [cbsFindBer, if_neg (by omega), if_neg (derElement_append_ne_nil _ _ _),
      cbsGetAnyBerAsn1Element_of_der (cbsGetAnyAsn1Element_derElement t.constructed_tagOk hlen _)]
    simp only [bind_some, Bool.false_eq_true, if_false, or_constructed_and t.val, ne_eq,
      not_false_eq_true, if_true, t.isStringType_constructed, hstr, hskip]
    rw [cbsFindBer_der children hch (by omega) (by omega)]
    exact cbsFindBer_der next hnext (by omega) (by omega)

lemma cbsFindBer_sound : ∀ {fuel d : ℕ} {inp : Bytes}, cbsFindBer fuel inp d = some false →
    ∃ x : Asn1, x.IsDer ∧ d + x.depth ≤ kMaxDepth ∧ x.der = inp
  | fuel + 1, d, inp, h => by
    rw [cbsFindBer] at h
    split_ifs at h with hd hnil
    · exact ⟨.nil, trivial, by simpa [Asn1.depth] using hd, hnil.symm⟩
    obtain ⟨e, he, h⟩ := bind_eq_some_iff.mp h
    obtain ⟨hok, hread, -⟩ := cbsGetAnyAsn1ElementImpl_sound he
    by_cases hber : e.berFound = true
    · simp [hber] at h
    rw [if_neg hber] at h
    cases hread with
    | indefinite hs hcons hfound hindef => exact absurd hfound hber
    | definite len body hlen hs hout hheader hfit hder hdef =>
      rw [hder (by simpa using hber)] at hout hheader
      by_cases hc : e.tag &&& asn1Constructed ≠ 0
      · rw [if_pos hc] at h
        by_cases hstr : isStringType e.tag = true
        · simp [hstr] at h
        rw [if_neg hstr, hout, hheader, cbsSkip_header, bind_some] at h
        obtain ⟨found, hfound, h⟩ := bind_eq_some_iff.mp h
        cases found with
        | true => simp at h
        | false =>
        obtain ⟨children, hch, hchd, hchder⟩ := cbsFindBer_sound hfound
        obtain ⟨next, hnext, hnextd, hnextder⟩ := cbsFindBer_sound h
        have htag := baseTag_constructed hok hc
        refine ⟨.constructed (baseTag e.tag hok) children next, ⟨?_, ?_, hch, hnext⟩, ?_, ?_⟩
        · rw [← BaseTag.isStringType_constructed, htag]
          simpa using hstr
        · rw [hchder]
          exact hfit
        · simp only [Asn1.depth]
          omega
        · rw [Asn1.der, htag, hchder, hnextder, hs, hout]
          rfl
      · rw [if_neg hc] at h
        obtain ⟨next, hnext, hnextd, hnextder⟩ := cbsFindBer_sound h
        have htag := baseTag_primitive hok (not_not.mp hc)
        refine ⟨.primitive (baseTag e.tag hok) body next, ⟨hfit, hnext⟩, hnextd, ?_⟩
        rw [Asn1.der, htag, hnextder, hs, hout]
        rfl

/-! ## The conversion -/

lemma ReadsElement.contents {contents : Bytes} (h : ReadsElement s e)
    (hdef : e.indefinite = false) (hskip : cbsSkip e.out e.headerLen = some contents) :
    ∃ len, BerLength contents.length len
      ∧ s = identifierOctets e.tag ++ len ++ contents ++ e.cbs ∧ contents.length ≤ 0xffffffff := by
  cases h with
  | definite len body hlen hs hout hheader hfit hder _ =>
    rw [hout, hheader, cbsSkip_header, Option.some.injEq] at hskip
    subst hskip
    exact ⟨len, hlen, by rw [hs, hout], hfit⟩
  | indefinite hs hcons hber hindef => simp [hdef] at hindef

def outTag (tag : UInt32) : UInt32 :=
  if tag &&& asn1Constructed ≠ 0 ∧ isStringType tag then tag &&& ~~~asn1Constructed else tag

def childTag (tag stringTag : UInt32) : UInt32 :=
  if stringTag ≠ 0 then stringTag
  else if tag &&& asn1Constructed ≠ 0 ∧ isStringType tag then tag &&& ~~~asn1Constructed
  else 0

/-- What an element with these contents comes to in the output. -/
def wrapped (tag stringTag : UInt32) (contents : Bytes) : Bytes :=
  if stringTag ≠ 0 then contents else derElement (outTag tag) contents

def written (stringTag : UInt32) (x : Asn1) : Bytes :=
  if stringTag ≠ 0 then x.leaves else x.flatten.der

lemma written_primitive (t : BaseTag) (contents : Bytes) (next : Asn1) (stringTag : UInt32) :
    written stringTag (.primitive t contents next)
      = wrapped t.val stringTag contents ++ written stringTag next := by
  have hout : outTag t.val = t.val := if_neg fun hc => hc.1 t.base
  by_cases h : stringTag ≠ 0
  · simp [written, wrapped, h, Asn1.leaves]
  · simp [written, wrapped, h, Asn1.flatten, Asn1.der, hout]

lemma written_constructed (t : BaseTag) (children next : Asn1) (stringTag : UInt32) :
    written stringTag (.constructed t children next)
      = wrapped (t.val ||| asn1Constructed) stringTag
          (written (childTag (t.val ||| asn1Constructed) stringTag) children)
        ++ written stringTag next := by
  by_cases h : stringTag ≠ 0
  · simp [written, wrapped, childTag, h, Asn1.leaves]
  · have hc := or_constructed_and t.val
    by_cases hs : isStringType t.val = true
    · simp [written, wrapped, childTag, outTag, h, hs, hc, t.isStringType_constructed, Asn1.flatten,
        Asn1.der, or_constructed_and_not t.base, t.ne_zero]
    · simp [written, wrapped, childTag, outTag, h, hs, t.isStringType_constructed, Asn1.flatten,
        Asn1.der]

lemma outContents_zero (tag : UInt32) (out : Cbb) (d : ℕ) :
    outContents tag out d 0 = if !(cbbAddAsn1 out d (outTag tag)).1 then none
      else some ((cbbAddAsn1 out d (outTag tag)).2, d + 1, childTag tag 0) := by
  by_cases h : tag &&& asn1Constructed ≠ 0 ∧ isStringType tag
  · simp only [outContents, outTag, childTag, if_pos h, ne_eq, not_true_eq_false, if_false]
  · simp only [outContents, outTag, childTag, if_neg h, ne_eq, not_true_eq_false, if_false]

section Convert

variable {lim : ℕ} {out out' : Cbb} {d depth : ℕ} {stringTag : UInt32} {inp' : Bytes}

/-- The contents are written into a child or, in a constructed string, into the CBB itself; the
flush that follows puts the header before them. -/
lemma outContents_spec {oc : List CbbChild} {front : Bytes} {tag childStringTag : UInt32}
    (hs : Stands out lim oc front [])
    (h : outContents tag out oc.length stringTag = some (out', d, childStringTag)) :
    childStringTag = childTag tag stringTag ∧ ∃ oc' front', d = oc'.length
      ∧ Stands out' lim oc' front' []
      ∧ ∀ {c : Cbb} {contents : Bytes}, Stands c lim oc' (front' ++ contents) [] →
          (cbbFlush c oc.length).1 = true →
          Stands (cbbFlush c oc.length).2 lim oc (front ++ wrapped tag stringTag contents) []
            ∧ (stringTag = 0 → contents.length ≤ 0xfffffffe) := by
  by_cases hst : stringTag ≠ 0
  · rw [outContents, if_pos hst] at h
    split_ifs at h
    cases h
    refine ⟨(if_pos hst).symm, oc, front, rfl, hs, fun {c contents} hc hf => ?_⟩
    obtain ⟨hok, hbad⟩ := hc.flush
    by_cases hfl : Flushes lim (front ++ contents) []
    · obtain ⟨c', hc', hs'⟩ := hok hfl
      rw [hc', wrapped, if_pos hst]
      exact ⟨by simpa [frameBytes] using hs', fun h0 => absurd h0 hst⟩
    · rw [(hbad hfl).1] at hf
      cases hf
  · rw [not_not] at hst
    subst hst
    obtain ⟨hok, hbad⟩ := hs.addAsn1 (outTag tag)
    simp only [frameBytes, List.append_nil, FramesFit, true_and] at hok hbad
    rw [outContents_zero] at h
    by_cases hroom : (front ++ (LenPrefix.asn1 (outTag tag)).lead).length
        + (LenPrefix.asn1 (outTag tag)).reserved ≤ lim
    · obtain ⟨h1, hs'⟩ := hok hroom
      rw [h1] at h
      cases h
      refine ⟨rfl, _, _, by simp, hs', fun {c contents} hc hf => ?_⟩
      obtain ⟨hflush, hfail⟩ := hc.parent.flush
      by_cases hfl : Flushes lim (front ++ (LenPrefix.asn1 (outTag tag)).lead)
          [(.asn1 (outTag tag), contents)]
      · obtain ⟨c', hc', hs'⟩ := hflush hfl
        have hlen := hfl.1.1
        rw [hc']
        simp only [frameBytes, List.append_nil, LenPrefix.maxLen] at hs' hlen
        refine ⟨?_, fun _ => hlen⟩
        simpa [wrapped, derElement, LenPrefix.lead, LenPrefix.lenOctets] using hs'
      · rw [(hfail hfl).1] at hf
        cases hf
    · rw [(hbad hroom).1] at h
      cases h

lemma isDer_flatten_constructed {children : Asn1}
    (hchildren : childTag (t.val ||| asn1Constructed) 0 = 0 →
      children.flatten.IsDer ∧ depth + 1 + children.flatten.depth ≤ kMaxDepth)
    (hlen : (written (childTag (t.val ||| asn1Constructed) 0) children).length ≤ 0xfffffffe)
    (hnext : next.flatten.IsDer ∧ depth + next.flatten.depth ≤ kMaxDepth) :
    (Asn1.constructed t children next).flatten.IsDer
      ∧ depth + (Asn1.constructed t children next).flatten.depth ≤ kMaxDepth := by
  have htag : childTag (t.val ||| asn1Constructed) 0
      = if isStringType t.val then t.val else 0 := by
    simp [childTag, or_constructed_and t.val, t.isStringType_constructed,
      or_constructed_and_not t.base]
  rw [htag] at hchildren hlen
  split_ifs at hlen with hs
  · rw [written, if_pos t.ne_zero] at hlen
    rw [Asn1.flatten, if_pos hs]
    exact ⟨⟨by omega, hnext.1⟩, hnext.2⟩
  · rw [written, if_neg (by simp)] at hlen
    rw [if_neg hs] at hchildren
    rw [Asn1.flatten, if_neg hs]
    obtain ⟨hder, hdepth⟩ := hchildren rfl
    refine ⟨⟨by simpa using hs, by omega, hder, hnext.1⟩, ?_⟩
    simp only [Asn1.depth]
    omega

/-- What `cbs_convert_ber` has read, and that it may be written as DER. -/
structure Converted (inp inp' : Bytes) (stringTag : UInt32) (lookingForEoc : Bool) (depth : ℕ)
    (x : Asn1) : Prop where
  ber : ∃ bytes, x.IsBer bytes ∧ inp = bytes ++ if lookingForEoc then 0 :: 0 :: inp' else inp'
  ends : lookingForEoc = false → inp' = []
  der : stringTag = 0 → x.flatten.IsDer ∧ depth + x.flatten.depth ≤ kMaxDepth

lemma Converted.cons (pre : Bytes) {inp₂ : Bytes}
    (h : Converted inp₂ inp' stringTag lookingForEoc depth next) (hsplit : inp = pre ++ inp₂)
    (hber : ∀ {bytes}, next.IsBer bytes → x.IsBer (pre ++ bytes))
    (hder : stringTag = 0 → next.flatten.IsDer ∧ depth + next.flatten.depth ≤ kMaxDepth →
      x.flatten.IsDer ∧ depth + x.flatten.depth ≤ kMaxDepth) :
    Converted inp inp' stringTag lookingForEoc depth x := by
  obtain ⟨bytes, hb, hinp⟩ := h.ber
  refine ⟨⟨pre ++ bytes, hber hb, ?_⟩, h.ends, fun hst => hder hst (h.der hst)⟩
  rw [hsplit, hinp, append_assoc]

lemma cbsGetEoc_eq_some {rest : Bytes} (h : cbsGetEoc inp = some rest) : inp = 0 :: 0 :: rest := by
  unfold cbsGetEoc at h
  split at h
  · cases h
    rfl
  · cases h

/-- The ways the contents of an element are converted, with `inp'` left in the input. -/
inductive ConvertsContents (convert : Bytes → Bool → Option (Bytes × Cbb)) (e : Asn1Element)
    (out : Cbb) (d : ℕ) (inp' : Bytes) (out' : Cbb) : Prop
  | indefinite (hindef : e.indefinite = true) (hconv : convert e.cbs true = some (inp', out'))
  | constructed (contents unread : Bytes) (hdef : e.indefinite = false) (hrest : inp' = e.cbs)
    (hskip : cbsSkip e.out e.headerLen = some contents) (hcons : e.tag &&& asn1Constructed ≠ 0)
    (hconv : convert contents false = some (unread, out'))
  | primitive (contents : Bytes) (hdef : e.indefinite = false) (hrest : inp' = e.cbs)
    (hskip : cbsSkip e.out e.headerLen = some contents) (hprim : e.tag &&& asn1Constructed = 0)
    (hadd : cbbAddBytes out d contents = (true, out'))

lemma convertContents_cases {convert : Bytes → Bool → Option (Bytes × Cbb)}
    (h : convertContents convert e out d = some (inp', out')) :
    ConvertsContents convert e out d inp' out' := by
  unfold convertContents at h
  by_cases hindef : e.indefinite = true
  · rw [if_pos hindef] at h
    exact .indefinite hindef h
  · rw [if_neg hindef] at h
    rw [Bool.not_eq_true] at hindef
    obtain ⟨contents, hskip, h⟩ := bind_eq_some_iff.mp h
    split_ifs at h with hcons
    · obtain ⟨⟨unread, out₁⟩, hconv, heq⟩ := map_eq_some_iff.mp h
      cases heq
      exact .constructed contents unread hindef rfl hskip hcons hconv
    · simp only [ite_none_right_eq_some, Option.some.injEq, Prod.mk.injEq] at h
      obtain ⟨hadd, rfl, rfl⟩ := h
      exact .primitive contents hindef rfl hskip (not_not.mp hcons) (Prod.ext hadd rfl)

/-- The three ways round the loop of `cbs_convert_ber`: the input ends, the EOC is found, or an
element is converted. -/
lemma cbsConvertBer_cases {fuel : ℕ}
    (h : cbsConvertBer (fuel + 1) inp out d stringTag lookingForEoc depth = some (inp', out')) :
    depth ≤ kMaxDepth ∧
      ((inp = [] ∧ inp' = [] ∧ lookingForEoc = false ∧ out' = out)
        ∨ (inp = 0 :: 0 :: inp' ∧ lookingForEoc = true ∧ out' = out)
        ∨ ∃ e out₁ d₁ tag₁ inp₂ out₂, cbsGetAnyBerAsn1Element inp = some e
          ∧ outContents e.tag out d stringTag = some (out₁, d₁, tag₁)
          ∧ ConvertsContents (fun cbs eoc => cbsConvertBer fuel cbs out₁ d₁ tag₁ eoc (depth + 1)) e
            out₁ d₁ inp₂ out₂
          ∧ (cbbFlush out₂ d).1 = true
          ∧ cbsConvertBer fuel inp₂ (cbbFlush out₂ d).2 d stringTag lookingForEoc depth
            = some (inp', out')) := by
  rw [cbsConvertBer] at h
  by_cases hd : depth > kMaxDepth
  · simp [hd] at h
  refine ⟨Nat.le_of_not_lt hd, ?_⟩
  rw [if_neg hd] at h
  by_cases hnil : inp = []
  · split_ifs at h with hl
    cases h
    exact .inl ⟨hnil, hnil, by simpa using hl, rfl⟩
  rw [if_neg hnil] at h
  split at h
  · next rest heoc =>
    cases h
    split_ifs at heoc with hl
    exact .inr (.inl ⟨cbsGetEoc_eq_some heoc, hl, rfl⟩)
  · simp only [bind_eq_some_iff, Prod.exists] at h
    obtain ⟨e, he, out₁, d₁, tag₁, hout, inp₂, out₂, hcontents, h⟩ := h
    split_ifs at h with hflush
    exact .inr (.inr ⟨e, out₁, d₁, tag₁, inp₂, out₂, he, hout, convertContents_cases hcontents,
      hflush, h⟩)

lemma cbsConvertBer_sound : ∀ {fuel depth : ℕ} {inp inp' : Bytes} {out out' : Cbb}
    {oc : List CbbChild} {front : Bytes} {stringTag : UInt32} {lookingForEoc : Bool},
    Stands out lim oc front [] →
    cbsConvertBer fuel inp out oc.length stringTag lookingForEoc depth = some (inp', out') →
    ∃ x, Converted inp inp' stringTag lookingForEoc depth x
      ∧ Stands out' lim oc (front ++ written stringTag x) []
  | fuel + 1, depth, inp, inp', out, out', oc, front, stringTag, lookingForEoc, hs, h => by
    have hnil : written stringTag .nil = [] := by
      simp [written, Asn1.leaves, Asn1.flatten, Asn1.der]
    obtain ⟨hd, ⟨rfl, rfl, rfl, rfl⟩ | ⟨rfl, rfl, rfl⟩
      | ⟨e, out₁, d, tag₁, inp₂, out₂, he, hout, hcontents, hflush, h⟩⟩ := cbsConvertBer_cases h
    · exact ⟨.nil, ⟨⟨[], .nil, rfl⟩, fun _ => rfl, fun _ => ⟨trivial, hd⟩⟩,
        by simpa [hnil] using hs⟩
    · exact ⟨.nil, ⟨⟨[], .nil, rfl⟩, nofun, fun _ => ⟨trivial, hd⟩⟩, by simpa [hnil] using hs⟩
    obtain ⟨hok, hread, -⟩ := cbsGetAnyAsn1ElementImpl_sound he
    obtain ⟨rfl, oc', front', rfl, hs₁, hclose⟩ := outContents_spec hs hout
    cases hcontents with
    | indefinite hindef hconv =>
      cases hread with
      | definite len body hlenoct hs' hout' hheader hfit hder hdef => simp [hdef] at hindef
      | indefinite hs' hcons hber _ =>
        obtain ⟨children, hch, hsch⟩ := cbsConvertBer_sound hs₁ hconv
        obtain ⟨hsf, hlen⟩ := hclose hsch hflush
        obtain ⟨next, hnext, hsn⟩ := cbsConvertBer_sound hsf h
        obtain ⟨body, hbody, hsplit⟩ := hch.ber
        have htag := baseTag_constructed hok hcons
        refine ⟨.constructed (baseTag e.tag hok) children next, hnext.cons
          (identifierOctets e.tag ++ 0x80 :: (body ++ [0, 0])) ?_ (fun hn => ?_) ?_, ?_⟩
        · simp [hs', hsplit]
        · simpa [htag] using @Asn1.IsBer.indefinite (baseTag e.tag hok) _ _ _ _ hbody hn
        · rintro rfl hn
          rw [← htag] at hlen hch
          exact isDer_flatten_constructed hch.der (hlen rfl) hn
        · rwa [written_constructed, htag, ← append_assoc]
    | constructed contents unread hdef hrest hskip hcons hconv =>
      obtain ⟨len, hlenoct, hs', -⟩ := hread.contents hdef hskip
      subst hrest
      obtain ⟨children, hch, hsch⟩ := cbsConvertBer_sound hs₁ hconv
      obtain ⟨hsf, hlen⟩ := hclose hsch hflush
      obtain ⟨next, hnext, hsn⟩ := cbsConvertBer_sound hsf h
      obtain ⟨body, hbody, hsplit⟩ := hch.ber
      rw [if_neg Bool.false_ne_true, hch.ends rfl, List.append_nil] at hsplit
      subst hsplit
      have htag := baseTag_constructed hok hcons
      refine ⟨.constructed (baseTag e.tag hok) children next,
        hnext.cons _ hs' (fun hn => ?_) ?_, ?_⟩
      · simpa [htag] using @Asn1.IsBer.definite (baseTag e.tag hok) _ _ _ _ _ hbody hlenoct hn
      · rintro rfl hn
        rw [← htag] at hlen hch
        exact isDer_flatten_constructed hch.der (hlen rfl) hn
      · rwa [written_constructed, htag, ← append_assoc]
    | primitive contents hdef hrest hskip hprim hadd =>
      obtain ⟨len, hlenoct, hs', hfit⟩ := hread.contents hdef hskip
      subst hrest
      obtain ⟨hok', hbad'⟩ := appends_addBytes (show contents.length < sizeMod by
        unfold sizeMod; omega) hs₁
      by_cases hroom : FramesFit [] ∧ (front' ++ frameBytes [] ++ contents).length ≤ lim
      · have hsadd := (hok' hroom).2
        simp only [hadd, frameBytes, List.append_nil] at hsadd
        obtain ⟨hsf, hlen⟩ := hclose hsadd hflush
        obtain ⟨next, hnext, hsn⟩ := cbsConvertBer_sound hsf h
        have htag := baseTag_primitive hok hprim
        refine ⟨.primitive (baseTag e.tag hok) contents next,
          hnext.cons _ hs' (fun hn => ?_) ?_, ?_⟩
        · simpa [htag] using @Asn1.IsBer.primitive (baseTag e.tag hok) _ _ _ _ hlenoct hn
        · exact fun _ hn => ⟨⟨hfit, hn.1⟩, hn.2⟩
        · rwa [written_primitive, htag, ← append_assoc]
      · exact absurd (hbad' hroom).1 (by simp [hadd])

end Convert

variable {z z' : Bytes}

/-! ## Enough calls -/

lemma ReadsElement.cbs_length_lt {s : Bytes} {e : Asn1Element} (h : ReadsElement s e) :
    e.cbs.length < s.length := by
  have hid := Writes.identifierOctets_length_pos e.tag
  cases h with
  | definite len body hlen hs hout hheader hfit hder hdef =>
    rw [hs, hout]
    simp only [length_append]
    omega
  | indefinite hs hcons hber hindef =>
    rw [hs]
    simp only [length_append, length_cons]
    omega

lemma ReadsElement.contents_length_lt {s contents : Bytes} {e : Asn1Element}
    (h : ReadsElement s e) (hdef : e.indefinite = false)
    (hskip : cbsSkip e.out e.headerLen = some contents) : contents.length < s.length := by
  have hid := Writes.identifierOctets_length_pos e.tag
  obtain ⟨len, -, hs, -⟩ := h.contents hdef hskip
  rw [hs]
  simp only [length_append]
  omega

lemma cbsFindBer_fuel : ∀ {n m : ℕ} (inp : Bytes) (d : ℕ), inp.length < n → inp.length < m →
    cbsFindBer n inp d = cbsFindBer m inp d
  | n + 1, m + 1, inp, d, hn, hm => by
    refine if_congr Iff.rfl rfl (if_congr Iff.rfl rfl (Option.bind_congr fun e he => ?_))
    have hread := (cbsGetAnyAsn1ElementImpl_sound he).2.1
    have hrest := hread.cbs_length_lt
    have hnext := cbsFindBer_fuel e.cbs d (n := n) (m := m) (by omega) (by omega)
    by_cases hber : e.berFound = true
    · rw [if_pos hber, if_pos hber]
    rw [if_neg hber, if_neg hber]
    refine if_congr Iff.rfl (if_congr Iff.rfl rfl (Option.bind_congr fun contents hskip => ?_))
      hnext
    have hdef : e.indefinite = false := by
      cases hread with
      | definite len body hlen hs hout hheader hfit hder hdef => exact hdef
      | indefinite hs hcons hfound hindef => exact absurd hfound hber
    have hlt := hread.contents_length_lt hdef hskip
    rw [cbsFindBer_fuel contents (d + 1) (n := n) (m := m) (by omega) (by omega)]
    refine Option.bind_congr fun found _ => if_congr Iff.rfl rfl hnext

/-- What `cbs_convert_ber` leaves is no longer than what it was given. -/
lemma cbsConvertBer_length_le : ∀ {n d depth : ℕ} {inp inp' : Bytes} {out out' : Cbb}
    {stringTag : UInt32} {lookingForEoc : Bool},
    cbsConvertBer n inp out d stringTag lookingForEoc depth = some (inp', out') →
    inp'.length ≤ inp.length
  | n + 1, d, depth, inp, inp', out, out', stringTag, lookingForEoc, h => by
    obtain ⟨-, ⟨rfl, rfl, -, -⟩ | ⟨rfl, -, -⟩
      | ⟨e, out₁, d₁, tag₁, inp₂, out₂, he, -, hcontents, -, h⟩⟩ := cbsConvertBer_cases h
    · rfl
    · simp only [length_cons]
      omega
    have hrest := (cbsGetAnyAsn1ElementImpl_sound he).2.1.cbs_length_lt
    have h₂ : inp₂.length ≤ e.cbs.length := by
      cases hcontents with
      | indefinite _ hconv => exact cbsConvertBer_length_le hconv
      | constructed _ _ _ hrest => rw [hrest]
      | primitive _ _ hrest => rw [hrest]
    have := cbsConvertBer_length_le h
    omega

lemma cbsConvertBer_fuel : ∀ {n m : ℕ} (inp : Bytes) (out : Cbb) (d : ℕ) (stringTag : UInt32)
    (lookingForEoc : Bool) (depth : ℕ), inp.length < n → inp.length < m →
    cbsConvertBer n inp out d stringTag lookingForEoc depth
      = cbsConvertBer m inp out d stringTag lookingForEoc depth
  | n + 1, m + 1, inp, out, d, stringTag, lookingForEoc, depth, hn, hm => by
    refine if_congr Iff.rfl rfl (if_congr Iff.rfl rfl ?_)
    split
    · rfl
    refine Option.bind_congr fun e he => Option.bind_congr fun ⟨out₁, d₁, tag₁⟩ _ => ?_
    have hread := (cbsGetAnyAsn1ElementImpl_sound he).2.1
    have hrest := hread.cbs_length_lt
    have hcontents : convertContents
        (fun cbs eoc => cbsConvertBer n cbs out₁ d₁ tag₁ eoc (depth + 1)) e out₁ d₁
        = convertContents
          (fun cbs eoc => cbsConvertBer m cbs out₁ d₁ tag₁ eoc (depth + 1)) e out₁ d₁ := by
      unfold convertContents
      by_cases hindef : e.indefinite = true
      · simp only [if_pos hindef]
        exact cbsConvertBer_fuel _ _ _ _ _ _ (by omega) (by omega)
      · simp only [if_neg hindef]
        refine Option.bind_congr fun contents hskip => if_congr Iff.rfl ?_ rfl
        have hlt := hread.contents_length_lt (by simpa using hindef) hskip
        rw [cbsConvertBer_fuel contents out₁ d₁ tag₁ false (depth + 1) (n := n) (m := m) (by omega)
          (by omega)]
    simp only [hcontents]
    refine Option.bind_congr fun ⟨inp₂, out₂⟩ h₂ => if_congr Iff.rfl ?_ rfl
    have hle : inp₂.length ≤ e.cbs.length := by
      cases convertContents_cases h₂ with
      | indefinite _ hconv => exact cbsConvertBer_length_le hconv
      | constructed _ _ _ hrest => rw [hrest]
      | primitive _ _ hrest => rw [hrest]
    exact cbsConvertBer_fuel inp₂ _ _ _ _ _ (by omega) (by omega)

/-! ## One reading of the input -/

lemma BerLength.unique {m : ℕ} {l' : Bytes} (h : BerLength n l) (h' : BerLength m l')
    (heq : l ++ z = l' ++ z') : n = m ∧ z = z' := by
  have hbyte : ∀ {a b : ℕ}, a < 256 → b < 256 → UInt8.ofNat a = UInt8.ofNat b → a = b := by
    intro a b ha hb hab
    have := congrArg UInt8.toNat hab
    rw [UInt8.toNat_ofNat', UInt8.toNat_ofNat'] at this
    omega
  cases h with
  | short h =>
    cases h' with
    | short h' =>
      simp only [singleton_append, List.cons.injEq] at heq
      exact ⟨hbyte (by omega) (by omega) heq.1, heq.2⟩
    | long k hk h' =>
      simp only [cons_append, List.cons.injEq] at heq
      have := hbyte (by omega) (by omega) heq.1
      omega
  | long k hk h =>
    cases h' with
    | short h' =>
      simp only [cons_append, List.cons.injEq] at heq
      have := hbyte (by omega) (by omega) heq.1
      omega
    | long k' hk' h' =>
      simp only [cons_append, List.cons.injEq] at heq
      have hkk := hbyte (by omega) (by omega) heq.1
      obtain rfl : k = k' := by omega
      obtain ⟨hb, hz⟩ := append_inj heq.2 (by simp)
      have hn := congrArg beNat hb
      rw [beNat_beBytes, beNat_beBytes, Nat.mod_eq_of_lt h, Nat.mod_eq_of_lt h'] at hn
      exact ⟨hn, hz⟩

lemma BerLength.ne_indefinite (h : BerLength n l) : l ++ z ≠ 0x80 :: z' := by
  intro heq
  cases h with
  | short h =>
    simp only [singleton_append, List.cons.injEq] at heq
    have := congrArg UInt8.toNat heq.1
    simp at this
    omega
  | long k hk h =>
    simp only [cons_append, List.cons.injEq] at heq
    have := congrArg UInt8.toNat heq.1
    simp at this
    omega

lemma BaseTag.eq_of_constructed {t' : BaseTag}
    (h : t.val ||| asn1Constructed = t'.val ||| asn1Constructed) : t = t' := by
  have := congrArg (· &&& ~~~asn1Constructed) h
  simp only [or_constructed_and_not t.base, or_constructed_and_not t'.base] at this
  exact BaseTag.ext this

lemma BaseTag.ne_constructed (t t' : BaseTag) : t.val ≠ t'.val ||| asn1Constructed := by
  intro h
  have := or_constructed_and t'.val
  rw [← h] at this
  exact this t.base

namespace Asn1

lemma parseAsn1Tag_eoc (z : Bytes) : parseAsn1Tag (0 :: 0 :: z) = none := by
  simp [parseAsn1Tag, cbsGetU8, parseAsn1TagNumber]

/-- The tag that the encoding of the values starts with. -/
def tag? : Asn1 → Option UInt32
  | nil => none
  | primitive t _ _ => some t.val
  | constructed t _ _ => some (t.val ||| asn1Constructed)

lemma IsBer.tag?_eq {b r : Bytes} (h : x.IsBer b) (hr : parseAsn1Tag r = none) :
    (parseAsn1Tag (b ++ r)).map Prod.fst = x.tag? := by
  cases h <;>
    simp [tag?, hr, parseAsn1Tag_identifierOctets, BaseTag.tagOk, BaseTag.constructed_tagOk]

lemma IsBer.tag?_congr {y : Asn1} {b c r : Bytes} (hx : x.IsBer b) (hy : y.IsBer c)
    (h : b ++ r = c ++ s) (hr : parseAsn1Tag r = none) (hs : parseAsn1Tag s = none) :
    x.tag? = y.tag? := by
  rw [← hx.tag?_eq hr, h, hy.tag?_eq hs]

/-- What follows the identifier of a constructed value. -/
def IsContents (children : Asn1) (pre : Bytes) : Prop :=
  ∃ body, children.IsBer body
    ∧ ((∃ len, BerLength body.length len ∧ pre = len ++ body) ∨ pre = 0x80 :: (body ++ [0, 0]))

lemma IsBer.contents {children : Asn1} {b : Bytes} (h : (constructed t children next).IsBer b) :
    ∃ pre rest, children.IsContents pre ∧ next.IsBer rest
      ∧ b = identifierOctets (t.val ||| asn1Constructed) ++ (pre ++ rest) := by
  cases h with
  | definite hch hlen hnext => exact ⟨_, _, ⟨_, hch, .inl ⟨_, hlen, rfl⟩⟩, hnext, by simp⟩
  | indefinite hch hnext => exact ⟨_, _, ⟨_, hch, .inr rfl⟩, hnext, by simp⟩

lemma IsBer.unique {y : Asn1} {b c r : Bytes} (hx : x.IsBer b) (hy : y.IsBer c)
    (h : b ++ r = c ++ s) (hr : parseAsn1Tag r = none) (hs : parseAsn1Tag s = none) :
    x = y ∧ r = s := by
  induction x generalizing y b c r s with
  | nil =>
    have htag : none = y.tag? := hx.tag?_congr hy h hr hs
    cases y with
    | nil =>
      cases hx
      cases hy
      exact ⟨rfl, h⟩
    | primitive | constructed => cases htag
  | primitive t contents next ih =>
    have htag : some t.val = y.tag? := hx.tag?_congr hy h hr hs
    cases y with
    | nil => cases htag
    | primitive t' contents' next' =>
      cases BaseTag.ext (Option.some.inj htag)
      cases hx with
      | primitive hlen hnext =>
      cases hy with
      | primitive hlen' hnext' =>
      simp only [append_assoc, append_cancel_left_eq] at h
      obtain ⟨hn, h⟩ := hlen.unique hlen' h
      obtain ⟨rfl, hrest⟩ := append_inj h hn
      obtain ⟨rfl, hrs⟩ := ih hnext hnext' hrest hr hs
      exact ⟨rfl, hrs⟩
    | constructed t' => exact absurd (Option.some.inj htag) (t.ne_constructed t')
  | constructed t children next ihc ih =>
    have htag : some (t.val ||| asn1Constructed) = y.tag? := hx.tag?_congr hy h hr hs
    cases y with
    | nil => cases htag
    | primitive t' => exact absurd (Option.some.inj htag).symm (t'.ne_constructed t)
    | constructed t' children' next' =>
      cases BaseTag.eq_of_constructed (Option.some.inj htag)
      obtain ⟨pre, rest, ⟨body, hbody, hpre⟩, hnext, rfl⟩ := hx.contents
      obtain ⟨pre', rest', ⟨body', hbody', hpre'⟩, hnext', rfl⟩ := hy.contents
      simp only [append_assoc, append_cancel_left_eq] at h
      suffices hch : children = children' ∧ rest ++ r = rest' ++ s by
        obtain ⟨rfl, hrest⟩ := hch
        obtain ⟨rfl, hrs⟩ := ih hnext hnext' hrest hr hs
        exact ⟨rfl, hrs⟩
      rcases hpre with ⟨len, hlen, rfl⟩ | rfl <;> rcases hpre' with ⟨len', hlen', rfl⟩ | rfl <;>
        simp only [append_assoc, cons_append] at h
      · obtain ⟨hn, h⟩ := hlen.unique hlen' h
        obtain ⟨rfl, hrest⟩ := append_inj h hn
        exact ⟨(ihc (r := []) hbody hbody' rfl rfl rfl).1, hrest⟩
      · exact absurd h hlen.ne_indefinite
      · exact absurd h.symm hlen'.ne_indefinite
      · simpa using ihc hbody hbody' (List.cons.inj h).2 (parseAsn1Tag_eoc _) (parseAsn1Tag_eoc _)

/-! ## The values of the result -/

lemma berLength_lengthOctets (h : n ≤ 0xffffffff) : BerLength n (lengthOctets n) := by
  by_cases hs : n < 128
  · rw [lengthOctets, if_pos hs]
    exact .short hs
  · obtain ⟨k, hk, hlo, hhi⟩ := exists_lengthOctets_long (by omega) h
    rw [lengthOctets_long (by omega) hlo hhi]
    exact .long (k + 1) (by omega) hhi

lemma IsDer.isBer : ∀ {x : Asn1}, x.IsDer → x.IsBer x.der
  | .nil, _ => .nil
  | .primitive _ _ _, ⟨hlen, hnext⟩ => .primitive (berLength_lengthOctets hlen) hnext.isBer
  | .constructed _ _ _, ⟨_, hlen, hch, hnext⟩ =>
    .definite hch.isBer (berLength_lengthOctets hlen) hnext.isBer

lemma IsDer.flatten_eq : ∀ {x : Asn1}, x.IsDer → x.flatten = x
  | .nil, _ => rfl
  | .primitive _ _ _, ⟨_, hnext⟩ => by rw [flatten, hnext.flatten_eq]
  | .constructed _ _ _, ⟨hstr, _, hch, hnext⟩ => by
    rw [flatten, if_neg (by simp [hstr]), hch.flatten_eq, hnext.flatten_eq]

lemma Single.flatten : ∀ {x : Asn1}, x.Single → x.flatten.Single
  | .primitive _ _ .nil, _ => trivial
  | .constructed t _ .nil, _ => by
    rw [Asn1.flatten]
    split_ifs <;> trivial

def first : Asn1 → Asn1
  | nil => nil
  | primitive tag contents _ => primitive tag contents nil
  | constructed tag children _ => constructed tag children nil

/-- The elements after the first. -/
def rest : Asn1 → Asn1
  | nil => nil
  | primitive _ _ next => next
  | constructed _ _ next => next

lemma der_first_append_rest (x : Asn1) : x.first.der ++ x.rest.der = x.der := by
  cases x <;> simp [first, rest, der]

lemma single_first (h : x.der ≠ []) : x.first.Single := by
  cases x with
  | nil => exact absurd rfl h
  | primitive => trivial
  | constructed => trivial

lemma IsDer.first : ∀ {x : Asn1}, x.IsDer → x.first.IsDer
  | .nil, _ => trivial
  | .primitive _ _ _, ⟨hlen, _⟩ => ⟨hlen, trivial⟩
  | .constructed _ _ _, ⟨hstr, hlen, hch, _⟩ => ⟨hstr, hlen, hch, trivial⟩

lemma depth_first_le (x : Asn1) : x.first.depth ≤ x.depth := by
  cases x <;> simp [Asn1.first, depth]

lemma IsDer.cbsGetAnyAsn1Element : ∀ {x : Asn1}, x.IsDer → x.der ≠ [] →
    ∃ e, BoringSSL.cbsGetAnyAsn1Element x.der = some e ∧ e.out = x.first.der ∧ e.cbs = x.rest.der
  | .nil, _, h => absurd rfl h
  | .primitive t _ _, ⟨hlen, _⟩, _ =>
    ⟨_, cbsGetAnyAsn1Element_derElement t.tagOk hlen _, by simp [Asn1.first, der], rfl⟩
  | .constructed t _ _, ⟨_, hlen, _, _⟩, _ =>
    ⟨_, cbsGetAnyAsn1Element_derElement t.constructed_tagOk hlen _, by simp [Asn1.first, der], rfl⟩

end Asn1

/-! ## `CBS_asn1_ber_to_der` -/

section BerToDer

variable {fill : UInt8} {inp : Bytes} {r : BerToDer}

lemma cbsAsn1BerToDer_der (hder : x.IsDer) (hdepth : x.depth ≤ kMaxDepth) (hne : x.der ≠ []) :
    cbsAsn1BerToDer fill x.der = some ⟨x.rest.der, x.first.der, none⟩ := by
  obtain ⟨e, he, hout, hcbs⟩ := hder.cbsGetAnyAsn1Element hne
  rw [cbsAsn1BerToDer, cbsFindBer_der x hder (by omega) (Nat.lt_succ_self _), bind_some, he]
  simp [hout, hcbs]

lemma cbsAsn1BerToDer_single (hs : x.Single) (hder : x.IsDer) (hdepth : x.depth ≤ kMaxDepth) :
    cbsAsn1BerToDer fill x.der = some ⟨[], x.der, none⟩ := by
  have hne : x.der ≠ [] := by
    rcases x with _ | ⟨t, c, n⟩ | ⟨t, c, n⟩
    · exact hs.elim
    all_goals exact derElement_append_ne_nil _ _ _
  rw [cbsAsn1BerToDer_der hder hdepth hne]
  rcases x with _ | ⟨t, c, _ | _ | _⟩ | ⟨t, c, _ | _ | _⟩ <;> first | exact hs.elim | rfl

lemma cbsAsn1BerToDer_converted (hsize : inp.length < sizeMod)
    (hfind : cbsFindBer (inp.length + 1) inp 0 = some true)
    (h : cbsAsn1BerToDer fill inp = some r) :
    ∃ x : Asn1, x.IsBer inp ∧ r = ⟨[], x.flatten.der, some x.flatten.der⟩ ∧ x.flatten.IsDer
      ∧ x.flatten.depth ≤ kMaxDepth := by
  rw [cbsAsn1BerToDer, hfind, bind_some] at h
  simp only [Bool.not_true, Bool.false_eq_true, if_false, bind_eq_some_iff, Prod.exists,
    map_eq_some_iff] at h
  obtain ⟨inp', cbb, hconv, data, hfinish, rfl⟩ := h
  have hroot := (CbbRoot.growable ⟨inp.length, hsize⟩ fill).stands
  obtain ⟨x, hx, hstands⟩ := cbsConvertBer_sound hroot hconv
  obtain ⟨bytes, hber, hsplit⟩ := hx.ber
  obtain ⟨hder, hdepth⟩ := hx.der rfl
  have hend := hx.ends rfl
  rw [if_neg Bool.false_ne_true, hend, List.append_nil] at hsplit
  subst hsplit hend
  have hdata := hstands.finish ⟨trivial, by simpa [frameBytes] using hstands.length_le⟩
  rw [hfinish] at hdata
  simp only [written, ne_eq, not_true_eq_false, if_false, frameBytes, List.append_nil,
    nil_append, Option.some.injEq] at hdata
  exact ⟨x, hber, by rw [hdata], hder, by omega⟩

/-- An accepted input is handled as one value exactly if nothing in it is converted, or there is
only one value. -/
theorem cbsAsn1BerToDer_convertsFirst_iff (fill : UInt8) (inp : SizedBytes) (r : BerToDer)
    (h : cbsAsn1BerToDer fill inp.1 = some r) :
    ConvertsFirst fill inp.1 r ↔
      cbsFindBer (inp.1.length + 1) inp.1 0 = some false
        ∨ ∃ x : Asn1, x.Single ∧ x.IsBer inp.1 := by
  obtain ⟨found, hfind, h'⟩ := bind_eq_some_iff.mp h
  rw [hfind]
  cases found with
  | false =>
    refine iff_of_true ?_ (.inl rfl)
    obtain ⟨x, hder, hdepth, hx⟩ := cbsFindBer_sound hfind
    have hne : x.der ≠ [] := by
      intro hnil
      simp [← hx, hnil, cbsGetAnyAsn1Element, cbsGetAnyAsn1ElementImpl, parseAsn1Tag, cbsGetU8]
        at h'
    rw [← hx, cbsAsn1BerToDer_der hder (by omega) hne] at h
    cases h
    have hfirst := hder.first
    refine ⟨⟨x.first, Asn1.single_first hne, ⟨x.first.der, hfirst.isBer, ?_⟩, ?_⟩, ?_⟩
    · rw [← hx, x.der_first_append_rest]
    · rw [hfirst.flatten_eq]
    · have := x.depth_first_le
      exact cbsAsn1BerToDer_single (Asn1.single_first hne) hfirst (by omega)
  | true =>
    obtain ⟨x, hber, rfl, hder, hdepth⟩ := cbsAsn1BerToDer_converted inp.2 hfind h
    simp only [Option.some.injEq, Bool.true_eq_false, false_or]
    constructor
    · rintro ⟨⟨y, hy, ⟨bytes, hbytes, hsplit⟩, -⟩, -⟩
      rw [List.append_nil] at hsplit
      exact ⟨y, hy, hsplit ▸ hbytes⟩
    · rintro ⟨y, hy, hyber⟩
      obtain ⟨rfl, -⟩ := hber.unique (r := []) (s := []) hyber rfl rfl rfl
      exact ⟨⟨x, hy, ⟨inp.1, hber, by simp⟩, rfl⟩,
        cbsAsn1BerToDer_single hy.flatten hder hdepth⟩

/-- A SEQUENCE of indefinite length and nothing else. -/
theorem cbsAsn1BerToDer_convertsFirst_sequence :
    cbsAsn1BerToDer 0 [0x30, 0x80, 0x05, 0x00, 0x00, 0x00]
        = some ⟨[], [0x30, 0x02, 0x05, 0x00], some [0x30, 0x02, 0x05, 0x00]⟩
      ∧ ConvertsFirst 0 [0x30, 0x80, 0x05, 0x00, 0x00, 0x00]
        ⟨[], [0x30, 0x02, 0x05, 0x00], some [0x30, 0x02, 0x05, 0x00]⟩ := by
  have hrun : cbsAsn1BerToDer 0 [0x30, 0x80, 0x05, 0x00, 0x00, 0x00]
      = some ⟨[], [0x30, 0x02, 0x05, 0x00], some [0x30, 0x02, 0x05, 0x00]⟩ := by decide +kernel
  refine ⟨hrun, (cbsAsn1BerToDer_convertsFirst_iff 0 ⟨_, by decide⟩ _ hrun).mpr (.inr ?_)⟩
  exact ⟨.constructed ⟨0x10, by decide, by decide⟩
    (.primitive ⟨0x5, by decide, by decide⟩ [] .nil) .nil, trivial,
    .indefinite (.primitive (show BerLength [].length [0x00] from .short (by decide)) .nil) .nil⟩

/-- After a SEQUENCE of indefinite length the NULL is converted as well: `*in` is past both, and
`*out` holds two elements. -/
theorem cbsAsn1BerToDer_two_elements :
    cbsAsn1BerToDer 0 [0x30, 0x80, 0x00, 0x00, 0x05, 0x00]
        = some ⟨[], [0x30, 0x00, 0x05, 0x00], some [0x30, 0x00, 0x05, 0x00]⟩
      ∧ ¬ ConvertsFirst 0 [0x30, 0x80, 0x00, 0x00, 0x05, 0x00]
        ⟨[], [0x30, 0x00, 0x05, 0x00], some [0x30, 0x00, 0x05, 0x00]⟩
      ∧ cbsAsn1BerToDer 0 [0x30, 0x00, 0x05, 0x00] = some ⟨[0x05, 0x00], [0x30, 0x00], none⟩ := by
  have hagain : cbsAsn1BerToDer 0 [0x30, 0x00, 0x05, 0x00]
      = some ⟨[0x05, 0x00], [0x30, 0x00], none⟩ := by decide +kernel
  refine ⟨by decide +kernel, fun h => ?_, hagain⟩
  have hfixed := h.2
  cases hfixed

end BerToDer

end BoringSSL
