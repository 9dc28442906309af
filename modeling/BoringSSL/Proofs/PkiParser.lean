import BoringSSL.PkiParser
import BoringSSL.Proofs.Cbs
import BoringSSL.Proofs.PosixTime

/-!
# What the DER parser of `pki` reads

A call that reads succeeds exactly if the encoding it looks for stands first, and leaves what comes
after it.  `InDate` is what `CheckRevocationDateValid` asks of an update.
-/

namespace BoringSSL.Pki

open ByteLib Calendar List Option

variable {e : Bytes} {es : List Bytes}

/-- `tlv` is the DER encoding of `value` under `tag`. -/
structure IsTlv (tag : UInt32) (value tlv : Bytes) : Prop where
  eq : tlv = derElement tag value
  length_le : value.length ≤ 0xffffffff
  tagOk : Asn1TagOk tag

variable {cbs value tlv rest : Bytes} {tag : UInt32}

lemma finished_eq_some_iff {u : Unit} : finished cbs = some u ↔ cbs = [] := by
  simp [finished]

lemma cbsSkip_of_le {n : ℕ} (h : n ≤ cbs.length) : cbsSkip cbs n = some (cbs.drop n) := by
  simp [cbsSkip, cbsGet, h]

lemma IsTlv.of_get {e : Asn1Element} (h : cbsGetAnyAsn1Element cbs = some e) :
    ∃ value, IsTlv e.tag value e.out ∧ cbs = e.out ++ e.cbs ∧ cbsSkip e.out e.headerLen = some value
      ∧ value.length + e.headerLen = e.out.length := by
  obtain ⟨value, hv⟩ := cbsGetAnyAsn1Element_sound h
  have hlen := hv.headerLen
  refine ⟨value, ⟨hv.out, hv.length_le, hv.tagOk⟩, hv.split, ?_, by omega⟩
  rw [cbsSkip_of_le (by omega), hv.drop_headerLen]

lemma IsTlv.get (h : IsTlv tag value tlv) (rest : Bytes) :
    ∃ e, cbsGetAnyAsn1Element (tlv ++ rest) = some e ∧ e.out = tlv ∧ e.cbs = rest ∧ e.tag = tag
      ∧ cbsSkip e.out e.headerLen = some value ∧ value.length + e.headerLen = tlv.length := by
  have hget := cbsGetAnyAsn1Element_derElement h.tagOk h.length_le rest
  rw [← h.eq] at hget
  obtain ⟨value', h', -, hskip, hlen⟩ := IsTlv.of_get hget
  have hv : value' = value := by
    have : tlv.drop ((identifierOctets tag).length + (lengthOctets value.length).length)
        = value := by
      rw [h.eq, derElement, ← length_append, drop_left]
    rw [cbsSkip_of_le (by omega), this] at hskip
    exact (Option.some.inj hskip).symm
  subst hv
  exact ⟨_, hget, rfl, rfl, rfl, hskip, hlen⟩

lemma readRawTlv_eq_some_iff :
    readRawTlv cbs = some (tlv, rest) ↔ (∃ tag value, IsTlv tag value tlv) ∧ cbs = tlv ++ rest := by
  simp only [readRawTlv, map_eq_some_iff, Prod.mk.injEq]
  constructor
  · rintro ⟨e, he, rfl, rfl⟩
    obtain ⟨value, h, hs, -⟩ := IsTlv.of_get he
    exact ⟨⟨e.tag, value, h⟩, hs⟩
  · rintro ⟨⟨tag, value, h⟩, rfl⟩
    obtain ⟨e, he, hout, hrest, -⟩ := h.get rest
    exact ⟨e, he, hout, hrest⟩

lemma peekTagAndValue_eq_some_iff {advanceLen : ℕ} :
    peekTagAndValue cbs = some (tag, value, advanceLen)
      ↔ ∃ tlv rest, IsTlv tag value tlv ∧ cbs = tlv ++ rest ∧ advanceLen = tlv.length := by
  simp only [peekTagAndValue, bind_eq_bind, bind_eq_some_iff, Option.some.injEq, Prod.mk.injEq]
  constructor
  · rintro ⟨e, he, v, hv, rfl, rfl, rfl⟩
    obtain ⟨value, h, hs, hskip, hlen⟩ := IsTlv.of_get he
    obtain rfl : v = value := Option.some.inj (hv.symm.trans hskip)
    exact ⟨e.out, e.cbs, h, hs, hlen⟩
  · rintro ⟨tlv, rest, h, rfl, rfl⟩
    obtain ⟨e, he, hout, -, htag, hskip, hlen⟩ := h.get rest
    exact ⟨e, he, value, hskip, htag, rfl, hlen⟩

lemma IsTlv.ne_nil (h : IsTlv tag value tlv) : tlv ≠ [] := by
  have := Writes.identifierOctets_length_pos tag
  rw [h.eq, ← length_pos_iff]
  simp only [derElement, length_append]
  omega

lemma advance_append (h : tlv ≠ []) (rest : Bytes) :
    advance (tlv ++ rest) tlv.length = some rest := by
  rw [advance, if_neg (by simpa using h), cbsSkip_of_le (by simp), drop_left]

lemma IsTlv.peek (h : IsTlv tag value tlv) (rest : Bytes) :
    peekTagAndValue (tlv ++ rest) = some (tag, value, tlv.length) :=
  peekTagAndValue_eq_some_iff.mpr ⟨tlv, rest, h, rfl, rfl⟩

lemma readTagAndValue_eq_some_iff : readTagAndValue cbs = some ((tag, value), rest)
    ↔ ∃ tlv, IsTlv tag value tlv ∧ cbs = tlv ++ rest := by
  constructor
  · intro h
    simp only [readTagAndValue, bind_eq_bind, bind_eq_some_iff, Prod.exists] at h
    obtain ⟨tag', value', n, hp, rest', ha, hr⟩ := h
    obtain ⟨tlv, rest'', ht, rfl, rfl⟩ := peekTagAndValue_eq_some_iff.mp hp
    rw [advance_append ht.ne_nil, Option.some.injEq] at ha
    obtain ⟨⟨rfl, rfl⟩, rfl⟩ := hr
    exact ⟨tlv, ht, by rw [ha]⟩
  · rintro ⟨tlv, h, rfl⟩
    simp [readTagAndValue, h.peek, advance_append h.ne_nil]

lemma readTag_eq_some_iff :
    readTag tag cbs = some (value, rest) ↔ ∃ tlv, IsTlv tag value tlv ∧ cbs = tlv ++ rest := by
  constructor
  · intro h
    simp only [readTag, bind_eq_bind, bind_eq_some_iff, Prod.exists] at h
    obtain ⟨tag', value', n, hp, h⟩ := h
    obtain ⟨tlv, rest', ht, rfl, rfl⟩ := peekTagAndValue_eq_some_iff.mp hp
    by_cases htag : tag' = tag
    · subst htag
      simp only [ne_eq, not_true_eq_false, if_false, advance_append ht.ne_nil, bind_some,
        Option.some.injEq, Prod.mk.injEq] at h
      obtain ⟨rfl, rfl⟩ := h
      exact ⟨tlv, ht, rfl⟩
    · simp [htag] at h
  · rintro ⟨tlv, h, rfl⟩
    simp [readTag, h.peek, advance_append h.ne_nil]

lemma readTag_self_iff : readTag tag cbs = some (value, []) ↔ IsTlv tag value cbs := by
  rw [readTag_eq_some_iff]
  constructor
  · rintro ⟨tlv, h, rfl⟩
    rwa [List.append_nil]
  · exact fun h => ⟨cbs, h, by simp⟩

lemma readConstructed_eq (htag : tag &&& asn1Constructed ≠ 0) :
    readConstructed tag cbs = readTag tag cbs := by
  rw [readConstructed, if_neg htag]

lemma readSequence_eq : readSequence cbs = readTag asn1Sequence cbs :=
  readConstructed_eq (by decide)

lemma readTag_nil : readTag tag [] = none := by
  by_contra h
  obtain ⟨⟨value, rest⟩, hr⟩ := ne_none_iff_exists'.mp h
  obtain ⟨tlv, ht, he⟩ := readTag_eq_some_iff.mp hr
  exact ht.ne_nil (append_eq_nil_iff.mp he.symm).1

lemma exists_of_forall₂_left {α β : Type} {R : α → β → Prop} {as : List α} {bs : List β}
    (h : Forall₂ R as bs) {a : α} (ha : a ∈ as) : ∃ b ∈ bs, R a b := by
  induction h with
  | nil => cases ha
  | @cons a' b as bs hab _ ih =>
    grind

lemma exists_of_forall₂_right {α β : Type} {R : α → β → Prop} {as : List α} {bs : List β}
    (h : Forall₂ R as bs) {b : β} (hb : b ∈ bs) : ∃ a ∈ as, R a b :=
  exists_of_forall₂_left h.flip hb

lemma exists_forall₂ {α β : Type} {R : α → β → Prop} : ∀ {bs : List β},
    (∀ b ∈ bs, ∃ a, R a b) → ∃ as, Forall₂ R as bs
  | [], _ => ⟨[], .nil⟩
  | b :: bs, h => by
    rw [forall_mem_cons] at h
    obtain ⟨a, ha⟩ := h.1
    obtain ⟨as, has⟩ := exists_forall₂ h.2
    exact ⟨a :: as, .cons ha has⟩

lemma mapM_eq_some_iff {α β : Type} {f : α → Option β} : ∀ {as : List α} {bs : List β},
    as.mapM f = some bs ↔ Forall₂ (fun a b => f a = some b) as bs
  | [], bs => by
    simp
  | a :: as, bs => by
    simp only [mapM_cons, bind_eq_bind, bind_eq_some_iff, mapM_eq_some_iff]
    constructor
    · rintro ⟨b, hb, bs', hbs, h⟩
      cases h
      exact .cons hb hbs
    · rintro (_ | ⟨hb, hbs⟩)
      exact ⟨_, hb, _, hbs, rfl⟩

/-- A call reads exactly the encodings of `Is`, and none of them is empty. -/
structure Reads {α : Type} (read : Bytes → Option (α × Bytes)) (Is : α → Bytes → Prop) : Prop where
  iff : ∀ {cbs a rest}, read cbs = some (a, rest) ↔ ∃ e, Is a e ∧ cbs = e ++ rest
  ne_nil : ∀ {a e}, Is a e → e ≠ []

namespace Reads

variable {α : Type} {read : Bytes → Option (α × Bytes)} {Is : α → Bytes → Prop} (h : Reads read Is)

include h

lemma read_append {a : α} (he : Is a e) (rest : Bytes) :
    read (e ++ rest) = some (a, rest) := h.iff.mpr ⟨e, he, rfl⟩

lemma inj {a a' : α} (he : Is a e) (he' : Is a' e) : a = a' := by
  have hread := h.read_append he []
  rw [h.read_append he' []] at hread
  exact (Prod.mk.inj (Option.some.inj hread)).1.symm

lemma readWhileMore_flatten : ∀ {as : List α} {es : List Bytes} {fuel : ℕ},
    Forall₂ Is as es → es.flatten.length ≤ fuel →
      readWhileMore read fuel es.flatten = some as
  | [], [], fuel, _, _ => by
    cases fuel <;> rfl
  | a :: as, e :: es, fuel, .cons he hes, hfuel => by
    have hpos := length_pos_iff.mpr (h.ne_nil he)
    rw [flatten_cons] at hfuel ⊢
    rw [length_append] at hfuel
    obtain ⟨fuel, rfl⟩ : ∃ f, fuel = f + 1 := ⟨fuel - 1, by omega⟩
    have hread := h.read_append he es.flatten
    obtain ⟨b, e, rfl⟩ := exists_cons_of_ne_nil (h.ne_nil he)
    rw [cons_append] at hread ⊢
    rw [readWhileMore, hread]
    simp [readWhileMore_flatten hes (show es.flatten.length ≤ fuel by omega)]

lemma exists_of_readWhileMore : ∀ {fuel : ℕ} {cbs : Bytes} {as : List α},
    readWhileMore read fuel cbs = some as → ∃ es, Forall₂ Is as es ∧ cbs = es.flatten
  | _, [], as, hrun => by
    obtain rfl : [] = as := by simpa [readWhileMore] using hrun
    exact ⟨[], .nil, rfl⟩
  | 0, _ :: _, as, hrun => by simp [readWhileMore] at hrun
  | fuel + 1, b :: bs, as, hrun => by
    simp only [readWhileMore, bind_eq_bind, bind_eq_some_iff, Prod.exists,
      Option.some.injEq] at hrun
    obtain ⟨a, rest, hread, as, hmore, rfl⟩ := hrun
    obtain ⟨e, he, heq⟩ := h.iff.mp hread
    obtain ⟨es, hes, rfl⟩ := exists_of_readWhileMore hmore
    exact ⟨e :: es, .cons he hes, heq⟩

lemma readAll_iff {cbs : Bytes} {as : List α} :
    readAll read cbs = some as ↔ ∃ es, Forall₂ Is as es ∧ cbs = es.flatten := by
  constructor
  · exact h.exists_of_readWhileMore
  · rintro ⟨es, hes, rfl⟩
    exact h.readWhileMore_flatten hes le_rfl

lemma readAll_flatten {as : List α} (hes : Forall₂ Is as es) : readAll read es.flatten = some as :=
  h.readAll_iff.mpr ⟨es, hes, rfl⟩

end Reads

lemma reads_rawTlv :
    Reads readRawTlv fun tlv e => (∃ tag value, IsTlv tag value tlv) ∧ e = tlv where
  iff := by
    intro cbs tlv rest
    rw [readRawTlv_eq_some_iff]
    constructor
    · rintro ⟨h, rfl⟩
      exact ⟨tlv, ⟨h, rfl⟩, rfl⟩
    · rintro ⟨_, ⟨h, rfl⟩, rfl⟩
      exact ⟨h, rfl⟩
  ne_nil := by
    rintro tlv _ ⟨⟨tag, value, h⟩, rfl⟩
    exact h.ne_nil

lemma reads_tag (tag : UInt32) : Reads (readTag tag) (IsTlv tag) where
  iff := readTag_eq_some_iff
  ne_nil := IsTlv.ne_nil

lemma readAll_rawTlv (h : ∀ e ∈ es, ∃ tag value, IsTlv tag value e) :
    readAll readRawTlv es.flatten = some es := by
  refine reads_rawTlv.readAll_flatten (forall₂_iff_get.mpr ⟨rfl, fun i hi _ => ?_⟩)
  exact ⟨h _ (List.get_mem es ⟨i, hi⟩), rfl⟩

lemma flatten_inj {es' : List Bytes} (h : ∀ e ∈ es, ∃ tag value, IsTlv tag value e)
    (h' : ∀ e ∈ es', ∃ tag value, IsTlv tag value e) (heq : es.flatten = es'.flatten) :
    es = es' := by
  have hread := readAll_rawTlv h
  rw [heq, readAll_rawTlv h'] at hread
  exact (Option.some.inj hread).symm

lemma GeneralizedTime.not_lt {a b : GeneralizedTime} : ¬ a < b ↔ b ≤ a := Iff.rfl

lemma GeneralizedTime.not_le {a b : GeneralizedTime} : ¬ a ≤ b ↔ b < a := not_not

/-- An update is in date: it was made, is not over, and is not older than the maximum age. -/
structure InDate (thisUpdate : GeneralizedTime) (nextUpdate : Option GeneralizedTime)
    (verifyTime : ℤ) (maxAge : Option ℤ) : Prop where
  inRange : kMinValidTime ≤ verifyTime ∧ verifyTime ≤ kMaxValidTime
  updated : ∃ now, encodePosixTimeAsGeneralizedTime verifyTime = some now ∧ thisUpdate ≤ now
    ∧ ∀ next ∈ nextUpdate, now < next
  recent : ∀ age ∈ maxAge, 0 ≤ age ∧ age ≤ kMaxValidTime
    ∧ ∃ earliest, encodePosixTimeAsGeneralizedTime (verifyTime - age) = some earliest
      ∧ earliest ≤ thisUpdate

lemma checkRevocationDateValid_iff {thisUpdate : GeneralizedTime}
    {nextUpdate : Option GeneralizedTime} {verifyTime : ℤ} {maxAge : Option ℤ} :
    checkRevocationDateValid thisUpdate nextUpdate verifyTime maxAge = true
      ↔ InDate thisUpdate nextUpdate verifyTime maxAge := by
  have hrange : ¬ (verifyTime > kMaxValidTime ∨ verifyTime < kMinValidTime
        ∨ maxAge.any (fun age => age > kMaxValidTime ∨ age < 0) = true)
      ↔ (kMinValidTime ≤ verifyTime ∧ verifyTime ≤ kMaxValidTime)
        ∧ ∀ age ∈ maxAge, 0 ≤ age ∧ age ≤ kMaxValidTime := by
    cases maxAge <;> simp <;> omega
  unfold checkRevocationDateValid
  constructor
  · intro h
    split_ifs at h with hr
    obtain ⟨hr, hage⟩ := hrange.mp hr
    split at h
    · cases h
    · rename_i now hnow
      split_ifs at h with hthis hnext
      refine ⟨hr, ⟨now, hnow, hthis, ?_⟩, ?_⟩
      · rintro next hn
        obtain rfl : nextUpdate = some next := hn
        simpa [GeneralizedTime.not_le] using hnext
      · rintro age ha
        obtain rfl : maxAge = some age := ha
        obtain ⟨h0, h1⟩ := hage age rfl
        simp only at h
        split at h
        · cases h
        · rename_i earliest he
          exact ⟨h0, h1, earliest, he, by simpa [GeneralizedTime.not_lt] using h⟩
  · rintro ⟨hr, ⟨now, hnow, hthis, hnext⟩, hage⟩
    rw [if_neg (hrange.mpr ⟨hr, fun age ha => ⟨(hage age ha).1, (hage age ha).2.1⟩⟩), hnow]
    simp only
    rw [if_neg hthis, if_neg (by
      rcases nextUpdate with - | next
      · simp
      · simpa [GeneralizedTime.not_le] using hnext next rfl)]
    rcases maxAge with - | age
    · rfl
    · obtain ⟨-, -, earliest, he, hle⟩ := hage age rfl
      simp only [he]
      simpa [GeneralizedTime.not_lt] using hle

namespace GeneralizedTime

variable {t u : DateTime} {g : GeneralizedTime}

def ofDateTime (t : DateTime) : GeneralizedTime :=
  ⟨t.year, t.month, t.day, t.hour, t.minute, t.second⟩

/-- The seconds since the epoch, by the days of the years and months between. -/
def elapsed (g : GeneralizedTime) : ℤ :=
  86400 * ((daysBeforeYear g.year + daysBeforeMonth g.year g.month + (g.day - 1) : ℕ)
    - (epoch.dayNumber : ℤ)) + (g.hours * 3600 + g.minutes * 60 + g.seconds)

lemma ofDateTime_le_iff :
    ofDateTime t ≤ ofDateTime u ↔ secondsSinceEpoch t ≤ secondsSinceEpoch u := by
  have hlt : ofDateTime u < ofDateTime t ↔ u.instant < t.instant := DateTime.fields_lt_iff
  rw [← not_lt, hlt, secondsSinceEpoch_eq, secondsSinceEpoch_eq]
  omega

lemma ofDateTime_lt_iff :
    ofDateTime t < ofDateTime u ↔ secondsSinceEpoch t < secondsSinceEpoch u := by
  rw [← not_le, ofDateTime_le_iff, Int.not_le]

lemma exists_ofDateTime (h : validateGeneralizedTime g = true ∧ g.seconds ≤ 59) :
    ∃ t, g = ofDateTime t := by
  obtain ⟨y, m, d, hh, mi, s⟩ := g
  obtain ⟨hvalid, hsec⟩ := h
  simp only [validateGeneralizedTime] at hvalid hsec
  split_ifs at hvalid with hm hd hhh hmi hs h30 h31 hleap
  all_goals
    have hday : d ≤ daysInMonth y m := by
      rw [decide_eq_true_eq] at hvalid
      have h2 : m ≤ 12 := by omega
      interval_cases m <;> simp only [daysInMonth] <;> try omega
      all_goals
        split_ifs with hy
        all_goals
          unfold IsLeap at hy
          omega
    exact ⟨⟨⟨y, m, d, by omega, by omega, hday⟩, hh, mi, s, by omega, by omega, by omega⟩, rfl⟩

/-- The fields of a date fit those of the structure. -/
lemma encodePosixTime_eq (h : t.year ≤ 9999) :
    encodePosixTimeAsGeneralizedTime (secondsSinceEpoch t) = some (ofDateTime t) := by
  have hm := t.month_mem
  have hd := t.day_mem
  have hdays := daysInMonth_le t.year t.month
  have hhour := t.hour_lt
  have hmin := t.minute_lt
  have hsec := t.second_lt
  simp only [encodePosixTimeAsGeneralizedTime, secondsSinceEpoch_eq, opensslPosixToTm_eq h,
    Option.map_some, tmOf, ofDateTime, Option.some.injEq, GeneralizedTime.mk.injEq]
  omega

end GeneralizedTime

open GeneralizedTime

/-- An update was made by then, the next is not due, and it is not older than the maximum age. -/
structure Fresh (thisUpdate : GeneralizedTime) (nextUpdate : Option GeneralizedTime)
    (verifyTime : ℤ) (maxAge : Option ℤ) : Prop where
  made : thisUpdate.elapsed ≤ verifyTime
  current : ∀ next ∈ nextUpdate, verifyTime < next.elapsed
  recent : ∀ age ∈ maxAge, verifyTime - thisUpdate.elapsed ≤ age

section Dates

variable {thisUpdate : GeneralizedTime} {nextUpdate : Option GeneralizedTime} {verifyTime : ℤ}
  {maxAge : Option ℤ}
  (hthis : validateGeneralizedTime thisUpdate = true ∧ thisUpdate.seconds ≤ 59)
  (hnext : ∀ next ∈ nextUpdate, validateGeneralizedTime next = true ∧ next.seconds ≤ 59)
  (htime : kMinValidTime ≤ verifyTime ∧ verifyTime ≤ kMaxValidTime)
  (hage : ∀ age ∈ maxAge, 0 ≤ age ∧ age ≤ kMaxValidTime)

include hthis hnext htime hage

lemma checkRevocationDateValid_elapsed :
    checkRevocationDateValid thisUpdate nextUpdate verifyTime maxAge = true
      ↔ Fresh thisUpdate nextUpdate verifyTime maxAge
        ∧ ∀ age ∈ maxAge, kMinValidTime ≤ verifyTime - age := by
  obtain ⟨t, rfl⟩ := exists_ofDateTime hthis
  obtain ⟨now, hyear, rfl⟩ := exists_dateTime htime
  rw [← secondsSinceEpoch_eq] at *
  have hnow := encodePosixTime_eq hyear
  have hnexts : (∀ next ∈ nextUpdate, ofDateTime now < next)
      ↔ ∀ next ∈ nextUpdate, secondsSinceEpoch now < next.elapsed := by
    refine forall₂_congr fun next hmem => ?_
    obtain ⟨u, rfl⟩ := exists_ofDateTime (hnext next hmem)
    exact ofDateTime_lt_iff
  have hages : (∀ age ∈ maxAge, 0 ≤ age ∧ age ≤ kMaxValidTime ∧ ∃ earliest,
      encodePosixTimeAsGeneralizedTime (secondsSinceEpoch now - age) = some earliest
        ∧ earliest ≤ ofDateTime t)
      ↔ ∀ age ∈ maxAge, secondsSinceEpoch now - secondsSinceEpoch t ≤ age
        ∧ kMinValidTime ≤ secondsSinceEpoch now - age := by
    refine forall₂_congr fun age hmem => ?_
    obtain ⟨h0, hmax⟩ := hage age hmem
    by_cases hmin : kMinValidTime ≤ secondsSinceEpoch now - age
    · have hle : secondsSinceEpoch now - age ≤ maxPosixTime :=
        (Int.sub_le_self _ h0).trans htime.2
      obtain ⟨e, heyear, he⟩ := exists_dateTime ⟨hmin, hle⟩
      rw [← secondsSinceEpoch_eq] at he
      rw [he, encodePosixTime_eq heyear]
      simp only [h0, hmax, Option.some.injEq, exists_eq_left', ofDateTime_le_iff, true_and,
        he ▸ hmin, and_true]
      omega
    · have hnone : encodePosixTimeAsGeneralizedTime (secondsSinceEpoch now - age) = none := by
        rw [encodePosixTimeAsGeneralizedTime, opensslPosixToTm_none fun h => hmin h.1,
          Option.map_none]
      simp [hnone, hmin]
  rw [checkRevocationDateValid_iff]
  constructor
  · rintro ⟨-, ⟨now', hnow', hle, hlater⟩, hrecent⟩
    cases hnow.symm.trans hnow'
    have hall := hages.mp hrecent
    exact ⟨⟨ofDateTime_le_iff.mp hle, hnexts.mp hlater, fun age ha => (hall age ha).1⟩,
      fun age ha => (hall age ha).2⟩
  · rintro ⟨⟨hle, hlater, hrecent⟩, hmin⟩
    exact ⟨htime, ⟨_, hnow, ofDateTime_le_iff.mpr hle, hnexts.mpr hlater⟩,
      hages.mpr fun age ha => ⟨hrecent age ha, hmin age ha⟩⟩

/-- The check says whether an update is fresh exactly if the time it might have been made at is not
before the year 0, or the update is not yet or no longer valid. -/
theorem checkRevocationDateValid_fresh_iff :
    (checkRevocationDateValid thisUpdate nextUpdate verifyTime maxAge = true
        ↔ Fresh thisUpdate nextUpdate verifyTime maxAge)
      ↔ (∀ age ∈ maxAge, kMinValidTime ≤ verifyTime - age) ∨ verifyTime < thisUpdate.elapsed
        ∨ ∃ next ∈ nextUpdate, next.elapsed ≤ verifyTime := by
  rw [checkRevocationDateValid_elapsed hthis hnext htime hage, and_iff_left_iff_imp]
  constructor
  · intro h
    by_contra! hno
    obtain ⟨⟨age, hmem, hlt⟩, hmade, hcurrent⟩ := hno
    obtain ⟨t, rfl⟩ := exists_ofDateTime hthis
    -- No update is older than such an age.
    refine absurd (h ⟨hmade, hcurrent, fun age' hmem' => ?_⟩ age hmem) (Int.not_le.mpr hlt)
    obtain rfl := Option.mem_unique hmem hmem'
    have hmin : kMinValidTime ≤ (ofDateTime t).elapsed := by
      have heq := secondsSinceEpoch_eq t
      rw [show (ofDateTime t).elapsed = secondsSinceEpoch t from rfl, heq, kMinValidTime]
      omega
    omega
  · rintro (hmin | hmade | ⟨next, hmem, hle⟩) hfresh
    · exact hmin
    · exact absurd hfresh.made (Int.not_le.mpr hmade)
    · exact absurd (hfresh.current next hmem) (Int.not_lt.mpr hle)

end Dates

theorem checkRevocationDateValid_fresh_iff_minute :
    checkRevocationDateValid ⟨2024, 1, 1, 0, 0, 0⟩ none 1704067260 (some 60) = true
      ∧ Fresh ⟨2024, 1, 1, 0, 0, 0⟩ none 1704067260 (some 60) := by
  have h : checkRevocationDateValid ⟨2024, 1, 1, 0, 0, 0⟩ none 1704067260 (some 60) = true := by
    decide
  refine ⟨h, ((checkRevocationDateValid_fresh_iff (by decide) (by simp) (by decide) ?_).mpr
    (.inl ?_)).mp h⟩
  all_goals
    rintro age hmem
    obtain rfl : 60 = age := Option.some.inj hmem
    decide

/-- An update that is not a second old is in date for a minute, but not for three millennia. -/
theorem checkRevocationDateValid_large_age :
    checkRevocationDateValid ⟨2024, 1, 1, 0, 0, 0⟩ none 1704067200 (some 60) = true
      ∧ checkRevocationDateValid ⟨2024, 1, 1, 0, 0, 0⟩ none 1704067200 (some 100000000000) = false
      ∧ (100000000000 : ℤ) ≤ kMaxValidTime := by
  decide

end BoringSSL.Pki
