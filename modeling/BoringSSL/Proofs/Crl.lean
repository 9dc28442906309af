import BoringSSL.Crl
import BoringSSL.Proofs.PkiParser

/-!
# The verdict of a CRL

`Applies` says which CRLs `CheckCRL` takes into account.  For those the verdict is read off the list
of entries, which `IsEntry` and `Entries` describe by their encoding; an entry that is not well
formed leaves the status unknown, also after a match.
-/

namespace BoringSSL.Pki

open ByteLib List Option

variable {exts : List ParsedExtension} {entry : Bytes} {serials : List Bytes} {crl : SignedCrl}
  {chain : List ParsedCertificate} {index : ℕ} {verifyTime : ℤ} {maxAge : Option ℤ}

/-- A time in either form. -/
def IsTime (time : GeneralizedTime) (tlv : Bytes) : Prop :=
  ∃ value, (IsTlv asn1UtcTime value tlv ∧ parseUtcTime value = some time)
    ∨ (IsTlv asn1GeneralizedTime value tlv ∧ parseGeneralizedTime value = some time)

lemma readUtcOrGeneralizedTime_eq_some_iff {cbs rest : Bytes} {time : GeneralizedTime} :
    readUtcOrGeneralizedTime cbs = some (time, rest)
      ↔ ∃ tlv, IsTime time tlv ∧ cbs = tlv ++ rest := by
  constructor
  · intro h
    simp only [readUtcOrGeneralizedTime, bind_eq_bind, bind_eq_some_iff, Prod.exists] at h
    obtain ⟨tag, value, rest', hread, h⟩ := h
    obtain ⟨tlv, ht, rfl⟩ := readTagAndValue_eq_some_iff.mp hread
    split_ifs at h with hutc hgen
    · obtain ⟨t, hparse, h⟩ := bind_eq_some_iff.mp h
      cases h
      exact ⟨tlv, ⟨value, .inl ⟨hutc ▸ ht, hparse⟩⟩, rfl⟩
    · obtain ⟨t, hparse, h⟩ := bind_eq_some_iff.mp h
      cases h
      exact ⟨tlv, ⟨value, .inr ⟨hgen ▸ ht, hparse⟩⟩, rfl⟩
  · rintro ⟨tlv, ⟨value, ⟨ht, hparse⟩ | ⟨ht, hparse⟩⟩, rfl⟩
    · simp [readUtcOrGeneralizedTime, readTagAndValue_eq_some_iff.mpr ⟨tlv, ht, rfl⟩, hparse]
    · simp [readUtcOrGeneralizedTime, readTagAndValue_eq_some_iff.mpr ⟨tlv, ht, rfl⟩, hparse,
        show asn1GeneralizedTime ≠ asn1UtcTime by decide]

/-! ## Extensions -/

lemma insertExtensions_nodup : ∀ (tlvs : List Bytes) (exts exts' : List ParsedExtension),
    (exts.map (·.oid)).Nodup → insertExtensions tlvs exts = some exts' →
      (exts'.map (·.oid)).Nodup
  | [], exts, exts', hn, h => by
    cases h
    exact hn
  | tlv :: tlvs, exts, exts', hn, h => by
    simp only [insertExtensions, bind_eq_bind, bind_eq_some_iff] at h
    obtain ⟨ext, -, h⟩ := h
    split_ifs at h with hmem
    refine insertExtensions_nodup tlvs _ _ ?_ h
    rw [map_append, nodup_append]
    refine ⟨hn, by simp, fun o ho o' ho' => ?_⟩
    obtain ⟨e, he, rfl⟩ := List.mem_map.mp ho
    obtain rfl : o' = ext.oid := by simpa using ho'
    intro heq
    exact hmem (List.any_eq_true.mpr ⟨e, he, by simpa using heq⟩)

lemma parseExtensions_nodup {tlv : Bytes}
    (h : parseExtensions tlv = some exts) : (exts.map (·.oid)).Nodup := by
  simp only [parseExtensions, bind_eq_bind, bind_eq_some_iff, Prod.exists] at h
  obtain ⟨parser, rest, -, h⟩ := h
  split_ifs at h
  simp only [bind_eq_some_iff] at h
  obtain ⟨tlvs, -, exts', hins, -, -, h⟩ := h
  cases h
  exact insertExtensions_nodup tlvs [] _ (by simp) hins

namespace Crl

variable {tlv cbs serial rest certSerial : Bytes} {version : CrlVersion} {α : Type}
  {target : ParsedCertificate} {dp : ParsedDistributionPoint}

/-! ## Names in common -/

lemma notMem_of_lt_head {a b : Bytes} {bs : List Bytes} (hb : (b :: bs).Pairwise (· ≤ ·))
    (h : a < b) : a ∉ b :: bs := by
  intro hmem
  rcases mem_cons.mp hmem with rfl | hmem
  · exact Std.lt_irrefl h
  · exact Std.lt_irrefl (Std.lt_of_lt_of_le h ((pairwise_cons.mp hb).1 a hmem))

lemma setIntersection_ne_nil_iff : ∀ (fuel : ℕ) (as bs : List Bytes),
    as.length + bs.length ≤ fuel → as.Pairwise (· ≤ ·) → bs.Pairwise (· ≤ ·) →
      (setIntersection fuel as bs ≠ [] ↔ ∃ x ∈ as, x ∈ bs)
  | 0, as, bs, hf, _, _ => by
    obtain rfl : as = [] := eq_nil_of_length_eq_zero (by omega)
    simp [setIntersection]
  | _ + 1, [], _, _, _, _ => by simp [setIntersection]
  | _ + 1, _ :: _, [], _, _, _ => by simp [setIntersection]
  | fuel + 1, a :: as, b :: bs, hf, ha, hb => by
    simp only [length_cons] at hf
    rw [setIntersection]
    split_ifs with hab hba
    · rw [setIntersection_ne_nil_iff fuel as (b :: bs) (by simp; omega) ha.of_cons hb]
      have := notMem_of_lt_head hb hab
      simp_all
    · rw [setIntersection_ne_nil_iff fuel (a :: as) bs (by simp; omega) ha hb.of_cons]
      have := notMem_of_lt_head ha hba
      constructor
      · rintro ⟨x, hx, hx'⟩
        exact ⟨x, hx, mem_cons_of_mem b hx'⟩
      · grind
    · obtain rfl : a = b := Std.le_antisymm (Std.not_lt.mp hba) (Std.not_lt.mp hab)
      simp

lemma sortNames_pairwise (names : List Bytes) : (sortNames names).Pairwise (· ≤ ·) := by
  have h : (sortNames names).Pairwise fun a b => (!(b < a) : Bool) = true := by
    refine pairwise_mergeSort (fun a b c hab hbc => ?_) (fun a b => ?_) names
    · grind
    · simpa [Std.not_lt] using Std.le_total
  exact h.imp fun hab => Std.not_lt.mp (by simpa using hab)

lemma containsExactMatchingName_iff {a b : List Bytes} :
    containsExactMatchingName a b = true ↔ ∃ uri ∈ a, uri ∈ b := by
  have h := setIntersection_ne_nil_iff (a.length + b.length) (sortNames a) (sortNames b)
    (by simp [sortNames]) (sortNames_pairwise a) (sortNames_pairwise b)
  simp only [containsExactMatchingName, decide_eq_true_eq, h]
  simp [sortNames, mem_mergeSort]

/-! ## The entries -/

/-- The extensions an entry may have. -/
def EntryExtensions (version : CrlVersion) (tlv : Bytes) : Prop :=
  tlv = [] ∨ version = .v2 ∧ ∃ exts, parseExtensions tlv = some exts
    ∧ ∀ ext ∈ exts, ext.critical = false

/-- An entry for a serial number. -/
def IsEntry (version : CrlVersion) (serial entry : Bytes) : Prop :=
  ∃ serialTlv time timeTlv extsTlv, IsTlv asn1Integer serial serialTlv ∧ IsTime time timeTlv
    ∧ EntryExtensions version extsTlv
    ∧ IsTlv asn1Sequence (serialTlv ++ (timeTlv ++ extsTlv)) entry

/-- Well-formed entries one after the other, with these serial numbers. -/
inductive Entries (version : CrlVersion) : Bytes → List Bytes → Prop
  | nil : Entries version [] []
  | cons {serial entry rest : Bytes} {serials : List Bytes} (h : IsEntry version serial entry)
    (hs : Entries version rest serials) : Entries version (entry ++ rest) (serial :: serials)

/-- A list with at least one entry, all well formed. -/
def IsRevokedList (version : CrlVersion) (tlv : Bytes) (serials : List Bytes) : Prop :=
  ∃ entries, IsTlv asn1Sequence entries tlv ∧ entries ≠ [] ∧ Entries version entries serials

lemma parseExtensions_isTlv (h : parseExtensions tlv = some exts) :
    ∃ value, IsTlv asn1Sequence value tlv := by
  simp only [parseExtensions, bind_eq_bind, bind_eq_some_iff, Prod.exists, readSequence_eq] at h
  obtain ⟨value, rest, hread, h⟩ := h
  split_ifs at h
  simp only [bind_eq_some_iff] at h
  obtain ⟨tlvs, -, exts', -, u, hfin, -⟩ := h
  obtain rfl := finished_eq_some_iff.mp hfin
  exact ⟨value, readTag_self_iff.mp hread⟩

lemma checkEntryExtensions_eq_nil_iff :
    checkEntryExtensions version tlv = some [] ↔ EntryExtensions version tlv := by
  unfold checkEntryExtensions EntryExtensions
  split_ifs with hnil hversion
  · simp [hnil]
  · simp [hnil, hversion]
  · rw [not_not] at hversion
    simp only [hnil, hversion, false_or, true_and, bind_eq_bind, bind_eq_some_iff, Prod.exists]
    constructor
    · rintro ⟨extsTlv, rest, hread, exts, hparse, h⟩
      split_ifs at h with hc
      cases h
      obtain ⟨-, rfl⟩ := readRawTlv_eq_some_iff.mp hread
      rw [List.append_nil]
      exact ⟨exts, hparse, by simpa using hc⟩
    · rintro ⟨exts, hparse, hc⟩
      obtain ⟨value, hv⟩ := parseExtensions_isTlv hparse
      refine ⟨tlv, [], readRawTlv_eq_some_iff.mpr ⟨⟨_, _, hv⟩, by simp⟩, exts, hparse, ?_⟩
      rw [if_neg (by simpa using hc)]

lemma readCrlEntry_eq_some_iff :
    readCrlEntry version cbs = some (serial, rest)
      ↔ ∃ entry, IsEntry version serial entry ∧ cbs = entry ++ rest := by
  constructor
  · intro h
    simp only [readCrlEntry, bind_eq_bind, bind_eq_some_iff, Prod.exists, readSequence_eq] at h
    obtain ⟨body, rest', hentry, serial', body', hserial, time, body'', htime, left, hext, u, hfin,
      h⟩ := h
    cases h
    obtain rfl := finished_eq_some_iff.mp hfin
    obtain ⟨entry, he, rfl⟩ := readTag_eq_some_iff.mp hentry
    obtain ⟨serialTlv, hs, rfl⟩ := readTag_eq_some_iff.mp hserial
    obtain ⟨timeTlv, ht, rfl⟩ := readUtcOrGeneralizedTime_eq_some_iff.mp htime
    exact ⟨entry, ⟨serialTlv, time, timeTlv, body'', hs, ht,
      checkEntryExtensions_eq_nil_iff.mp hext, he⟩, rfl⟩
  · rintro ⟨entry, ⟨serialTlv, time, timeTlv, extsTlv, hs, ht, hext, he⟩, rfl⟩
    simp [readCrlEntry, readSequence_eq, readTag_eq_some_iff.mpr ⟨entry, he, rfl⟩,
      readTag_eq_some_iff.mpr ⟨serialTlv, hs, rfl⟩,
      readUtcOrGeneralizedTime_eq_some_iff.mpr ⟨timeTlv, ht, rfl⟩,
      checkEntryExtensions_eq_nil_iff.mpr hext, finished]

lemma IsEntry.ne_nil (h : IsEntry version serial entry) : entry ≠ [] := by
  obtain ⟨_, _, _, _, -, -, -, he⟩ := h
  exact he.ne_nil

lemma crlEntryLoop_of_isEntry (h : IsEntry version serial entry) (fuel : ℕ) (found : Bool) :
    crlEntryLoop certSerial version (fuel + 1) (entry ++ rest) found
      = crlEntryLoop certSerial version fuel rest (decide (serial = certSerial) || found) := by
  obtain ⟨b, bs, hb⟩ := exists_cons_of_ne_nil
    (show entry ++ rest ≠ [] by simp [h.ne_nil])
  have hread : readCrlEntry version (entry ++ rest) = some (serial, rest) :=
    readCrlEntry_eq_some_iff.mpr ⟨entry, h, rfl⟩
  rw [hb] at hread ⊢
  rw [crlEntryLoop, hread]
  by_cases hs : serial = certSerial <;> simp [hs]

lemma crlEntryLoop_eq (h : Entries version cbs serials) :
    ∀ (fuel : ℕ) (found : Bool), cbs.length ≤ fuel →
      crlEntryLoop certSerial version fuel cbs found
        = if found = true ∨ certSerial ∈ serials then .revoked else .good := by
  induction h with
  | nil =>
    simp [crlEntryLoop]
  | @cons serial entry rest serials he hs ih =>
    intro fuel found hf
    have hpos := length_pos_iff.mpr he.ne_nil
    rw [length_append] at hf
    obtain ⟨fuel, rfl⟩ : ∃ f, fuel = f + 1 := ⟨fuel - 1, by omega⟩
    rw [crlEntryLoop_of_isEntry he, ih _ _ (by omega)]
    have : (decide (serial = certSerial) || found) = true ∨ certSerial ∈ serials
        ↔ found = true ∨ certSerial ∈ serial :: serials := by
      rw [Bool.or_eq_true, decide_eq_true_eq, mem_cons, eq_comm]
      tauto
    simp only [this]

/-- A loop that comes to a verdict has read well-formed entries to the end. -/
lemma crlEntryLoop_ne_unknown :
    ∀ (fuel : ℕ) (cbs : Bytes) (found : Bool),
      crlEntryLoop certSerial version fuel cbs found ≠ .unknown →
        ∃ serials, Entries version cbs serials
  | _, [], _, _ => ⟨[], .nil⟩
  | 0, b :: bs, found, h => by simp [crlEntryLoop] at h
  | fuel + 1, b :: bs, found, h => by
    rw [crlEntryLoop] at h
    rcases hread : readCrlEntry version (b :: bs) with - | ⟨serial, rest⟩
    · simp [hread] at h
    · rw [hread] at h
      obtain ⟨serials, hs⟩ := crlEntryLoop_ne_unknown fuel rest _ h
      obtain ⟨entry, he, heq⟩ := readCrlEntry_eq_some_iff.mp hread
      exact ⟨serial :: serials, heq ▸ .cons he hs⟩

lemma getCrlStatusForCert_of_isRevokedList (h : IsRevokedList version tlv serials) :
    getCrlStatusForCert certSerial version (some tlv)
      = if certSerial ∈ serials then .revoked else .good := by
  obtain ⟨entries, htlv, hne, hs⟩ := h
  rw [getCrlStatusForCert, readSequence_eq, readTag_self_iff.mpr htlv]
  simp only [hne, if_false, ne_eq, not_true_eq_false, crlEntryLoop_eq hs _ _ le_rfl,
    Bool.false_eq_true, false_or]

lemma isRevokedList_of_ne_unknown
    (h : getCrlStatusForCert certSerial version (some tlv) ≠ .unknown) :
    ∃ serials, IsRevokedList version tlv serials := by
  rw [getCrlStatusForCert, readSequence_eq] at h
  rcases hread : readTag asn1Sequence tlv with - | ⟨entries, rest⟩
  · simp [hread] at h
  · rw [hread] at h
    simp only at h
    split_ifs at h with hne hrest
    · exact absurd rfl h
    · exact absurd rfl h
    · obtain rfl := not_not.mp hrest
      obtain ⟨serials, hs⟩ := crlEntryLoop_ne_unknown _ _ _ h
      exact ⟨serials, entries, readTag_self_iff.mp hread, hne, hs⟩

lemma getCrlStatusForCert_iff {list : Option Bytes} :
    (getCrlStatusForCert certSerial version list = .revoked
        ↔ ∃ tlv ∈ list, ∃ serials, IsRevokedList version tlv serials ∧ certSerial ∈ serials)
      ∧ (getCrlStatusForCert certSerial version list = .good ↔ list = none
        ∨ ∃ tlv ∈ list, ∃ serials, IsRevokedList version tlv serials ∧ certSerial ∉ serials) := by
  rcases list with - | tlv
  · simp [getCrlStatusForCert]
  · simp only [mem_some_iff, exists_eq_left', reduceCtorEq, false_or]
    have hstatus : ∀ status ≠ .unknown, getCrlStatusForCert certSerial version (some tlv) = status
        ↔ ∃ serials, IsRevokedList version tlv serials
          ∧ (if certSerial ∈ serials then .revoked else .good) = status := by
      refine fun status hne => ⟨fun h => ?_, fun ⟨serials, hs, h⟩ => ?_⟩
      · obtain ⟨serials, hs⟩ := isRevokedList_of_ne_unknown (h.trans_ne hne)
        exact ⟨serials, hs, (getCrlStatusForCert_of_isRevokedList hs).symm.trans h⟩
      · exact (getCrlStatusForCert_of_isRevokedList hs).trans h
    simp [hstatus]

/-! ## The fields of a CRL -/

/-- A field that may be absent. -/
def IsOptional (Is : α → Bytes → Prop) : Option α → Bytes → Prop
  | none, tlv => tlv = []
  | some a, tlv => Is a tlv

/-- The encoding of a `TBSCertList` with these fields, each in its place. -/
def IsTbsCertList (tbs : ParsedCrlTbsCertList) (tlv : Bytes) : Prop :=
  ∃ version versionTlv thisTlv nextTlv revokedTlv extsTlv,
    parseCrlVersion version = some tbs.version ∧ IsOptional (IsTlv asn1Integer) version versionTlv
      ∧ (∃ tag value, IsTlv tag value tbs.signatureAlgorithmTlv)
      ∧ (∃ tag value, IsTlv tag value tbs.issuerTlv) ∧ IsTime tbs.thisUpdate thisTlv
      ∧ IsOptional IsTime tbs.nextUpdate nextTlv
      ∧ IsOptional (fun tlv tlv' => tlv' = tlv ∧ ∃ value, IsTlv asn1Sequence value tlv)
        tbs.revokedCertificatesTlv revokedTlv
      ∧ IsOptional (fun value tlv => IsTlv (contextTag 0) value tlv ∧ tbs.version = .v2)
        tbs.crlExtensionsTlv extsTlv
      ∧ IsTlv asn1Sequence (versionTlv ++ (tbs.signatureAlgorithmTlv ++ (tbs.issuerTlv
        ++ (thisTlv ++ (nextTlv ++ (revokedTlv ++ extsTlv)))))) tlv

lemma readOptionalTag_eq_some {tag : UInt32} {value : Option Bytes}
    (h : readOptionalTag tag cbs = some (value, rest)) :
    ∃ tlv, IsOptional (IsTlv tag) value tlv ∧ cbs = tlv ++ rest := by
  unfold readOptionalTag at h
  split_ifs at h with hnil
  · cases h
    exact ⟨[], rfl, rfl⟩
  · simp only [bind_eq_bind, bind_eq_some_iff, Prod.exists] at h
    obtain ⟨tag', value', n, hp, h⟩ := h
    obtain ⟨tlv, rest', ht, rfl, rfl⟩ := peekTagAndValue_eq_some_iff.mp hp
    split_ifs at h with htag
    · rw [advance_append ht.ne_nil] at h
      cases h
      exact ⟨tlv, htag ▸ ht, rfl⟩
    · cases h
      exact ⟨[], rfl, rfl⟩

lemma readIfPeek_eq_some {tags : List UInt32} {read : Bytes → Option (α × Bytes)}
    (Is : α → Bytes → Prop) {a : Option α}
    (hread : ∀ a rest tag value tlv rest', tag ∈ tags → IsTlv tag value tlv → cbs = tlv ++ rest' →
      read cbs = some (a, rest) → ∃ tlv, Is a tlv ∧ cbs = tlv ++ rest)
    (h : readIfPeek tags read cbs = some (a, rest)) :
    ∃ tlv, IsOptional Is a tlv ∧ cbs = tlv ++ rest := by
  unfold readIfPeek at h
  split at h
  · cases h
    exact ⟨[], rfl, rfl⟩
  · rename_i tag value n hp
    split_ifs at h with htag
    · simp only [bind_eq_bind, bind_eq_some_iff, Prod.exists] at h
      obtain ⟨a', rest', hr, h⟩ := h
      obtain ⟨rfl, rfl⟩ := Prod.mk.inj (Option.some.inj h)
      obtain ⟨tlv, rest'', ht, heq, -⟩ := peekTagAndValue_eq_some_iff.mp hp
      exact hread a' rest' tag value tlv rest'' htag ht heq hr
    · cases h
      exact ⟨[], rfl, rfl⟩

lemma parseCrlTbsCertList_sound {tbs : ParsedCrlTbsCertList}
    (h : parseCrlTbsCertList tlv = some tbs) : IsTbsCertList tbs tlv := by
  simp only [parseCrlTbsCertList, bind_eq_bind, bind_eq_some_iff, Prod.exists, readSequence_eq] at h
  obtain ⟨body, rest, hread, versionDer, b1, hversion, version, hv, algTlv, b2, halg, issuerTlv, b3,
    hissuer, thisUpdate, b4, hthis, nextUpdate, b5, hnext, revoked, b6, hrevoked, exts, b7, hexts,
    h⟩ := h
  split_ifs at h with hv2
  simp only [bind_eq_some_iff] at h
  obtain ⟨u, hfin, u', hfin', h⟩ := h
  obtain rfl := finished_eq_some_iff.mp hfin
  obtain rfl := finished_eq_some_iff.mp hfin'
  cases h
  obtain ⟨versionTlv, hversionTlv, rfl⟩ := readOptionalTag_eq_some hversion
  obtain ⟨halgTlv, rfl⟩ := readRawTlv_eq_some_iff.mp halg
  obtain ⟨hissuerTlv, rfl⟩ := readRawTlv_eq_some_iff.mp hissuer
  obtain ⟨thisTlv, hthisTlv, rfl⟩ := readUtcOrGeneralizedTime_eq_some_iff.mp hthis
  obtain ⟨nextTlv, hnextTlv, rfl⟩ := readIfPeek_eq_some IsTime
    (fun _ _ _ _ _ _ _ _ _ h => readUtcOrGeneralizedTime_eq_some_iff.mp h) hnext
  obtain ⟨revokedTlv, hrevokedTlv, rfl⟩ := readIfPeek_eq_some
    (fun tlv tlv' => tlv' = tlv ∧ ∃ value, IsTlv asn1Sequence value tlv) (by
      intro a rest tag value tlv rest' htag ht heq h
      obtain rfl := mem_singleton.mp htag
      have h' := readRawTlv_eq_some_iff.mpr ⟨⟨_, value, ht⟩, heq⟩
      cases h.symm.trans h'
      exact ⟨a, ⟨rfl, value, ht⟩, heq⟩) hrevoked
  obtain ⟨extsTlv, hextsTlv, rfl⟩ := readOptionalTag_eq_some hexts
  rw [List.append_nil] at *
  refine ⟨versionDer, versionTlv, thisTlv, nextTlv, revokedTlv, extsTlv, hv, hversionTlv, halgTlv,
    hissuerTlv, hthisTlv, hnextTlv, hrevokedTlv, ?_, readTag_self_iff.mp hread⟩
  rcases exts with - | value
  · exact hextsTlv
  · exact ⟨hextsTlv, by simpa using hv2⟩

/-! ## What is checked of a CRL -/

/-- The certificates that a CRL may be restricted to. -/
def Admits (target : ParsedCertificate) : ContainedCertsType → Prop
  | .userCerts => (¬ ∃ bc ∈ target.basicConstraints, bc.isCa = true) ∧ target.tbs.version = .v3
  | .caCerts => ∃ bc ∈ target.basicConstraints, bc.isCa = true
  | .anyCerts => True

/-- The issuing distribution point shares a URI with the distribution point, if it has names, and
admits the target. -/
def InScope (target : ParsedCertificate) (dp : ParsedDistributionPoint) (value : Bytes) : Prop :=
  ∃ names only, parseIssuingDistributionPoint value = some (names, only)
    ∧ (∀ ns ∈ names, ∃ fullname ∈ dp.distributionPointFullname,
      ∃ uri ∈ fullname.uniformResourceIdentifiers, uri ∈ ns.uniformResourceIdentifiers)
    ∧ Admits target only

/-- No extension is critical but the issuing distribution point, and that is in scope. -/
def ExtensionsAdmit (target : ParsedCertificate) (dp : ParsedDistributionPoint)
    (extensions : Option Bytes) : Prop :=
  ∀ tlv ∈ extensions, ∃ parsed, parseExtensions tlv = some parsed
    ∧ (∀ ext ∈ parsed, ext.critical = true → ext.oid = kIssuingDistributionPointOid)
    ∧ ∀ ext ∈ parsed, ext.oid = kIssuingDistributionPointOid → InScope target dp ext.value

/-- The certificate may sign CRLs of this issuer, and its key verifies this one. -/
structure Signs (env : Env) (crl : SignedCrl) (issuer : Bytes) (cert : ParsedCertificate) :
    Prop where
  subject : cert.normalizedSubject = issuer
  keyUsage : ∀ usage ∈ cert.keyUsage, usage.assertsBit keyUsageBitCrlSign = true
  verifies : env.verifySignedData crl.signatureAlgorithm crl.tbsCertListTlv crl.signatureValue
    cert.tbs.spkiTlv = true

/-- The encoding of a CRL: the algorithm without and within what is signed are the same. -/
def IsSignedCrl (raw : Bytes) (crl : SignedCrl) : Prop :=
  ∃ algorithmTlv, parseCrlCertificateList raw
      = some (crl.tbsCertListTlv, algorithmTlv, crl.signatureValue)
    ∧ parseCrlTbsCertList crl.tbsCertListTlv = some crl.tbsCertList
    ∧ parseSignatureAlgorithm algorithmTlv = some crl.signatureAlgorithm
    ∧ parseSignatureAlgorithm crl.tbsCertList.signatureAlgorithmTlv = some crl.signatureAlgorithm

/-- The CRL says whether the certificate at `index` is revoked. -/
structure Applies (env : Env) (raw : Bytes) (chain : List ParsedCertificate) (index : ℕ)
    (dp : ParsedDistributionPoint) (verifyTime : ℤ) (maxAge : Option ℤ) (crl : SignedCrl)
    (target : ParsedCertificate) : Prop where
  at_index : chain[index]? = some target
  distributionPoint : dp.reasons = none ∧ dp.crlIssuer = none
  parsed : IsSignedCrl raw crl
  inDate : InDate crl.tbsCertList.thisUpdate crl.tbsCertList.nextUpdate verifyTime maxAge
  issuer : normalizeNameTlv crl.tbsCertList.issuerTlv = some target.normalizedIssuer
  extensions : ExtensionsAdmit target dp crl.tbsCertList.crlExtensionsTlv
  signer : ∃ above > index, ∃ cert, chain[above]? = some cert
    ∧ Signs env crl target.normalizedIssuer cert

lemma admitsCert_iff {only : ContainedCertsType} :
    admitsCert target only = true ↔ Admits target only := by
  cases only with
  | anyCerts => simp [admitsCert, Admits]
  | caCerts => simp [admitsCert, Admits, Option.any_eq_true]
  | userCerts =>
    cases hb : target.basicConstraints <;> cases hv : target.tbs.version <;>
      simp [admitsCert, Admits, hv, hb]

lemma checkIssuingDistributionPoint_iff {ext : ParsedExtension} :
    checkIssuingDistributionPoint target dp ext = true ↔ InScope target dp ext.value := by
  unfold checkIssuingDistributionPoint InScope
  rcases parseIssuingDistributionPoint ext.value with - | ⟨- | names, only⟩
  · simp
  · simp [admitsCert_iff]
  · rcases dp.distributionPointFullname with - | fullname
    · simp
    · simp [admitsCert_iff, containsExactMatchingName_iff]

lemma checkCrlExtensions_iff {extensions : Option Bytes} :
    checkCrlExtensions target dp extensions = true ↔ ExtensionsAdmit target dp extensions := by
  rcases extensions with - | tlv
  · simp [checkCrlExtensions, ExtensionsAdmit]
  · simp only [checkCrlExtensions, ExtensionsAdmit, mem_some_iff, forall_eq']
    rcases hp : parseExtensions tlv with - | exts
    · simp
    · simp only [Option.some.injEq, exists_eq_left', consumeExtension]
      have hothers : (exts.filter (·.oid ≠ kIssuingDistributionPointOid)).any (·.critical) = false
          ↔ ∀ ext ∈ exts, ext.critical = true → ext.oid = kIssuingDistributionPointOid := by
        grind
      rcases hfind : exts.find? (·.oid = kIssuingDistributionPointOid) with - | idp
      · grind
      · have hmem := mem_of_find?_eq_some hfind
        have hoid : idp.oid = kIssuingDistributionPointOid := by
          simpa using find?_some hfind
        have huniq : ∀ ext ∈ exts, ext.oid = kIssuingDistributionPointOid → ext = idp :=
          fun ext hm ho => inj_on_of_nodup_map (parseExtensions_nodup hp) hm hmem
            (ho.trans hoid.symm)
        simp only [hfind]
        split_ifs with hscope
        · rw [Bool.not_eq_true', ← Bool.not_eq_true, checkIssuingDistributionPoint_iff] at hscope
          exact iff_of_false (by simp) fun h => hscope (h.2 idp hmem hoid)
        · rw [Bool.not_eq_true', Bool.not_eq_false, checkIssuingDistributionPoint_iff] at hscope
          rw [Bool.not_eq_true', hothers]
          exact ⟨fun h => ⟨h, fun ext hm ho => huniq ext hm ho ▸ hscope⟩, fun h => h.1⟩

lemma crlSignerLoop_eq (env : Env) (crl : SignedCrl) (issuer : Bytes)
    (target : ParsedCertificate) (certs : List ParsedCertificate) :
    ((∃ cert ∈ certs, Signs env crl issuer cert)
        ∧ crlSignerLoop env crl issuer target certs
          = getCrlStatusForCert target.tbs.serialNumber crl.tbsCertList.version
            crl.tbsCertList.revokedCertificatesTlv)
      ∨ (¬ ∃ cert ∈ certs, Signs env crl issuer cert)
        ∧ crlSignerLoop env crl issuer target certs = .unknown := by
  induction certs with
  | nil => simp [crlSignerLoop]
  | cons cert certs ih =>
    rw [crlSignerLoop]
    split_ifs with hsubject husage hverify
    · have hno : ¬ Signs env crl issuer cert := fun h => hsubject h.subject.symm
      simpa [hno] using ih
    · have hno : ¬ Signs env crl issuer cert := fun h => by
        rcases hk : cert.keyUsage with - | usage
        · simp [hk] at husage
        · simp [hk, h.keyUsage usage hk] at husage
      simpa [hno] using ih
    · have hno : ¬ Signs env crl issuer cert := fun h => by simp [h.verifies] at hverify
      simpa [hno] using ih
    · refine .inl ⟨⟨cert, by simp, (not_not.mp hsubject).symm, ?_, by simpa using hverify⟩, rfl⟩
      intro usage hu
      rw [mem_def.mp hu] at husage
      simpa using husage

lemma parseSignedCrl_eq_some_iff {raw : Bytes} :
    parseSignedCrl raw = some crl ↔ IsSignedCrl raw crl := by
  obtain ⟨tbsTlv, signature, algorithm, tbs⟩ := crl
  simp only [parseSignedCrl, IsSignedCrl, bind_eq_bind, bind_eq_some_iff, Prod.exists]
  constructor
  · simp
  · simp

lemma mem_drop_succ_iff {l : List α} {i : ℕ} {a : α} :
    a ∈ l.drop (i + 1) ↔ ∃ j > i, l[j]? = some a := by
  rw [mem_iff_getElem?]
  constructor
  · grind
  · rintro ⟨j, hj, ha⟩
    refine ⟨j - (i + 1), ?_⟩
    rwa [getElem?_drop, show i + 1 + (j - (i + 1)) = j by omega]

lemma Applies.checkCrl_eq {env : Env} {raw : Bytes}
    (h : Applies env raw chain index dp verifyTime maxAge crl target) :
    checkCrl env raw chain index dp verifyTime maxAge
      = some (getCrlStatusForCert target.tbs.serialNumber crl.tbsCertList.version
        crl.tbsCertList.revokedCertificatesTlv) := by
  unfold checkCrl
  simp only [h.at_index, h.distributionPoint.1, h.distributionPoint.2,
    parseSignedCrl_eq_some_iff.mpr h.parsed, checkRevocationDateValid_iff.mpr h.inDate, h.issuer,
    checkCrlExtensions_iff.mpr h.extensions, isSome_none, Bool.false_eq_true, if_false,
    Bool.not_true, ne_eq, not_true_eq_false, Option.some.injEq]
  obtain ⟨j, hj, cert, hcert, hs⟩ := h.signer
  obtain ⟨-, heq⟩ | ⟨hno, -⟩ :=
    crlSignerLoop_eq env crl target.normalizedIssuer target (chain.drop (index + 1))
  · exact heq
  · exact absurd ⟨cert, mem_drop_succ_iff.mpr ⟨j, hj, hcert⟩, hs⟩ hno

lemma applies_of_checkCrl {env : Env} {raw : Bytes} {status : RevocationStatus}
    (hstatus : status ≠ .unknown)
    (h : checkCrl env raw chain index dp verifyTime maxAge = some status) :
    ∃ crl target, Applies env raw chain index dp verifyTime maxAge crl target
      ∧ IsTbsCertList crl.tbsCertList crl.tbsCertListTlv := by
  unfold checkCrl at h
  rcases ht : chain[index]? with - | target
  · simp [ht] at h
  · rw [ht] at h
    simp only at h
    have hno : ¬ some RevocationStatus.unknown = some status := by
      simpa using Ne.symm hstatus
    by_cases hreasons : dp.reasons.isSome = true
    · exact absurd (by rwa [if_pos hreasons] at h) hno
    rw [if_neg hreasons] at h
    by_cases hissuer : dp.crlIssuer.isSome = true
    · exact absurd (by rwa [if_pos hissuer] at h) hno
    rw [if_neg hissuer] at h
    rcases hcrl : parseSignedCrl raw with - | crl
    · exact absurd (by simpa [hcrl] using h) hno
    simp only [hcrl] at h
    by_cases hdate : checkRevocationDateValid crl.tbsCertList.thisUpdate
        crl.tbsCertList.nextUpdate verifyTime maxAge = true
    swap
    · exact absurd (by simpa [hdate] using h) hno
    rcases hname : normalizeNameTlv crl.tbsCertList.issuerTlv with - | issuer
    · exact absurd (by simpa [hname] using h) hno
    simp only [hdate, hname, Bool.not_true, Bool.false_eq_true, if_false] at h
    by_cases heq : issuer = target.normalizedIssuer
    swap
    · exact absurd (by simpa [heq] using h) hno
    by_cases hexts : checkCrlExtensions target dp crl.tbsCertList.crlExtensionsTlv = true
    swap
    · exact absurd (by simpa [hexts] using h) hno
    simp only [heq, hexts, ne_eq, not_true_eq_false, if_false, Bool.not_true, Bool.false_eq_true,
      Option.some.injEq] at h
    obtain ⟨⟨cert, hmem, hs⟩, -⟩ | ⟨-, hunknown⟩ :=
      crlSignerLoop_eq env crl target.normalizedIssuer target (chain.drop (index + 1))
    · obtain ⟨j, hj, hcert⟩ := mem_drop_succ_iff.mp hmem
      have hparsed := parseSignedCrl_eq_some_iff.mp hcrl
      have htbs := hparsed.choose_spec.2.1
      exact ⟨crl, target, ⟨ht, ⟨by simpa using hreasons, by simpa using hissuer⟩, hparsed,
        checkRevocationDateValid_iff.mp hdate, heq ▸ hname, checkCrlExtensions_iff.mp hexts, j, hj,
        cert, hcert, hs⟩, parseCrlTbsCertList_sound htbs⟩
    · exact absurd (h.symm.trans hunknown) hstatus

/-- A CRL that does not apply leaves the status unknown.  One that applies says what its entries
say. -/
theorem checkCrl_verdict (env : Env) (raw : Bytes) (chain : List ParsedCertificate) (index : ℕ)
    (dp : ParsedDistributionPoint) (verifyTime : ℤ) (maxAge : Option ℤ) :
    let verdict := checkCrl env raw chain index dp verifyTime maxAge
    (verdict = some .good ∨ verdict = some .revoked →
        ∃ crl target, Applies env raw chain index dp verifyTime maxAge crl target
          ∧ IsTbsCertList crl.tbsCertList crl.tbsCertListTlv)
      ∧ ∀ crl target, Applies env raw chain index dp verifyTime maxAge crl target →
        (verdict = some .revoked ↔ ∃ tlv ∈ crl.tbsCertList.revokedCertificatesTlv, ∃ serials,
            IsRevokedList crl.tbsCertList.version tlv serials ∧ target.tbs.serialNumber ∈ serials)
          ∧ (verdict = some .good ↔ crl.tbsCertList.revokedCertificatesTlv = none
            ∨ ∃ tlv ∈ crl.tbsCertList.revokedCertificatesTlv, ∃ serials,
              IsRevokedList crl.tbsCertList.version tlv serials
                ∧ target.tbs.serialNumber ∉ serials) := by
  intro verdict
  refine ⟨fun h => ?_, fun crl target h => ?_⟩
  · rcases h with h | h <;> exact applies_of_checkCrl (by simp) h
  · rw [show verdict = _ from h.checkCrl_eq, Option.some.injEq, Option.some.injEq]
    exact getCrlStatusForCert_iff

namespace Sample

def sigalg : Bytes := [0x30, 0x0a, 0x06, 0x08, 0x2a, 0x86, 0x48, 0xce, 0x3d, 0x04, 0x03, 0x02]

/-- `20240101000000Z`. -/
def timeTlv : Bytes :=
  [0x18, 0x0f, 0x32, 0x30, 0x32, 0x34, 0x30, 0x31, 0x30, 0x31, 0x30, 0x30, 0x30, 0x30, 0x30, 0x30,
    0x5a]

def raw : Bytes :=
  [0x30, 0x48, 0x30, 0x37] ++ sigalg ++ [0x30, 0x00] ++ timeTlv
    ++ [0x30, 0x16, 0x30, 0x14, 0x02, 0x01, 0x01] ++ timeTlv ++ sigalg ++ [0x03, 0x01, 0x00]

def env : Env := ⟨fun _ _ => none, fun _ _ _ _ => true, fun _ => none⟩

def cert : ParsedCertificate :=
  { (default : ParsedCertificate) with
    tbs := ⟨.v3, [1], [], [], default, default, [0x30, 0x00], []⟩ }

end Sample

theorem checkCrl_verdict_one :
    checkCrl Sample.env Sample.raw [Sample.cert, Sample.cert] 0 ⟨none, none, none, none⟩
        1704067200 none = some .revoked
      ∧ ∃ crl target, Applies Sample.env Sample.raw [Sample.cert, Sample.cert] 0
          ⟨none, none, none, none⟩ 1704067200 none crl target
        ∧ ∃ tlv ∈ crl.tbsCertList.revokedCertificatesTlv, ∃ serials,
          IsRevokedList crl.tbsCertList.version tlv serials
            ∧ target.tbs.serialNumber ∈ serials := by
  have hrevoked : checkCrl Sample.env Sample.raw [Sample.cert, Sample.cert] 0
      ⟨none, none, none, none⟩ 1704067200 none = some .revoked := by decide +kernel
  have h := checkCrl_verdict Sample.env Sample.raw [Sample.cert, Sample.cert] 0
    ⟨none, none, none, none⟩ 1704067200 none
  obtain ⟨crl, target, ha, -⟩ := h.1 (.inr hrevoked)
  exact ⟨hrevoked, crl, target, ha, (h.2 crl target ha).1.mp hrevoked⟩

end Crl

end BoringSSL.Pki
