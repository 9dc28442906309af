import BoringSSL.Ocsp
import BoringSSL.Proofs.PkiParser

/-!
# The verdict of an OCSP response

`Usable` says what a response has to be, in terms of its encoding, its `SingleResponse`s and who
signed it.  The loop of `GetRevocationStatusForCert` keeps its verdict in two variables; `Summary`
says what they mean after any number of `SingleResponse`s.
-/

namespace BoringSSL.Pki

open ByteLib Option

namespace Ocsp

variable {u : Unit} {verifyTime : ℤ} {maxAge : Option ℤ} {response : BasicResponse}

section Definitions

variable (env : Env)

/-- Extensions that are present parse, and the critical ones are `allowed`. -/
def OnlyCritical (allowed : Bytes → Prop) (extensions : Option Bytes) : Prop :=
  ∀ tlv ∈ extensions, ∃ parsed, parseExtensions tlv = some parsed
    ∧ ∀ ext ∈ parsed, ext.critical = true → allowed ext.oid

/-- The `CertID` names the certificate: its issuer's name and key, and its serial number. -/
def Names (id : CertId) (cert issuer : ParsedCertificate) : Prop :=
  ∃ type key, hashType id.hashAlgorithm = some type
    ∧ env.digest type cert.tbs.issuerTlv = some id.issuerNameHash
    ∧ getSubjectPublicKeyBytes issuer.tbs.spkiTlv = some key
    ∧ env.digest type key = some id.issuerKeyHash ∧ id.serialNumber = cert.tbs.serialNumber

/-- The responder ID is the certificate's name, or the hash of its key. -/
def RespondsAs (cert : ParsedCertificate) : ResponderId → Prop
  | .name name => ∃ nameRdn nameRest certRdn certRest,
      readTag asn1Sequence name = some (nameRdn, nameRest)
        ∧ readTag asn1Sequence cert.tbs.subjectTlv = some (certRdn, certRest)
        ∧ verifyNameMatch nameRdn certRdn = true
  | .keyHash keyHash => ∃ key, getSubjectPublicKeyBytes cert.tbs.spkiTlv = some key
      ∧ env.digest .sha1 key = some keyHash

/-- The response is signed with the certificate's key. -/
def SignedWith (response : BasicResponse) (cert : ParsedCertificate) : Prop :=
  env.verifySignedData response.signatureAlgorithm response.data response.signature
    cert.tbs.spkiTlv = true

variable (cert issuer : ParsedCertificate)

/-- The certificate is signed by the issuer and carries `id-kp-OCSPSigning`. -/
def Authorized : Prop :=
  (∃ algorithm, cert.signatureAlgorithm = some algorithm
      ∧ env.verifySignedData algorithm cert.tbsCertificateTlv cert.signatureValue
        issuer.tbs.spkiTlv = true)
    ∧ ∃ purposes, cert.extendedKeyUsage = some purposes ∧ kOcspSigning ∈ purposes

/-- The response is signed by the issuer, or by a certificate it includes. -/
def Signed (response : BasicResponse) (data : ResponseData) (issuer : ParsedCertificate) : Prop :=
  (RespondsAs env issuer data.responderId ∧ SignedWith env response issuer)
    ∨ ∃ tlv ∈ response.certs.getD [], ∃ cert, env.createCertificate tlv = some cert
      ∧ RespondsAs env cert data.responderId ∧ Authorized env cert issuer
      ∧ SignedWith env response cert

/-- A `SingleResponse` and its `CertID` parse, and only the CT extension may be critical. -/
structure Readable (der : Bytes) (single : SingleResponse) (id : CertId) : Prop where
  parsed : parseOcspSingleResponse der = some single
  extensions : OnlyCritical (· = kCtOcspExtOid) single.extensions
  certId : parseOcspCertId single.certIdTlv = some id

/-- The encoding of a successful response with one `BasicOCSPResponse`, which is `basic`. -/
def IsSuccessful (raw basic : Bytes) : Prop :=
  ∃ status statusTlv oidTlv basicTlv bytesTlv contentTlv,
    parseUint8 status = some 0 ∧ IsTlv asn1Enumerated status statusTlv
      ∧ IsTlv asn1Object kBasicOcspResponseOid oidTlv ∧ IsTlv asn1OctetString basic basicTlv
      ∧ IsTlv asn1Sequence (oidTlv ++ basicTlv) bytesTlv ∧ IsTlv (contextTag 0) bytesTlv contentTlv
      ∧ IsTlv asn1Sequence (statusTlv ++ contentTlv) raw

/-- A response that says something about the certificate. -/
structure Usable (raw : Bytes) (cert issuer : ParsedCertificate) (response : BasicResponse)
    (data : ResponseData) : Prop where
  successful : ∃ basic, IsSuccessful raw basic ∧ parseBasicOcspResponse basic = some response
  parsed : parseOcspResponseData response.data = some data
  extensions : OnlyCritical (fun _ => False) data.extensions
  produced : cert.tbs.validityNotBefore ≤ data.producedAt
    ∧ data.producedAt ≤ cert.tbs.validityNotAfter
  singles : ∀ der ∈ data.responses, ∃ single id, Readable der single id
  signed : Signed env response data issuer

/-- `der` is a `SingleResponse` that matches the certificate, is in date and says `status`. -/
def Says (verifyTime : ℤ) (maxAge : Option ℤ) (status : RevocationStatus) (der : Bytes) : Prop :=
  ∃ single id, Readable der single id ∧ Names env id cert issuer
    ∧ InDate single.thisUpdate single.nextUpdate verifyTime maxAge
    ∧ single.certStatus.status = status

/-- What the matching in-date `SingleResponse`s among `ders` come to. -/
def Concludes (verifyTime : ℤ) (maxAge : Option ℤ) (ders : List Bytes) : RevocationStatus → Prop
  | .revoked => ∃ der ∈ ders, Says env cert issuer verifyTime maxAge .revoked der
  | .good => (∃ status, ∃ der ∈ ders, Says env cert issuer verifyTime maxAge status der)
      ∧ ∀ status, ∀ der ∈ ders, Says env cert issuer verifyTime maxAge status der → status = .good
  | .unknown => True

/-- Two responses with the same `SingleResponse`s and the same certificates, each in any order,
whose signatures are by the same keys. -/
structure Reordered (raw raw' : Bytes) : Prop where
  parsed : ∃ response response' data data', parseOcspResponse raw = some (.successful response)
      ∧ parseOcspResponse raw' = some (.successful response')
      ∧ parseOcspResponseData response.data = some data
      ∧ parseOcspResponseData response'.data = some data'
      ∧ data'.responses.Perm data.responses ∧ data'.responderId = data.responderId
      ∧ data'.producedAt = data.producedAt ∧ data'.extensions = data.extensions
      ∧ (response'.certs.getD []).Perm (response.certs.getD [])
      ∧ ∀ cert, SignedWith env response' cert ↔ SignedWith env response cert

end Definitions

/-! ## The checks say what they are for -/

section Checks

variable {env : Env} {cert issuer : ParsedCertificate}

lemma verifyHash_iff {type : EvpMd} {hash value : Bytes} :
    verifyHash env type hash value = true ↔ env.digest type value = some hash := by
  unfold verifyHash
  rcases env.digest type value with - | h
  · simp
  · simp [eq_comm]

lemma checkExtensions_eq_ok_iff {skip : ParsedExtension → Bool} {tlv : Bytes} :
    checkExtensions skip tlv = .ok u ↔ ∃ parsed, parseExtensions tlv = some parsed
      ∧ ∀ ext ∈ parsed, ext.critical = true → skip ext = true := by
  unfold checkExtensions
  rcases parseExtensions tlv with - | parsed
  · simp
  · grind

lemma checkOptional_eq_ok_iff {skip : ParsedExtension → Bool} {allowed : Bytes → Prop}
    (hskip : ∀ ext, skip ext = true ↔ allowed ext.oid) {extensions : Option Bytes} :
    checkOptional (checkExtensions skip) extensions = .ok u ↔ OnlyCritical allowed extensions := by
  rcases extensions with - | tlv
  · simp [checkOptional, OnlyCritical]
  · simp [checkOptional, OnlyCritical, checkExtensions_eq_ok_iff, hskip]

lemma checkCertIdMatchesCertificate_iff {id : CertId} :
    checkCertIdMatchesCertificate env id cert issuer = true ↔ Names env id cert issuer := by
  unfold checkCertIdMatchesCertificate Names
  rcases hashType id.hashAlgorithm with - | type
  · simp
  · rcases getSubjectPublicKeyBytes issuer.tbs.spkiTlv with - | key
    · simp
    · simp [← verifyHash_iff]

lemma checkResponderIdMatchesCertificate_iff {id : ResponderId} :
    checkResponderIdMatchesCertificate env id cert = true ↔ RespondsAs env cert id := by
  rcases id with name | keyHash
  · unfold checkResponderIdMatchesCertificate RespondsAs
    rcases hn : readTag asn1Sequence name with - | ⟨nameRdn, nameRest⟩
    · simp [hn]
    · grind
  · unfold checkResponderIdMatchesCertificate RespondsAs
    rcases getSubjectPublicKeyBytes cert.tbs.spkiTlv with - | key
    · simp
    · simp [verifyHash_iff]

lemma verifyAuthorizedResponderCert_iff :
    verifyAuthorizedResponderCert env cert issuer = true ↔ Authorized env cert issuer := by
  unfold verifyAuthorizedResponderCert Authorized
  rcases cert.signatureAlgorithm with - | algorithm
  · simp
  · rcases cert.extendedKeyUsage with - | purposes <;> simp

lemma verifyByIncludedCerts_iff {data : ResponseData} {certs : List Bytes} :
    verifyByIncludedCerts env response data issuer certs = true
      ↔ ∃ tlv ∈ certs, ∃ cert, env.createCertificate tlv = some cert
        ∧ RespondsAs env cert data.responderId ∧ Authorized env cert issuer
        ∧ SignedWith env response cert := by
  induction certs with
  | nil => simp [verifyByIncludedCerts]
  | cons tlv certs ih =>
    rw [verifyByIncludedCerts]
    simp only [List.mem_cons, exists_eq_or_imp, ← ih]
    rcases env.createCertificate tlv with - | cur
    · simp
    · simp only [Option.some.injEq, exists_eq_left', ← checkResponderIdMatchesCertificate_iff,
        ← verifyAuthorizedResponderCert_iff, Bool.not_eq_true']
      split_ifs with h1 h2 h3
      · simp [h1]
      · simp [h2]
      · have : SignedWith env response cur := h3
        simp_all
      · have : ¬ SignedWith env response cur := h3
        simp_all

lemma verifyOcspResponseSignature_iff {data : ResponseData} :
    verifyOcspResponseSignature env response data issuer = true
      ↔ Signed env response data issuer := by
  unfold verifyOcspResponseSignature Signed
  rw [← verifyByIncludedCerts_iff, ← checkResponderIdMatchesCertificate_iff]
  split_ifs with h
  · rw [Bool.and_eq_true] at h
    exact iff_of_true rfl (.inl h)
  · rw [Bool.and_eq_true] at h
    exact ⟨.inr, Or.rec (fun h' => absurd h' h) id⟩

end Checks

/-! ## The encoding of a successful response -/

lemma parseResponseBytes_eq_some_iff {cbs rest : Bytes} :
    parseResponseBytes cbs = some (response, rest) ↔ ∃ basic oidTlv basicTlv bytesTlv contentTlv,
      parseBasicOcspResponse basic = some response
        ∧ IsTlv asn1Object kBasicOcspResponseOid oidTlv ∧ IsTlv asn1OctetString basic basicTlv
        ∧ IsTlv asn1Sequence (oidTlv ++ basicTlv) bytesTlv
        ∧ IsTlv (contextTag 0) bytesTlv contentTlv ∧ cbs = contentTlv ++ rest := by
  constructor
  · intro h
    simp only [parseResponseBytes, bind_eq_bind, bind_eq_some_iff, Prod.exists,
      readConstructed_eq (show contextTag 0 &&& asn1Constructed ≠ 0 by decide)] at h
    obtain ⟨bytesTlv, rest', hcontent, bytes, r, hbytes, u, hr, oid, bytes', hoid, h⟩ := h
    obtain rfl := finished_eq_some_iff.mp hr
    split_ifs at h with hid
    simp only [bind_eq_some_iff, Prod.exists] at h
    obtain ⟨basic, r', hbasic, response', hparse, u', hr', h⟩ := h
    obtain rfl := finished_eq_some_iff.mp hr'
    cases h
    obtain rfl := not_not.mp hid
    obtain ⟨contentTlv, hc, rfl⟩ := readTag_eq_some_iff.mp hcontent
    obtain ⟨oidTlv, ho, rfl⟩ := readTag_eq_some_iff.mp hoid
    have hb := readTag_self_iff.mp hbasic
    exact ⟨basic, oidTlv, bytes', bytesTlv, contentTlv, hparse, ho, hb,
      readTag_self_iff.mp hbytes, hc, rfl⟩
  · rintro ⟨basic, oidTlv, basicTlv, bytesTlv, contentTlv, hparse, ho, hb, hbytes, hc, rfl⟩
    simp [parseResponseBytes, readSequence_eq, hparse, finished,
      readConstructed_eq (show contextTag 0 &&& asn1Constructed ≠ 0 by decide),
      readTag_eq_some_iff.mpr ⟨contentTlv, hc, rfl⟩, readTag_self_iff.mpr hbytes,
      readTag_eq_some_iff.mpr ⟨oidTlv, ho, rfl⟩, readTag_self_iff.mpr hb]

lemma responseStatusOf_eq_successful_iff {n : UInt8} :
    responseStatusOf n = some .successful ↔ n = 0 := by
  unfold responseStatusOf
  constructor
  · intro h
    split at h <;> cases h
    exact UInt8.toNat_inj.mp ‹_›
  · rintro rfl
    rfl

lemma parseOcspResponse_eq_successful_iff {raw : Bytes} :
    parseOcspResponse raw = some (.successful response)
      ↔ ∃ basic, IsSuccessful raw basic ∧ parseBasicOcspResponse basic = some response := by
  constructor
  · intro h
    simp only [parseOcspResponse, readParsed, bind_eq_bind, bind_eq_some_iff,
      Prod.exists, readSequence_eq, Option.some.injEq, Prod.mk.injEq] at h
    obtain ⟨parser, r, hraw, u, hr, n, parser', ⟨status, _, hstatus, _, hn, rfl, rfl⟩, st, hst,
      h⟩ := h
    obtain rfl := finished_eq_some_iff.mp hr
    split_ifs at h with hs
    · subst hs
      obtain rfl := responseStatusOf_eq_successful_iff.mp hst
      simp only [bind_eq_some_iff, Prod.exists] at h
      obtain ⟨response', r', hresponse, u', hr', h⟩ := h
      obtain rfl := finished_eq_some_iff.mp hr'
      obtain rfl := Response.successful.inj (Option.some.inj h)
      obtain ⟨basic, oidTlv, basicTlv, bytesTlv, contentTlv, hparse, ho, hb, hbytes, hc, rfl⟩ :=
        parseResponseBytes_eq_some_iff.mp hresponse
      obtain ⟨statusTlv, hs, rfl⟩ := readTag_eq_some_iff.mp hstatus
      rw [List.append_nil] at hraw
      exact ⟨basic, ⟨status, statusTlv, oidTlv, basicTlv, bytesTlv, contentTlv, hn, hs, ho, hb,
        hbytes, hc, readTag_self_iff.mp hraw⟩, hparse⟩
    · simp only [bind_eq_some_iff] at h
      obtain ⟨u', hr', h⟩ := h
      cases h
  · rintro ⟨basic, ⟨status, statusTlv, oidTlv, basicTlv, bytesTlv, contentTlv, hn, hs, ho, hb,
      hbytes, hc, hraw⟩, hparse⟩
    have hresponse : parseResponseBytes contentTlv = some (response, []) :=
      parseResponseBytes_eq_some_iff.mpr
        ⟨basic, oidTlv, basicTlv, bytesTlv, contentTlv, hparse, ho, hb, hbytes, hc, by simp⟩
    simp [parseOcspResponse, readParsed, readSequence_eq, readTag_self_iff.mpr hraw, finished,
      readTag_eq_some_iff.mpr ⟨statusTlv, hs, rfl⟩, hn, responseStatusOf_eq_successful_iff.mpr rfl,
      hresponse]

lemma parseOcspResponse_nil : parseOcspResponse [] = none := by
  simp [parseOcspResponse, readSequence_eq, readTag_nil]

/-! ## The loop -/

section Loop

variable {env : Env} {cert issuer : ParsedCertificate}
  {der : Bytes} {single : SingleResponse} {id : CertId} {status : RevocationStatus}
  {ders : List Bytes} {s : LoopState}

/-- What the two variables mean after the `SingleResponse`s of `ders`. -/
structure Summary (env : Env) (cert issuer : ParsedCertificate) (verifyTime : ℤ)
    (maxAge : Option ℤ) (ders : List Bytes) (s : LoopState) : Prop where
  provided : s.responseDetails = .provided
    ↔ ∃ status, ∃ der ∈ ders, Says env cert issuer verifyTime maxAge status der
  revoked : s.result = .revoked ↔ Concludes env cert issuer verifyTime maxAge ders .revoked
  good : s.result = .good ↔ Concludes env cert issuer verifyTime maxAge ders .good

lemma Readable.unique {single' : SingleResponse} {id' : CertId} (h : Readable der single id)
    (h' : Readable der single' id') : single' = single ∧ id' = id := by
  cases h.parsed.symm.trans h'.parsed
  exact ⟨rfl, Option.some.inj (h'.certId.symm.trans h.certId)⟩

lemma Readable.says_iff (h : Readable der single id) :
    Says env cert issuer verifyTime maxAge status der ↔ Names env id cert issuer
      ∧ InDate single.thisUpdate single.nextUpdate verifyTime maxAge
      ∧ single.certStatus.status = status := by
  constructor
  · rintro ⟨single', id', h', hs⟩
    obtain ⟨rfl, rfl⟩ := h.unique h'
    exact hs
  · exact fun hs => ⟨single, id, h, hs⟩

section

variable (hs : Summary env cert issuer verifyTime maxAge ders s)

include hs

lemma Summary.skip {s' : LoopState}
    (hno : ∀ status, ¬ Says env cert issuer verifyTime maxAge status der)
    (hresult : s'.result = s.result)
    (hdetails : s'.responseDetails = .provided ↔ s.responseDetails = .provided) :
    Summary env cert issuer verifyTime maxAge (ders ++ [der]) s' := by
  refine ⟨?_, ?_, ?_⟩
  · simp [hdetails, hs.provided, hno, or_and_right, exists_or]
  · simp [hresult, hs.revoked, Concludes, hno, or_and_right, exists_or]
  · simp [hresult, hs.good, Concludes, hno, or_and_right, exists_or, or_imp, forall_and]

lemma Summary.count (hstatus : ∀ x, Says env cert issuer verifyTime maxAge x der ↔ status = x) :
    Summary env cert issuer verifyTime maxAge (ders ++ [der])
      (if s.responseDetails ≠ .provided ∨ s.result = .good ∨ status = .revoked then
        ⟨status, .provided⟩ else ⟨s.result, .provided⟩) := by
  have hhit : ∃ x, ∃ d ∈ ders ++ [der], Says env cert issuer verifyTime maxAge x d :=
    ⟨status, der, by simp, (hstatus status).mpr rfl⟩
  have hgood : (∀ x, ∀ d ∈ ders ++ [der], Says env cert issuer verifyTime maxAge x d → x = .good)
      ↔ (∀ x, ∀ d ∈ ders, Says env cert issuer verifyTime maxAge x d → x = .good)
        ∧ status = .good := by
    simp [or_imp, forall_and, hstatus, eq_comm]
  have hrevoked : Concludes env cert issuer verifyTime maxAge (ders ++ [der]) .revoked
      ↔ Concludes env cert issuer verifyTime maxAge ders .revoked ∨ status = .revoked := by
    simp [Concludes, or_and_right, exists_or, hstatus]
  split_ifs with hc
  · refine ⟨iff_of_true rfl hhit, ?_, ?_⟩
    · rw [hrevoked]
      refine ⟨.inr, fun h => h.elim (fun h => ?_) id⟩
      have hp := hs.provided.mpr ⟨_, h⟩
      have hr := hs.revoked.mpr h
      rcases hc with hc | hc | hc
      · exact absurd hp hc
      · simp [hr] at hc
      · exact hc
    · rw [Concludes, hgood, and_iff_right hhit]
      refine ⟨fun h => ⟨?_, h⟩, fun h => h.2⟩
      rcases hc with hc | hc | hc
      · exact fun x d hd hx => absurd (hs.provided.mpr ⟨x, d, hd, hx⟩) hc
      · exact (hs.good.mp hc).2
      · exact absurd (h.symm.trans hc) (by simp)
  · simp only [not_or, not_not] at hc
    obtain ⟨hp, hng, hnr⟩ := hc
    refine ⟨iff_of_true rfl hhit, ?_, ?_⟩
    · rw [hrevoked, ← hs.revoked, or_iff_left hnr]
    · rw [Concludes, hgood, and_iff_right hhit]
      exact iff_of_false hng fun h => hng (hs.good.mpr ⟨hs.provided.mp hp, h.1⟩)

lemma Summary.update (h : Readable der single id) :
    Summary env cert issuer verifyTime maxAge (ders ++ [der])
      (s.update env cert issuer verifyTime maxAge single id) := by
  unfold LoopState.update singleInDate
  split_ifs with hm hd hp hc
  · refine hs.skip (fun status hstatus => ?_) rfl Iff.rfl
    simp [checkCertIdMatchesCertificate_iff.mpr (h.says_iff.mp hstatus).1] at hm
  · refine hs.skip (fun status hstatus => ?_) rfl (by simp [hp])
    simp [checkRevocationDateValid_iff.mpr (h.says_iff.mp hstatus).2.1] at hd
  · refine hs.skip (fun status hstatus => ?_) rfl Iff.rfl
    simp [checkRevocationDateValid_iff.mpr (h.says_iff.mp hstatus).2.1] at hd
  all_goals
    have hstatus : ∀ x, Says env cert issuer verifyTime maxAge x der
        ↔ single.certStatus.status = x := by
      intro x
      rw [h.says_iff, ← checkCertIdMatchesCertificate_iff, ← checkRevocationDateValid_iff]
      simp_all
    have := hs.count hstatus
    simpa [hc] using this

end

lemma Summary.nil : Summary env cert issuer verifyTime maxAge []
    ⟨.unknown, .noMatchingResponse⟩ := by
  constructor <;> simp [Concludes]

/-- The loop goes on exactly if the `SingleResponse` can be read. -/
lemma revocationLoop_cons (env : Env) (cert issuer : ParsedCertificate) (verifyTime : ℤ)
    (maxAge : Option ℤ) (der : Bytes) (ders : List Bytes) (s : LoopState) :
    (∃ single id, Readable der single id
        ∧ revocationLoop env cert issuer verifyTime maxAge (der :: ders) s
          = revocationLoop env cert issuer verifyTime maxAge ders
            (s.update env cert issuer verifyTime maxAge single id))
      ∨ (¬ ∃ single id, Readable der single id)
        ∧ (revocationLoop env cert issuer verifyTime maxAge (der :: ders) s).result = .unknown := by
  rw [revocationLoop]
  rcases hsingle : parseOcspSingleResponse der with - | single
  · refine .inr ⟨?_, rfl⟩
    rintro ⟨single, id, h⟩
    cases h.parsed.symm.trans hsingle
  · simp only
    have hext : checkOptional parseOcspSingleResponseExtensions single.extensions = .ok ()
        ↔ OnlyCritical (· = kCtOcspExtOid) single.extensions :=
      checkOptional_eq_ok_iff (by simp)
    rcases hcheck : checkOptional parseOcspSingleResponseExtensions single.extensions with d | u
    · refine .inr ⟨?_, rfl⟩
      rintro ⟨single', id, h⟩
      cases h.parsed.symm.trans hsingle
      cases (hext.mpr h.extensions).symm.trans hcheck
    · rcases hid : parseOcspCertId single.certIdTlv with - | id
      · refine .inr ⟨?_, by simp⟩
        rintro ⟨single', id, h⟩
        cases h.parsed.symm.trans hsingle
        cases h.certId.symm.trans hid
      · exact .inl ⟨single, id, ⟨hsingle, hext.mp hcheck, hid⟩, by simp⟩

/-- The whole loop, after the `SingleResponse`s of `done`. -/
lemma revocationLoop_summary : ∀ (ders done : List Bytes) (s : LoopState),
    Summary env cert issuer verifyTime maxAge done s →
    (∀ der ∈ ders, ∃ single id, Readable der single id) →
      Summary env cert issuer verifyTime maxAge (done ++ ders)
        (revocationLoop env cert issuer verifyTime maxAge ders s)
  | [], done, s, hs, _ => by simpa [revocationLoop] using hs
  | der :: ders, done, s, hs, hread => by
    obtain ⟨single, id, h, heq⟩ | ⟨hno, -⟩ :=
      revocationLoop_cons env cert issuer verifyTime maxAge der ders s
    · rw [heq, List.append_cons]
      exact revocationLoop_summary ders (done ++ [der]) _ (hs.update h)
        fun d hd => hread d (by simp [hd])
    · exact absurd (hread der (by simp)) hno

lemma revocationLoop_unreadable : ∀ (ders : List Bytes) (s : LoopState),
    (∃ der ∈ ders, ¬ ∃ single id, Readable der single id) →
      (revocationLoop env cert issuer verifyTime maxAge ders s).result = .unknown
  | [], _, h => by simp at h
  | der :: ders, s, h => by
    obtain ⟨single, id, hread, heq⟩ | ⟨-, heq⟩ :=
      revocationLoop_cons env cert issuer verifyTime maxAge der ders s
    · rw [heq]
      apply revocationLoop_unreadable ders
      obtain ⟨d, hd, hno⟩ := h
      rcases List.mem_cons.mp hd with rfl | hd
      · exact absurd ⟨single, id, hread⟩ hno
      · exact ⟨d, hd, hno⟩
    · exact heq

/-- The loop comes to a verdict other than `UNKNOWN` exactly if every `SingleResponse` can be read
and they conclude so. -/
lemma getRevocationStatusForCert_result_iff {data : ResponseData} (hstatus : status ≠ .unknown) :
    (getRevocationStatusForCert env cert issuer verifyTime maxAge data).result = status
      ↔ (∀ der ∈ data.responses, ∃ single id, Readable der single id)
        ∧ Concludes env cert issuer verifyTime maxAge data.responses status := by
  by_cases hread : ∀ der ∈ data.responses, ∃ single id, Readable der single id
  · have hs : Summary env cert issuer verifyTime maxAge data.responses
        (getRevocationStatusForCert env cert issuer verifyTime maxAge data) :=
      revocationLoop_summary data.responses [] _ Summary.nil hread
    rw [and_iff_right hread]
    cases status with
    | revoked => exact hs.revoked
    | good => exact hs.good
    | unknown => exact absurd rfl hstatus
  · have hunknown : (getRevocationStatusForCert env cert issuer verifyTime maxAge data).result
        = .unknown := revocationLoop_unreadable data.responses _ (by simpa using hread)
    exact iff_of_false (fun h => hstatus (h.symm.trans hunknown)) fun h => hread h.1

end Loop

/-! ## `CheckOCSP` -/

section Verdict

variable {env : Env} {raw certDer issuerDer : Bytes}
  {certificate issuerCertificate : Option ParsedCertificate} {status : RevocationStatus}
  {raw' : Bytes}

lemma prepare_eq_ok_iff {p : Prepared} :
    prepare env raw certDer certificate issuerDer issuerCertificate = .ok p
      ↔ parseOcspResponse raw = some (.successful p.response)
        ∧ parseOcspResponseData p.response.data = some p.responseData
        ∧ OnlyCritical (fun _ => False) p.responseData.extensions
        ∧ certificate.or (env.createCertificate certDer) = some p.certificate
        ∧ issuerCertificate.or (env.createCertificate issuerDer) = some p.issuerCertificate
        ∧ p.certificate.tbs.validityNotBefore ≤ p.responseData.producedAt
        ∧ p.responseData.producedAt ≤ p.certificate.tbs.validityNotAfter := by
  obtain ⟨response, data, cert, issuer⟩ := p
  have hext : checkOptional parseOcspResponseDataExtensions data.extensions = .ok ()
      ↔ OnlyCritical (fun _ => False) data.extensions := checkOptional_eq_ok_iff (by simp)
  unfold prepare
  constructor
  · intro h
    split_ifs at h with hnil
    split at h <;> try cases h
    rename_i response' hraw
    split at h <;> try cases h
    rename_i data' hdata
    split at h <;> try cases h
    rename_i hcheck
    split at h <;> try cases h
    rename_i cert' issuer' hcert hissuer
    split_ifs at h with hproduced
    cases h
    rw [not_or] at hproduced
    exact ⟨hraw, hdata, hext.mp hcheck, hcert, hissuer, hproduced⟩
  · rintro ⟨hraw, hdata, hcheck, hcert, hissuer, hproduced⟩
    have hnil : raw ≠ [] := by
      rintro rfl
      simp [parseOcspResponse_nil] at hraw
    rw [if_neg hnil, hraw]
    simp only
    rw [hdata]
    simp only
    rw [hext.mpr hcheck]
    simp only
    rw [hcert, hissuer]
    simp only
    rw [if_neg (not_or.mpr hproduced)]

lemma checkOcsp_result_iff (hstatus : status ≠ .unknown) :
    (checkOcsp env raw certDer certificate issuerDer issuerCertificate verifyTime
        maxAge).result = status
      ↔ ∃ cert issuer response data, certificate.or (env.createCertificate certDer) = some cert
        ∧ issuerCertificate.or (env.createCertificate issuerDer) = some issuer
        ∧ Usable env raw cert issuer response data
        ∧ Concludes env cert issuer verifyTime maxAge data.responses status := by
  constructor
  · intro h
    unfold checkOcsp at h
    split at h
    · exact absurd h.symm hstatus
    · rename_i p hp
      obtain ⟨hraw, hdata, hext, hcert, hissuer, hproduced⟩ := prepare_eq_ok_iff.mp hp
      simp only [Bool.not_eq_true'] at h
      split_ifs at h with hsig
      · exact absurd h.symm hstatus
      · rw [Bool.not_eq_false, verifyOcspResponseSignature_iff] at hsig
        obtain ⟨hread, hc⟩ := (getRevocationStatusForCert_result_iff hstatus).mp h
        exact ⟨p.certificate, p.issuerCertificate, p.response, p.responseData, hcert, hissuer,
          ⟨parseOcspResponse_eq_successful_iff.mp hraw, hdata, hext, hproduced, hread, hsig⟩, hc⟩
  · rintro ⟨cert, issuer, response, data, hcert, hissuer, husable, hc⟩
    have hp : prepare env raw certDer certificate issuerDer issuerCertificate
        = .ok ⟨response, data, cert, issuer⟩ := prepare_eq_ok_iff.mpr
      ⟨parseOcspResponse_eq_successful_iff.mpr husable.successful, husable.parsed,
        husable.extensions, hcert, hissuer, husable.produced⟩
    unfold checkOcsp
    rw [hp]
    simp only [verifyOcspResponseSignature_iff.mpr husable.signed, Bool.not_true,
      Bool.false_eq_true, if_false]
    exact (getRevocationStatusForCert_result_iff hstatus).mpr ⟨husable.singles, hc⟩

lemma Reordered.usable (h : Reordered env raw raw') {cert issuer : ParsedCertificate}
    {data : ResponseData} (hu : Usable env raw cert issuer response data) :
    ∃ response' data', Usable env raw' cert issuer response' data'
      ∧ data'.responses.Perm data.responses := by
  obtain ⟨r, r', d, d', hr, hr', hd, hd', hsingles, hid, hproduced, hext, hcerts, hsigned⟩ :=
    h.parsed
  obtain rfl : r = response := by
    have := hr.symm.trans (parseOcspResponse_eq_successful_iff.mpr hu.successful)
    exact Response.successful.inj (Option.some.inj this)
  cases hd.symm.trans hu.parsed
  refine ⟨r', d', ⟨parseOcspResponse_eq_successful_iff.mp hr', hd', ?_, ?_, ?_, ?_⟩, hsingles⟩
  · exact hext ▸ hu.extensions
  · exact hproduced ▸ hu.produced
  · exact fun der hder => hu.singles der (hsingles.mem_iff.mp hder)
  · simpa only [Signed, hid, hsigned, hcerts.mem_iff] using hu.signed

lemma Concludes.perm {cert issuer : ParsedCertificate}
    {ders ders' : List Bytes} (hp : ders'.Perm ders)
    (h : Concludes env cert issuer verifyTime maxAge ders status) :
    Concludes env cert issuer verifyTime maxAge ders' status := by
  cases status <;> simp only [Concludes, hp.mem_iff] at h ⊢ <;> exact h

lemma Reordered.symm (h : Reordered env raw raw') : Reordered env raw' raw := by
  obtain ⟨r, r', d, d', hr, hr', hd, hd', hsingles, hid, hproduced, hext, hcerts, hsigned⟩ :=
    h.parsed
  exact ⟨r', r, d', d, hr', hr, hd', hd, hsingles.symm, hid.symm, hproduced.symm, hext.symm,
    hcerts.symm, fun cert => (hsigned cert).symm⟩

lemma Reordered.result (h : Reordered env raw raw') (hstatus : status ≠ .unknown)
    (hr : (checkOcsp env raw certDer certificate issuerDer issuerCertificate verifyTime
      maxAge).result = status) :
    (checkOcsp env raw' certDer certificate issuerDer issuerCertificate verifyTime
      maxAge).result = status := by
  rw [checkOcsp_result_iff hstatus] at hr ⊢
  obtain ⟨cert, issuer, response, data, hcert, hissuer, hu, hc⟩ := hr
  obtain ⟨response', data', hu', hperm⟩ := h.usable hu
  exact ⟨cert, issuer, response', data', hcert, hissuer, hu', hc.perm hperm⟩

/-- What `CheckOCSP` returns on a usable response, and that it does not depend on the order of
what the response holds. -/
theorem checkOcsp_verdict (env : Env) (raw certDer issuerDer : Bytes)
    (certificate issuerCertificate : Option ParsedCertificate) (verifyTime : ℤ)
    (maxAge : Option ℤ) :
    let verdict := fun raw => (checkOcsp env raw certDer certificate issuerDer issuerCertificate
      verifyTime maxAge).result
    let given := fun cert issuer => certificate.or (env.createCertificate certDer) = some cert
      ∧ issuerCertificate.or (env.createCertificate issuerDer) = some issuer
    (verdict raw = .revoked ↔ ∃ cert issuer, given cert issuer
        ∧ ∃ response data, Usable env raw cert issuer response data
        ∧ ∃ der ∈ data.responses, Says env cert issuer verifyTime maxAge .revoked der)
      ∧ (verdict raw = .good ↔ ∃ cert issuer, given cert issuer
        ∧ ∃ response data, Usable env raw cert issuer response data
        ∧ (∃ status, ∃ der ∈ data.responses, Says env cert issuer verifyTime maxAge status der)
        ∧ ∀ status, ∀ der ∈ data.responses,
          Says env cert issuer verifyTime maxAge status der → status = .good)
      ∧ ∀ raw', Reordered env raw raw' → verdict raw' = verdict raw := by
  intro verdict given
  refine ⟨?_, ?_, fun raw' h => ?_⟩
  on_goal 3 =>
    by_cases hr : verdict raw = .unknown
    · by_contra hne
      rw [hr] at hne
      exact hne ((h.symm.result hne rfl).symm.trans hr)
    · exact h.result hr rfl
  all_goals
    rw [checkOcsp_result_iff (by simp)]
    simp only [given, and_assoc, exists_and_left, Concludes]

end Verdict

namespace Sample

/-- `20240101000000Z`. -/
def timeTlv : Bytes :=
  [0x18, 0x0f, 0x32, 0x30, 0x32, 0x34, 0x30, 0x31, 0x30, 0x31, 0x30, 0x30, 0x30, 0x30, 0x30, 0x30,
    0x5a]

def certIdTlv : Bytes :=
  [0x30, 0x10, 0x30, 0x07, 0x06, 0x05, 0x2b, 0x0e, 0x03, 0x02, 0x1a, 0x04, 0x00, 0x04, 0x00, 0x02,
    0x01, 0x01]

def revokedSingle : Bytes := [0x30, 0x36] ++ certIdTlv ++ [0xa1, 0x11] ++ timeTlv ++ timeTlv

def goodSingle : Bytes := [0x30, 0x25] ++ certIdTlv ++ [0x80, 0x00] ++ timeTlv

variable (singles : List Bytes)

def data : Bytes :=
  [0x30, 0x76, 0xa1, 0x02, 0x30, 0x00] ++ timeTlv ++ [0x30, 0x5f] ++ singles.flatten

def sigalg : Bytes := [0x30, 0x0a, 0x06, 0x08, 0x2a, 0x86, 0x48, 0xce, 0x3d, 0x04, 0x03, 0x02]

def raw : Bytes :=
    [0x30, 0x81, 0xa1, 0x0a, 0x01, 0x00, 0xa0, 0x81, 0x9b, 0x30, 0x81, 0x98, 0x06, 0x09, 0x2b,
     0x06, 0x01, 0x05, 0x05, 0x07, 0x30, 0x01, 0x01, 0x04, 0x81, 0x8a, 0x30, 0x81, 0x87]
    ++ data singles ++ sigalg ++ [0x03, 0x01, 0x00]

def time : GeneralizedTime := ⟨2024, 1, 1, 0, 0, 0⟩

def cert : ParsedCertificate :=
  { (default : ParsedCertificate) with
    tbs := ⟨.v3, [1], [], [], time, time, [0x30, 0x00],
      [0x30, 0x05, 0x30, 0x00, 0x03, 0x01, 0x00]⟩ }

def env : Env := ⟨fun _ _ => some [], fun _ _ _ _ => true, fun _ => none⟩

def basic : BasicResponse :=
  ⟨data singles, .ecdsaSha256, ⟨[], 0⟩, none⟩

def responseData : ResponseData :=
  ⟨0, .name [0x30, 0x00], time, singles, none⟩

lemma reordered :
    Reordered env (raw [goodSingle, revokedSingle]) (raw [revokedSingle, goodSingle]) :=
  ⟨basic [goodSingle, revokedSingle], basic [revokedSingle, goodSingle],
    responseData [goodSingle, revokedSingle], responseData [revokedSingle, goodSingle],
    by decide +kernel, by decide +kernel, by decide +kernel, by decide +kernel, .swap _ _ _, rfl,
    rfl, rfl, .refl _, fun _ => Iff.rfl⟩

end Sample

theorem checkOcsp_verdict_two :
    (checkOcsp Sample.env (Sample.raw [Sample.goodSingle, Sample.revokedSingle]) []
        (some Sample.cert) [] (some Sample.cert) 1704067200 none).result = .revoked
      ∧ Reordered Sample.env (Sample.raw [Sample.goodSingle, Sample.revokedSingle])
        (Sample.raw [Sample.revokedSingle, Sample.goodSingle])
      ∧ (checkOcsp Sample.env (Sample.raw [Sample.revokedSingle, Sample.goodSingle]) []
        (some Sample.cert) [] (some Sample.cert) 1704067200 none).result
        = (checkOcsp Sample.env (Sample.raw [Sample.goodSingle, Sample.revokedSingle]) []
          (some Sample.cert) [] (some Sample.cert) 1704067200 none).result :=
  ⟨by decide +kernel, Sample.reordered, (checkOcsp_verdict Sample.env _ [] [] (some Sample.cert)
    (some Sample.cert) 1704067200 none).2.2 _ Sample.reordered⟩

end Ocsp

end BoringSSL.Pki
