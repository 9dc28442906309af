import BoringSSL.PkiCertificate

/-!
# OCSP responses

`pki/ocsp.cc`: a response is parsed, its `SingleResponse`s are searched for those about the
certificate, and its signature is checked.
-/

namespace BoringSSL.Pki

open ByteLib

namespace Ocsp

/-- What a response says of a certificate. -/
inductive RevocationStatus where
  | good | revoked | unknown
  deriving DecidableEq, Repr

/-- What was wrong with a response. -/
inductive ResponseDetails where
  | notChecked | missing | provided | errorResponse | badProducedAt | noMatchingResponse
  | invalidDate | parseResponseError | parseResponseDataError | unhandledCriticalExtension
  deriving DecidableEq, Repr

/-- A `CertID`, parsed. -/
structure CertId where
  hashAlgorithm : DigestAlgorithm
  issuerNameHash : Bytes
  issuerKeyHash : Bytes
  serialNumber : Bytes
  deriving DecidableEq, Repr

/-- The status, and of a revoked certificate the time and the reason. -/
structure CertStatus where
  status : RevocationStatus
  revocationTime : Option GeneralizedTime
  revocationReason : Option UInt8
  deriving DecidableEq, Repr

/-- A `SingleResponse`, parsed. -/
structure SingleResponse where
  certIdTlv : Bytes
  certStatus : CertStatus
  thisUpdate : GeneralizedTime
  nextUpdate : Option GeneralizedTime
  extensions : Option Bytes
  deriving DecidableEq, Repr

/-- Who made the response. -/
inductive ResponderId where
  | name (name : Bytes)
  | keyHash (keyHash : Bytes)
  deriving DecidableEq, Repr

/-- A `ResponseData`, parsed. -/
structure ResponseData where
  version : UInt8
  responderId : ResponderId
  producedAt : GeneralizedTime
  responses : List Bytes
  extensions : Option Bytes
  deriving DecidableEq, Repr

/-- The statuses of an `OCSPResponse`. -/
inductive ResponseStatus where
  | successful | malformedRequest | internalError | tryLater | sigRequired | unauthorized
  deriving DecidableEq, Repr

/-- A `BasicOCSPResponse`, parsed. -/
structure BasicResponse where
  data : Bytes
  signatureAlgorithm : SignatureAlgorithm
  signature : BitString
  certs : Option (List Bytes)
  deriving DecidableEq, Repr

/-- `OCSPResponse`: the fields other than the status are set if it is `SUCCESSFUL`. -/
inductive Response where
  | successful (response : BasicResponse)
  | error (status : ResponseStatus) (ne : status ≠ .successful)
  deriving DecidableEq, Repr

variable (rawTlv : Bytes)

def parseOcspCertId : Option CertId := do
  let (parser, outerParser) ← readSequence rawTlv
  finished outerParser
  let (sigalgTlv, parser) ← readRawTlv parser
  let hashAlgorithm ← parseHashAlgorithm sigalgTlv
  let (issuerNameHash, parser) ← readTag asn1OctetString parser
  let (issuerKeyHash, parser) ← readTag asn1OctetString parser
  let (serialNumber, parser) ← readTag asn1Integer parser
  if !verifySerialNumber serialNumber then none
  else do
    finished parser
    some ⟨hashAlgorithm, issuerNameHash, issuerKeyHash, serialNumber⟩

/-- `RevocationReason::LAST` and `RevocationReason::UNUSED` are 10 and 7. -/
def parseRevocationReason : Option Bytes → Option (Option UInt8)
  | none => some none
  | some reasonInput => do
    let (reasonValue, reasonParser) ← readParsed asn1Enumerated parseUint8 reasonInput
    if reasonValue > 10 ∨ reasonValue = 7 then none
    else do
      finished reasonParser
      some (some reasonValue)

def parseRevokedInfo : Option CertStatus := do
  let (revocationTime, parser) ← readGeneralizedTime rawTlv
  let (reasonInput, parser) ← readOptionalTag (contextTag 0) parser
  let revocationReason ← parseRevocationReason reasonInput
  finished parser
  some ⟨.revoked, some revocationTime, revocationReason⟩

/-- The values of `good` and `unknown` are not looked at. -/
def parseCertStatusValue (statusTag : UInt32) (status : Bytes) : Option CertStatus :=
  if statusTag = asn1ContextSpecific ||| 0 then some ⟨.good, none, none⟩
  else if statusTag = contextTag 1 then parseRevokedInfo status
  else if statusTag = asn1ContextSpecific ||| 2 then some ⟨.unknown, none, none⟩
  else none

def parseCertStatus : Option CertStatus := do
  let ((statusTag, status), parser) ← readTagAndValue rawTlv
  let certStatus ← parseCertStatusValue statusTag status
  finished parser
  some certStatus

def parseOptional {α : Type} (read : Bytes → Option (α × Bytes)) :
    Option Bytes → Option (Option α)
  | none => some none
  | some input => do
    let (a, parser) ← read input
    finished parser
    some (some a)

def parseOcspSingleResponse : Option SingleResponse := do
  let (parser, outerParser) ← readSequence rawTlv
  finished outerParser
  let (certIdTlv, parser) ← readRawTlv parser
  let (statusTlv, parser) ← readRawTlv parser
  let certStatus ← parseCertStatus statusTlv
  let (thisUpdate, parser) ← readGeneralizedTime parser
  let (nextUpdateInput, parser) ← readOptionalTag (contextTag 0) parser
  let nextUpdate ← parseOptional readGeneralizedTime nextUpdateInput
  let (extensions, parser) ← readOptionalTag (contextTag 1) parser
  finished parser
  some ⟨certIdTlv, certStatus, thisUpdate, nextUpdate, extensions⟩

def parseResponderIdValue (idTag : UInt32) (idInput : Bytes) : Option ResponderId :=
  if idTag = contextTag 1 then some (.name idInput)
  else if idTag = contextTag 2 then do
    let (keyHash, keyParser) ← readTag asn1OctetString idInput
    finished keyParser
    if keyHash.length ≠ 20 then none else some (.keyHash keyHash)
  else none

def parseResponderId : Option ResponderId := do
  let ((idTag, idInput), parser) ← readTagAndValue rawTlv
  let id ← parseResponderIdValue idTag idInput
  finished parser
  some id

def parseOcspResponseData : Option ResponseData := do
  let (parser, outerParser) ← readSequence rawTlv
  finished outerParser
  let (versionInput, parser) ← readOptionalTag (contextTag 0) parser
  let version ← parseOptional readUint8 versionInput
  if version.getD 0 ≠ 0 then none
  else do
    let (responderInput, parser) ← readRawTlv parser
    let responderId ← parseResponderId responderInput
    let (producedAt, parser) ← readGeneralizedTime parser
    let (responsesParser, parser) ← readSequence parser
    let responses ← readAll readRawTlv responsesParser
    let (extensions, parser) ← readOptionalTag (contextTag 1) parser
    finished parser
    some ⟨version.getD 0, responderId, producedAt, responses, extensions⟩

def parseCerts : Option Bytes → Option (Option (List Bytes))
  | none => some none
  | some certsInput => do
    let (certsParser, certsSeqParser) ← readSequence certsInput
    finished certsSeqParser
    let certs ← readAll readRawTlv certsParser
    some (some certs)

def parseBasicOcspResponse : Option BasicResponse := do
  let (parser, outerParser) ← readSequence rawTlv
  finished outerParser
  let (data, parser) ← readRawTlv parser
  let (sigalgTlv, parser) ← readRawTlv parser
  let signatureAlgorithm ← parseSignatureAlgorithm sigalgTlv
  let (signature, parser) ← readBitString parser
  let (certsInput, parser) ← readOptionalTag (contextTag 0) parser
  let certs ← parseCerts certsInput
  finished parser
  some ⟨data, signatureAlgorithm, signature, certs⟩

/-- `ResponseStatus::UNUSED` is 4. -/
def responseStatusOf (responseStatus : UInt8) : Option ResponseStatus :=
  match responseStatus.toNat with
  | 0 => some .successful
  | 1 => some .malformedRequest
  | 2 => some .internalError
  | 3 => some .tryLater
  | 5 => some .sigRequired
  | 6 => some .unauthorized
  | _ => none

def kBasicOcspResponseOid : Bytes := [0x2b, 0x06, 0x01, 0x05, 0x05, 0x07, 0x30, 0x01, 0x01]

def parseResponseBytes (parser : Bytes) : Option (BasicResponse × Bytes) := do
  let (outerBytesParser, parser) ← readConstructed (contextTag 0) parser
  let (bytesParser, outerBytesParser) ← readSequence outerBytesParser
  finished outerBytesParser
  let (typeOid, bytesParser) ← readTag asn1Object bytesParser
  if typeOid ≠ kBasicOcspResponseOid then none
  else do
    let (response, bytesParser) ← readTag asn1OctetString bytesParser
    let basic ← parseBasicOcspResponse response
    finished bytesParser
    some (basic, parser)

def parseOcspResponse : Option Response := do
  let (parser, outerParser) ← readSequence rawTlv
  finished outerParser
  let (responseStatus, parser) ← readParsed asn1Enumerated parseUint8 parser
  let status ← responseStatusOf responseStatus
  if h : status = .successful then do
    let (response, parser) ← parseResponseBytes parser
    finished parser
    some (.successful response)
  else do
    finished parser
    some (.error status h)

/-- `GetSubjectPublicKeyBytes`, which leaves what follows the fields it reads. -/
def getSubjectPublicKeyBytes (spkiTlv : Bytes) : Option Bytes := do
  let (inner, _) ← readTag asn1Sequence spkiTlv
  let (_, inner) ← readTag asn1Sequence inner
  let (spk, _) ← readTag asn1BitString inner
  match spk with
  | [] => none
  | unusedBitCount :: spk => if unusedBitCount ≠ 0 then none else some spk

def hashType : DigestAlgorithm → Option EvpMd
  | .md2 | .md4 | .md5 => none
  | .sha1 => some .sha1
  | .sha256 => some .sha256
  | .sha384 => some .sha384
  | .sha512 => some .sha512

def kCtOcspExtOid : Bytes := [0x2b, 0x06, 0x01, 0x04, 0x01, 0xd6, 0x79, 0x02, 0x04, 0x05]

/-- Extensions are parsed, and one that is critical and not skipped is an error. -/
def checkExtensions (skip : ParsedExtension → Bool) (extensions : Bytes) :
    Except ResponseDetails Unit :=
  match parseExtensions extensions with
  | none => .error .parseResponseDataError
  | some extensions =>
    if extensions.any fun ext => !skip ext && ext.critical then
      .error .unhandledCriticalExtension
    else .ok ()

def parseOcspResponseDataExtensions (responseExtensions : Bytes) : Except ResponseDetails Unit :=
  checkExtensions (fun _ => false) responseExtensions

def parseOcspSingleResponseExtensions (singleExtensions : Bytes) : Except ResponseDetails Unit :=
  checkExtensions (·.oid = kCtOcspExtOid) singleExtensions

def checkOptional (check : Bytes → Except ResponseDetails Unit) :
    Option Bytes → Except ResponseDetails Unit
  | none => .ok ()
  | some extensions => check extensions

section

variable (env : Env)

def verifyHash (type : EvpMd) (hash value : Bytes) : Bool :=
  match env.digest type value with
  | none => false
  | some valueHash => hash = valueHash

def checkCertIdMatchesCertificate (id : CertId)
    (certificate issuerCertificate : ParsedCertificate) : Bool :=
  match hashType id.hashAlgorithm with
  | none => false
  | some type =>
    if !verifyHash env type id.issuerNameHash certificate.tbs.issuerTlv then false
    else
      match getSubjectPublicKeyBytes issuerCertificate.tbs.spkiTlv with
      | none => false
      | some keyTlv =>
        if !verifyHash env type id.issuerKeyHash keyTlv then false
        else id.serialNumber = certificate.tbs.serialNumber

def checkResponderIdMatchesCertificate (id : ResponderId) (cert : ParsedCertificate) : Bool :=
  match id with
  | .name name =>
    match readTag asn1Sequence name, readTag asn1Sequence cert.tbs.subjectTlv with
    | some (nameRdn, _), some (certRdn, _) => verifyNameMatch nameRdn certRdn
    | _, _ => false
  | .keyHash keyHash =>
    match getSubjectPublicKeyBytes cert.tbs.spkiTlv with
    | none => false
    | some key => verifyHash env .sha1 keyHash key

def verifyAuthorizedResponderCert (responderCertificate issuerCertificate : ParsedCertificate) :
    Bool :=
  match responderCertificate.signatureAlgorithm with
  | none => false
  | some algorithm =>
    if !env.verifySignedData algorithm responderCertificate.tbsCertificateTlv
        responderCertificate.signatureValue issuerCertificate.tbs.spkiTlv then false
    else
      match responderCertificate.extendedKeyUsage with
      | none => false
      | some keyPurposeOids => keyPurposeOids.any (· = kOcspSigning)

def verifyOcspResponseSignatureGivenCert (response : BasicResponse) (cert : ParsedCertificate) :
    Bool :=
  env.verifySignedData response.signatureAlgorithm response.data response.signature
    cert.tbs.spkiTlv

def verifyByIncludedCerts (response : BasicResponse) (responseData : ResponseData)
    (issuerCertificate : ParsedCertificate) : List Bytes → Bool
  | [] => false
  | responderCertTlv :: certs =>
    match env.createCertificate responderCertTlv with
    | none => verifyByIncludedCerts response responseData issuerCertificate certs
    | some cur =>
      if !checkResponderIdMatchesCertificate env responseData.responderId cur then
        verifyByIncludedCerts response responseData issuerCertificate certs
      else if !verifyAuthorizedResponderCert env cur issuerCertificate then
        verifyByIncludedCerts response responseData issuerCertificate certs
      else if verifyOcspResponseSignatureGivenCert env response cur then true
      else verifyByIncludedCerts response responseData issuerCertificate certs

def verifyOcspResponseSignature (response : BasicResponse) (responseData : ResponseData)
    (issuerCertificate : ParsedCertificate) : Bool :=
  if checkResponderIdMatchesCertificate env responseData.responderId issuerCertificate
      && verifyOcspResponseSignatureGivenCert env response issuerCertificate then true
  else verifyByIncludedCerts env response responseData issuerCertificate (response.certs.getD [])

/-- What the loop has found so far. -/
structure LoopState where
  result : RevocationStatus
  responseDetails : ResponseDetails
  deriving DecidableEq, Repr

variable (cert issuerCertificate : ParsedCertificate) (verifyTimeEpochSeconds : ℤ)
  (maxAgeSeconds : Option ℤ)

def singleInDate (single : SingleResponse) : Bool :=
  checkRevocationDateValid single.thisUpdate single.nextUpdate verifyTimeEpochSeconds maxAgeSeconds

def LoopState.update (s : LoopState) (single : SingleResponse) (certId : CertId) : LoopState :=
  if !checkCertIdMatchesCertificate env certId cert issuerCertificate then s
  else if !singleInDate verifyTimeEpochSeconds maxAgeSeconds single then
    if s.responseDetails ≠ .provided then ⟨s.result, .invalidDate⟩ else s
  else if s.responseDetails ≠ .provided ∨ s.result = .good
      ∨ single.certStatus.status = .revoked then
    ⟨single.certStatus.status, .provided⟩
  else ⟨s.result, .provided⟩

/-- The loop of `GetRevocationStatusForCert`; what cannot be parsed ends it. -/
def revocationLoop : List Bytes → LoopState → LoopState
  | [], s => s
  | singleResponseDer :: responses, s =>
    match parseOcspSingleResponse singleResponseDer with
    | none => ⟨.unknown, s.responseDetails⟩
    | some single =>
      match checkOptional parseOcspSingleResponseExtensions single.extensions with
      | .error details => ⟨.unknown, details⟩
      | .ok () =>
        match parseOcspCertId single.certIdTlv with
        | none => ⟨.unknown, s.responseDetails⟩
        | some certId =>
          revocationLoop responses (s.update env cert issuerCertificate verifyTimeEpochSeconds
            maxAgeSeconds single certId)

def getRevocationStatusForCert (responseData : ResponseData) : LoopState :=
  revocationLoop env cert issuerCertificate verifyTimeEpochSeconds maxAgeSeconds
    responseData.responses ⟨.unknown, .noMatchingResponse⟩

end

/-- What `CheckOCSP` has before it looks for the certificate. -/
structure Prepared where
  response : BasicResponse
  responseData : ResponseData
  certificate : ParsedCertificate
  issuerCertificate : ParsedCertificate

/-- `CheckOCSP` up to the loop; where it returns, the status is `UNKNOWN`. -/
def prepare (env : Env) (rawResponse certificateDer : Bytes)
    (certificate : Option ParsedCertificate) (issuerCertificateDer : Bytes)
    (issuerCertificate : Option ParsedCertificate) : Except ResponseDetails Prepared :=
  if rawResponse = [] then .error .missing
  else
    match parseOcspResponse rawResponse with
    | none => .error .parseResponseError
    | some (.error _ _) => .error .errorResponse
    | some (.successful response) =>
      match parseOcspResponseData response.data with
      | none => .error .parseResponseDataError
      | some responseData =>
        match checkOptional parseOcspResponseDataExtensions responseData.extensions with
        | .error details => .error details
        | .ok () =>
          match certificate.or (env.createCertificate certificateDer),
              issuerCertificate.or (env.createCertificate issuerCertificateDer) with
          | some certificate, some issuerCertificate =>
            if responseData.producedAt < certificate.tbs.validityNotBefore
                ∨ responseData.producedAt > certificate.tbs.validityNotAfter then
              .error .badProducedAt
            else .ok ⟨response, responseData, certificate, issuerCertificate⟩
          | _, _ => .error .notChecked

/-- `CheckOCSP`: a certificate that is not given parsed is parsed from its DER.  The overloads that
are exported give both certificates in the one form or in the other. -/
def checkOcsp (env : Env) (rawResponse certificateDer : Bytes)
    (certificate : Option ParsedCertificate) (issuerCertificateDer : Bytes)
    (issuerCertificate : Option ParsedCertificate) (verifyTimeEpochSeconds : ℤ)
    (maxAgeSeconds : Option ℤ) : LoopState :=
  match prepare env rawResponse certificateDer certificate issuerCertificateDer
      issuerCertificate with
  | .error details => ⟨.unknown, details⟩
  | .ok p =>
    let status := getRevocationStatusForCert env p.certificate p.issuerCertificate
      verifyTimeEpochSeconds maxAgeSeconds p.responseData
    if !verifyOcspResponseSignature env p.response p.responseData p.issuerCertificate then
      ⟨.unknown, status.responseDetails⟩
    else status

end Ocsp

end BoringSSL.Pki
