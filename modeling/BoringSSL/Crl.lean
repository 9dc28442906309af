import BoringSSL.PkiCertificate

/-!
# Certificate revocation lists

`pki/crl.cc`: a CRL is parsed, its scope, its issuer and its signer are checked against a chain, and
its entries are searched for the serial number of one certificate.
-/

namespace BoringSSL.Pki.Crl

open ByteLib

/-- What a CRL says of a certificate. -/
inductive RevocationStatus where
  | good | revoked | unknown
  deriving DecidableEq, Repr

/-- The versions of a CRL. -/
inductive CrlVersion where
  | v1 | v2
  deriving DecidableEq, Repr

/-- The fields of a `TBSCertList`. -/
structure ParsedCrlTbsCertList where
  version : CrlVersion
  signatureAlgorithmTlv : Bytes
  issuerTlv : Bytes
  thisUpdate : GeneralizedTime
  nextUpdate : Option GeneralizedTime
  revokedCertificatesTlv : Option Bytes
  crlExtensionsTlv : Option Bytes
  deriving DecidableEq, Repr

/-- Which certificates a CRL covers. -/
inductive ContainedCertsType where
  | anyCerts | userCerts | caCerts
  deriving DecidableEq, Repr

/-- `std::set_intersection` on two sorted ranges; each turn of the loop moves one of them on. -/
def setIntersection : ℕ → List Bytes → List Bytes → List Bytes
  | 0, _, _ => []
  | _ + 1, [], _ => []
  | _ + 1, _ :: _, [] => []
  | fuel + 1, a :: as, b :: bs =>
    if a < b then setIntersection fuel as (b :: bs)
    else if b < a then setIntersection fuel (a :: as) bs
    else a :: setIntersection fuel as bs

def sortNames (names : List Bytes) : List Bytes := names.mergeSort fun a b => !(b < a)

def containsExactMatchingName (a b : List Bytes) : Bool :=
  setIntersection (a.length + b.length) (sortNames a) (sortNames b) ≠ []

def parseCrlCertificateList (crlTlv : Bytes) : Option (Bytes × Bytes × BitString) := do
  let (certificateListParser, parser) ← readSequence crlTlv
  let (tbsCertListTlv, certificateListParser) ← readRawTlv certificateListParser
  let (signatureAlgorithmTlv, certificateListParser) ← readRawTlv certificateListParser
  let (signatureValue, certificateListParser) ← readBitString certificateListParser
  finished certificateListParser
  finished parser
  some (tbsCertListTlv, signatureAlgorithmTlv, signatureValue)

/-- A version that is present is `v2`, which is encoded as 1. -/
def parseCrlVersion : Option Bytes → Option CrlVersion
  | none => some .v1
  | some versionDer => do
    let version64 ← parseUint64 versionDer
    if version64 ≠ 1 then none else some .v2

/-- A field whose tag is one of `tags` is read with `read`, and is otherwise absent. -/
def readIfPeek {α : Type} (tags : List UInt32) (read : Bytes → Option (α × Bytes)) (cbs : Bytes) :
    Option (Option α × Bytes) :=
  match peekTagAndValue cbs with
  | none => some (none, cbs)
  | some (maybeTag, _, _) =>
    if maybeTag ∈ tags then do
      let (a, cbs) ← read cbs
      some (some a, cbs)
    else some (none, cbs)

def parseCrlTbsCertList (tbsTlv : Bytes) : Option ParsedCrlTbsCertList := do
  let (tbsParser, parser) ← readSequence tbsTlv
  let (versionDer, tbsParser) ← readOptionalTag asn1Integer tbsParser
  let version ← parseCrlVersion versionDer
  let (signatureAlgorithmTlv, tbsParser) ← readRawTlv tbsParser
  let (issuerTlv, tbsParser) ← readRawTlv tbsParser
  let (thisUpdate, tbsParser) ← readUtcOrGeneralizedTime tbsParser
  let (nextUpdate, tbsParser) ←
    readIfPeek [asn1UtcTime, asn1GeneralizedTime] readUtcOrGeneralizedTime tbsParser
  let (revokedCertificatesTlv, tbsParser) ← readIfPeek [asn1Sequence] readRawTlv tbsParser
  let (crlExtensionsTlv, tbsParser) ← readOptionalTag (contextTag 0) tbsParser
  if crlExtensionsTlv.isSome ∧ version ≠ .v2 then none
  else do
    finished tbsParser
    finished parser
    some ⟨version, signatureAlgorithmTlv, issuerTlv, thisUpdate, nextUpdate,
      revokedCertificatesTlv, crlExtensionsTlv⟩

/-- The distribution point, which has to be a full name. -/
def parseDistributionPointName : Option Bytes → Option (Option GeneralNames)
  | none => some none
  | some distributionPoint => do
    let (derFullName, dpNameParser) ← readOptionalTag (contextTag 0) distributionPoint
    let derFullName ← derFullName
    let names ← createGeneralNames derFullName
    finished dpNameParser
    some (some names)

def parseFlag (value : Option Bytes) : Option Bool := parseCritical value

/-- `ParseIssuingDistributionPoint`, which leaves what follows the sequence. -/
def parseIssuingDistributionPoint (extensionValue : Bytes) :
    Option (Option GeneralNames × ContainedCertsType) := do
  let (idpParser, _) ← readSequence extensionValue
  if idpParser = [] then none
  else do
    let (distributionPoint, idpParser) ← readOptionalTag (contextTag 0) idpParser
    let distributionPointNames ← parseDistributionPointName distributionPoint
    let (onlyContainsUserCerts, idpParser) ← readOptionalTag (asn1ContextSpecific ||| 1) idpParser
    let userCerts ← parseFlag onlyContainsUserCerts
    let (onlyContainsCaCerts, idpParser) ← readOptionalTag (asn1ContextSpecific ||| 2) idpParser
    let caCerts ← parseFlag onlyContainsCaCerts
    if userCerts && caCerts then none
    else do
      finished idpParser
      some (distributionPointNames,
        if caCerts then .caCerts else if userCerts then .userCerts else .anyCerts)

/-- The extensions of an entry, which only a CRL of version 2 has and of which none is critical. -/
def checkEntryExtensions (crlVersion : CrlVersion) (crlEntryParser : Bytes) : Option Bytes :=
  if crlEntryParser = [] then some crlEntryParser
  else if crlVersion ≠ .v2 then none
  else do
    let (crlEntryExtensionsTlv, crlEntryParser) ← readRawTlv crlEntryParser
    let extensions ← parseExtensions crlEntryExtensionsTlv
    if extensions.any (·.critical) then none else some crlEntryParser

def readCrlEntry (crlVersion : CrlVersion) (revokedCertificatesParser : Bytes) :
    Option (Bytes × Bytes) := do
  let (crlEntryParser, revokedCertificatesParser) ← readSequence revokedCertificatesParser
  let (revokedCertSerialNumber, crlEntryParser) ← readTag asn1Integer crlEntryParser
  let (_, crlEntryParser) ← readUtcOrGeneralizedTime crlEntryParser
  let crlEntryParser ← checkEntryExtensions crlVersion crlEntryParser
  finished crlEntryParser
  some (revokedCertSerialNumber, revokedCertificatesParser)

/-- The loop over the entries, which goes on after a match. -/
def crlEntryLoop (certSerial : Bytes) (crlVersion : CrlVersion) :
    ℕ → Bytes → Bool → RevocationStatus
  | _, [], foundMatchingSerial => if foundMatchingSerial then .revoked else .good
  | 0, _ :: _, _ => .unknown
  | fuel + 1, b :: bs, foundMatchingSerial =>
    match readCrlEntry crlVersion (b :: bs) with
    | none => .unknown
    | some (revokedCertSerialNumber, rest) =>
      crlEntryLoop certSerial crlVersion fuel rest
        (if revokedCertSerialNumber = certSerial then true else foundMatchingSerial)

/-- An entry takes at least one byte, so the loop ends. -/
def getCrlStatusForCert (certSerial : Bytes) (crlVersion : CrlVersion) :
    Option Bytes → RevocationStatus
  | none => .good
  | some revokedCertificatesTlv =>
    match readSequence revokedCertificatesTlv with
    | none => .unknown
    | some (revokedCertificatesParser, parser) =>
      if revokedCertificatesParser = [] then .unknown
      else if parser ≠ [] then .unknown
      else crlEntryLoop certSerial crlVersion revokedCertificatesParser.length
        revokedCertificatesParser false

def kIssuingDistributionPointOid : Bytes := [0x55, 0x1d, 0x1c]

variable (targetCert : ParsedCertificate)

def admitsCert : ContainedCertsType → Bool
  | .userCerts =>
    !(targetCert.basicConstraints.any (·.isCa) || targetCert.tbs.version = .v1
      || targetCert.tbs.version = .v2)
  | .caCerts => targetCert.basicConstraints.any (·.isCa)
  | .anyCerts => true

def checkIssuingDistributionPoint (certDp : ParsedDistributionPoint)
    (idpExtension : ParsedExtension) : Bool :=
  match parseIssuingDistributionPoint idpExtension.value with
  | none => false
  | some (distributionPointNames, onlyContainsCertType) =>
    match distributionPointNames with
    | none => admitsCert targetCert onlyContainsCertType
    | some names =>
      match certDp.distributionPointFullname with
      | none => false
      | some fullname =>
        if !containsExactMatchingName fullname.uniformResourceIdentifiers
            names.uniformResourceIdentifiers then false
        else admitsCert targetCert onlyContainsCertType

def checkCrlExtensions (certDp : ParsedDistributionPoint) :
    Option Bytes → Bool
  | none => true
  | some crlExtensionsTlv =>
    match parseExtensions crlExtensionsTlv with
    | none => false
    | some extensions =>
      match consumeExtension kIssuingDistributionPointOid extensions with
      | (none, extensions) => !extensions.any (·.critical)
      | (some idpExtension, extensions) =>
        if !checkIssuingDistributionPoint targetCert certDp idpExtension then false
        else !extensions.any (·.critical)

/-- A CRL with its signature. -/
structure SignedCrl where
  tbsCertListTlv : Bytes
  signatureValue : BitString
  signatureAlgorithm : SignatureAlgorithm
  tbsCertList : ParsedCrlTbsCertList
  deriving DecidableEq, Repr

def parseSignedCrl (rawCrl : Bytes) : Option SignedCrl := do
  let (tbsCertListTlv, signatureAlgorithmTlv, signatureValue) ← parseCrlCertificateList rawCrl
  let tbsCertList ← parseCrlTbsCertList tbsCertListTlv
  let signatureAlgorithm ← parseSignatureAlgorithm signatureAlgorithmTlv
  let tbsAlg ← parseSignatureAlgorithm tbsCertList.signatureAlgorithmTlv
  if signatureAlgorithm ≠ tbsAlg then none
  else some ⟨tbsCertListTlv, signatureValue, signatureAlgorithm, tbsCertList⟩

def crlSignerLoop (env : Env) (crl : SignedCrl) (normalizedCrlIssuer : Bytes)
    (targetCert : ParsedCertificate) : List ParsedCertificate → RevocationStatus
  | [] => .unknown
  | issuerCert :: rest =>
    if normalizedCrlIssuer ≠ issuerCert.normalizedSubject then
      crlSignerLoop env crl normalizedCrlIssuer targetCert rest
    else if issuerCert.keyUsage.any (!·.assertsBit keyUsageBitCrlSign) then
      crlSignerLoop env crl normalizedCrlIssuer targetCert rest
    else if !env.verifySignedData crl.signatureAlgorithm crl.tbsCertListTlv crl.signatureValue
        issuerCert.tbs.spkiTlv then
      crlSignerLoop env crl normalizedCrlIssuer targetCert rest
    else
      getCrlStatusForCert targetCert.tbs.serialNumber crl.tbsCertList.version
        crl.tbsCertList.revokedCertificatesTlv

/-- `CheckCRL`; the index of the target is checked, and the program ends if it is not one. -/
def checkCrl (env : Env) (rawCrl : Bytes) (validChain : List ParsedCertificate)
    (targetCertIndex : ℕ) (certDp : ParsedDistributionPoint) (verifyTimeEpochSeconds : ℤ)
    (maxAgeSeconds : Option ℤ) : Option RevocationStatus :=
  match validChain[targetCertIndex]? with
  | none => none
  | some targetCert =>
    if certDp.reasons.isSome then some .unknown
    else if certDp.crlIssuer.isSome then some .unknown
    else
      match parseSignedCrl rawCrl with
      | none => some .unknown
      | some crl =>
        if !checkRevocationDateValid crl.tbsCertList.thisUpdate crl.tbsCertList.nextUpdate
            verifyTimeEpochSeconds maxAgeSeconds then some .unknown
        else
          match normalizeNameTlv crl.tbsCertList.issuerTlv with
          | none => some .unknown
          | some normalizedCrlIssuer =>
            if normalizedCrlIssuer ≠ targetCert.normalizedIssuer then some .unknown
            else if !checkCrlExtensions targetCert certDp crl.tbsCertList.crlExtensionsTlv then
              some .unknown
            else
              some (crlSignerLoop env crl normalizedCrlIssuer targetCert
                (validChain.drop (targetCertIndex + 1)))

end BoringSSL.Pki.Crl
