import BoringSSL.PkiName

/-!
# What `pki` knows of a certificate

The fields of a `ParsedCertificate`, and what its values are made of: the algorithms of
`pki/signature_algorithm.cc` and the names of `pki/general_names.cc`.
-/

namespace BoringSSL.Pki

open ByteLib

/-! ## `pki/signature_algorithm.cc` -/

/-- The digests of `EVP_MD`. -/
inductive EvpMd where
  | md4 | md5 | sha1 | sha224 | sha256 | sha384 | sha512
  deriving DecidableEq, Repr

/-- The digests that are known. -/
inductive DigestAlgorithm where
  | md2 | md4 | md5 | sha1 | sha256 | sha384 | sha512
  deriving DecidableEq, Repr

/-- The signature algorithms known. -/
inductive SignatureAlgorithm where
  | rsaPkcs1Sha1 | rsaPkcs1Sha256 | rsaPkcs1Sha384 | rsaPkcs1Sha512 | ecdsaSha1 | ecdsaSha256
  | ecdsaSha384 | ecdsaSha512 | rsaPssSha256 | rsaPssSha384 | rsaPssSha512
  deriving DecidableEq, Repr

def kMdOids : List (Bytes × EvpMd) :=
  [([0x2a, 0x86, 0x48, 0x86, 0xf7, 0x0d, 0x02, 0x04], .md4),
    ([0x2a, 0x86, 0x48, 0x86, 0xf7, 0x0d, 0x02, 0x05], .md5),
    ([0x2b, 0x0e, 0x03, 0x02, 0x1a], .sha1),
    ([0x60, 0x86, 0x48, 0x01, 0x65, 0x03, 0x04, 0x02, 0x01], .sha256),
    ([0x60, 0x86, 0x48, 0x01, 0x65, 0x03, 0x04, 0x02, 0x02], .sha384),
    ([0x60, 0x86, 0x48, 0x01, 0x65, 0x03, 0x04, 0x02, 0x03], .sha512),
    ([0x60, 0x86, 0x48, 0x01, 0x65, 0x03, 0x04, 0x02, 0x04], .sha224)]

def cbsToMd (oid : Bytes) : Option EvpMd :=
  (kMdOids.find? (·.1 = oid)).map (·.2)

/-- `EVP_parse_digest_algorithm`: the parameters, if present, are NULL. -/
def evpParseDigestAlgorithm (cbs : Bytes) : Option EvpMd := do
  let (algorithm, _) ← readTag asn1Sequence cbs
  let (oid, algorithm) ← readTag asn1Object algorithm
  let md ← cbsToMd oid
  if algorithm = [] then some md
  else do
    let (param, algorithm) ← readTag asn1Null algorithm
    if param ≠ [] ∨ algorithm ≠ [] then none else some md

variable (input : Bytes)

def parseHashAlgorithm : Option DigestAlgorithm := do
  let md ← evpParseDigestAlgorithm input
  match md with
  | .sha1 => some .sha1
  | .sha256 => some .sha256
  | .sha384 => some .sha384
  | .sha512 => some .sha512
  | .md4 | .md5 | .sha224 => none

/-- The OID and the parameters, which are empty if they are absent. -/
def parseAlgorithmIdentifier : Option (Bytes × Bytes) := do
  let (identifierParser, parser) ← readSequence input
  finished parser
  let (algorithm, identifierParser) ← readTag asn1Object identifierParser
  if identifierParser = [] then some (algorithm, [])
  else do
    let (parameters, identifierParser) ← readRawTlv identifierParser
    finished identifierParser
    some (algorithm, parameters)

def isNull : Bool := readTag asn1Null input = some ([], [])

def isNullOrEmpty : Bool := isNull input || input = []

def parseMaskGenAlgorithm : Option DigestAlgorithm := do
  let (oid, params) ← parseAlgorithmIdentifier input
  if oid ≠ [0x2a, 0x86, 0x48, 0x86, 0xf7, 0x0d, 0x01, 0x01, 0x08] then none
  else parseHashAlgorithm params

def contextTag (n : UInt32) : UInt32 := asn1ContextSpecific ||| asn1Constructed ||| n

def parseRsaPss (params : Bytes) : Option SignatureAlgorithm := do
  let (paramsParser, parser) ← readSequence params
  finished parser
  let (field, paramsParser) ← readTag (contextTag 0) paramsParser
  let hash ← parseHashAlgorithm field
  let (field, paramsParser) ← readTag (contextTag 1) paramsParser
  let mgf1Hash ← parseMaskGenAlgorithm field
  let (saltLengthParser, paramsParser) ← readConstructed (contextTag 2) paramsParser
  let (saltLength, saltLengthParser) ← readUint64 saltLengthParser
  finished saltLengthParser
  finished paramsParser
  if hash ≠ mgf1Hash then none
  else if hash = .sha256 ∧ saltLength = 32 then some .rsaPssSha256
  else if hash = .sha384 ∧ saltLength = 48 then some .rsaPssSha384
  else if hash = .sha512 ∧ saltLength = 64 then some .rsaPssSha512
  else none

/-- The OIDs of RSA with PKCS #1 padding, whose parameters are NULL or absent. -/
def rsaPkcs1Oids : List (Bytes × SignatureAlgorithm) :=
  [([0x2a, 0x86, 0x48, 0x86, 0xf7, 0x0d, 0x01, 0x01, 0x05], .rsaPkcs1Sha1),
    ([0x2a, 0x86, 0x48, 0x86, 0xf7, 0x0d, 0x01, 0x01, 0x0b], .rsaPkcs1Sha256),
    ([0x2a, 0x86, 0x48, 0x86, 0xf7, 0x0d, 0x01, 0x01, 0x0c], .rsaPkcs1Sha384),
    ([0x2a, 0x86, 0x48, 0x86, 0xf7, 0x0d, 0x01, 0x01, 0x0d], .rsaPkcs1Sha512),
    ([0x2b, 0x0e, 0x03, 0x02, 0x1d], .rsaPkcs1Sha1)]

def ecdsaOids : List (Bytes × SignatureAlgorithm) :=
  [([0x2a, 0x86, 0x48, 0xce, 0x3d, 0x04, 0x01], .ecdsaSha1),
    ([0x2a, 0x86, 0x48, 0xce, 0x3d, 0x04, 0x03, 0x02], .ecdsaSha256),
    ([0x2a, 0x86, 0x48, 0xce, 0x3d, 0x04, 0x03, 0x03], .ecdsaSha384),
    ([0x2a, 0x86, 0x48, 0xce, 0x3d, 0x04, 0x03, 0x04], .ecdsaSha512)]

def kOidRsaSsaPss : Bytes := [0x2a, 0x86, 0x48, 0x86, 0xf7, 0x0d, 0x01, 0x01, 0x0a]

def parseSignatureAlgorithm (algorithmIdentifier : Bytes) : Option SignatureAlgorithm := do
  let (oid, params) ← parseAlgorithmIdentifier algorithmIdentifier
  match rsaPkcs1Oids.find? fun entry => entry.1 = oid && isNullOrEmpty params with
  | some entry => some entry.2
  | none =>
    match ecdsaOids.find? fun entry => entry.1 = oid && params = [] with
    | some entry => some entry.2
    | none => if oid = kOidRsaSsaPss then parseRsaPss params else none

/-! ## `pki/general_names.cc` -/

/-- A `GeneralName`, parsed. -/
inductive GeneralName where
  | otherName (value : Bytes)
  | rfc822Name (name : Bytes)
  | dnsName (name : Bytes)
  | x400Address (value : Bytes)
  | directoryName (rdnSequence : Bytes)
  | ediPartyName (value : Bytes)
  | uniformResourceIdentifier (uri : Bytes)
  | ipAddress (address : Bytes)
  | ipAddressRange (address mask : Bytes)
  | registeredId (value : Bytes)
  deriving DecidableEq, Repr

/-- The vectors of `GeneralNames` are the names of each type, in their order. -/
abbrev GeneralNames := List GeneralName

namespace GeneralNames

variable (names : GeneralNames)

def rfc822Names : List Bytes :=
  names.filterMap fun
    | .rfc822Name name => some name
    | _ => none

def dnsNames : List Bytes :=
  names.filterMap fun
    | .dnsName name => some name
    | _ => none

def directoryNames : List Bytes :=
  names.filterMap fun
    | .directoryName name => some name
    | _ => none

def uniformResourceIdentifiers : List Bytes :=
  names.filterMap fun
    | .uniformResourceIdentifier uri => some uri
    | _ => none

def ipAddresses : List Bytes :=
  names.filterMap fun
    | .ipAddress address => some address
    | _ => none

def ipAddressRanges : List (Bytes × Bytes) :=
  names.filterMap fun
    | .ipAddressRange address mask => some (address, mask)
    | _ => none

end GeneralNames

/-- The forms of a `GeneralName`. -/
inductive GeneralNameType where
  | otherName | rfc822Name | dnsName | x400Address | directoryName | ediPartyName
  | uniformResourceIdentifier | ipAddress | registeredId
  deriving DecidableEq, Repr

def GeneralName.type : GeneralName → GeneralNameType
  | .otherName _ => .otherName
  | .rfc822Name _ => .rfc822Name
  | .dnsName _ => .dnsName
  | .x400Address _ => .x400Address
  | .directoryName _ => .directoryName
  | .ediPartyName _ => .ediPartyName
  | .uniformResourceIdentifier _ => .uniformResourceIdentifier
  | .ipAddress _ | .ipAddressRange _ _ => .ipAddress
  | .registeredId _ => .registeredId

def GeneralNames.present (names : GeneralNames) (type : GeneralNameType) : Bool :=
  names.any (·.type = type)

def isAscii (s : Bytes) : Bool := s.all (· ≤ 127)

/-- What comes after the first byte that is not all ones is zero. -/
def isNetmaskTail : Bytes → Bool
  | [] => true
  | b :: rest =>
    if b ≠ 0xff then ~~~b &&& (~~~b + 1) = 0 && rest.all (· = 0) else isNetmaskTail rest

def isValidNetmask (mask : Bytes) : Bool :=
  (mask.length = 4 || mask.length = 16) && isNetmaskTail mask

/-- Whether a mask follows the address. -/
inductive IpAddressType where
  | addressOnly | addressAndNetmask
  deriving DecidableEq, Repr

def asciiName (mk : Bytes → GeneralName) (value : Bytes) : Option GeneralName :=
  if isAscii value then some (mk value) else none

def parseIpAddress (value : Bytes) : IpAddressType → Option GeneralName
  | .addressOnly =>
    if value.length ≠ 4 ∧ value.length ≠ 16 then none else some (.ipAddress value)
  | .addressAndNetmask =>
    if value.length ≠ 8 ∧ value.length ≠ 32 then none
    else
      let addr := value.take (value.length / 2)
      let mask := value.drop (value.length / 2)
      if isValidNetmask mask then some (.ipAddressRange addr mask) else none

def parseGeneralName (ipAddressType : IpAddressType) : Option GeneralName := do
  let ((tag, value), parser) ← readTagAndValue input
  if tag = contextTag 0 then some (.otherName value)
  else if tag = asn1ContextSpecific ||| 1 then asciiName .rfc822Name value
  else if tag = asn1ContextSpecific ||| 2 then asciiName .dnsName value
  else if tag = contextTag 3 then some (.x400Address value)
  else if tag = contextTag 4 then do
    let (nameValue, _) ← readTag asn1Sequence value
    -- The parser that is asked here is the outer one.
    finished parser
    some (.directoryName nameValue)
  else if tag = contextTag 5 then some (.ediPartyName value)
  else if tag = asn1ContextSpecific ||| 6 then asciiName .uniformResourceIdentifier value
  else if tag = asn1ContextSpecific ||| 7 then parseIpAddress value ipAddressType
  else if tag = asn1ContextSpecific ||| 8 then some (.registeredId value)
  else none

def createGeneralNames (generalNamesValue : Bytes) : Option GeneralNames :=
  if generalNamesValue = [] then none
  else do
    let names ← readAll readRawTlv generalNamesValue
    names.mapM (parseGeneralName · .addressOnly)

/-! ## `pki/parsed_certificate.h` -/

/-- The versions of a certificate. -/
inductive CertificateVersion where
  | v1 | v2 | v3
  deriving DecidableEq, Repr, Inhabited

/-- The fields of a `TBSCertificate`. -/
structure ParsedTbsCertificate where
  version : CertificateVersion
  serialNumber : Bytes
  signatureAlgorithmTlv : Bytes
  issuerTlv : Bytes
  validityNotBefore : GeneralizedTime
  validityNotAfter : GeneralizedTime
  subjectTlv : Bytes
  spkiTlv : Bytes
  deriving DecidableEq, Repr, Inhabited

/-- A `BasicConstraints`, parsed. -/
structure ParsedBasicConstraints where
  isCa : Bool
  pathLen : Option UInt8
  deriving DecidableEq, Repr

/-- The types that are constrained follow from the subtrees and from `isCritical`. -/
structure NameConstraints where
  permittedSubtrees : GeneralNames
  excludedSubtrees : GeneralNames
  isCritical : Bool
  deriving DecidableEq, Repr

/-- A `PolicyConstraints`, parsed. -/
structure ParsedPolicyConstraints where
  requireExplicitPolicy : Option UInt8
  inhibitPolicyMapping : Option UInt8
  deriving DecidableEq, Repr

/-- One policy mapped to another. -/
structure ParsedPolicyMapping where
  issuerDomainPolicy : Bytes
  subjectDomainPolicy : Bytes
  deriving DecidableEq, Repr

/-- An extension that is present is `some`. -/
structure ParsedCertificate where
  tbsCertificateTlv : Bytes
  signatureAlgorithmTlv : Bytes
  signatureValue : BitString
  tbs : ParsedTbsCertificate
  signatureAlgorithm : Option SignatureAlgorithm
  normalizedSubject : Bytes
  normalizedIssuer : Bytes
  basicConstraints : Option ParsedBasicConstraints
  keyUsage : Option BitString
  extendedKeyUsage : Option (List Bytes)
  subjectAltNames : Option GeneralNames
  nameConstraints : Option NameConstraints
  policyOids : Option (List Bytes)
  policyConstraints : Option ParsedPolicyConstraints
  policyMappings : Option (List ParsedPolicyMapping)
  inhibitAnyPolicy : Option UInt8
  extensions : List ParsedExtension
  deriving DecidableEq, Repr, Inhabited

/-- A `DistributionPoint`, parsed. -/
structure ParsedDistributionPoint where
  distributionPointFullname : Option GeneralNames
  distributionPointNameRelativeToCrlIssuer : Option Bytes
  reasons : Option Bytes
  crlIssuer : Option Bytes
  deriving DecidableEq, Repr

def keyUsageBitKeyCertSign : ℕ := 5

def keyUsageBitCrlSign : ℕ := 6

def kAnyEku : Bytes := [0x55, 0x1d, 0x25, 0x00]
def kServerAuth : Bytes := [0x2b, 0x06, 0x01, 0x05, 0x05, 0x07, 0x03, 0x01]
def kClientAuth : Bytes := [0x2b, 0x06, 0x01, 0x05, 0x05, 0x07, 0x03, 0x02]
def kCodeSigning : Bytes := [0x2b, 0x06, 0x01, 0x05, 0x05, 0x07, 0x03, 0x03]
def kTimeStamping : Bytes := [0x2b, 0x06, 0x01, 0x05, 0x05, 0x07, 0x03, 0x08]
def kOcspSigning : Bytes := [0x2b, 0x06, 0x01, 0x05, 0x05, 0x07, 0x03, 0x09]

/-- What the revocation checks call and this development does not look into. -/
structure Env where
  digest : EvpMd → Bytes → Option Bytes
  verifySignedData : SignatureAlgorithm → Bytes → BitString → Bytes → Bool
  createCertificate : Bytes → Option ParsedCertificate

end BoringSSL.Pki
