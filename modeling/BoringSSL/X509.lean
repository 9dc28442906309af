import BoringSSL.Asn1Time

/-!
# Certificates, `crypto/x509/v3_purp.cc`, `x509_trs.cc` and `x509_cmp.cc`

`Cert` is what a certificate's encoding says; two certificates are the same byte for byte when these
are equal.  An `X509` is an object with a certificate: its address, the certificate and the trust
settings that were loaded with it.  So two pointers are equal when the objects are.

An extension is absent, malformed or present with its value (`X509_get_ext_d2i`).
-/

namespace BoringSSL

open ByteLib

/-- The results of verification. -/
inductive X509V
  | ok | unspecified | unableToGetIssuerCert | unableToGetIssuerCertLocally
  | unableToDecodeIssuerPublicKey | certSignatureFailure | certNotYetValid | certHasExpired
  | errorInCertNotBeforeField | errorInCertNotAfterField | outOfMem | depthZeroSelfSignedCert
  | selfSignedCertInChain | unableToVerifyLeafSignature | certRevoked | invalidCa
  | pathLengthExceeded | invalidPurpose | certRejected | subjectIssuerMismatch | akidSkidMismatch
  | akidIssuerSerialMismatch | keyusageNoCertsign | unhandledCriticalExtension | invalidExtension
  | invalidPolicy | permittedViolation | excludedViolation | subtreeMinmax
  | unsupportedConstraintType | unsupportedNameSyntax | hostnameMismatch | emailMismatch
  | ipAddressMismatch | invalidCall | nameConstraintsWithoutSans
  deriving DecidableEq, Repr

/-- `ASN1_STRING`. -/
structure Asn1String where
  type : ℕ
  data : Bytes
  deriving DecidableEq, Repr

def vAsn1Ia5String : ℕ := 22

/-- `X509_NAME_ENTRY`. -/
structure NameEntry where
  nid : ℕ
  data : Asn1String
  deriving DecidableEq, Repr

/-- `X509_NAME` with its canonical form. -/
structure X509Name where
  entries : List NameEntry
  canonEnc : Bytes
  deriving DecidableEq, Repr

def X509Name.eq (a b : X509Name) : Bool := a.canonEnc = b.canonEnc

/-- The values of the entries with a NID, in the order `X509_NAME_get_index_by_NID` finds them. -/
def X509Name.byNid (name : X509Name) (nid : ℕ) : List Asn1String :=
  (name.entries.filter (·.nid = nid)).map (·.data)

def nidCommonName : ℕ := 13

def nidPkcs9EmailAddress : ℕ := 48

/-- `GENERAL_NAME`.  The strings of the first three are of type `V_ASN1_IA5STRING`. -/
inductive GeneralName
  | email (rfc822Name : Bytes)
  | dns (dNSName : Bytes)
  | uri (uniformResourceIdentifier : Bytes)
  | dirname (directoryName : X509Name)
  | ipadd (iPAddress : Bytes)
  | othername (value : Bytes)
  | x400 (value : Bytes)
  | ediparty (value : Bytes)
  | rid (value : Bytes)
  deriving DecidableEq, Repr

/-- The forms of a `GENERAL_NAME`. -/
inductive GenType
  | email | dns | uri | dirname | ipadd | othername | x400 | ediparty | rid
  deriving DecidableEq, Repr

def GeneralName.type : GeneralName → GenType
  | email _ => .email
  | dns _ => .dns
  | uri _ => .uri
  | dirname _ => .dirname
  | ipadd _ => .ipadd
  | othername _ => .othername
  | x400 _ => .x400
  | ediparty _ => .ediparty
  | rid _ => .rid

/-- `GENERAL_SUBTREE`; `minimum` and `maximum` say whether these are present. -/
structure GeneralSubtree where
  base : GeneralName
  minimum : Bool
  maximum : Bool
  deriving DecidableEq, Repr

/-- `NAME_CONSTRAINTS`. -/
structure NameConstraints where
  permittedSubtrees : List GeneralSubtree
  excludedSubtrees : List GeneralSubtree
  deriving DecidableEq, Repr

/-- `AUTHORITY_KEYID`. -/
structure AuthorityKeyid where
  keyid : Option Bytes
  issuer : Option (List GeneralName)
  serial : Option ℤ
  deriving DecidableEq, Repr

/-- `BASIC_CONSTRAINTS`. -/
structure BasicConstraints where
  ca : Bool
  pathlen : Option ℤ
  deriving DecidableEq, Repr

/-- What `X509_get_ext_d2i` finds of an extension. -/
inductive Ext (α : Type)
  | absent
  | invalid
  | present (value : α)
  deriving DecidableEq, Repr

def Ext.get {α : Type} : Ext α → Option α
  | present value => some value
  | _ => none

/-- It returns `NULL` for another reason than the extension's absence. -/
def Ext.isInvalid {α : Type} : Ext α → Bool
  | invalid => true
  | _ => false

/-- `ASN1_TIME` in either form. -/
structure Asn1Time where
  isGentime : Bool
  data : Bytes
  deriving DecidableEq, Repr

def asn1TimeToPosix (t : Asn1Time) : Option ℤ := do
  let tm ← (if t.isGentime then cbsParseGeneralizedTime t.data true false
    else cbsParseUtcTime t.data true false)
  opensslTmToPosix (← tm)

/-- The contents of a certificate.  `rest` is what the other fields leave out. -/
structure Cert where
  isVersion1 : Bool
  serialNumber : ℤ
  issuer : X509Name
  subject : X509Name
  notBefore : Asn1Time
  notAfter : Asn1Time
  /-- `X509_get0_pubkey`, if the key can be decoded. -/
  pubkey : Option Bytes
  basicConstraints : Ext BasicConstraints
  keyUsage : Ext Bytes
  skid : Ext Bytes
  akid : Ext AuthorityKeyid
  altname : Ext (List GeneralName)
  nc : Ext NameConstraints
  /-- The extended key usage or the CRL distribution points cannot be parsed. -/
  othersInvalid : Bool
  /-- There is a critical extension that is not supported. -/
  unsupportedCritical : Bool
  rest : Bytes
  deriving DecidableEq, Repr

namespace Cert

variable (x : Cert)

/-! ## `x509v3_cache_extensions` -/

def exKusage : Bytes → ℕ
  | [] => 0
  | [b0] => b0.toNat
  | b0 :: b1 :: _ => b0.toNat ||| (b1.toNat <<< 8)

def x509v3KuKeyCertSign : ℕ := 0x0004

def kuReject (usage : ℕ) : Bool :=
  match x.keyUsage.get with
  | some data => exKusage data &&& usage = 0
  | none => false

/-- The first directory name of the issuer of a key identifier. -/
def firstDirname : List GeneralName → Option X509Name
  | [] => none
  | .dirname nm :: _ => some nm
  | _ :: gens => firstDirname gens

def x509CheckAkid (akid : Option AuthorityKeyid) : X509V :=
  match akid with
  | none => .ok
  | some akid =>
    if akid.keyid.isSome ∧ x.skid.get.isSome ∧ akid.keyid ≠ x.skid.get then .akidSkidMismatch
    else if akid.serial.isSome ∧ akid.serial ≠ some x.serialNumber then .akidIssuerSerialMismatch
    else
      match akid.issuer.bind firstDirname with
      | some nm => if !nm.eq x.issuer then .akidIssuerSerialMismatch else .ok
      | none => .ok

def longMax : ℤ := 2 ^ 63 - 1

/-- `ASN1_INTEGER_get`, of an integer that is not negative. -/
def asn1IntegerGet (a : ℤ) : ℤ := if a ≤ longMax then a else -1

/-- The path length constraint is negative, or not that of a CA. -/
def badPathlen : Bool :=
  match x.basicConstraints.get with
  | some ⟨ca, some pathlen⟩ => pathlen < 0 || !ca
  | _ => false

def exPathlen : ℤ :=
  match x.basicConstraints.get with
  | some ⟨_, some pathlen⟩ => if x.badPathlen then 0 else asn1IntegerGet pathlen
  | _ => -1

def exInvalid : Bool :=
  x.badPathlen || x.basicConstraints.isInvalid || x.keyUsage.isInvalid || x.skid.isInvalid
    || x.akid.isInvalid || x.altname.isInvalid || x.nc.isInvalid || x.othersInvalid

/-- `EXFLAG_SI`: the certificate is self-issued. -/
def exSi : Bool := x.subject.eq x.issuer

/-- `EXFLAG_SS`: the certificate is likely self-signed. -/
def exSs : Bool :=
  x.exSi && x.x509CheckAkid x.akid.get = .ok && !x.kuReject x509v3KuKeyCertSign

def exCa : Bool := (x.basicConstraints.get.map (·.ca)).getD false

def x509v3CacheExtensions : Bool := !x.exInvalid

def x509CheckIssued (subject : Cert) : X509V :=
  if !x.subject.eq subject.issuer then .subjectIssuerMismatch
  else if !x.x509v3CacheExtensions || !subject.x509v3CacheExtensions then .unspecified
  else if subject.akid.get.isSome ∧ x.x509CheckAkid subject.akid.get ≠ .ok then
    x.x509CheckAkid subject.akid.get
  else if x.kuReject x509v3KuKeyCertSign then .keyusageNoCertsign
  else .ok

def x509CheckCa : Bool :=
  if !x.x509v3CacheExtensions then false
  else if x.kuReject x509v3KuKeyCertSign then false
  else if x.isVersion1 && x.exSs then true
  else x.basicConstraints.get.isSome && x.exCa

end Cert

/-- `X509_CERT_AUX`: the NIDs it trusts and rejects the certificate for. -/
structure CertAux where
  trust : Option (List ℤ)
  reject : Option (List ℤ)
  deriving DecidableEq, Repr

/-- A certificate in memory. -/
structure X509 where
  addr : ℕ
  cert : Cert
  aux : Option CertAux
  deriving DecidableEq, Repr

/-! ## `X509_check_trust` -/

/-- Whether a certificate is trusted. -/
inductive TrustResult
  | trusted | rejected | untrusted
  deriving DecidableEq, Repr

namespace X509

variable (x : X509)

def nidAnyExtendedKeyUsage : ℤ := 910

def objTrust (id : ℤ) : TrustResult :=
  match x.aux with
  | none => .untrusted
  | some ax =>
    if id ∈ ax.reject.getD [] then .rejected
    else if id ∈ ax.trust.getD [] then .trusted
    else .untrusted

def trustCompat : TrustResult :=
  if !x.cert.x509v3CacheExtensions then .untrusted
  else if x.cert.exSs then .trusted
  else .untrusted

def trust1oidany (nid : ℤ) : TrustResult :=
  match x.aux with
  | some ax => if ax.trust.isSome ∨ ax.reject.isSome then x.objTrust nid else x.trustCompat
  | none => x.trustCompat

/-- The NIDs of `trstandard`, by trust identifier; `X509_TRUST_COMPAT` has none. -/
def trstandard : List (ℤ × Option ℤ) :=
  [(1, none), (2, some 130), (3, some 129), (4, some 132), (5, some 131), (8, some 133)]

def x509CheckTrust (id : ℤ) : TrustResult :=
  if id = -1 then .trusted
  else if id = 0 then
    let rv := x.objTrust nidAnyExtendedKeyUsage
    if rv ≠ .untrusted then rv else x.trustCompat
  else
    match trstandard.lookup id with
    | none => x.objTrust id
    | some none => x.trustCompat
    | some (some nid) => x.trust1oidany nid

end X509

end BoringSSL
