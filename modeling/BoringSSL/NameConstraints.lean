import BoringSSL.PkiCertificate

/-!
# Name constraints

`pki/name_constraints.cc`: the subtrees of an issuer's name constraints are parsed, and the names
of a certificate below it are checked against them.
-/

namespace BoringSSL.Pki

open ByteLib

/-! ## `pki/string_util.cc` -/

def opensslTolower (c : UInt8) : UInt8 := if 0x41 ≤ c ∧ c ≤ 0x5a then c + 0x20 else c

def isEqualNoCase (str1 str2 : Bytes) : Bool := str1.map opensslTolower = str2.map opensslTolower

def endsWithNoCase (str suffix : Bytes) : Bool :=
  suffix.length ≤ str.length && isEqualNoCase suffix (str.drop (str.length - suffix.length))

def splitString (str : Bytes) (splitChar : UInt8) : List Bytes :=
  if str = [] then [] else str.splitOn splitChar

/-- How a wildcard may match. -/
inductive WildcardMatchType where
  | partialMatch | fullMatch
  deriving DecidableEq, Repr

/-- One dot at the end is removed. -/
def removeTrailingDot (name : Bytes) : Bytes :=
  if name.getLast? = some 0x2e then name.dropLast else name

/-- The domain of the constraint after its first label is the domain of the wildcard. -/
def wildcardMatches (name dnsConstraint : Bytes) : Bool :=
  if name.length > 2 ∧ name.take 2 = [0x2a, 0x2e] then
    match dnsConstraint.dropWhile (· ≠ 0x2e) with
    | [] => false
    | _ :: dnsConstraintDomain => isEqualNoCase (name.drop 2) dnsConstraintDomain
  else false

def dnsNameMatches (name dnsConstraint : Bytes) (wildcardMatching : WildcardMatchType) : Bool :=
  if dnsConstraint = [] then true
  else
    let name := removeTrailingDot name
    let dnsConstraint := removeTrailingDot dnsConstraint
    if wildcardMatching = .partialMatch && wildcardMatches name dnsConstraint then true
    else if !endsWithNoCase name dnsConstraint then false
    else if name.length = dnsConstraint.length then true
    else
      let dnsConstraint := if dnsConstraint.head? = some 0x2e then dnsConstraint.tail
        else dnsConstraint
      name.length > dnsConstraint.length
        && name[name.length - dnsConstraint.length - 1]? = some 0x2e

def isAlphaDigit (c : UInt8) : Bool :=
  (0x30 ≤ c && c ≤ 0x39) || (0x61 ≤ c && c ≤ 0x7a) || (0x41 ≤ c && c ≤ 0x5a)

/-- The other characters of a local part. -/
def rfc822LocalPartChars : Bytes :=
  [0x21, 0x23, 0x24, 0x25, 0x26, 0x27, 0x2a, 0x2b, 0x2d, 0x2f, 0x3d, 0x3f, 0x5e, 0x5f, 0x60, 0x7b,
    0x7c, 0x7d, 0x7e, 0x2e]

def isAllowedRfc822LocalPart (localPart : Bytes) : Bool :=
  localPart ≠ [] && localPart.all fun c => isAlphaDigit c || c ∈ rfc822LocalPartChars

def isAllowedRfc822Domain (domain : Bytes) : Bool :=
  domain ≠ [] && domain.all fun c => isAlphaDigit c || c = 0x2d || c = 0x2e

/-- Which subtrees a mailbox is matched with. -/
inductive Rfc822NameMatchType where
  | permitted | excluded
  deriving DecidableEq, Repr

/-- A constraint that is not understood excludes, and permits nothing. -/
def Rfc822NameMatchType.errorValue : Rfc822NameMatchType → Bool
  | permitted => false
  | excluded => true

def rfc822NameMatches (localPart domain rfc822Constraint : Bytes)
    (matchType : Rfc822NameMatchType) (caseInsensitiveLocalPart : Bool) : Bool :=
  match splitString rfc822Constraint 0x40 with
  | [constraintDomain] =>
    if !isAllowedRfc822Domain constraintDomain then matchType.errorValue
    else if constraintDomain.head? = some 0x2e then endsWithNoCase domain constraintDomain
    else isEqualNoCase domain constraintDomain
  | [constraintLocalPart, constraintDomain] =>
    if !isAllowedRfc822LocalPart constraintLocalPart then matchType.errorValue
    else if !isAllowedRfc822Domain constraintDomain then matchType.errorValue
    else
      (if caseInsensitiveLocalPart then isEqualNoCase localPart constraintLocalPart
        else localPart = constraintLocalPart)
        && isEqualNoCase domain constraintDomain
  | _ => matchType.errorValue

def ipAddressMatchesWithNetmask (addr1 addr2 mask : Bytes) : Bool :=
  if addr1.length ≠ addr2.length ∨ addr1.length ≠ mask.length then false
  else List.zipWith (· &&& ·) addr1 mask = List.zipWith (· &&& ·) addr2 mask

namespace NameConstraints

def kSupportedNameTypes : List GeneralNameType :=
  [.rfc822Name, .dnsName, .directoryName, .ipAddress]

variable (nc : NameConstraints)

def constrained (type : GeneralNameType) : Bool :=
  (nc.permittedSubtrees.present type || nc.excludedSubtrees.present type)
    && (nc.isCritical || type ∈ kSupportedNameTypes)

/-- The checks of the four types: a name that an excluded subtree matches is not permitted, and
where subtrees of its type are permitted one of them matches it. -/
def isPermittedName {α : Type} (type : GeneralNameType) (subtrees : GeneralNames → List α)
    (matchesExcluded matchesPermitted : α → Bool) : Bool :=
  if (subtrees nc.excludedSubtrees).any matchesExcluded then false
  else if !nc.permittedSubtrees.present type then true
  else (subtrees nc.permittedSubtrees).any matchesPermitted

def isPermittedRfc822Name (name : Bytes) (caseInsensitiveExcludeLocalpart : Bool) : Bool :=
  match splitString name 0x40 with
  | [localPart, domain] =>
    if !isAllowedRfc822LocalPart localPart || !isAllowedRfc822Domain domain then false
    else nc.isPermittedName .rfc822Name GeneralNames.rfc822Names
      (rfc822NameMatches localPart domain · .excluded caseInsensitiveExcludeLocalpart)
      (rfc822NameMatches localPart domain · .permitted false)
  | _ => false

def isPermittedDnsName (name : Bytes) : Bool :=
  nc.isPermittedName .dnsName GeneralNames.dnsNames (dnsNameMatches name · .partialMatch)
    (dnsNameMatches name · .fullMatch)

def isPermittedDirectoryName (nameRdnSequence : Bytes) : Bool :=
  nc.isPermittedName .directoryName GeneralNames.directoryNames
    (verifyNameInSubtree nameRdnSequence ·) (verifyNameInSubtree nameRdnSequence ·)

def isPermittedIp (ip : Bytes) : Bool :=
  nc.isPermittedName .ipAddress GeneralNames.ipAddressRanges
    (fun range => ipAddressMatchesWithNetmask ip range.1 range.2)
    (fun range => ipAddressMatchesWithNetmask ip range.1 range.2)

/-- The errors of the check. -/
inductive Error where
  | tooManyNameConstraintChecks | notPermittedByNameConstraints
  deriving DecidableEq, Repr

def kMaxChecks : ℕ := 1048576

variable (subjectRdnSequence : Bytes)

/-- The names, and the constraints, that are counted. -/
def checkCounts : Option GeneralNames → ℕ × ℕ
  | some san =>
    (san.rfc822Names.length + san.dnsNames.length + san.directoryNames.length
        + san.ipAddresses.length,
      nc.excludedSubtrees.rfc822Names.length + nc.permittedSubtrees.rfc822Names.length
        + nc.excludedSubtrees.dnsNames.length + nc.permittedSubtrees.dnsNames.length
        + nc.excludedSubtrees.directoryNames.length + nc.permittedSubtrees.directoryNames.length
        + nc.excludedSubtrees.ipAddressRanges.length
        + nc.permittedSubtrees.ipAddressRanges.length)
  | none =>
    (subjectRdnSequence.length,
      nc.excludedSubtrees.directoryNames.length + nc.permittedSubtrees.directoryNames.length)

variable (subjectAltNames : Option GeneralNames)

/-- The product of the counts is one of `size_t`, and an overflow is noticed. -/
def tooManyChecks : Bool :=
  let (nameCount, constraintCount) := nc.checkCounts subjectRdnSequence subjectAltNames
  let checkCount := constraintCount * nameCount % 2 ^ 64
  (constraintCount > 0 && checkCount / constraintCount ≠ nameCount) || checkCount > kMaxChecks

def subjectEmailAddressesToCheck : Option (List Bytes) :=
  if subjectAltNames = none ∧ nc.constrained .rfc822Name then
    findEmailAddressesInName subjectRdnSequence
  else some []

def isPermittedSubjectAltNames (san : GeneralNames) : Bool :=
  if san.any fun name => nc.constrained name.type && name.type ∉ kSupportedNameTypes then false
  else if nc.constrained .rfc822Name && !san.rfc822Names.all (nc.isPermittedRfc822Name · false) then
    false
  else if !san.dnsNames.all nc.isPermittedDnsName then false
  else if !san.directoryNames.all nc.isPermittedDirectoryName then false
  else san.ipAddresses.all nc.isPermittedIp

def isPermittedCert : Option Error :=
  if nc.tooManyChecks subjectRdnSequence subjectAltNames then some .tooManyNameConstraintChecks
  else
    match nc.subjectEmailAddressesToCheck subjectRdnSequence subjectAltNames with
    | none => some .notPermittedByNameConstraints
    | some emailAddresses =>
      if subjectAltNames.any fun san => !nc.isPermittedSubjectAltNames san then
        some .notPermittedByNameConstraints
      else if !emailAddresses.all (nc.isPermittedRfc822Name · true) then
        some .notPermittedByNameConstraints
      else if subjectAltNames.isSome ∧ subjectRdnSequence = [] then none
      else if !nc.isPermittedDirectoryName subjectRdnSequence then
        some .notPermittedByNameConstraints
      else none

end NameConstraints

end BoringSSL.Pki
