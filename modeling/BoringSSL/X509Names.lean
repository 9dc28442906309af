import BoringSSL.X509

/-!
# Names of certificates, `crypto/x509/v3_ncons.cc` and `v3_utl.cc`

The checks of a certificate's names against name constraints, and of a name the application expects
against a certificate.  `toUtf8` is `ASN1_STRING_to_UTF8`, which may fail.
-/

namespace BoringSSL

open ByteLib

def opensslIsalpha (c : UInt8) : Bool :=
  ('a'.toUInt8 ≤ c && c ≤ 'z'.toUInt8) || ('A'.toUInt8 ≤ c && c ≤ 'Z'.toUInt8)

def opensslIsalnum (c : UInt8) : Bool := opensslIsalpha c || opensslIsdigit c

def opensslTolower (c : UInt8) : UInt8 :=
  if 'A'.toUInt8 ≤ c ∧ c ≤ 'Z'.toUInt8 then c + ('a'.toUInt8 - 'A'.toUInt8) else c

namespace NameCheck

def startsWith (cbs : Bytes) (c : UInt8) : Bool := cbs.head? = some c

/-- `equal_case` of `v3_ncons.cc`, which ignores the case. -/
def equalCase (a b : Bytes) : Bool :=
  if a.length ≠ b.length then false
  else (a.zip b).all fun (l, r) => opensslTolower l = opensslTolower r

def hasSuffixCase (a b : Bytes) : Bool :=
  if a.length < b.length then false else equalCase (a.drop (a.length - b.length)) b

/-- `CBS_get_until_first`: what is before the character, and what is left. -/
def cbsGetUntilFirst (cbs : Bytes) (c : UInt8) : Option (Bytes × Bytes) :=
  if c ∈ cbs then some (cbs.takeWhile (· ≠ c), cbs.dropWhile (· ≠ c)) else none

def ncDn (nm base : X509Name) : X509V :=
  if base.canonEnc.length > nm.canonEnc.length then .permittedViolation
  else if base.canonEnc ≠ nm.canonEnc.take base.canonEnc.length then .permittedViolation
  else .ok

def ncDns (dns base : Bytes) : X509V :=
  if base.length = 0 then .ok
  else if startsWith base '.'.toUInt8 then
    if hasSuffixCase dns base then .ok else .permittedViolation
  else if dns.length > base.length then
    -- what is left of the name must be preceded by a dot
    match dns.drop (dns.length - base.length - 1) with
    | dot :: dns =>
      if dot ≠ '.'.toUInt8 then .permittedViolation
      else if !equalCase dns base then .permittedViolation
      else .ok
    | [] => .permittedViolation
  else if !equalCase dns base then .permittedViolation
  else .ok

def ncEmail (eml base : Bytes) : X509V :=
  match cbsGetUntilFirst eml '@'.toUInt8 with
  | none => .unsupportedNameSyntax
  | some (emlLocal, eml) =>
    match cbsGetUntilFirst base '@'.toUInt8 with
    | none =>
      if startsWith base '.'.toUInt8 then
        if hasSuffixCase eml base then .ok else .permittedViolation
      else if !equalCase base (eml.drop 1) then .permittedViolation
      else .ok
    | some (baseLocal, base) =>
      if baseLocal.length > 0 ∧ baseLocal ≠ emlLocal then .permittedViolation
      else if !equalCase (base.drop 1) (eml.drop 1) then .permittedViolation
      else .ok

/-- The host of a URI, after its scheme. -/
def uriHost (uri : Bytes) : Option Bytes :=
  match cbsGetUntilFirst uri ':'.toUInt8 with
  | some (_, _ :: slash :: slash' :: uri) =>
    if slash ≠ '/'.toUInt8 ∨ slash' ≠ '/'.toUInt8 then none
    else
      match cbsGetUntilFirst uri ':'.toUInt8 with
      | some (host, _) => some host
      | none =>
        match cbsGetUntilFirst uri '/'.toUInt8 with
        | some (host, _) => some host
        | none => some uri
  | _ => none

def ncUri (uri base : Bytes) : X509V :=
  match uriHost uri with
  | none => .unsupportedNameSyntax
  | some host =>
    if host.length = 0 then .unsupportedNameSyntax
    else if startsWith base '.'.toUInt8 then
      if hasSuffixCase host base then .ok else .permittedViolation
    else if !equalCase base host then .permittedViolation
    else .ok

def ncMatchSingle (gen base : GeneralName) : X509V :=
  match gen, base with
  | .dirname nm, .dirname base => ncDn nm base
  | .dns dns, .dns base => ncDns dns base
  | .email eml, .email base => ncEmail eml base
  | .uri uri, .uri base => ncUri uri base
  | _, _ => .unsupportedConstraintType

def matchPermitted (gen : GeneralName) : List GeneralSubtree → ℕ → X509V × ℕ
  | [], matched => (.ok, matched)
  | sub :: subs, matched =>
    if gen.type ≠ sub.base.type then matchPermitted gen subs matched
    else if sub.minimum || sub.maximum then (.subtreeMinmax, matched)
    else if matched = 2 then matchPermitted gen subs matched
    else
      match ncMatchSingle gen sub.base with
      | .ok => matchPermitted gen subs 2
      | .permittedViolation => matchPermitted gen subs 1
      | r => (r, matched)

def matchExcluded (gen : GeneralName) : List GeneralSubtree → X509V
  | [] => .ok
  | sub :: subs =>
    if gen.type ≠ sub.base.type then matchExcluded gen subs
    else if sub.minimum || sub.maximum then .subtreeMinmax
    else
      match ncMatchSingle gen sub.base with
      | .ok => .excludedViolation
      | .permittedViolation => matchExcluded gen subs
      | r => r

def ncMatch (gen : GeneralName) (nc : NameConstraints) : X509V :=
  match matchPermitted gen nc.permittedSubtrees 0 with
  | (.ok, matched) =>
    if matched = 1 then .permittedViolation else matchExcluded gen nc.excludedSubtrees
  | (r, _) => r

/-- The first of the names that does not obey the constraints says why. -/
def ncMatchAll (nc : NameConstraints) : List GeneralName → X509V
  | [] => .ok
  | gen :: gens =>
    match ncMatch gen nc with
    | .ok => ncMatchAll nc gens
    | r => r

/-- The email addresses of a subject, checked one after the other. -/
def ncMatchEmails (nc : NameConstraints) : List Asn1String → X509V
  | [] => .ok
  | data :: rest =>
    if data.type ≠ vAsn1Ia5String then .unsupportedNameSyntax
    else
      match ncMatch (.email data.data) nc with
      | .ok => ncMatchEmails nc rest
      | r => r

def nameConstraintsCheck (x : Cert) (nc : NameConstraints) : X509V :=
  let nm := x.subject
  let altname := x.altname.get.getD []
  -- neither of the counts overflows: the lists are in memory
  let nameCount := nm.entries.length + altname.length
  let constraintCount := nc.permittedSubtrees.length + nc.excludedSubtrees.length
  if constraintCount * nameCount > 2 ^ 20 then .unspecified
  else
    let r :=
      if nm.entries.length > 0 then
        match ncMatch (.dirname nm) nc with
        | .ok => ncMatchEmails nc (nm.byNid nidPkcs9EmailAddress)
        | r => r
      else .ok
    match r with
    | .ok => ncMatchAll nc altname
    | r => r

/-- `equal_nocase`, of strings of one length: the pattern must not contain a zero. -/
def equalNocaseChars : Bytes → Bytes → Bool
  | l :: pattern, r :: subject =>
    if l = 0 then false
    else if l ≠ r ∧ opensslTolower l ≠ opensslTolower r then false
    else equalNocaseChars pattern subject
  | _, _ => true

variable (pattern subject : Bytes)

def equalNocase : Bool :=
  if pattern.length ≠ subject.length then false else equalNocaseChars pattern subject

def equalExact : Bool := pattern = subject

/-- The loop of `equal_email`: the place of the last `@` of either, if the rest of both is equal. -/
def emailAt (a b : Bytes) : ℕ → Option ℕ
  | 0 => some 0
  | i + 1 =>
    if a[i]? = some '@'.toUInt8 ∨ b[i]? = some '@'.toUInt8 then
      if !equalNocase (a.drop i) (b.drop i) then none else some i
    else emailAt a b i

def equalEmail (a b : Bytes) : Bool :=
  if a.length ≠ b.length then false
  else
    match emailAt a b a.length with
    | none => false
    | some i =>
      let i := if i = 0 then a.length else i
      equalExact (a.take i) (b.take i)

/-- `OPENSSL_strncasecmp(s, "xn--", 4) == 0`, of a string of four characters at least. -/
def isIdna (s : Bytes) : Bool :=
  (s.take 4).map opensslTolower = ['x'.toUInt8, 'n'.toUInt8, '-'.toUInt8, '-'.toUInt8]

def wildcardMatch (pre suffix subject : Bytes) : Bool :=
  if subject.length < pre.length + suffix.length then false
  else if !equalNocase pre (subject.take pre.length) then false
  else
    let wildcard := (subject.drop pre.length).take (subject.length - suffix.length - pre.length)
    let wildcardEnd := subject.drop (subject.length - suffix.length)
    if !equalNocase wildcardEnd suffix then false
    else
      let allowIdna := pre.length = 0 ∧ suffix.head? = some '.'.toUInt8
      if allowIdna ∧ wildcard.length = 0 then false
      else if ¬ allowIdna ∧ subject.length ≥ 4 ∧ isIdna subject then false
      else if wildcard = ['*'.toUInt8] then true
      else wildcard.all fun p => opensslIsalnum p || p = '-'.toUInt8

/-- `state` and the other variables of `valid_star`. -/
structure StarState where
  labelStart : Bool
  labelHyphen : Bool
  labelIdna : Bool
  dots : ℕ
  star : Option ℕ
  deriving DecidableEq, Repr

/-- The loop of `valid_star`, from the place `i` on; `none` where it returns `NULL`. -/
def validStarLoop : Bytes → ℕ → StarState → Option StarState
  | [], _, st => some st
  | c :: p, i, st =>
    if c = '*'.toUInt8 then
      let atend := p = [] ∨ p.head? = some '.'.toUInt8
      if st.star.isSome ∨ st.labelIdna ∨ st.dots ≠ 0 then none
      else if !st.labelStart ∨ ¬ atend then none
      else validStarLoop p (i + 1) { st with star := some i, labelStart := false }
    else if opensslIsalnum c then
      let idna := st.labelStart ∧ (c :: p).length ≥ 4 ∧ isIdna (c :: p)
      validStarLoop p (i + 1)
        { st with labelIdna := st.labelIdna || idna, labelHyphen := false, labelStart := false }
    else if c = '.'.toUInt8 then
      if st.labelHyphen ∨ st.labelStart then none
      else
        validStarLoop p (i + 1)
          { st with
            labelStart := true
            labelHyphen := false
            labelIdna := false
            dots := st.dots + 1 }
    else if c = '-'.toUInt8 then
      if st.labelStart then none else validStarLoop p (i + 1) { st with labelHyphen := true }
    else none

def validStar (p : Bytes) : Option ℕ := do
  let st ← validStarLoop p 0 ⟨true, false, false, 0, none⟩
  if st.labelStart ∨ st.labelHyphen ∨ st.dots < 2 then none else st.star

def equalWildcard : Bool :=
  let star :=
    if subject.length > 1 ∧ subject.head? = some '.'.toUInt8 then none else validStar pattern
  match star with
  | none => equalNocase pattern subject
  | some star => wildcardMatch (pattern.take star) (pattern.drop (star + 1)) subject

def dnsLabels (len : ℕ) : Bytes → ℕ → ℕ → Bool
  | [], _, _ => true
  | c :: s, i, labelStart =>
    if opensslIsalnum c ∨ (c = '-'.toUInt8 ∧ i > labelStart) ∨ c = '_'.toUInt8 ∨ c = ':'.toUInt8
    then dnsLabels len s (i + 1) labelStart
    else if c = '.'.toUInt8 ∧ i > labelStart ∧ i < len - 1 then dnsLabels len s (i + 1) (i + 1)
    else false

def x509v3LooksLikeDnsName (s : Bytes) : Bool :=
  let s := if s.getLast? = some '.'.toUInt8 then s.dropLast else s
  let s := if s.take 2 = ['*'.toUInt8, '.'.toUInt8] then s.drop 2 else s
  if s.length = 0 then false else dnsLabels s.length s 0 0

/-- The kind of name `do_x509_check` looks for. -/
inductive CheckType
  | email | dns | ipadd
  deriving DecidableEq, Repr

section Check

variable (toUtf8 : Asn1String → Option Bytes)

/-- `X509_CHECK_FLAG_NO_WILDCARDS` and `X509_CHECK_FLAG_NEVER_CHECK_SUBJECT`. -/
structure HostFlags where
  noWildcards : Bool
  neverCheckSubject : Bool
  deriving DecidableEq, Repr

variable (checkType : CheckType)

def equalFn (flags : HostFlags) : Bytes → Bytes → Bool :=
  match checkType with
  | .email => equalEmail
  | .dns => if flags.noWildcards then equalNocase else equalWildcard
  | .ipadd => equalExact

/-- `do_check_string` of an alternative name; its string has the type that is asked for. -/
def checkAltString (flags : HostFlags) (a chk : Bytes) : ℤ :=
  if a.length = 0 then 0
  else
    match checkType with
    | .ipadd => if a = chk then 1 else 0
    | _ => if equalFn checkType flags a chk then 1 else 0

/-- `do_check_string` of an attribute of the subject. -/
def checkSubjectString (flags : HostFlags) (a : Asn1String) (chk : Bytes) : ℤ :=
  if a.data.length = 0 then 0
  else
    match toUtf8 a with
    | none => -1
    | some astr =>
      if checkType = .dns ∧ !x509v3LooksLikeDnsName astr then 0
      else if equalFn checkType flags astr chk then 1
      else 0

/-- The string of a general name of the type that is checked. -/
def altString (gen : GeneralName) : Option Bytes :=
  match checkType, gen with
  | .email, .email rfc822Name => some rfc822Name
  | .dns, .dns dNSName => some dNSName
  | .ipadd, .ipadd iPAddress => some iPAddress
  | _, _ => none

def firstNonzero : List ℤ → ℤ
  | [] => 0
  | rv :: rest => if rv ≠ 0 then rv else firstNonzero rest

def doX509Check (x : Cert) (chk : Bytes) (flags : HostFlags) (checkType : CheckType) : ℤ :=
  match x.altname.get with
  | some gens =>
    firstNonzero ((gens.filterMap (altString checkType)).map fun a =>
      checkAltString checkType flags a chk)
  | none =>
    match checkType with
    | .ipadd => 0
    | .email =>
      if flags.neverCheckSubject then 0
      else firstNonzero ((x.subject.byNid nidPkcs9EmailAddress).map fun a =>
        checkSubjectString toUtf8 checkType flags a chk)
    | .dns =>
      if flags.neverCheckSubject then 0
      else firstNonzero ((x.subject.byNid nidCommonName).map fun a =>
        checkSubjectString toUtf8 checkType flags a chk)

def x509CheckHost (x : Cert) (chk : Bytes) (flags : HostFlags) : ℤ :=
  if (0 : UInt8) ∈ chk then -2 else doX509Check toUtf8 x chk flags .dns

def x509CheckEmail (x : Cert) (chk : Bytes) (flags : HostFlags) : ℤ :=
  if (0 : UInt8) ∈ chk then -2 else doX509Check toUtf8 x chk flags .email

def x509CheckIp (x : Cert) (chk : Bytes) (flags : HostFlags) : ℤ :=
  doX509Check toUtf8 x chk flags .ipadd

end Check

end NameCheck

end BoringSSL
