import BoringSSL.PkiParser

/-!
# `pki/verify_name_match.cc`, and `pki/parse_name.cc` as far as it uses it

A name is the contents of its RDNSequence.  A CBB that is written to is the bytes written so far;
what `CBB_add_asn1` opens is closed when its body is complete, and then the length is known to fit.
-/

namespace BoringSSL.Pki

open ByteLib

def isValidCodePoint (v : UInt32) : Bool :=
  !(v > 0x10ffff || v &&& 0xfffe = 0xfffe || (v ≥ 0xfdd0 && v ≤ 0xfdef) ||
    (v ≥ 0xd800 && v ≤ 0xdfff))

def cbbAddUtf8 (u : UInt32) : Option Bytes :=
  if !isValidCodePoint u then none
  else if u ≤ 0x7f then some [u.toUInt8]
  else if u ≤ 0x7ff then
    some [(0xc0 : UInt8) ||| (u >>> 6).toUInt8, (0x80 : UInt8) ||| (u &&& 0x3f).toUInt8]
  else if u ≤ 0xffff then
    some [(0xe0 : UInt8) ||| (u >>> 12).toUInt8, (0x80 : UInt8) ||| (u >>> 6 &&& 0x3f).toUInt8,
      (0x80 : UInt8) ||| (u &&& 0x3f).toUInt8]
  else if u ≤ 0x10ffff then
    some [(0xf0 : UInt8) ||| (u >>> 18).toUInt8, (0x80 : UInt8) ||| (u >>> 12 &&& 0x3f).toUInt8,
      (0x80 : UInt8) ||| (u >>> 6 &&& 0x3f).toUInt8, (0x80 : UInt8) ||| (u &&& 0x3f).toUInt8]
  else none

/-- `CBS_get_ucs2_be` and `CBS_get_utf32_be`: a character of `width` bytes. -/
def cbsGetCodePoint (width : ℕ) (cbs : Bytes) : Option (UInt32 × Bytes) := do
  let (c, cbs) ← cbsGetU cbs width
  if isValidCodePoint c.toUInt32 then some (c.toUInt32, cbs) else none

/-- The loop of `ParseUniversalString` and `ParseBmpString`. -/
def parseWideString (width : ℕ) (v : Bytes) : Option Bytes := do
  if v.length % width ≠ 0 then none
  else do
    let codePoints ← readAll (cbsGetCodePoint width) v
    let chars ← codePoints.mapM cbbAddUtf8
    some chars.flatten

def parseUniversalString (v : Bytes) : Option Bytes := parseWideString 4 v

def parseBmpString (v : Bytes) : Option Bytes := parseWideString 2 v

/-- An attribute of a name. -/
structure X509NameAttribute where
  type : Bytes
  valueTag : UInt32
  value : Bytes
  deriving DecidableEq, Repr

variable (a : X509NameAttribute)

def X509NameAttribute.valueAsStringUnsafe : Option Bytes :=
  if a.valueTag = asn1Ia5String ∨ a.valueTag = asn1PrintableString ∨ a.valueTag = asn1T61String
      ∨ a.valueTag = asn1Utf8String then some a.value
  else if a.valueTag = asn1UniversalString then parseUniversalString a.value
  else if a.valueTag = asn1BmpString then parseBmpString a.value
  else none

def parseTeletexStringAsLatin1 (v : Bytes) : Bytes :=
  v.flatMap fun u =>
    if u ≤ 0x7f then [u] else [(0xc0 : UInt8) ||| u >>> 6, (0x80 : UInt8) ||| (u &&& 0x3f)]

def parseIa5String (v : Bytes) : Option Bytes := if v.all (· ≤ 0x7f) then some v else none

def parsePrintableString (v : Bytes) : Option Bytes :=
  if v.all fun c => (0x61 ≤ c && c ≤ 0x7a) || (0x41 ≤ c && c ≤ 0x5a) || c = 0x20
      || (0x27 ≤ c && c ≤ 0x3a) || c = 0x3d || c = 0x3f then some v
  else none

def X509NameAttribute.valueAsString : Option Bytes :=
  if a.valueTag = asn1T61String then some (parseTeletexStringAsLatin1 a.value)
  else if a.valueTag = asn1Ia5String then parseIa5String a.value
  else if a.valueTag = asn1PrintableString then parsePrintableString a.value
  else if a.valueTag = asn1Utf8String then some a.value
  else if a.valueTag = asn1UniversalString then parseUniversalString a.value
  else if a.valueTag = asn1BmpString then parseBmpString a.value
  else none

/-- Which characters a value may have. -/
inductive CharsetEnforcement where
  | noEnforcement | enforcePrintableString | enforceAscii
  deriving DecidableEq, Repr

def CharsetEnforcement.allows (c : UInt8) : CharsetEnforcement → Bool
  | enforcePrintableString =>
    (0x61 ≤ c && c ≤ 0x7a) || (0x27 ≤ c && c ≤ 0x3a) || c = 0x3d || c = 0x3f
  | enforceAscii => c ≤ 0x7f
  | noEnforcement => true

/-- The second loop, which looks at the next character before it writes a space. -/
def normalizeRest (charset : CharsetEnforcement) : Bytes → Option Bytes
  | [] => some []
  | c :: rest =>
    if c = 0x20 then
      match rest with
      | [] => normalizeRest charset rest
      | next :: _ =>
        if next ≠ 0x20 then (normalizeRest charset rest).map (0x20 :: ·)
        else normalizeRest charset rest
    else if 0x41 ≤ c ∧ c ≤ 0x5a then (normalizeRest charset rest).map ((c + 0x20) :: ·)
    else if charset.allows c then (normalizeRest charset rest).map (c :: ·)
    else none

def normalizeDirectoryString (charset : CharsetEnforcement) (s : Bytes) : Option Bytes :=
  normalizeRest charset (s.dropWhile (· = 0x20))

def normalizeValue : Option Bytes := do
  let output ← a.valueAsStringUnsafe
  if a.valueTag = asn1PrintableString then normalizeDirectoryString .enforcePrintableString output
  else if a.valueTag = asn1BmpString ∨ a.valueTag = asn1UniversalString
      ∨ a.valueTag = asn1Utf8String then normalizeDirectoryString .noEnforcement output
  else if a.valueTag = asn1Ia5String then normalizeDirectoryString .enforceAscii output
  else none

def isNormalizableDirectoryString (tag : UInt32) : Bool :=
  tag = asn1PrintableString || tag = asn1Utf8String || tag = asn1Ia5String ||
    tag = asn1UniversalString || tag = asn1BmpString

def readAttribute (parser : Bytes) : Option (X509NameAttribute × Bytes) := do
  let (attrTypeAndValue, parser) ← readSequence parser
  let (type, attrTypeAndValue) ← readTag asn1Object attrTypeAndValue
  let ((tag, value), attrTypeAndValue) ← readTagAndValue attrTypeAndValue
  finished attrTypeAndValue
  some (⟨type, tag, value⟩, parser)

def readRdn (parser : Bytes) : Option (List X509NameAttribute) := do
  let out ← readAll readAttribute parser
  if out = [] then none else some out

def verifyValueMatch (a b : X509NameAttribute) : Bool :=
  if isNormalizableDirectoryString a.valueTag && isNormalizableDirectoryString b.valueTag then
    match normalizeValue a, normalizeValue b with
    | some aNormalized, some bNormalized => aNormalized = bNormalized
    | _, _ => false
  else if a.valueTag ≠ b.valueTag then false
  else a.value = b.value

/-- The loop over the attributes of the first RDN; what one matches leaves the second. -/
def verifyAttributesMatch : List X509NameAttribute → List X509NameAttribute → Bool
  | [], _ => true
  | a :: as, bs =>
    let matching := fun b : X509NameAttribute => a.type = b.type && verifyValueMatch a b
    if bs.any matching then verifyAttributesMatch as (bs.eraseP matching) else false

def verifyRdnMatch (aParser bParser : Bytes) : Bool :=
  match readRdn aParser, readRdn bParser with
  | some as, some bs => as.length = bs.length && verifyAttributesMatch as bs
  | _, _ => false

/-- Whether names or subtrees are matched. -/
inductive NameMatchType where
  | exactMatch | subtreeMatch
  deriving DecidableEq, Repr

/-- The loop that only counts: the counters when one has no more. -/
def countRdns : ℕ → Bytes → Bytes → Option (Bytes × Bytes)
  | _, [], b => some ([], b)
  | _, a, [] => some (a, [])
  | 0, _ :: _, _ :: _ => none
  | fuel + 1, x :: a, y :: b => do
    let (_, a) ← readTag asn1Set (x :: a)
    let (_, b) ← readTag asn1Set (y :: b)
    countRdns fuel a b

def matchRdns : ℕ → Bytes → Bytes → Bool
  | _, [], _ => true
  | _, _, [] => true
  | 0, _ :: _, _ :: _ => false
  | fuel + 1, x :: a, y :: b =>
    match readConstructed asn1Set (x :: a), readConstructed asn1Set (y :: b) with
    | some (aRdn, a), some (bRdn, b) => verifyRdnMatch aRdn bRdn && matchRdns fuel a b
    | _, _ => false

def verifyNameMatchInternal (a b : Bytes) (matchType : NameMatchType) : Bool :=
  match countRdns a.length a b with
  | none => false
  | some (aRest, bRest) =>
    if bRest ≠ [] then false
    else if matchType = .exactMatch ∧ aRest ≠ [] then false
    else matchRdns a.length a b

def verifyNameMatch (a b : Bytes) : Bool := verifyNameMatchInternal a b .exactMatch

def verifyNameInSubtree (name parent : Bytes) : Bool :=
  verifyNameMatchInternal name parent .subtreeMatch

def kTypeEmailAddressOid : Bytes := [0x2a, 0x86, 0x48, 0x86, 0xf7, 0x0d, 0x01, 0x09, 0x01]

/-- The RDNs of a name, each read in full. -/
def readRdns (name : Bytes) : Option (List (List X509NameAttribute)) :=
  readAll (fun cbs => do
    let (rdn, cbs) ← readConstructed asn1Set cbs
    let attributes ← readRdn rdn
    some (attributes, cbs)) name

def findEmailAddressesInName (nameRdnSequence : Bytes) : Option (List Bytes) := do
  let rdns ← readRdns nameRdnSequence
  (rdns.flatten.filter (·.type = kTypeEmailAddressOid)).mapM (·.valueAsString)

def cbbAddAsn1 (tag : UInt32) (body : Bytes) : Option Bytes :=
  if body.length > 0xfffffffe then none else some (derElement tag body)

def setOfElementLe (a b : Bytes) : Bool := !(b < a)

def cbbFlushAsn1SetOf (contents : Bytes) : Option Bytes := do
  let children ← readAll readRawTlv contents
  if children.length < 2 then some contents
  else some (children.mergeSort setOfElementLe).flatten

/-- The value of a normalised attribute: a string that can be normalised becomes a UTF8String. -/
def normalizeAttributeValue : Option Bytes :=
  if isNormalizableDirectoryString a.valueTag then do
    let normalizedValue ← normalizeValue a
    cbbAddAsn1 asn1Utf8String normalizedValue
  else
    cbbAddAsn1 a.valueTag a.value

def normalizeAttribute : Option Bytes := do
  let type ← cbbAddAsn1 asn1Object a.type
  let value ← normalizeAttributeValue a
  cbbAddAsn1 asn1Sequence (type ++ value)

def normalizeRdn (rdnParser : Bytes) : Option Bytes := do
  let typeAndValues ← readRdn rdnParser
  let attributes ← typeAndValues.mapM normalizeAttribute
  let contents ← cbbFlushAsn1SetOf attributes.flatten
  cbbAddAsn1 asn1Set contents

def normalizeName (nameRdnSequence : Bytes) : Option Bytes := do
  let rdns ← readAll (readConstructed asn1Set) nameRdnSequence
  let normalized ← rdns.mapM normalizeRdn
  some normalized.flatten

def normalizeNameTlv (nameTlv : Bytes) : Option Bytes := do
  let (nameRdn, parser) ← readTag asn1Sequence nameTlv
  let normalized ← normalizeName nameRdn
  finished parser
  some normalized

end BoringSSL.Pki
