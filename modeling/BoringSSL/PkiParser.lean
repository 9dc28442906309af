import BoringSSL.Asn1Time

/-!
# The DER parser of `pki`

`pki/parser.cc`, `pki/parse_values.cc`, and what `pki/parse_certificate.cc` and
`pki/revocation_util.cc` build on them.  A `der::Parser` is the bytes it has left.  A call that
reads returns what it read and the parser after it, or `none` where the source returns false.
-/

namespace BoringSSL.Pki

open ByteLib

/-! ## `pki/parser.cc` -/

def asn1Boolean : UInt32 := 0x1
def asn1Integer : UInt32 := 0x2
def asn1BitString : UInt32 := 0x3
def asn1OctetString : UInt32 := 0x4
def asn1Null : UInt32 := 0x5
def asn1Object : UInt32 := 0x6
def asn1Enumerated : UInt32 := 0xa
def asn1Utf8String : UInt32 := 0xc
def asn1Sequence : UInt32 := 0x10 ||| asn1Constructed
def asn1Set : UInt32 := 0x11 ||| asn1Constructed
def asn1PrintableString : UInt32 := 0x13
def asn1T61String : UInt32 := 0x14
def asn1Ia5String : UInt32 := 0x16
def asn1UtcTime : UInt32 := 0x17
def asn1GeneralizedTime : UInt32 := 0x18
def asn1UniversalString : UInt32 := 0x1c
def asn1BmpString : UInt32 := 0x1e
def asn1ContextSpecific : UInt32 := 0x80 <<< asn1TagShift

variable (cbs : Bytes)

def peekTagAndValue : Option (UInt32 × Bytes × ℕ) := do
  let e ← cbsGetAnyAsn1Element cbs
  let value ← cbsSkip e.out e.headerLen
  some (e.tag, value, value.length + e.headerLen)

def advance (advanceLen : ℕ) : Option Bytes :=
  if advanceLen = 0 then none else cbsSkip cbs advanceLen

def readRawTlv : Option (Bytes × Bytes) :=
  (cbsGetAnyAsn1Element cbs).map fun e => (e.out, e.cbs)

def readTagAndValue : Option ((UInt32 × Bytes) × Bytes) := do
  let (tag, value, advanceLen) ← peekTagAndValue cbs
  let cbs ← advance cbs advanceLen
  some ((tag, value), cbs)

def readOptionalTag (tag : UInt32) (cbs : Bytes) : Option (Option Bytes × Bytes) :=
  if cbs = [] then some (none, cbs)
  else do
    let (actualTag, value, advanceLen) ← peekTagAndValue cbs
    if actualTag = tag then do
      let cbs ← advance cbs advanceLen
      some (some value, cbs)
    else
      some (none, cbs)

def readTag (tag : UInt32) (cbs : Bytes) : Option (Bytes × Bytes) := do
  let (actualTag, value, advanceLen) ← peekTagAndValue cbs
  if actualTag ≠ tag then none
  else do
    let cbs ← advance cbs advanceLen
    some (value, cbs)

def readConstructed (tag : UInt32) (cbs : Bytes) : Option (Bytes × Bytes) :=
  if tag &&& asn1Constructed = 0 then none else readTag tag cbs

def readSequence : Option (Bytes × Bytes) := readConstructed asn1Sequence cbs

def finished : Option Unit := if cbs = [] then some () else none

/-- The loop `while (parser.HasMore())`, which reads with `read` and appends what was read. -/
def readWhileMore {α : Type} (read : Bytes → Option (α × Bytes)) : ℕ → Bytes → Option (List α)
  | _, [] => some []
  | 0, _ :: _ => none
  | fuel + 1, b :: bs => do
    let (a, rest) ← read (b :: bs)
    let as ← readWhileMore read fuel rest
    some (a :: as)

/-- Every element takes at least one byte, so the loop ends. -/
def readAll {α : Type} (read : Bytes → Option (α × Bytes)) (cbs : Bytes) : Option (List α) :=
  readWhileMore read cbs.length cbs

/-! ## `pki/parse_values.cc` -/

def parseBoolInternal (relaxed : Bool) : Bytes → Option Bool
  | [byte] =>
    if byte = 0 then some false
    else if byte = 0xff || relaxed then some true
    else none
  | _ => none

def parseBool (v : Bytes) : Option Bool := parseBoolInternal false v

/-- `CBS_is_valid_asn1_integer`: whether the integer is negative. -/
def isValidInteger : Bytes → Option Bool
  | [] => none
  | [first] => some (first &&& 0x80 ≠ 0)
  | first :: second :: _ =>
    if (first = 0x00 ∧ second &&& 0x80 = 0) ∨ (first = 0xff ∧ second &&& 0x80 ≠ 0) then none
    else some (first &&& 0x80 ≠ 0)

def getUnsignedIntegerLength : Bytes → ℕ
  | [] => 0
  | first :: rest => if first = 0 ∧ rest ≠ [] then rest.length else rest.length + 1

def parseUint64 (v : Bytes) : Option UInt64 := do
  let negative ← isValidInteger v
  if negative then none
  else if getUnsignedIntegerLength v > 8 then none
  else some (v.foldl (fun value data => (value <<< 8) ||| data.toUInt64) 0)

def parseUint8 (v : Bytes) : Option UInt8 := do
  let value ← parseUint64 v
  if value > 0xff then none else some value.toUInt8

/-- Bytes, the last of them in part unused. -/
structure BitString where
  bytes : Bytes
  unusedBits : UInt8
  deriving DecidableEq, Repr, Inhabited

def BitString.assertsBit (s : BitString) (bitIndex : ℕ) : Bool :=
  let byteIndex := bitIndex / 8
  match s.bytes[byteIndex]? with
  | none => false
  | some byte => byte &&& 1 <<< UInt8.ofNat (7 - (bitIndex - byteIndex * 8)) ≠ 0

def parseBitString : Bytes → Option BitString
  | [] => none
  | unusedBits :: bytes =>
    if unusedBits > 7 then none
    else if unusedBits > 0 then
      match bytes.getLast? with
      | none => none
      | some lastByte =>
        let mask : UInt8 := 0xff >>> (8 - unusedBits)
        if mask &&& lastByte ≠ 0 then none else some ⟨bytes, unusedBits⟩
    else some ⟨bytes, unusedBits⟩

/-- A time by its calendar fields. -/
structure GeneralizedTime where
  year : ℕ
  month : ℕ
  day : ℕ
  hours : ℕ
  minutes : ℕ
  seconds : ℕ
  deriving DecidableEq, Repr, Inhabited

namespace GeneralizedTime

/-- What the operators compare. -/
def tie (t : GeneralizedTime) : List ℕ := [t.year, t.month, t.day, t.hours, t.minutes, t.seconds]

instance : LT GeneralizedTime := ⟨fun a b => a.tie < b.tie⟩

instance (a b : GeneralizedTime) : Decidable (a < b) := inferInstanceAs (Decidable (a.tie < b.tie))

/-- `<=` is the negation of `>`. -/
instance : LE GeneralizedTime := ⟨fun a b => ¬ b < a⟩

instance (a b : GeneralizedTime) : Decidable (a ≤ b) := inferInstanceAs (Decidable (¬ b < a))

end GeneralizedTime

/-- The loop reads `digits` digits, and the value of those before is `value`. -/
def decimalStringToUint : ℕ → ℕ → Bytes → Option (ℕ × Bytes)
  | 0, value, reader => some (value, reader)
  | _ + 1, _, [] => none
  | digits + 1, value, digit :: reader =>
    if digit < 0x30 ∨ digit > 0x39 then none
    else decimalStringToUint digits (value * 10 + (digit.toNat - 0x30)) reader

def validateGeneralizedTime (time : GeneralizedTime) : Bool :=
  if time.month < 1 ∨ time.month > 12 then false
  else if time.day < 1 then false
  else if time.hours > 23 then false
  else if time.minutes > 59 then false
  -- Leap seconds are allowed.
  else if time.seconds > 60 then false
  else if time.month = 4 ∨ time.month = 6 ∨ time.month = 9 ∨ time.month = 11 then time.day ≤ 30
  else if time.month ≠ 2 then time.day ≤ 31
  else if time.year % 4 = 0 ∧ (time.year % 100 ≠ 0 ∨ time.year % 400 = 0) then time.day ≤ 29
  else time.day ≤ 28

/-- The fields after the year, and the `Z`. -/
def parseTimeAfterYear (year : ℕ) (reader : Bytes) : Option GeneralizedTime := do
  let (month, reader) ← decimalStringToUint 2 0 reader
  let (day, reader) ← decimalStringToUint 2 0 reader
  let (hours, reader) ← decimalStringToUint 2 0 reader
  let (minutes, reader) ← decimalStringToUint 2 0 reader
  let (seconds, reader) ← decimalStringToUint 2 0 reader
  if reader ≠ [0x5a] then none
  else
    let time : GeneralizedTime := ⟨year, month, day, hours, minutes, seconds⟩
    if validateGeneralizedTime time then some time else none

def parseUtcTime (v : Bytes) : Option GeneralizedTime := do
  let (year, reader) ← decimalStringToUint 2 0 v
  parseTimeAfterYear (if year < 50 then year + 2000 else year + 1900) reader

def parseGeneralizedTime (v : Bytes) : Option GeneralizedTime := do
  let (year, reader) ← decimalStringToUint 4 0 v
  parseTimeAfterYear year reader

def readParsed {α : Type} (tag : UInt32) (parse : Bytes → Option α) (cbs : Bytes) :
    Option (α × Bytes) := do
  let (value, cbs) ← readTag tag cbs
  let a ← parse value
  some (a, cbs)

def readUint8 : Option (UInt8 × Bytes) := readParsed asn1Integer parseUint8 cbs

def readUint64 : Option (UInt64 × Bytes) := readParsed asn1Integer parseUint64 cbs

def readBitString : Option (BitString × Bytes) :=
  readParsed asn1BitString parseBitString cbs

def readGeneralizedTime : Option (GeneralizedTime × Bytes) :=
  readParsed asn1GeneralizedTime parseGeneralizedTime cbs

/-! ## `pki/parse_certificate.cc` -/

def readUtcOrGeneralizedTime : Option (GeneralizedTime × Bytes) := do
  let ((tag, value), cbs) ← readTagAndValue cbs
  if tag = asn1UtcTime then do
    let time ← parseUtcTime value
    some (time, cbs)
  else if tag = asn1GeneralizedTime then do
    let time ← parseGeneralizedTime value
    some (time, cbs)
  else none

/-- `VerifySerialNumber`; the errors it adds are not read. -/
def verifySerialNumber (value : Bytes) : Bool :=
  (isValidInteger value).isSome && value.length ≤ 20

/-- An extension of a certificate or CRL. -/
structure ParsedExtension where
  oid : Bytes
  value : Bytes
  critical : Bool
  deriving DecidableEq, Repr

/-- The flag is left out if it is false. -/
def parseCritical : Option Bytes → Option Bool
  | none => some false
  | some value => do
    let critical ← parseBool value
    if critical then some true else none

def parseExtension (extensionTlv : Bytes) : Option ParsedExtension := do
  let (extensionParser, parser) ← readSequence extensionTlv
  let (oid, extensionParser) ← readTag asn1Object extensionParser
  let (criticalInput, extensionParser) ← readOptionalTag asn1Boolean extensionParser
  let critical ← parseCritical criticalInput
  let (value, extensionParser) ← readTag asn1OctetString extensionParser
  finished extensionParser
  finished parser
  some ⟨oid, value, critical⟩

/-- The extensions are entered into a map by their OIDs, and none twice. -/
def insertExtensions : List Bytes → List ParsedExtension → Option (List ParsedExtension)
  | [], extensions => some extensions
  | tlv :: tlvs, extensions => do
    let extension ← parseExtension tlv
    if extensions.any (·.oid = extension.oid) then none
    else insertExtensions tlvs (extensions ++ [extension])

/-- The map is the list of its values. -/
def parseExtensions (extensionsTlv : Bytes) : Option (List ParsedExtension) := do
  let (extensionsParser, parser) ← readSequence extensionsTlv
  if extensionsParser = [] then none
  else do
    let tlvs ← readAll readRawTlv extensionsParser
    let extensions ← insertExtensions tlvs []
    finished parser
    some extensions

/-- The extension, if there is one, and the others. -/
def consumeExtension (oid : Bytes) (extensions : List ParsedExtension) :
    Option ParsedExtension × List ParsedExtension :=
  (extensions.find? (·.oid = oid), extensions.filter (·.oid ≠ oid))

/-! ## `pki/revocation_util.cc` -/

def kMinValidTime : ℤ := -62167219200

def kMaxValidTime : ℤ := 253402300799

def encodePosixTimeAsGeneralizedTime (posixTime : ℤ) : Option GeneralizedTime :=
  (opensslPosixToTm posixTime).map fun tm =>
    ⟨((tm.tmYear + 1900) % 2 ^ 16).toNat, ((tm.tmMon + 1) % 2 ^ 8).toNat,
      (tm.tmMday % 2 ^ 8).toNat, (tm.tmHour % 2 ^ 8).toNat, (tm.tmMin % 2 ^ 8).toNat,
      (tm.tmSec % 2 ^ 8).toNat⟩

def checkRevocationDateValid (thisUpdate : GeneralizedTime) (nextUpdate : Option GeneralizedTime)
    (verifyTimeEpochSeconds : ℤ) (maxAgeSeconds : Option ℤ) : Bool :=
  if verifyTimeEpochSeconds > kMaxValidTime ∨ verifyTimeEpochSeconds < kMinValidTime
      ∨ maxAgeSeconds.any (fun age => age > kMaxValidTime ∨ age < 0) then
    false
  else
    match encodePosixTimeAsGeneralizedTime verifyTimeEpochSeconds with
    | none => false
    | some verifyTime =>
      if verifyTime < thisUpdate then false
      else if nextUpdate.any (· ≤ verifyTime) then false
      else
        match maxAgeSeconds with
        | none => true
        | some age =>
          match encodePosixTimeAsGeneralizedTime (verifyTimeEpochSeconds - age) with
          | none => false
          | some earliestThisUpdate => ¬ thisUpdate < earliestThisUpdate

end BoringSSL.Pki
