import BoringSSL.Cbs
import BoringSSL.Lib.Calendar

/-!
# `crypto/asn1/posix_time.cc`, and the times in `crypto/bytestring/cbs.cc`

The integers of the source are `ℤ`, with its division, which rounds towards zero.  The one sum that
could overflow an `int64_t` is checked by the source itself.

A time is a text of digits and a zone.  What X.680 says it denotes is `Denotes`: the local time is
the universal time with the zone's offset added to it.  The parser adds the offset to the local time
(`TakenFor`), as its tests have it.
-/

namespace BoringSSL

open ByteLib Calendar

/-- `struct tm`: a time broken down. -/
structure Tm where
  tmYear : ℤ
  tmMon : ℤ
  tmMday : ℤ
  tmHour : ℤ
  tmMin : ℤ
  tmSec : ℤ
  deriving DecidableEq, Repr

def secsPerHour : ℤ := 60 * 60
def secsPerDay : ℤ := 24 * secsPerHour

def minPosixTime : ℤ := -62167219200
def maxPosixTime : ℤ := 253402300799

def int64Max : ℤ := 2 ^ 63 - 1
def int64Min : ℤ := -2 ^ 63

variable (year month day : ℤ)

/-- The days of a month, as both `is_valid_date` and `is_valid_day` switch on it. -/
def dayFitsMonth : Bool :=
  if month ∈ ([1, 3, 5, 7, 8, 10, 12] : List ℤ) then day ≤ 31
  else if month ∈ ([4, 6, 9, 11] : List ℤ) then day ≤ 30
  else if month = 2 then
    if (year.tmod 4 = 0 ∧ year.tmod 100 ≠ 0) ∨ year.tmod 400 = 0 then day ≤ 29 else day ≤ 28
  else false

def isValidDate : Bool :=
  if day < 1 ∨ month < 1 ∨ year < 0 ∨ year > 9999 then false
  else day > 0 && dayFitsMonth year month day

def isValidTime (hours minutes seconds : ℤ) : Bool :=
  !(hours < 0 || minutes < 0 || seconds < 0 || hours > 23 || minutes > 59 || seconds > 59)

def isValidPosixTime (time : ℤ) : Bool := minPosixTime ≤ time && time ≤ maxPosixTime

/-- The days since 1970-01-01, from a date of years that start on March 1. -/
def posixDays : ℤ :=
  let year := if month ≤ 2 then year - 1 else year
  let era := (if year ≥ 0 then year else year - 399).tdiv 400
  let yearOfEra := year - era * 400
  let dayOfYear := (153 * (if month > 2 then month - 3 else month + 9) + 2).tdiv 5 + day - 1
  let dayOfEra := yearOfEra * 365 + yearOfEra.tdiv 4 - yearOfEra.tdiv 100 + dayOfYear
  era * 146097 + dayOfEra - 719468

def posixTimeFromUtc (year month day hours minutes seconds : ℤ) : Option ℤ :=
  if !isValidDate year month day || !isValidTime hours minutes seconds then none
  else some (posixDays year month day * secsPerDay + hours * secsPerHour + minutes * 60 + seconds)

/-- The date that is `days` days after 0000-03-01. -/
def utcFromDays (days : ℤ) : ℤ × ℤ × ℤ :=
  let era := (if days > 0 then days else days - 146096).tdiv 146097
  let dayOfEra := days - era * 146097
  let yearOfEra :=
    (dayOfEra - dayOfEra.tdiv 1460 + dayOfEra.tdiv 36524 - dayOfEra.tdiv 146096).tdiv 365
  let outYear := yearOfEra + era * 400
  let dayOfYear := dayOfEra - (365 * yearOfEra + yearOfEra.tdiv 4 - yearOfEra.tdiv 100)
  let monthOfYear := (5 * dayOfYear + 2).tdiv 153
  let outMonth := if monthOfYear < 10 then monthOfYear + 3 else monthOfYear - 9
  let outYear := if outMonth ≤ 2 then outYear + 1 else outYear
  (outYear, outMonth, dayOfYear - (153 * monthOfYear + 2).tdiv 5 + 1)

def utcFromPosixTime (time : ℤ) : Option Tm :=
  if !isValidPosixTime time then none
  else
    let days := time.tdiv secsPerDay
    let leftoverSeconds := time.tmod secsPerDay
    let (days, leftoverSeconds) :=
      if leftoverSeconds < 0 then (days - 1, leftoverSeconds + secsPerDay)
      else (days, leftoverSeconds)
    let (outYear, outMonth, outDay) := utcFromDays (days + 719468)
    some ⟨outYear, outMonth, outDay, leftoverSeconds.tdiv secsPerHour,
      (leftoverSeconds.tmod secsPerHour).tdiv 60, (leftoverSeconds.tmod secsPerHour).tmod 60⟩

def opensslTmToPosix (tm : Tm) : Option ℤ :=
  posixTimeFromUtc (tm.tmYear + 1900) (tm.tmMon + 1) tm.tmMday tm.tmHour tm.tmMin tm.tmSec

def opensslPosixToTm (time : ℤ) : Option Tm :=
  (utcFromPosixTime time).map fun tmp =>
    { tmp with
      tmYear := tmp.tmYear - 1900
      tmMon := tmp.tmMon - 1 }

def opensslGmtimeAdj (tm : Tm) (offsetDay offsetSec : ℤ) : Option Tm :=
  (opensslTmToPosix tm).bind fun posixTime =>
    let posixTime := posixTime + offsetDay * secsPerDay
    if posixTime > 0 ∧ offsetSec > int64Max - posixTime then none
    else if posixTime < 0 ∧ offsetSec < int64Min - posixTime then none
    else opensslPosixToTm (posixTime + offsetSec)

/-- The result of an operation on `int64_t`; `none` is an overflow. -/
def checkInt64 (v : ℤ) : Option ℤ := if int64Min ≤ v ∧ v ≤ int64Max then some v else none

def sumAbove (posixTime offsetSec : ℤ) : Option Bool :=
  if posixTime > 0 then
    (checkInt64 (int64Max - posixTime)).map fun room => decide (offsetSec > room)
  else some false

def sumBelow (posixTime offsetSec : ℤ) : Option Bool :=
  if posixTime < 0 then
    (checkInt64 (int64Min - posixTime)).map fun room => decide (offsetSec < room)
  else some false

/-- `OPENSSL_gmtime_adj` with every operation on `int64_t` checked: what it returns, and what it
leaves in `*tm`. -/
def opensslGmtimeAdjChecked (tm : Tm) (offsetDay offsetSec : ℤ) : Option (Bool × Tm) :=
  match opensslTmToPosix tm with
  | none => some (false, tm)
  | some posixTime => do
    let offset ← checkInt64 (offsetDay * secsPerDay)
    let posixTime ← checkInt64 (posixTime + offset)
    let above ← sumAbove posixTime offsetSec
    if above then some (false, tm)
    else
      let below ← sumBelow posixTime offsetSec
      if below then some (false, tm)
      else
        let posixTime ← checkInt64 (posixTime + offsetSec)
        match opensslPosixToTm posixTime with
        | none => some (false, tm)
        | some tm => some (true, tm)

variable (cbs : Bytes)

def cbsGetTwoDigits : Option (ℤ × Bytes) := do
  let (firstDigit, cbs) ← cbsGetU8 cbs
  guard (opensslIsdigit firstDigit)
  let (secondDigit, cbs) ← cbsGetU8 cbs
  guard (opensslIsdigit secondDigit)
  pure (((firstDigit.toNat : ℤ) - 0x30) * 10 + ((secondDigit.toNat : ℤ) - 0x30), cbs)

def isValidDay : Bool :=
  if day < 1 then false else dayFitsMonth year month day

variable (isGentime : Bool)

def parseYear (copy : Bytes) : Option (ℤ × Bytes) :=
  if isGentime then do
    let (tmp, copy) ← cbsGetTwoDigits copy
    let year := tmp * 100
    let (tmp, copy) ← cbsGetTwoDigits copy
    pure (year + tmp, copy)
  else do
    let (tmp, copy) ← cbsGetTwoDigits copy
    let year := 1900 + tmp
    let year := if year < 1950 then year + 100 else year
    -- A Generalized time must be used.
    guard (year < 2050)
    pure (year, copy)

def offsetSignOf (tz : UInt8) : Option ℤ :=
  if tz = 0x5a then some 0
  else if tz = 0x2b then some 1
  else if tz = 0x2d then some (-1)
  else none

def parseOffset (offsetSign : ℤ) (allowTimezoneOffset : Bool) (copy : Bytes) :
    Option (ℤ × Bytes) :=
  if offsetSign ≠ 0 then do
    guard allowTimezoneOffset
    let (offsetHours, copy) ← cbsGetTwoDigits copy
    guard (offsetHours ≤ 23)
    let (offsetMinutes, copy) ← cbsGetTwoDigits copy
    guard (offsetMinutes ≤ 59)
    pure (offsetSign * (offsetHours * 3600 + offsetMinutes * 60), copy)
  else pure (0, copy)

def parseFields (copy : Bytes) : Option (Tm × Bytes) := do
  let (year, copy) ← parseYear isGentime copy
  let (month, copy) ← cbsGetTwoDigits copy
  guard (1 ≤ month ∧ month ≤ 12)
  let (day, copy) ← cbsGetTwoDigits copy
  guard (isValidDay year month day)
  let (hour, copy) ← cbsGetTwoDigits copy
  guard (hour ≤ 23)
  let (min, copy) ← cbsGetTwoDigits copy
  guard (min ≤ 59)
  let (sec, copy) ← cbsGetTwoDigits copy
  guard (sec ≤ 59)
  pure (⟨year - 1900, month - 1, day, hour, min, sec⟩, copy)

/-- `CBS_parse_rfc5280_time_internal`: what `*out_tm` is set to where `out_tm` is not null
(`outTm`), and `none` where it returns zero. -/
def cbsParseRfc5280TimeInternal (isGentime allowTimezoneOffset outTm : Bool) :
    Option (Option Tm) := do
  let (tm, copy) ← parseFields isGentime cbs
  let (tz, copy) ← cbsGetU8 copy
  let offsetSign ← offsetSignOf tz
  let (offsetSeconds, copy) ← parseOffset offsetSign allowTimezoneOffset copy
  guard (copy.length = 0)
  if outTm then
    if offsetSeconds ≠ 0 then (opensslGmtimeAdj tm 0 offsetSeconds).map some else pure (some tm)
  else pure none

def cbsParseGeneralizedTime (outTm allowTimezoneOffset : Bool) :
    Option (Option Tm) := cbsParseRfc5280TimeInternal cbs true allowTimezoneOffset outTm

def cbsParseUtcTime (outTm allowTimezoneOffset : Bool) : Option (Option Tm) :=
  cbsParseRfc5280TimeInternal cbs false allowTimezoneOffset outTm

def twoDigits (n : ℕ) : Bytes := [UInt8.ofNat (0x30 + n / 10), UInt8.ofNat (0x30 + n % 10)]

/-- The zone of a time. -/
inductive Zone
  | utc
  | offset (negative : Bool) (hours minutes : ℕ) (hours_le : hours ≤ 23) (minutes_le : minutes ≤ 59)
  deriving DecidableEq, Repr

namespace Zone

def text : Zone → Bytes
  | utc => [0x5a]
  | offset negative hours minutes _ _ =>
    (if negative then 0x2d else 0x2b) :: (twoDigits hours ++ twoDigits minutes)

def seconds : Zone → ℤ
  | utc => 0
  | offset negative hours minutes _ _ =>
    (if negative then -1 else 1) * ((hours : ℤ) * 3600 + (minutes : ℤ) * 60)

end Zone

/-- The years the two digits of a UTCTime, or the four of a GeneralizedTime, stand for. -/
def YearOk (y : ℕ) : Prop :=
  if isGentime then y ≤ 9999 else 1950 ≤ y ∧ y ≤ 2049

def fieldsText (t : DateTime) : Bytes :=
  (if isGentime then twoDigits (t.year / 100) else []) ++ twoDigits (t.year % 100)
    ++ twoDigits t.month ++ twoDigits t.day ++ twoDigits t.hour ++ twoDigits t.minute
    ++ twoDigits t.second

variable (isGentime allowTimezoneOffset : Bool)

/-- The bytes are the text of the local time `t` in the zone `z`. -/
def IsTime (cbs : Bytes) (t : DateTime) (z : Zone) : Prop :=
  YearOk isGentime t.year ∧ (z ≠ .utc → allowTimezoneOffset = true)
    ∧ cbs = fieldsText isGentime t ++ z.text

def tmOf (t : DateTime) : Tm :=
  ⟨(t.year : ℤ) - 1900, (t.month : ℤ) - 1, t.day, t.hour, t.minute, t.second⟩

/-- The bytes are the text of a local time, and `tm` is the universal time then. -/
def Denotes (cbs : Bytes) (tm : Tm) : Prop :=
  ∃ t z, IsTime isGentime allowTimezoneOffset cbs t z
    ∧ ∃ u : DateTime, u.year ≤ 9999 ∧ tm = tmOf u ∧ (u.instant : ℤ) = t.instant - z.seconds

/-- The bytes are the text of a local time, and `tm` is that time with the zone's offset added. -/
def TakenFor (cbs : Bytes) (tm : Tm) : Prop :=
  ∃ t z, IsTime isGentime allowTimezoneOffset cbs t z
    ∧ ∃ u : DateTime, u.year ≤ 9999 ∧ tm = tmOf u ∧ (u.instant : ℤ) = t.instant + z.seconds

end BoringSSL
