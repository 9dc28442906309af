import BoringSSL.Cbs

/-!
# Object identifiers as text

From `crypto/bytestring`: `CBS_asn1_oid_to_text`, `CBS_is_valid_asn1_oid` and
`CBB_add_asn1_oid_from_text`.
-/

namespace BoringSSL

open ByteLib

def getU64DecimalLoop (v : UInt64) (seenDigit : Bool) : Bytes → Option (UInt64 × Bytes)
  | [] => if seenDigit then some (v, []) else none
  | c :: cbs =>
    if !opensslIsdigit c then if seenDigit then some (v, c :: cbs) else none
    -- a stray leading zero, or an overflow
    else if (v = 0 ∧ seenDigit) ∨ v > 0xffffffffffffffff / 10
        ∨ v * 10 > 0xffffffffffffffff - (c - 0x30).toUInt64 then none
    else getU64DecimalLoop (v * 10 + (c - 0x30).toUInt64) true cbs

def cbsGetU64Decimal (cbs : Bytes) : Option (UInt64 × Bytes) := getU64DecimalLoop 0 false cbs

def isValidAsn1OidLoop (prev : UInt8) : Bytes → Bool
  | [] => prev &&& 0x80 == 0
  | v :: cbs => if prev &&& 0x80 = 0 ∧ v = 0x80 then false else isValidAsn1OidLoop v cbs

def cbsIsValidAsn1Oid (cbs : Bytes) : Bool :=
  if cbs.isEmpty then false else isValidAsn1OidLoop 0 cbs

def decimal (n : ℕ) : Bytes :=
  if n = 0 then [0x30] else (Nat.digits 10 n).reverse.map fun d => UInt8.ofNat (0x30 + d)

/-- The components after the first, each after a dot; every one takes a byte, so the number of bytes
is fuel enough. -/
def oidToTextLoop : ℕ → Bytes → Option Bytes
  | _, [] => some []
  | 0, _ => none
  | fuel + 1, cbs => do
    let (v, cbs) ← parseBase128Integer 0 cbs
    let text ← oidToTextLoop fuel cbs
    return 0x2e :: decimal v.toNat ++ text

def cbsAsn1OidToText (cbs : Bytes) : Option Bytes := do
  let (v, rest) ← parseBase128Integer 0 cbs
  let first :=
    if v ≥ 80 then [0x32, 0x2e] ++ decimal (v - 80).toNat
    else decimal (v / 40).toNat ++ [0x2e] ++ decimal (v % 40).toNat
  let text ← oidToTextLoop rest.length rest
  return first ++ text

def parseDottedDecimal (cbs : Bytes) : Option (UInt64 × Bytes) :=
  (cbsGetU64Decimal cbs).bind fun (out, cbs) =>
    match cbs with
    | [] => some (out, [])
    -- the text must go on after a dot
    | dot :: cbs => if dot = 0x2e ∧ cbs ≠ [] then some (out, cbs) else none

/-- The loop of `CBB_add_asn1_oid_from_text`; every component takes a byte of the text. -/
def addOidComponents : ℕ → Bytes → Cbb → ℕ → Bool × Cbb
  | _, [], cbb, _ => (true, cbb)
  | 0, _ :: _, cbb, _ => (false, cbb)
  | fuel + 1, text, cbb, d =>
    match parseDottedDecimal text with
    | none => (false, cbb)
    | some (a, rest) =>
      let r := addBase128Integer cbb d a.toNat
      if !r.1 then r else addOidComponents fuel rest r.2 d

def cbbAddAsn1OidFromText (cbb : Cbb) (d : ℕ) (text : Bytes) : Bool × Cbb :=
  let f := cbbFlush cbb d
  if !f.1 then f
  else
    match parseDottedDecimal text with
    | none => (false, f.2)
    | some (a, rest) =>
      match parseDottedDecimal rest with
      | none => (false, f.2)
      | some (b, rest) =>
        if a > 2 ∨ (a < 2 ∧ b > 39) ∨ b > 0xffffffffffffffff - 80 then (false, f.2)
        else
          let r := addBase128Integer f.2 d (40 * a + b).toNat
          if !r.1 then r else addOidComponents rest.length rest r.2 d

def oidFromText (initialCapacity : Fin sizeMod) (fill : UInt8) (text : Bytes) : Option Bytes :=
  let r := cbbAddAsn1OidFromText (CbbRoot.growable initialCapacity fill).cbb 0 text
  if r.1 then cbbFinish r.2 else none

end BoringSSL
