import BoringSSL.CbbTree
import BoringSSL.Lib.Checked

/-!
# `crypto/bytestring/cbs.cc`

A CBS is the bytes it has left.  A call that reads returns what it read and what is left after it,
or `none` where the source returns zero.
-/

namespace BoringSSL

open ByteLib

variable (cbs : Bytes)

def cbsGet (n : ℕ) : Option (Bytes × Bytes) :=
  if cbs.length < n then none else some (cbs.take n, cbs.drop n)

def cbsSkip (n : ℕ) : Option Bytes := (cbsGet cbs n).map Prod.snd

def cbsGetBytes (len : ℕ) : Option (Bytes × Bytes) := cbsGet cbs len

/-- `CBS_get_bytes` or `CBS_copy_bytes` in a function that returns failure if there are too few
bytes. -/
def getBytes (len : ℕ) : Checked (Bytes × Bytes) :=
  match cbsGetBytes cbs len with
  | some r => .ok r
  | none => Checked.reject

def cbsGetU (len : ℕ) : Option (UInt64 × Bytes) :=
  (cbsGet cbs len).map fun (data, rest) =>
    (data.foldl (fun result b => (result <<< 8) ||| b.toUInt64) 0, rest)

def cbsGetU8 : Bytes → Option (UInt8 × Bytes)
  | [] => none
  | v :: rest => some (v, rest)

def opensslIsdigit (c : UInt8) : Bool := 0x30 ≤ c && c ≤ 0x39

def parseBase128Integer (v : UInt64) : Bytes → Option (UInt64 × Bytes)
  | [] => none
  | b :: cbs =>
    if v >>> (64 - 7) ≠ 0 then none
    -- A leading zero group is not minimal.
    else if v = 0 ∧ b = 0x80 then none
    else
      let v' := (v <<< 7) ||| (b &&& 0x7f).toUInt64
      if b &&& 0x80 ≠ 0 then parseBase128Integer v' cbs else some (v', cbs)

def asn1Constructed : UInt32 := 0x20 <<< asn1TagShift

def parseAsn1TagNumber (tagByte : UInt8) (cbs : Bytes) : Option (UInt32 × Bytes) :=
  if tagByte &&& 0x1f = 0x1f then
    (parseBase128Integer 0 cbs).bind fun (v, cbs) =>
      if v > asn1TagNumberMask.toUInt64 ∨ v < 0x1f then none else some (v.toUInt32, cbs)
  else some ((tagByte &&& 0x1f).toUInt32, cbs)

def parseAsn1Tag : Option (UInt32 × Bytes) :=
  (cbsGetU8 cbs).bind fun (tagByte, cbs) =>
    (parseAsn1TagNumber tagByte cbs).bind fun (tagNumber, cbs) =>
      let tag := ((tagByte.toUInt32 &&& 0xe0) <<< asn1TagShift) ||| tagNumber
      -- [UNIVERSAL 0] is reserved for the encoding.
      if tag &&& ~~~asn1Constructed = 0 then none else some (tag, cbs)

/-- What `cbs_get_any_asn1_element` sets: `*out`, `*cbs`, and the other outputs. -/
structure Asn1Element where
  out : Bytes
  cbs : Bytes
  tag : UInt32
  headerLen : ℕ
  berFound : Bool
  indefinite : Bool
  deriving DecidableEq, Repr

def cbsGetAnyAsn1ElementImpl (berOk : Bool) : Option Asn1Element :=
  (parseAsn1Tag cbs).bind fun (tag, header) =>
  (cbsGetU8 header).bind fun (lengthByte, header) =>
  let headerLen := cbs.length - header.length
  let finish (len headerLen : ℕ) (berFound indefinite : Bool) :=
    (cbsGetBytes cbs len).map fun (out, rest) =>
      (⟨out, rest, tag, headerLen, berFound, indefinite⟩ : Asn1Element)
  if lengthByte &&& 0x80 = 0 then finish (lengthByte.toNat + headerLen) headerLen false false
  else
    let numBytes := (lengthByte &&& 0x7f).toNat
    if berOk ∧ tag &&& asn1Constructed ≠ 0 ∧ numBytes = 0 then finish headerLen headerLen true true
    else if numBytes = 0 ∨ numBytes > 4 then none
    else (cbsGetU header numBytes).bind fun (len64, _) =>
      let short := len64 < 128
      let padded := len64 >>> (UInt64.ofNat (numBytes - 1) * 8) = 0
      -- DER takes the shortest form only; BER reports that it saw another.
      if (short ∨ padded) ∧ !berOk then none
      else
        let len := (len64.toNat + headerLen + numBytes) % sizeMod
        if len < len64.toNat then none
        else finish len (headerLen + numBytes) (decide (short ∨ padded)) false

def cbsGetAnyAsn1Element : Option Asn1Element := cbsGetAnyAsn1ElementImpl cbs false

def cbsGetAnyBerAsn1Element : Option Asn1Element := cbsGetAnyAsn1ElementImpl cbs true

def cbsGetAnyAsn1 : Option (UInt32 × Bytes × Bytes) :=
  (cbsGetAnyAsn1Element cbs).bind fun e =>
    (cbsSkip e.out e.headerLen).map fun body => (e.tag, body, e.cbs)

/-- The octets BER allows for a length. -/
inductive BerLength (n : ℕ) : Bytes → Prop
  | short (h : n < 128) : BerLength n [UInt8.ofNat n]
  | long (k : ℕ) (hk : 1 ≤ k ∧ k ≤ 126) (h : n < 256 ^ k) :
    BerLength n (UInt8.ofNat (128 + k) :: beBytes k n)

/-- The tag is not that of an end of contents. -/
def Asn1TagOk (tag : UInt32) : Prop := tag &&& ~~~asn1Constructed ≠ 0

instance (tag : UInt32) : Decidable (Asn1TagOk tag) := inferInstanceAs (Decidable (_ ≠ _))

/-- `CBB_add_asn1` on a growable CBB, `CBB_add_bytes` of the body into the child, `CBB_finish`. -/
def cbbEncode (initialCapacity : Fin sizeMod) (fill : UInt8) (tag : UInt32) (body : SizedBytes) :
    Option Bytes :=
  cbbFinish ((Writes.addChild (.asn1 tag) (.addBytes body .done) .done).exec
    (CbbRoot.growable initialCapacity fill).cbb 0)

end BoringSSL
