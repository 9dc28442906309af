import BoringSSL.Lib.Bits

/-!
# `DTLSMessageBitmap` of `ssl/d1_both.cc`

Which bytes of a handshake message have been received, or acknowledged.
-/

namespace BoringSSL

open ByteLib

/-- The bits marked; no bytes once all are. -/
structure DtlsMessageBitmap where
  bytes : Bytes
  firstUnmarkedByte : ℕ
  deriving DecidableEq, Repr

/-- A range of bits. -/
structure BitmapRange where
  start : ℕ
  stop : ℕ
  deriving DecidableEq, Repr

namespace BitmapRange

def empty (r : BitmapRange) : Bool := r.start == r.stop

def size (r : BitmapRange) : ℕ := r.stop - r.start

end BitmapRange

def bitRange (start stop : ℕ) : UInt8 :=
  (~~~((1 <<< UInt32.ofNat start) - 1) &&& ((1 <<< UInt32.ofNat stop) - 1) : UInt32).toUInt8

def firstUnmarkedRangeInByte (b : UInt8) : BitmapRange :=
  let start := scanFrom (fun i => b.toUInt32 &&& (1 <<< UInt32.ofNat i) == 0) (List.range 8) 0
  let stop := scanFrom (fun i => b.toUInt32 &&& (1 <<< UInt32.ofNat i) != 0) (List.range 8) start
  ⟨start, stop⟩

namespace DtlsMessageBitmap

def setBits (bytes : Bytes) (start stop : ℕ) : Bytes :=
  if start / 8 = stop / 8 then bytes.modify (start / 8) (· ||| bitRange (start % 8) (stop % 8))
  else
    let bytes := bytes.modify (start / 8) (· ||| bitRange (start % 8) 8)
    let bytes := fillFF bytes (start / 8 + 1) (stop / 8)
    if stop % 8 ≠ 0 then bytes.modify (stop / 8) (· ||| bitRange 0 (stop % 8)) else bytes

variable (bm : DtlsMessageBitmap)

def markRange (start stop : ℕ) : DtlsMessageBitmap :=
  -- Bytes already known to be marked are not touched, and both ends are clamped.
  let start := max start (bm.firstUnmarkedByte * 8)
  let start := min start (bm.bytes.length * 8)
  let stop := min stop (bm.bytes.length * 8)
  if start ≥ stop then bm
  else
    let bytes := setBits bm.bytes start stop
    let firstUnmarkedByte := scanFrom (· != 0xff) bytes bm.firstUnmarkedByte
    -- A bitmap that is all marked is dropped.
    if firstUnmarkedByte ≥ bytes.length then ⟨[], 0⟩ else ⟨bytes, firstUnmarkedByte⟩

def init (numBits : ℕ) : DtlsMessageBitmap :=
  let numBytes := (numBits + 7) / 8
  { (⟨List.replicate numBytes 0, 0⟩ : DtlsMessageBitmap).markRange numBits (numBytes * 8) with
    firstUnmarkedByte := 0 }

/-- `Init`: it fails where rounding the number of bits up does not fit in a `size_t`. -/
def tryInit (numBits : ℕ) : Option DtlsMessageBitmap :=
  if (numBits + 7) % 2 ^ 64 < numBits then none else some (init numBits)

/-- The first byte from `start` on that has an unmarked bit, and the byte, with the bits before
`start` marked. -/
def findUnmarkedByte (bytes : Bytes) (start : ℕ) : ℕ × UInt8 :=
  let idx := start / 8
  let byte := bytes.getD idx 0xff ||| bitRange 0 (start % 8)
  if byte = 0xff then
    let idx := scanFrom (· != 0xff) bytes (idx + 1)
    (idx, bytes.getD idx 0xff)
  else (idx, byte)

def nextUnmarkedRange (start : ℕ) : BitmapRange :=
  let start := max start (bm.firstUnmarkedByte * 8)
  if start / 8 ≥ bm.bytes.length then ⟨0, 0⟩
  else
    let (idx, byte) := findUnmarkedByte bm.bytes start
    if idx ≥ bm.bytes.length then ⟨0, 0⟩
    else
      let range := firstUnmarkedRangeInByte byte
      if range.stop ≠ 8 then ⟨range.start + idx * 8, range.stop + idx * 8⟩
      else
        -- The range goes on through the bytes that are wholly unmarked.
        let next := scanFrom (· != 0) bm.bytes (idx + 1)
        let extra := firstUnmarkedRangeInByte (bm.bytes.getD next 0xff)
        if next < bm.bytes.length ∧ extra.start = 0 then
          ⟨range.start + idx * 8, next * 8 + extra.stop⟩
        else ⟨range.start + idx * 8, next * 8⟩

def isComplete : Bool := bm.bytes.isEmpty

/-- Bit `i` is marked. -/
def Marked (i : ℕ) : Prop := bitAt bm.bytes i = true

instance (bm : DtlsMessageBitmap) (i : ℕ) : Decidable (bm.Marked i) :=
  inferInstanceAs (Decidable (_ = _))

/-- `first_unmarked_byte_` is the first byte that is not all marked, and there is one unless the
bitmap is empty. -/
structure Ok (bm : DtlsMessageBitmap) : Prop where
  marked : ∀ i < 8 * bm.firstUnmarkedByte, bm.Marked i
  unmarked : bm.bytes ≠ [] → bm.bytes.getD bm.firstUnmarkedByte 0xff ≠ 0xff

end DtlsMessageBitmap

end BoringSSL
