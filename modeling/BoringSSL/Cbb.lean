import BoringSSL.Lib.Bytes

/-!
# `crypto/bytestring/cbb.cc`

A CBB is a buffer and the chain of its open children, outermost first: the child at place `d` of
the chain is the child of the CBB at depth `d`, and the root has depth `0`.  Every call on the CBB
at depth `d` first flushes the chain from `d` on, so writing to a CBB closes what is open below it.
A call returns whether it succeeded; one that fails leaves `error` set, and every later call fails.
-/

namespace BoringSSL

open ByteLib

/-- One past `SIZE_MAX`. -/
def sizeMod : ℕ := 2 ^ 64

instance : NeZero sizeMod := ⟨by decide⟩

/-- `struct cbb_buffer_st`; `buf` is the `cap` bytes of memory, and `fill` is what memory holds
before it is written. -/
structure CbbBuffer where
  buf : Bytes
  len : ℕ
  cap : ℕ
  canResize : Bool
  error : Bool
  fill : UInt8
  deriving DecidableEq, Repr

/-- `cbb_child_st`: where its length goes. -/
structure CbbChild where
  offset : ℕ
  pendingLenLen : ℕ
  pendingIsAsn1 : Bool
  deriving DecidableEq, Repr

/-- A root CBB with the chain of its open children. -/
structure Cbb where
  base : CbbBuffer
  children : List CbbChild
  deriving DecidableEq, Repr

def cbbInit (initialCapacity : ℕ) (fill : UInt8) : Cbb :=
  ⟨⟨List.replicate initialCapacity fill, 0, initialCapacity, true, false, fill⟩, []⟩

def cbbInitFixed (buf : Bytes) : Cbb := ⟨⟨buf, 0, buf.length, false, false, 0⟩, []⟩

variable (b : CbbBuffer)

def opensslRealloc (newcap : ℕ) : CbbBuffer :=
  { b with
    buf := b.buf.take newcap ++ List.replicate (newcap - b.buf.length) b.fill
    cap := newcap }

/-- The `err` label of `cbb_buffer_reserve`, and `cbb_on_error`'s effect on the buffer. -/
def CbbBuffer.onError : CbbBuffer := { b with error := true }

def cbbBufferReserve (len : ℕ) : Bool × CbbBuffer :=
  let newlen := (b.len + len) % sizeMod
  if newlen < b.len then (false, b.onError)
  else if newlen > b.cap then
    if !b.canResize then (false, b.onError)
    else
      let newcap := b.cap * 2 % sizeMod
      let newcap := if newcap < b.cap ∨ newcap < newlen then newlen else newcap
      (true, opensslRealloc b newcap)
  else (true, b)

def cbbBufferAdd (len : ℕ) : Bool × CbbBuffer :=
  let r := cbbBufferReserve b len
  if r.1 then (true, { r.2 with len := r.2.len + len }) else r

/-- The number of bytes an ASN.1 length takes, the first of them, and what the loop after it still
has to store. -/
def asn1LenForm (len : ℕ) : ℕ × UInt8 × ℕ :=
  if len > 0xffffff then (5, 0x80 ||| 4, len)
  else if len > 0xffff then (4, 0x80 ||| 3, len)
  else if len > 0xff then (3, 0x80 ||| 2, len)
  else if len > 0x7f then (2, 0x80 ||| 1, len)
  else (1, UInt8.ofNat len, 0)

/-- The loop of `CBB_flush` that stores the length, and its check that the length fits. -/
def cbbStoreLen (offset lenLen len : ℕ) : Bool × CbbBuffer :=
  let s := storeBE b.buf offset lenLen len
  if s.2 ≠ 0 then (false, { b with buf := s.1 }.onError) else (true, { b with buf := s.1 })

def CbbBuffer.memmove (dst src len : ℕ) : CbbBuffer :=
  { b with buf := overwrite b.buf dst ((b.buf.drop src).take len) }

/-- What `CBB_flush` does for the child once everything below it is flushed. -/
def cbbFlushChild (child : CbbChild) : Bool × CbbBuffer :=
  let childStart := child.offset + child.pendingLenLen
  let len := b.len - childStart
  if child.pendingIsAsn1 then
    if len > 0xfffffffe then (false, b.onError)
    else
      let form := asn1LenForm len
      -- One byte was reserved for the length; a longer form moves the contents along.
      let extraBytes := form.1 - 1
      let r := if form.1 ≠ 1 then cbbBufferAdd b extraBytes else (true, b)
      if !r.1 then (false, r.2.onError)
      else
        let moved := if form.1 ≠ 1 then r.2.memmove (childStart + extraBytes) childStart len
          else r.2
        cbbStoreLen { moved with buf := moved.buf.set child.offset form.2.1 } (child.offset + 1)
          (form.1 - 1) form.2.2
  else cbbStoreLen b child.offset child.pendingLenLen len

def cbbFlushChain (b : CbbBuffer) : List CbbChild → Bool × CbbBuffer
  | [] => (!b.error, b)
  | child :: below =>
    if b.error then (false, b)
    else
      let childStart := (child.offset + child.pendingLenLen) % sizeMod
      let r := cbbFlushChain b below
      if !r.1 || childStart < child.offset || r.2.len < childStart then (false, r.2.onError)
      else cbbFlushChild r.2 child

variable (cbb : Cbb) (d : ℕ)

def cbbFlush : Bool × Cbb :=
  let r := cbbFlushChain cbb.base (cbb.children.drop d)
  (r.1, ⟨r.2, if cbb.base.error then cbb.children else cbb.children.take d⟩)

def cbbFinish : Option Bytes :=
  let r := cbbFlush cbb 0
  if r.1 then some (r.2.base.buf.take r.2.base.len) else none

/-- `CBB_add_space`; the space starts at the length the buffer had after the flush. -/
def cbbAddSpace (d len : ℕ) : Bool × Cbb × ℕ :=
  let f := cbbFlush cbb d
  if !f.1 then (false, f.2, 0)
  else
    let r := cbbBufferAdd f.2.base len
    (r.1, { f.2 with base := r.2 }, f.2.base.len)

def cbbAddBytes (data : Bytes) : Bool × Cbb :=
  let s := cbbAddSpace cbb d data.length
  if !s.1 then (false, s.2.1)
  else (true, { s.2.1 with
    base := { s.2.1.base with buf := overwrite s.2.1.base.buf s.2.2 data } })

def cbbAddU (d v lenLen : ℕ) : Bool × Cbb :=
  let s := cbbAddSpace cbb d lenLen
  if !s.1 then (false, s.2.1)
  else
    let r := cbbStoreLen s.2.1.base s.2.2 lenLen v
    (r.1, { s.2.1 with base := r.2 })

def cbbAddU8 (value : UInt8) : Bool × Cbb := cbbAddU cbb d value.toNat 1
def cbbAddU16 (value : UInt16) : Bool × Cbb := cbbAddU cbb d value.toNat 2
def cbbAddU24 (value : UInt32) : Bool × Cbb := cbbAddU cbb d value.toNat 3
def cbbAddU32 (value : UInt32) : Bool × Cbb := cbbAddU cbb d value.toNat 4
def cbbAddU64 (value : UInt64) : Bool × Cbb := cbbAddU cbb d value.toNat 8

def cbbAddChild (d lenLen : ℕ) (isAsn1 : Bool) : Bool × Cbb :=
  let offset := cbb.base.len
  let r := cbbBufferAdd cbb.base lenLen
  if !r.1 then (false, { cbb with base := r.2 })
  else
    (true, ⟨{ r.2 with buf := overwrite r.2.buf offset (List.replicate lenLen 0) },
      cbb.children.take d ++ [⟨offset, lenLen, isAsn1⟩]⟩)

def cbbAddLengthPrefixed (d lenLen : ℕ) : Bool × Cbb :=
  let f := cbbFlush cbb d
  if !f.1 then f else cbbAddChild f.2 d lenLen false

def cbbAddU8LengthPrefixed : Bool × Cbb := cbbAddLengthPrefixed cbb d 1
def cbbAddU16LengthPrefixed : Bool × Cbb := cbbAddLengthPrefixed cbb d 2
def cbbAddU24LengthPrefixed : Bool × Cbb := cbbAddLengthPrefixed cbb d 3

/-- The loop of `add_base128_integer` that counts groups of seven bits; a `uint64_t` has at most
ten, which is the fuel. -/
def base128LenLen : ℕ → ℕ → ℕ
  | 0, _ => 0
  | fuel + 1, copy => if copy > 0 then base128LenLen fuel (copy >>> 7) + 1 else 0

/-- The loop of `add_base128_integer` that writes the groups below `i`, from the highest. -/
def addBase128Groups (v : ℕ) : ℕ → Cbb → ℕ → Bool × Cbb
  | 0, cbb, _ => (true, cbb)
  | i + 1, cbb, d =>
    let byte := UInt8.ofNat (v >>> (7 * i)) &&& 0x7f
    let byte := if i ≠ 0 then byte ||| 0x80 else byte
    let r := cbbAddU8 cbb d byte
    if !r.1 then r else addBase128Groups v i r.2 d

def addBase128Integer (d v : ℕ) : Bool × Cbb :=
  let lenLen := base128LenLen 10 v
  addBase128Groups v (if lenLen = 0 then 1 else lenLen) cbb d

def asn1TagShift : UInt32 := 24
def asn1TagNumberMask : UInt32 := 0x1fffffff

def cbbAddAsn1 (tag : UInt32) : Bool × Cbb :=
  let f := cbbFlush cbb d
  if !f.1 then f
  else
    let tagBits := (tag >>> asn1TagShift).toUInt8 &&& 0xe0
    let tagNumber := tag &&& asn1TagNumberMask
    let r :=
      if tagNumber ≥ 0x1f then
        let r := cbbAddU8 f.2 d (tagBits ||| 0x1f)
        if !r.1 then r else addBase128Integer r.2 d tagNumber.toNat
      else cbbAddU8 f.2 d (tagBits ||| tagNumber.toUInt8)
    if !r.1 then r else cbbAddChild r.2 d 1 true

def cbbDiscardChild : Cbb :=
  match cbb.children.drop d with
  | [] => cbb
  | child :: _ => ⟨{ cbb.base with len := child.offset }, cbb.children.take d⟩

end BoringSSL
