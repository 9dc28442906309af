import BoringSSL.Lib.Bytes

/-!
# `SSLBuffer`, `ssl/ssl_buffer.cc`

The bytes of a buffer are in memory that is allocated, or in a short array inside the object, from
`offset_` on.  `offset_`, `size_` and `cap_` have 16 bits.

A run of calls is meant to behave as a queue of bytes (`BufRun`).
-/

namespace BoringSSL

open ByteLib

def ssl3RtHeaderLength : ℕ := 5

def ssl3AlignPayload : ℕ := 8

/-- What `buf_` points to; memory from `malloc` is kept with its bytes. -/
inductive BufPtr
  | null
  | inlineBuf
  | heap (bytes : Bytes)
  deriving DecidableEq, Repr

/-- `SSLBuffer`: bytes from an offset on. -/
structure SslBuffer where
  buf : BufPtr
  offset : UInt16
  size : UInt16
  cap : UInt16
  inlineBuf : Bytes
  deriving DecidableEq, Repr

namespace SslBuffer

def new (fill : UInt8) : SslBuffer := ⟨.null, 0, 0, 0, List.replicate ssl3RtHeaderLength fill⟩

variable (b : SslBuffer)

def memory : Bytes :=
  match b.buf with
  | .null => []
  | .inlineBuf => b.inlineBuf
  | .heap bytes => bytes

def span : Bytes := (b.memory.drop b.offset.toNat).take b.size.toNat

def clear : SslBuffer := { b with buf := .null, offset := 0, size := 0, cap := 0 }

/-- `EnsureCap`, with the address `malloc` returns, if it does, and what the memory holds. -/
def ensureCap (headerLen : UInt64) (newCap : ℕ) (malloc : Option UInt64) (fill : UInt8) :
    Bool × SslBuffer :=
  if newCap > 0xffff then (false, b)
  else if newCap ≤ b.cap.toNat then (true, b)
  else if newCap ≤ ssl3RtHeaderLength then
    (true, { b with
      buf := .inlineBuf
      inlineBuf := overwrite b.inlineBuf 0 b.span
      offset := 0
      cap := UInt16.ofNat newCap })
  else
    match malloc with
    | none => (false, b)
    | some addr =>
      let newOffset := (0 - headerLen - addr) &&& UInt64.ofNat (ssl3AlignPayload - 1)
      let newBuf := List.replicate (newCap + ssl3AlignPayload - 1) fill
      (true, { b with
        buf := .heap (overwrite newBuf newOffset.toNat b.span)
        offset := newOffset.toUInt16
        cap := UInt16.ofNat newCap })

def store (data : Bytes) : SslBuffer :=
  let at' := b.offset.toNat + b.size.toNat
  match b.buf with
  | .null => b
  | .inlineBuf => { b with inlineBuf := overwrite b.inlineBuf at' data }
  | .heap bytes => { b with buf := .heap (overwrite bytes at' data) }

def didWrite (newSize : ℕ) : Option SslBuffer :=
  if b.cap.toNat - b.size.toNat < newSize then none
  else some { b with size := b.size + UInt16.ofNat newSize }

def consume (len : ℕ) : Option SslBuffer :=
  if b.size.toNat < len then none
  else some { b with
    offset := b.offset + UInt16.ofNat len
    size := b.size - UInt16.ofNat len
    cap := b.cap - UInt16.ofNat len }

def discardConsumed : SslBuffer := if b.size = 0 then b.clear else b

/-- `data() + cap()` is inside the memory. -/
def InBounds : Prop := b.offset.toNat + b.cap.toNat ≤ b.memory.length

/-- What is consumed leaves `offset_` in its 16 bits, or it is everything. -/
def KeepsOffset (len : ℕ) : Prop :=
  b.offset.toNat + len ≤ 0xffff ∨ len = b.size.toNat

end SslBuffer

/-- The runs of calls that do not abort, with the bytes written and not yet consumed, where
`Consume` is called only as `may` says.  What is written is first put in `remaining()`. -/
inductive BufRun (may : SslBuffer → ℕ → Prop) : SslBuffer → Bytes → Prop
  | start (fill : UInt8) : BufRun may (.new fill) []
  | ensureCap {b queue} (headerLen : UInt64) (newCap : ℕ) (malloc : Option UInt64) (fill : UInt8) :
    BufRun may b queue → BufRun may (b.ensureCap headerLen newCap malloc fill).2 queue
  | write {b b' queue} (data : Bytes) : BufRun may b queue →
    (b.store data).didWrite data.length = some b' → BufRun may b' (queue ++ data)
  | consume {b b' queue} (len : ℕ) : BufRun may b queue → may b len → b.consume len = some b' →
    BufRun may b' (queue.drop len)
  | discardConsumed {b queue} : BufRun may b queue → BufRun may b.discardConsumed queue
  | clear {b queue} : BufRun may b queue → BufRun may b.clear []

end BoringSSL
