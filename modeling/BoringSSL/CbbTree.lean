import BoringSSL.Cbb

/-!
# What a run of CBB calls is meant to write

`Writes` is a finite nesting of calls on one CBB and, inside each child it opens, on that child: a
child's calls come before the next call on its parent, so no closed child is written to.
`Writes.exec` makes the calls on the model of `cbb.cc`.

`Writes.serialise` is the bytes the nesting stands for, written out recursively with no buffer and
no offsets, `Writes.Fails` says which of its lengths and integers do not fit, and `Writes.peak` is
the longest the buffer gets on the way.
-/

namespace BoringSSL

open ByteLib

/-- Base-128 groups of `n`, most significant first, all but the last with the high bit set. -/
def base128 (n : ℕ) : Bytes :=
  ((Nat.digits 128 (n / 128)).reverse.map fun g => UInt8.ofNat (128 + g)) ++ [UInt8.ofNat (n % 128)]

/-- The identifier octets of a tag: the class and constructed bits are its top three bits. -/
def identifierOctets (tag : UInt32) : Bytes :=
  let bits := tag.toNat / 2 ^ 29
  let number := tag.toNat % 2 ^ 29
  if number < 31 then [UInt8.ofNat (bits * 32 + number)]
  else UInt8.ofNat (bits * 32 + 31) :: base128 number

def lengthOctets (n : ℕ) : Bytes :=
  if n < 128 then [UInt8.ofNat n]
  else
    let octets := (Nat.digits 256 n).reverse.map UInt8.ofNat
    UInt8.ofNat (128 + octets.length) :: octets

def derElement (tag : UInt32) (body : Bytes) : Bytes :=
  identifierOctets tag ++ lengthOctets body.length ++ body

/-- Data whose length a `size_t` holds. -/
abbrev SizedBytes := { data : Bytes // data.length < sizeMod }

/-- The argument of `CBB_add_u8`, `CBB_add_u16`, `CBB_add_u24`, `CBB_add_u32` or `CBB_add_u64`. -/
inductive Word
  | u8 (value : UInt8)
  | u16 (value : UInt16)
  | u24 (value : UInt32)
  | u32 (value : UInt32)
  | u64 (value : UInt64)
  deriving DecidableEq, Repr

namespace Word

def width : Word → ℕ
  | u8 _ => 1
  | u16 _ => 2
  | u24 _ => 3
  | u32 _ => 4
  | u64 _ => 8

def val : Word → ℕ
  | u8 v => v.toNat
  | u16 v => v.toNat
  | u24 v => v.toNat
  | u32 v => v.toNat
  | u64 v => v.toNat

def add : Word → Cbb → ℕ → Bool × Cbb
  | u8 v, cbb, d => cbbAddU8 cbb d v
  | u16 v, cbb, d => cbbAddU16 cbb d v
  | u24 v, cbb, d => cbbAddU24 cbb d v
  | u32 v, cbb, d => cbbAddU32 cbb d v
  | u64 v, cbb, d => cbbAddU64 cbb d v

/-- The value fits its width. -/
def Fits (w : Word) : Prop := w.val < 256 ^ w.width

instance (w : Word) : Decidable w.Fits := inferInstanceAs (Decidable (_ < _))

end Word

/-- The kinds of length prefix. -/
inductive LenPrefix
  | u8
  | u16
  | u24
  | asn1 (tag : UInt32)
  deriving DecidableEq, Repr

namespace LenPrefix

def add : LenPrefix → Cbb → ℕ → Bool × Cbb
  | u8, cbb, d => cbbAddU8LengthPrefixed cbb d
  | u16, cbb, d => cbbAddU16LengthPrefixed cbb d
  | u24, cbb, d => cbbAddU24LengthPrefixed cbb d
  | asn1 tag, cbb, d => cbbAddAsn1 cbb d tag

/-- The octets before the length. -/
def lead : LenPrefix → Bytes
  | asn1 tag => identifierOctets tag
  | _ => []

/-- The bytes set aside for the length when the child is opened. -/
def reserved : LenPrefix → ℕ
  | u8 => 1
  | u16 => 2
  | u24 => 3
  | asn1 _ => 1

/-- The length of a body of `n` bytes, as it stands in the output. -/
def lenOctets : LenPrefix → ℕ → Bytes
  | u8, n => beBytes 1 n
  | u16, n => beBytes 2 n
  | u24, n => beBytes 3 n
  | asn1 _, n => lengthOctets n

def maxLen : LenPrefix → ℕ
  | u8 => 0xff
  | u16 => 0xffff
  | u24 => 0xffffff
  | asn1 _ => 0xfffffffe

def encode (p : LenPrefix) (body : Bytes) : Bytes := p.lead ++ p.lenOctets body.length ++ body

end LenPrefix

/-- Calls on one CBB, in order. -/
inductive Writes
  | done
  | addBytes (data : SizedBytes) (next : Writes)
  | addWord (word : Word) (next : Writes)
  | addChild (pre : LenPrefix) (body next : Writes)
  | discardChild (next : Writes)
  deriving DecidableEq, Repr

namespace Writes

/-- Makes the calls on the CBB at depth `d`.  A child that could not be opened is not written to. -/
def exec : Writes → Cbb → ℕ → Cbb
  | done, cbb, _ => cbb
  | addBytes data next, cbb, d => next.exec (cbbAddBytes cbb d data.1).2 d
  | addWord word next, cbb, d => next.exec (word.add cbb d).2 d
  | addChild pre body next, cbb, d =>
    let r := pre.add cbb d
    next.exec (if r.1 then body.exec r.2 (d + 1) else r.2) d
  | discardChild next, cbb, d => next.exec (cbbDiscardChild cbb d) d

variable (atEnd : Bool)

/-- Whether a child left open before these calls is flushed by the next of them, or, if there is
none, by the end of the CBB (`atEnd`). -/
def closes : Writes → Bool
  | done => atEnd
  | discardChild _ => false
  | _ => true

@[simp] lemma closes_done : done.closes atEnd = atEnd := rfl
@[simp] lemma closes_addBytes (data : SizedBytes) (next : Writes) :
    (addBytes data next).closes atEnd = true := rfl
@[simp] lemma closes_addWord (word : Word) (next : Writes) :
    (addWord word next).closes atEnd = true := rfl
@[simp] lemma closes_addChild (pre : LenPrefix) (body next : Writes) :
    (addChild pre body next).closes atEnd = true := rfl
@[simp] lemma closes_discardChild (next : Writes) :
    (discardChild next).closes atEnd = false := rfl
variable (left : LenPrefix → Bytes)

/-- The bytes the calls write; `left` is what a discarded child leaves behind. -/
def serialise : Writes → Bytes
  | done => []
  | addBytes data next => data.1 ++ next.serialise
  | addWord word next => beBytes word.width word.val ++ next.serialise
  | addChild pre body next =>
    (if next.closes true then pre.encode body.serialise else left pre) ++ next.serialise
  | discardChild next => next.serialise

/-- Some integer does not fit its width, or some child that is flushed does not fit its prefix. -/
def Fails : Bool → Writes → Prop
  | _, done => False
  | atEnd, addBytes _ next => next.Fails atEnd
  | atEnd, addWord word next => ¬ word.Fits ∨ next.Fails atEnd
  | atEnd, addChild pre body next =>
    body.Fails (next.closes atEnd)
      ∨ (next.closes atEnd = true ∧ pre.maxLen < (body.serialise left).length)
      ∨ next.Fails atEnd
  | atEnd, discardChild next => next.Fails atEnd

/-- The most bytes the buffer holds during the calls, when it holds `n` before them. -/
def peak : Bool → ℕ → Writes → ℕ
  | _, n, done => n
  | atEnd, n, addBytes data next => next.peak atEnd (n + data.1.length)
  | atEnd, n, addWord word next => next.peak atEnd (n + word.width)
  | atEnd, n, addChild pre body next =>
    max (body.peak (next.closes atEnd) (n + pre.lead.length + pre.reserved))
      (next.peak atEnd (n + (if next.closes atEnd then pre.encode (body.serialise left)
        else left pre).length))
  | atEnd, n, discardChild next => next.peak atEnd n

instance decidableFails : ∀ (atEnd : Bool) (w : Writes), Decidable (w.Fails left atEnd)
  | _, done => inferInstanceAs (Decidable False)
  | atEnd, addBytes _ next => decidableFails atEnd next
  | atEnd, addWord word next =>
    have := decidableFails atEnd next
    inferInstanceAs (Decidable (¬ word.Fits ∨ next.Fails left atEnd))
  | atEnd, addChild pre body next =>
    have := decidableFails (next.closes atEnd) body
    have := decidableFails atEnd next
    inferInstanceAs (Decidable (body.Fails left (next.closes atEnd)
      ∨ (next.closes atEnd = true ∧ pre.maxLen < (body.serialise left).length)
      ∨ next.Fails left atEnd))
  | atEnd, discardChild next => decidableFails atEnd next

/-- What `CBB_finish` should return after the calls, on a buffer that can hold `limit` bytes. -/
def spec (limit : ℕ) (w : Writes) : Option Bytes :=
  if w.Fails left true ∨ limit < w.peak left true 0 then none else some (w.serialise left)

/-- Some ASN.1 child is discarded, outside of any child that is itself discarded. -/
def DiscardsAsn1 : Writes → Prop
  | done => False
  | addBytes _ next => next.DiscardsAsn1
  | addWord _ next => next.DiscardsAsn1
  | addChild pre body next =>
    (if next.closes true then body.DiscardsAsn1 else ∃ tag, pre = .asn1 tag) ∨ next.DiscardsAsn1
  | discardChild next => next.DiscardsAsn1

end Writes

def leavesNothing (_ : LenPrefix) : Bytes := []

/-- How a CBB starts. -/
inductive CbbRoot
  | growable (initialCapacity : Fin sizeMod) (fill : UInt8)
  | fixed (buf : SizedBytes)

namespace CbbRoot

def cbb : CbbRoot → Cbb
  | growable initialCapacity fill => cbbInit initialCapacity fill
  | fixed buf => cbbInitFixed buf.1

/-- The most bytes it can hold; a `size_t` counts those of a growable one. -/
def limit : CbbRoot → ℕ
  | growable _ _ => sizeMod - 1
  | fixed buf => buf.1.length

end CbbRoot

end BoringSSL
