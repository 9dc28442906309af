import BoringSSL.Cbs
import BoringSSL.Stack

/-!
# `CBB_flush_asn1_set_of`

The elements of a SET OF, written in any order, are put into the order that DER asks for.
-/

namespace BoringSSL

open ByteLib

/-- `OPENSSL_memcmp` of strings of the same length: by the first bytes that differ. -/
def opensslMemcmp : Bytes → Bytes → ℤ
  | a :: as, b :: bs => if a = b then opensslMemcmp as bs else (a.toNat : ℤ) - b.toNat
  | _, _ => 0

def compareSetOfElement (a b : Bytes) : ℤ :=
  let minLen := if a.length < b.length then a.length else b.length
  let ret := opensslMemcmp (a.take minLen) (b.take minLen)
  if ret ≠ 0 then ret
  else if a.length = b.length then 0
  else if a.length < b.length then -1 else 1

/-- Where the contents of the CBB at depth `d` begin: `CBB_data` less the buffer. -/
def cbbStart (cbb : Cbb) : ℕ → ℕ
  | 0 => 0
  | d + 1 =>
    match cbb.children[d]? with
    | some child => child.offset + child.pendingLenLen
    | none => 0

def cbbContents (cbb : Cbb) (d : ℕ) : Bytes :=
  (cbb.base.buf.take cbb.base.len).drop (cbbStart cbb d)

/-- The first loop, which counts the elements; each of them takes a byte. -/
def countElements : ℕ → Bytes → Option ℕ
  | _, [] => some 0
  | 0, _ :: _ => none
  | fuel + 1, cbs => (cbsGetAnyAsn1Element cbs).bind fun e =>
    (countElements fuel e.cbs).map (· + 1)

def readElements : ℕ → Bytes → Option (List Bytes)
  | 0, _ => some []
  | n + 1, cbs => (cbsGetAnyAsn1Element cbs).bind fun e =>
    (readElements n e.cbs).map (e.out :: ·)

/-- The loop that writes the elements back, from place `pos` of the buffer on. -/
def writeElements (buf : Bytes) (pos : ℕ) : List Bytes → Bytes
  | [] => buf
  | e :: es => writeElements (overwrite buf pos e) (pos + e.length) es

/-- `qsort` of the elements is given, and `mallocOk` is whether both allocations succeed. -/
def cbbFlushAsn1SetOf (qsort : (Bytes → Bytes → ℤ) → List Bytes → List Bytes) (mallocOk : Bool)
    (cbb : Cbb) (d : ℕ) : Bool × Cbb :=
  let f := cbbFlush cbb d
  if !f.1 then f
  else
    let contents := cbbContents f.2 d
    match countElements contents.length contents with
    | none => (false, f.2)
    | some numChildren =>
      if numChildren < 2 then (true, f.2)
      else if !mallocOk then (false, f.2)
      else
        match readElements numChildren contents with
        | none => (false, f.2)
        | some children =>
          let children := qsort compareSetOfElement children
          (true, { f.2 with base := { f.2.base with
            buf := writeElements f.2.base.buf (cbbStart f.2 d) children } })

end BoringSSL
