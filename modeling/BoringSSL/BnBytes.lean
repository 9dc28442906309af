import BoringSSL.BigNum
import BoringSSL.Lib.Bytes

/-!
# Numbers to and from bytes

From `crypto/fipsmodule/bn/bytes.cc.inc`, with the `BIGNUM` that the functions write to: its array
of words is kept as its bytes, least significant first as on every supported platform.  Allocation
fails only above `BN_MAX_WORDS`.
-/

namespace BoringSSL.BigNum

open ByteLib

def leNat (bs : Bytes) : ℕ := beNat bs.reverse

/-- The words from `width` on are left over from earlier values. -/
structure Bignum where
  d : Bytes
  width : ℕ
  neg : Bool
  width_le : 8 * width ≤ d.length

namespace Bignum

def dmax (bn : Bignum) : ℕ := bn.d.length / 8

def bytes (bn : Bignum) : Bytes := bn.d.take (8 * bn.width)

def value (bn : Bignum) : ℕ := leNat bn.bytes

end Bignum

def bnNew : Bignum := ⟨[], 0, false, by simp⟩

def bnWexpand (bn : Bignum) (words : ℕ) :
    Ret {b : Bignum // b.neg = bn.neg ∧ 8 * words ≤ b.d.length} :=
  if h : words ≤ bn.dmax then .ok ⟨bn, rfl, by rw [Bignum.dmax] at h; omega⟩
  else if bnMaxWords < words then put .bignumTooLong
  else
    have hlen : bn.bytes.length = 8 * bn.width := by simp [Bignum.bytes, bn.width_le]
    .ok ⟨⟨bn.bytes ++ List.replicate (8 * words - 8 * bn.width) 0, bn.width, bn.neg,
      by simp [hlen]⟩, rfl, by simp [hlen]; omega⟩

def wordBytes (word : ℕ) : Bytes := (beBytes 8 word).reverse

/-- The words of a big-endian string, least significant first: whole words, the last partial one,
and zeros. -/
def loadWords : ℕ → Bytes → List ℕ
  | 0, _ => []
  | outLen + 1, input =>
    if 8 ≤ input.length then
      beNat (input.drop (input.length - 8)) :: loadWords outLen (input.take (input.length - 8))
    else if input ≠ [] then
      input.foldl (fun word b => (word <<< 8 ||| b.toNat) % 2 ^ 64) 0 :: List.replicate outLen 0
    else List.replicate (outLen + 1) 0

def bnBigEndianToWords (outLen : ℕ) (input : Bytes) : Ret (List ℕ) := do
  assert (input.length ≤ outLen * 8)
  return loadWords outLen input

lemma le_length_overwrite {α : Type} (mem data : List α) (off : ℕ) (h : off ≤ mem.length) :
    mem.length ≤ (overwrite mem off data).length := by
  simp [overwrite]
  omega

def bnBin2bn (input : Bytes) (ret : Bignum) : Ret Bignum :=
  if input.length = 0 then .ok { ret with width := 0, width_le := by simp }
  else do
    let numWords := (input.length - 1) / 8 + 1
    let ⟨ret, _, h⟩ ← bnWexpand ret numWords
    let words ← bnBigEndianToWords numWords input
    return ⟨overwrite ret.d 0 (words.flatMap wordBytes), numWords, false,
      h.trans (le_length_overwrite _ _ _ (by simp))⟩

def bnLebin2bn (input : Bytes) (ret : Bignum) : Ret Bignum :=
  if input.length = 0 then .ok { ret with width := 0, neg := false, width_le := by simp }
  else do
    let numWords := (input.length - 1) / 8 + 1
    let ⟨ret, _, h⟩ ← bnWexpand ret numWords
    let d := overwrite ret.d (8 * (numWords - 1)) (List.replicate 8 0)
    return ⟨overwrite d 0 input, numWords, ret.neg,
      (h.trans (le_length_overwrite _ _ _ (by omega))).trans (le_length_overwrite _ _ _ (by simp))⟩

def fitsInBytes (bytes : Bytes) (numBytes : ℕ) : Bool :=
  (bytes.drop numBytes).foldl (· ||| ·) 0 == 0

def bnWordsToBigEndian (outLen : ℕ) (bytes : Bytes) : Ret Bytes := do
  assert (fitsInBytes bytes outLen = true)
  let numBytes := if outLen < bytes.length then outLen else bytes.length
  return List.replicate (outLen - numBytes) 0 ++ (bytes.take numBytes).reverse

def bnBn2lePadded (len : ℕ) (x : Bignum) : Ret Bytes :=
  if fitsInBytes x.bytes len then
    let numBytes := if len < x.bytes.length then len else x.bytes.length
    .ok (x.bytes.take numBytes ++ List.replicate (len - numBytes) 0)
  else .error .silent

def bnBn2binPadded (len : ℕ) (x : Bignum) : Ret Bytes :=
  if fitsInBytes x.bytes len then bnWordsToBigEndian len x.bytes else .error .silent

end BoringSSL.BigNum
