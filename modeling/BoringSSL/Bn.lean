import BoringSSL.Lib.Bytes
import BoringSSL.Lib.Montgomery

/-!
# Numbers in fixed arrays of words

The functions of `crypto/fipsmodule/bn` on arrays of a fixed number of 64-bit words.  An array of
`num` words is the number it spells, which is below `2 ^ (64 * num)`: sums and differences wrap
there and return the carry.  Montgomery multiplication is the library's.
-/

namespace BoringSSL.Bn

open ByteLib

/-- Why a function returns 0: the last error that it puts on the queue. -/
inductive Reason where
  | ecInvalidScalar | ecPointAtInfinity | ecInternalError | ecInvalidGroupOrder | ecBufferTooSmall
  | ecdsaMissingParameters | ecdsaBadSignature | ecdsaInternalError | ecdsaEcLib
  deriving DecidableEq, Repr

/-- How a function stops. -/
inductive Stop where
  /-- A check that ends the process does not hold. -/
  | abort
  | put (reason : Reason)
  deriving DecidableEq, Repr

/-- A result or a stop. -/
abbrev Ret := Except Stop

def put {α : Type} (reason : Reason) : Ret α := .error (.put reason)

def require (c : Prop) [Decidable c] (reason : Reason) : Ret Unit :=
  if c then pure () else put reason

/-- `x`, with another error where it puts one. -/
def orPut {α : Type} (x : Ret α) (reason : Reason) : Ret α :=
  match x with
  | .error (.put _) => put reason
  | .error .abort => .error .abort
  | .ok a => .ok a

def check (c : Prop) [Decidable c] : Ret Unit := if c then pure () else .error .abort

/-- `BN_MONT_CTX` with words of 64 bits. -/
abbrev BnMontCtx := Montgomery.Modulus (2 ^ 64)

def bnNumBits (n : ℕ) : ℕ := if n = 0 then 0 else n.log2 + 1

def bnNumBytes (n : ℕ) : ℕ := (bnNumBits n + 7) / 8

def bnBigEndianToWords (outLen : ℕ) (input : Bytes) : Ret ℕ := do
  check (input.length ≤ outLen * 8)
  return beNat input

def bnWordsToBigEndian (outLen words : ℕ) : Ret Bytes := do
  check (words < 256 ^ outLen)
  return beBytes outLen words

def bnAddWords (num a b : ℕ) : ℕ × ℕ := ((a + b) % 2 ^ (64 * num), (a + b) / 2 ^ (64 * num))

def bnSubWords (num a b : ℕ) : ℕ × ℕ :=
  ((2 ^ (64 * num) + a - b) % 2 ^ (64 * num), if a < b then 1 else 0)

/-- `a`, with `carry` above its words, less `m` unless it is below `m`. -/
def bnReduceOnce (num a carry m : ℕ) : Ret ℕ :=
  let (r, borrow) := bnSubWords num a m
  if carry = borrow then return r
  -- `carry - borrow` is all ones
  else if carry < borrow then return a
  else .error .abort

def bnModAddWords (num a b m : ℕ) : Ret ℕ :=
  let (r, carry) := bnAddWords num a b
  bnReduceOnce num r carry m

def bnModSubWords (num a b m : ℕ) : ℕ :=
  let (r, borrow) := bnSubWords num a b
  if borrow = 0 then r else (bnAddWords num r m).1

/-- The inverse by Fermat's theorem, zero for zero: the argument and the result are in Montgomery
form. -/
def bnModInverse0PrimeMontSmall (mont : BnMontCtx) (a : ℕ) : ℕ := mont.pow a (mont.N - 2)

end BoringSSL.Bn
