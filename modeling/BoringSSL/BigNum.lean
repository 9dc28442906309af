import Mathlib.Algebra.GroupWithZero.Nat
import Mathlib.Data.Nat.Log

/-!
# Jacobi symbols and square roots

From `crypto/fipsmodule/bn`: `bn_jacobi` and `BN_sqrt`.  Sums, products and quotients are those of
integers.  Memory is never short, but no `BIGNUM` may have more than `BN_MAX_WORDS` words: the
functions called here fail where they ask for more.  Copies, differences and shifts to the right
never ask for more than an operand has.  A loop without a bound is given the number of its rounds,
and a run that needs more is `running`.
-/

namespace BoringSSL.BigNum

/-- The reasons put on the error queue. -/
inductive Reason where
  | calledWithEvenModulus | negativeNumber | notASquare | bnLib | divByZero | bignumTooLong
  deriving DecidableEq, Repr

/-- How a function fails. -/
inductive Fail where
  | put (reason : Reason)
  /-- It returns 0 or NULL and puts no error on the queue. -/
  | silent
  | assertion
  | running
  deriving DecidableEq, Repr

/-- A result or a failure. -/
abbrev Ret := Except Fail

def put {α : Type} (reason : Reason) : Ret α := .error (.put reason)

def assert (c : Prop) [Decidable c] : Ret Unit := if c then .ok () else .error .assertion

lemma assert_bind {c : Prop} [Decidable c] (h : c) {α : Type} (f : Unit → Ret α) :
    (assert c >>= f) = f () := by
  rw [assert, if_pos h]
  rfl

/-- The index of the lowest bit that `BN_is_bit_set` finds, within `fuel` bits. -/
def lowestBit : ℕ → ℕ → ℕ
  | 0, _ => 0
  | fuel + 1, n => if n % 2 = 1 then 0 else lowestBit fuel (n / 2) + 1

def bnCountLowZeroBits (n : ℕ) : ℕ := lowestBit n n

def bnNumBits (n : ℕ) : ℕ := if n = 0 then 0 else n.log2 + 1

def bnLsw (n : ℕ) : ℕ := n % 2 ^ 64

def bnMaxWords : ℕ := (2 ^ 31 - 1) / (4 * 64)

/-- A `BIGNUM` with its words, of which the upper ones may be zero. -/
structure Operand where
  value : ℤ
  width : ℕ
  fits : value.natAbs < 2 ^ (64 * width)
  width_le : width ≤ bnMaxWords

/-- The words of a result: the upper ones that are zero are dropped. -/
def bnMinimalWidth (n : ℕ) : ℕ := (bnNumBits n + 63) / 64

/-- The array of a result is made to have that many words. -/
def expand (words : ℕ) : Ret Unit := if bnMaxWords < words then put .bignumTooLong else .ok ()

def bnLshift (a width n : ℕ) : Ret ℕ := do
  expand (width + n / 64 + 1)
  return a <<< n

def bnUadd (a b : ℕ) : Ret ℕ := do
  expand (max (bnMinimalWidth a) (bnMinimalWidth b) + 1)
  return a + b

/-- The array for the product, and for the temporary of a long factor. -/
def bnSqr (a : ℕ) : Ret ℕ := do
  let al := bnMinimalWidth a
  expand (2 * al)
  expand (if al < 16 then 0 else if al &&& (al - 1) = 0 then al * 4 else 2 * al)
  return a * a

/-- The quotient and the remainder; long division shifts both operands first. -/
def bnDiv (numerator width divisor : ℕ) : Ret (ℕ × ℕ) :=
  if divisor = 0 then put .divByZero
  else do
    let normShift := 64 - bnNumBits divisor % 64
    let sdiv ← bnLshift divisor (bnMinimalWidth divisor) normShift
    let snum ← bnLshift numerator width normShift
    let divN := bnMinimalWidth sdiv
    let numN := if bnMinimalWidth snum ≤ divN then divN + 1 else bnMinimalWidth snum + 1
    expand numN
    expand (numN - divN)
    expand (divN + 1)
    return (numerator / divisor, numerator % divisor)

def tab : List ℤ := [0, 1, 0, -1, 0, -1, 0, 1]

/-- The words of `B` are those of the argument in the first round. -/
def bnJacobiLoop : ℕ → ℤ → ℕ → ℕ → ℤ → Ret ℤ
  | 0, _, _, _, _ => .error .running
  | fuel + 1, A, B, width, ret =>
    if A = 0 then .ok (if B = 1 then ret else 0)
    else do
      let i := bnCountLowZeroBits A.natAbs
      let A' := A.natAbs >>> i
      let ret := if i &&& 1 ≠ 0 then ret * tab.getD (bnLsw B &&& 7) 0 else ret
      let lsw := if A < 0 then 2 ^ 64 - 1 - bnLsw A' else bnLsw A'
      let ret := if lsw &&& bnLsw B &&& 2 ≠ 0 then -ret else ret
      let (_, rem) ← bnDiv B width A'
      bnJacobiLoop fuel rem A' (bnMinimalWidth A') ret

/-- The symbol; for an error it is `-2` in the source. -/
def bnJacobi (a b : Operand) : Ret ℤ :=
  if b.value.natAbs % 2 = 0 then put .calledWithEvenModulus
  else if b.value < 0 then put .negativeNumber
  else bnJacobiLoop (a.value.natAbs + 1) a.value b.value.natAbs b.width 1

/-- One step of Newton's method: the estimate and its square. -/
def bnSqrtStep (n width estimate : ℕ) : Ret (ℕ × ℕ) := do
  let (quotient, _) ← bnDiv n width estimate
  let sum ← bnUadd quotient estimate
  let estimate := sum / 2
  let tmp ← bnSqr estimate
  return (estimate, tmp)

/-- The rounds of Newton's method: the last estimate and its square. -/
def bnSqrtLoop (n width : ℕ) : ℕ → ℕ → Option ℕ → Ret (ℕ × ℕ)
  | 0, _, _ => .error .running
  | fuel + 1, estimate, lastDelta =>
    match bnSqrtStep n width estimate with
    | .error _ => put .bnLib
    | .ok (estimate, tmp) =>
      let delta := (n - tmp : ℤ).natAbs
      if lastDelta.any (· ≤ delta) then .ok (estimate, tmp)
      else bnSqrtLoop n width fuel estimate (some delta)

def bnSqrt (input : Operand) : Ret ℕ := do
  if input.value < 0 then put .negativeNumber
  else if input.value = 0 then return 0
  else
    let n := input.value.natAbs
    let estimate ← bnLshift 1 1 (bnNumBits n / 2)
    let (estimate, tmp) ← bnSqrtLoop n input.width (n * n + 2) estimate none
    if tmp ≠ n then put .notASquare
    else return estimate

end BoringSSL.BigNum
