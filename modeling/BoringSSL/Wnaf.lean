import BoringSSL.BigNum
import Mathlib.Data.BitVec

/-!
# Modified width-(w+1) non-adjacent forms

`ec_compute_wNAF` of `crypto/fipsmodule/ec/wnaf.cc.inc`.  A scalar is the bits of its `width` words:
`bn_is_bit_set_words` reads zero above them.
-/

namespace BoringSSL.Wnaf

open BigNum

/-- The digit of round `j`, and the window that is left when it is taken off. -/
def wnafRound (bits w j : ℕ) (windowVal : ℤ) : Ret (ℤ × ℤ) := do
  let bit : ℤ := 2 ^ w
  let nextBit : ℤ := 2 * bit
  assert (0 ≤ windowVal ∧ windowVal ≤ nextBit)
  if windowVal % 2 = 0 then return (0, windowVal)
  else
    assert (0 < windowVal ∧ windowVal < nextBit)
    let digit :=
      if windowVal / bit % 2 = 1 then
        -- no new bits will come in: a positive digit keeps the representation short
        if bits ≤ j + w + 1 then windowVal % bit else windowVal - nextBit
      else windowVal
    let windowVal := windowVal - digit
    assert (windowVal = 0 ∨ windowVal = nextBit ∨ windowVal = bit)
    assert (-bit < digit ∧ digit < bit)
    assert (digit % 2 = 1)
    return (digit, windowVal)

/-- The next `k` rounds, from round `j` on. -/
def wnafLoop {n : ℕ} (scalar : BitVec n) (bits w : ℕ) : ℕ → ℕ → ℤ → Ret (List ℤ)
  | 0, _, windowVal => do
    assert (windowVal = 0)
    return []
  | k + 1, j, windowVal => do
    let (digit, windowVal) ← wnafRound bits w j windowVal
    let windowVal := windowVal / 2 + 2 ^ w * (scalar.getLsbD (j + w + 1)).toInt
    assert (windowVal ≤ 2 * 2 ^ w)
    let out ← wnafLoop scalar bits w k (j + 1) windowVal
    return digit :: out

def ecComputeWnaf {width : ℕ} (scalar : BitVec (64 * width)) (bits w : ℕ) : Ret (List ℤ) := do
  assert (0 < w ∧ w ≤ 7)
  assert (bits ≠ 0)
  wnafLoop scalar bits w (bits + 1) 0 (scalar.toNat % 2 ^ 64 % 2 ^ (w + 1) : ℕ)

end BoringSSL.Wnaf
