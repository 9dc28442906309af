import BoringSSL.Lib.Checked

/-!
# Coefficients of ML-DSA, `crypto/fipsmodule/mldsa`

A coefficient is a `uint32_t`, here a natural number.  A scalar is the list of its 256 coefficients,
and a vector is a list of scalars.
-/

namespace BoringSSL.MlDsa

open ByteLib
open ByteLib.Checked

def degree : ℕ := 256

def prime : ℕ := 8380417

/-- A polynomial by its coefficients. -/
abbrev Scalar := List ℕ

def reduceOnce (x : ℕ) : Checked ℕ := do
  assert (x < 2 * prime)
  return if x < prime then x else x - prime

def modSub (a b : ℕ) : Checked ℕ := do
  assert (a < prime)
  assert (b < prime)
  reduceOnce (prime + a - b)

end BoringSSL.MlDsa
