import BoringSSL.Cbs
import BoringSSL.Lib.Packing

/-!
# Encodings of ML-KEM, `crypto/fipsmodule/mlkem`

Coefficients are packed bit by bit: an element is cut into chunks where the bytes end.  A scalar is
the list of its 256 coefficients, a vector a list of scalars.
-/

namespace BoringSSL.MlKem

open ByteLib
open ByteLib.Checked

def degree : ℕ := 256

def prime : ℕ := 3329

def log2Prime : ℕ := 12

/-- A polynomial by its coefficients. -/
abbrev Scalar := List ℕ

def masks : List ℕ := [0x01, 0x03, 0x07, 0x0f, 0x1f, 0x3f, 0x7f, 0xff]

/-- The bytes written so far, and the byte that is being filled with the number of its bits. -/
structure Writer where
  out : Bytes
  outByte : ℕ
  outByteBits : ℕ
  deriving DecidableEq, Repr

/-- `while (element_bits_done < bits)`; each pass takes at least one bit, so that `bits` passes are
enough. -/
def encodeChunks (bits : ℕ) : (fuel : ℕ) → Writer → (element done : ℕ) → Writer
  | 0, w, _, _ => w
  | fuel + 1, w, element, done =>
    if done < bits then
      let chunkBits := bits - done
      let outBitsRemaining := 8 - w.outByteBits
      if chunkBits ≥ outBitsRemaining then
        let chunkBits := outBitsRemaining
        let outByte :=
          (w.outByte ||| (element &&& masks.getD (chunkBits - 1) 0) <<< w.outByteBits) % 2 ^ 8
        encodeChunks bits fuel ⟨w.out ++ [UInt8.ofNat outByte], 0, 0⟩ (element >>> chunkBits)
          (done + chunkBits)
      else
        let outByte :=
          (w.outByte ||| (element &&& masks.getD (chunkBits - 1) 0) <<< w.outByteBits) % 2 ^ 8
        encodeChunks bits fuel ⟨w.out, outByte, w.outByteBits + chunkBits⟩ (element >>> chunkBits)
          (done + chunkBits)
    else w

def scalarEncode (s : Scalar) (bits : ℕ) : Checked Bytes := do
  assert (bits ≤ 16 ∧ bits ≠ 1)
  let w := s.foldl (fun w element => encodeChunks bits bits w element 0) ⟨[], 0, 0⟩
  return if w.outByteBits > 0 then w.out ++ [UInt8.ofNat w.outByte] else w.out

def vectorEncode (a : List Scalar) (bits : ℕ) : Checked Bytes := do
  return (← a.mapM fun s => scalarEncode s bits).flatten

/-- The bytes not yet read, and what is left of the last one read with the number of its bits. -/
structure Reader where
  input : Bytes
  inByte : ℕ
  inByteBitsLeft : ℕ
  deriving DecidableEq, Repr

def Reader.refill (r : Reader) : Reader :=
  if r.inByteBitsLeft = 0 then ⟨r.input.tail, (r.input.headD 0).toNat, 8⟩ else r

def decodeChunks (bits : ℕ) : (fuel : ℕ) → Reader → (element done : ℕ) → ℕ × Reader
  | 0, r, element, _ => (element, r)
  | fuel + 1, r, element, done =>
    if done < bits then
      let r := r.refill
      let chunkBits := if bits - done > r.inByteBitsLeft then r.inByteBitsLeft else bits - done
      let element :=
        (element ||| (r.inByte &&& masks.getD (chunkBits - 1) 0) <<< done) % 2 ^ 16
      decodeChunks bits fuel ⟨r.input, r.inByte >>> chunkBits, r.inByteBitsLeft - chunkBits⟩ element
        (done + chunkBits)
    else (element, r)

def scalarDecodeFrom (bits : ℕ) : (n : ℕ) → Reader → Checked Scalar
  | 0, _ => return []
  | n + 1, r => do
    let (element, r) := decodeChunks bits bits r 0 0
    if element ≥ prime then
      reject
    else
      return element :: (← scalarDecodeFrom bits n r)

def scalarDecode (input : Bytes) (bits : ℕ) : Checked Scalar := do
  assert (bits ≤ 16 ∧ bits ≠ 1)
  scalarDecodeFrom bits degree ⟨input, 0, 0⟩

def scalarBytes (input : Bytes) (bits i : ℕ) : Bytes :=
  (input.drop (i * bits * degree / 8)).take (bits * degree / 8)

def vectorDecode (rank : ℕ) (input : Bytes) (bits : ℕ) : Checked (List Scalar) :=
  (List.range rank).mapM fun i => scalarDecode (scalarBytes input bits i) bits

def rank768 : ℕ := 3
def rank1024 : ℕ := 4

def encodedVectorSize (rank : ℕ) : ℕ := log2Prime * degree / 8 * rank

/-- A matrix by its rows. -/
abbrev Matrix := List (List Scalar)

/-- A public key, parsed. -/
structure PublicKey where
  t : List Scalar
  rho : Bytes
  publicKeyHash : Bytes
  m : Matrix
  deriving DecidableEq, Repr

/-- A private key, parsed. -/
structure PrivateKey where
  pub : PublicKey
  s : List Scalar
  foFailureSecret : Bytes
  deriving DecidableEq, Repr

def mlkemMarshalPublicKey (pub : PublicKey) : Checked Bytes := do
  return (← vectorEncode pub.t log2Prime) ++ pub.rho

variable (matrixExpand : Bytes → Matrix)

/-- Leaves `public_key_hash` as it is in `hash`. -/
def mlkemParsePublicKeyNoHash (rank : ℕ) (hash input : Bytes) : Checked (PublicKey × Bytes) := do
  let (tBytes, cbs) ← getBytes input (encodedVectorSize rank)
  let t ← vectorDecode rank tBytes log2Prime
  let (rho, cbs) ← getBytes cbs 32
  return (⟨t, rho, hash, matrixExpand rho⟩, cbs)

def mlkemParsePublicKey (hashH : Bytes → Bytes) (rank : ℕ) (input : Bytes) : Checked PublicKey := do
  let (pub, cbs) ← mlkemParsePublicKeyNoHash matrixExpand rank [] input
  if cbs.length ≠ 0 then reject
  else return { pub with publicKeyHash := hashH input }

def mlkemMarshalPrivateKey (priv : PrivateKey) : Checked Bytes := do
  let s ← vectorEncode priv.s log2Prime
  let pub ← mlkemMarshalPublicKey priv.pub
  return s ++ pub ++ priv.pub.publicKeyHash ++ priv.foFailureSecret

def mlkemParsePrivateKey (rank : ℕ) (input : Bytes) : Checked PrivateKey := do
  let (sBytes, cbs) ← getBytes input (encodedVectorSize rank)
  let s ← vectorDecode rank sBytes log2Prime
  let (pub, cbs) ← mlkemParsePublicKeyNoHash matrixExpand rank [] cbs
  let (hash, cbs) ← getBytes cbs 32
  let (foFailureSecret, cbs) ← getBytes cbs 32
  if cbs.length ≠ 0 then reject
  else return ⟨{ pub with publicKeyHash := hash }, s, foFailureSecret⟩

end BoringSSL.MlKem
