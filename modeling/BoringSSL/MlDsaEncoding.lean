import BoringSSL.Cbs
import BoringSSL.Lib.Packing
import BoringSSL.MlDsaArith

/-!
# Encodings of ML-DSA, `crypto/fipsmodule/mldsa`

The packings of coefficients, each written out for its width as in the source, the encoding of
hints, and the keys and signatures made of them.  Words are copied to and from memory as on the
little-endian machines the source is for.
-/

namespace BoringSSL.MlDsa

open ByteLib
open ByteLib.Checked

/-- The constants that depend on `K`, and `L`. -/
structure Params where
  k : ℕ
  l : ℕ
  lambdaBytes : ℕ
  omega : ℕ
  eta : ℕ
  plusMinusEtaBitlen : ℕ
  deriving DecidableEq, Repr

def mldsa65 : Params := ⟨6, 5, 24, 55, 4, 4⟩

def mldsa87 : Params := ⟨8, 7, 32, 75, 2, 3⟩

def rhoBytes : ℕ := 32
def kBytes : ℕ := 32
def trBytes : ℕ := 64

def encode4 (a b : ℕ) : Checked Bytes := do
  assert (a < 16)
  assert (b < 16)
  return [UInt8.ofNat (a ||| b <<< 4)]

def scalarEncode4 : Scalar → Checked Bytes
  | a :: b :: s => do
    let out ← encode4 a b
    return out ++ (← scalarEncode4 s)
  | _ => return []

def encode10 (a b c d : ℕ) : Checked Bytes := do
  assert (a < 1024)
  assert (b < 1024)
  assert (c < 1024)
  assert (d < 1024)
  return [UInt8.ofNat a, UInt8.ofNat (a >>> 8 ||| b <<< 2), UInt8.ofNat (b >>> 6 ||| c <<< 4),
    UInt8.ofNat (c >>> 4 ||| d <<< 6), UInt8.ofNat (d >>> 2)]

def scalarEncode10 : Scalar → Checked Bytes
  | a :: b :: c :: d :: s => do
    let out ← encode10 a b c d
    return out ++ (← scalarEncode10 s)
  | _ => return []

def scalarEncodeSigned44 : Scalar → Checked Bytes
  | a :: b :: s => do
    let a ← modSub 4 a
    let b ← modSub 4 b
    let out ← encode4 a b
    return out ++ (← scalarEncodeSigned44 s)
  | _ => return []

/-- The eight values are put into one word, of which three bytes are kept. -/
def encode3 (a b c d e f g h : ℕ) : Bytes :=
  leBytes 3 ((h <<< 21) % 2 ^ 32 ||| (g <<< 18) % 2 ^ 32 ||| (f <<< 15) % 2 ^ 32 |||
    (e <<< 12) % 2 ^ 32 ||| (d <<< 9) % 2 ^ 32 ||| (c <<< 6) % 2 ^ 32 ||| (b <<< 3) % 2 ^ 32 ||| a)

def scalarEncodeSigned32 : Scalar → Checked Bytes
  | a :: b :: c :: d :: e :: f :: g :: h :: s => do
    let a ← modSub 2 a
    let b ← modSub 2 b
    let c ← modSub 2 c
    let d ← modSub 2 d
    let e ← modSub 2 e
    let f ← modSub 2 f
    let g ← modSub 2 g
    let h ← modSub 2 h
    return encode3 a b c d e f g h ++ (← scalarEncodeSigned32 s)
  | _ => return []

def encode13 (a b c d e f g h : ℕ) : Checked Bytes := do
  assert (a < 2 ^ 13)
  assert (b < 2 ^ 13)
  assert (c < 2 ^ 13)
  assert (d < 2 ^ 13)
  assert (e < 2 ^ 13)
  assert (f < 2 ^ 13)
  assert (g < 2 ^ 13)
  assert (h < 2 ^ 13)
  let a := a ||| (b <<< 13) % 2 ^ 32
  let a := a ||| (c <<< 26) % 2 ^ 32
  let c := c >>> 6
  let c := c ||| (d <<< 7) % 2 ^ 32
  let c := c ||| (e <<< 20) % 2 ^ 32
  let e := e >>> 12
  let e := e ||| (f <<< 1) % 2 ^ 32
  let e := e ||| (g <<< 14) % 2 ^ 32
  let e := e ||| (h <<< 27) % 2 ^ 32
  let h := h >>> 5
  return leBytes 4 a ++ leBytes 4 c ++ leBytes 4 e ++ leBytes 1 h

def scalarEncodeSigned1312 : Scalar → Checked Bytes
  | a :: b :: c :: d :: e :: f :: g :: h :: s => do
    let a ← modSub (2 ^ 12) a
    let b ← modSub (2 ^ 12) b
    let c ← modSub (2 ^ 12) c
    let d ← modSub (2 ^ 12) d
    let e ← modSub (2 ^ 12) e
    let f ← modSub (2 ^ 12) f
    let g ← modSub (2 ^ 12) g
    let h ← modSub (2 ^ 12) h
    let out ← encode13 a b c d e f g h
    return out ++ (← scalarEncodeSigned1312 s)
  | _ => return []

def encode20 (a b c d : ℕ) : Checked Bytes := do
  assert (a < 2 ^ 20)
  assert (b < 2 ^ 20)
  assert (c < 2 ^ 20)
  assert (d < 2 ^ 20)
  let a := a ||| (b <<< 20) % 2 ^ 32
  let b := b >>> 12
  let b := b ||| (c <<< 8) % 2 ^ 32
  let b := b ||| (d <<< 28) % 2 ^ 32
  let d := d >>> 4
  return leBytes 4 a ++ leBytes 4 b ++ leBytes 2 d

def scalarEncodeSigned2019 : Scalar → Checked Bytes
  | a :: b :: c :: d :: s => do
    let a ← modSub (2 ^ 19) a
    let b ← modSub (2 ^ 19) b
    let c ← modSub (2 ^ 19) c
    let d ← modSub (2 ^ 19) d
    let out ← encode20 a b c d
    return out ++ (← scalarEncodeSigned2019 s)
  | _ => return []

def scalarEncodeSigned (s : Scalar) (bits max : ℕ) : Checked Bytes :=
  if bits = 3 then do
    assert (max = 2)
    scalarEncodeSigned32 s
  else if bits = 4 then do
    assert (max = 4)
    scalarEncodeSigned44 s
  else if bits = 20 then do
    assert (max = 2 ^ 19)
    scalarEncodeSigned2019 s
  else do
    assert (bits = 13)
    assert (max = 2 ^ 12)
    scalarEncodeSigned1312 s

def decode10 (b0 b1 b2 b3 b4 : UInt8) : List ℕ :=
  let v := leNat [b0, b1, b2, b3]
  [v &&& 0x3ff, (v >>> 10) &&& 0x3ff, (v >>> 20) &&& 0x3ff, v >>> 30 ||| b4.toNat <<< 2]

def scalarDecode10 : Bytes → Scalar
  | b0 :: b1 :: b2 :: b3 :: b4 :: input => decode10 b0 b1 b2 b3 b4 ++ scalarDecode10 input
  | _ => []

def nibbles (v : ℕ) : List ℕ :=
  [v &&& 15, (v >>> 4) &&& 15, (v >>> 8) &&& 15, (v >>> 12) &&& 15, (v >>> 16) &&& 15,
    (v >>> 20) &&& 15, (v >>> 24) &&& 15, v >>> 28]

/-- The bits that may not be set in a nibble or triple whose highest bit is. -/
def mask44 (v : ℕ) : ℕ :=
  let msbs := v &&& 0x88888888
  msbs >>> 1 ||| msbs >>> 2 ||| msbs >>> 3

def scalarDecodeSigned44 : Bytes → Checked Scalar
  | b0 :: b1 :: b2 :: b3 :: input => do
    let v := leNat [b0, b1, b2, b3]
    if mask44 v &&& v ≠ 0 then
      reject
    else
      let out ← (nibbles v).mapM (modSub 4)
      return out ++ (← scalarDecodeSigned44 input)
  | _ => return []

def triples (v : ℕ) : List ℕ :=
  [(v >>> 0) &&& 7, (v >>> 3) &&& 7, (v >>> 6) &&& 7, (v >>> 9) &&& 7, (v >>> 12) &&& 7,
    (v >>> 15) &&& 7, (v >>> 18) &&& 7, v >>> 21]

def mask32 (v : ℕ) : ℕ :=
  let msbs := v &&& 0o44444444
  msbs >>> 1 ||| msbs >>> 2

def scalarDecodeSigned32 : Bytes → Checked Scalar
  | b0 :: b1 :: b2 :: input => do
    let v := leNat [b0, b1, b2, 0]
    if mask32 v &&& v ≠ 0 then
      reject
    else
      let out ← (triples v).mapM (modSub 2)
      return out ++ (← scalarDecodeSigned32 input)
  | _ => return []

/-- The eight values of 13 bits in three words and a byte. -/
def decode13 (a b c d : ℕ) : List ℕ :=
  [a &&& (2 ^ 13 - 1), (a >>> 13) &&& (2 ^ 13 - 1), a >>> 26 ||| (b &&& (2 ^ 7 - 1)) <<< 6,
    (b >>> 7) &&& (2 ^ 13 - 1), b >>> 20 ||| (c &&& 1) <<< 12, (c >>> 1) &&& (2 ^ 13 - 1),
    (c >>> 14) &&& (2 ^ 13 - 1), c >>> 27 ||| d <<< 5]

def scalarDecodeSigned1312 : Bytes → Checked Scalar
  | b0 :: b1 :: b2 :: b3 :: b4 :: b5 :: b6 :: b7 :: b8 :: b9 :: b10 :: b11 :: b12 :: input => do
    let out ← (decode13 (leNat [b0, b1, b2, b3]) (leNat [b4, b5, b6, b7])
      (leNat [b8, b9, b10, b11]) b12.toNat).mapM (modSub (2 ^ 12))
    return out ++ (← scalarDecodeSigned1312 input)
  | _ => return []

/-- The four values of 20 bits in two words and a half. -/
def decode20 (a b c : ℕ) : List ℕ :=
  [a &&& (2 ^ 20 - 1), a >>> 20 ||| (b &&& 0xff) <<< 12, (b >>> 8) &&& (2 ^ 20 - 1),
    b >>> 28 ||| c <<< 4]

def scalarDecodeSigned2019 : Bytes → Checked Scalar
  | b0 :: b1 :: b2 :: b3 :: b4 :: b5 :: b6 :: b7 :: b8 :: b9 :: input => do
    let out ← (decode20 (leNat [b0, b1, b2, b3]) (leNat [b4, b5, b6, b7])
      (leNat [b8, b9])).mapM (modSub (2 ^ 19))
    return out ++ (← scalarDecodeSigned2019 input)
  | _ => return []

variable (input : Bytes)

def scalarDecodeSigned (bits max : ℕ) : Checked Scalar :=
  if bits = 3 then do
    assert (max = 2)
    scalarDecodeSigned32 input
  else if bits = 4 then do
    assert (max = 4)
    scalarDecodeSigned44 input
  else if bits = 13 then do
    assert (max = 2 ^ 12)
    scalarDecodeSigned1312 input
  else if bits = 20 then do
    assert (max = 2 ^ 19)
    scalarDecodeSigned2019 input
  else
    .error .abort

def vectorEncode (a : List Scalar) (bits : ℕ) : Checked Bytes :=
  if bits = 4 then do
    return (← a.mapM scalarEncode4).flatten
  else do
    assert (bits = 10)
    return (← a.mapM scalarEncode10).flatten

def scalarBytes (bits i : ℕ) : Bytes :=
  (input.drop (i * bits * degree / 8)).take (bits * degree / 8)

def vectorDecode10 (x : ℕ) (input : Bytes) : List Scalar :=
  (List.range x).map fun i => scalarDecode10 (scalarBytes input 10 i)

def vectorEncodeSigned (a : List Scalar) (bits max : ℕ) : Checked Bytes := do
  return (← a.mapM fun s => scalarEncodeSigned s bits max).flatten

def vectorDecodeSigned (x : ℕ) (input : Bytes) (bits max : ℕ) : Checked (List Scalar) :=
  (List.range x).mapM fun i => scalarDecodeSigned (scalarBytes input bits i) bits max

/-- The loop over the coefficients of one scalar, from `j` on. -/
def hintBitPackScalar (omega : ℕ) : ℕ → Scalar → Bytes → ℕ → Checked (Bytes × ℕ)
  | _, [], out, index => return (out, index)
  | j, c :: cs, out, index =>
    if c ≠ 0 then do
      assert (index < omega)
      hintBitPackScalar omega (j + 1) cs (out.set index (UInt8.ofNat j)) (index + 1)
    else
      hintBitPackScalar omega (j + 1) cs out index

def hintBitPackFrom (omega : ℕ) : ℕ → List Scalar → Bytes → ℕ → Checked Bytes
  | _, [], out, _ => return out
  | i, s :: h, out, index => do
    let (out, index) ← hintBitPackScalar omega 0 s out index
    hintBitPackFrom omega (i + 1) h (out.set (omega + i) (UInt8.ofNat index)) index

variable (p : Params)

def hintBitPack (h : List Scalar) : Checked Bytes :=
  hintBitPackFrom p.omega 0 h (List.replicate (p.omega + p.k) 0) 0

/-- `while (index < limit)`, with `count` the number of passes left. -/
def hintBitUnpackScalar (input : Bytes) : (count index : ℕ) → (last : ℤ) → Scalar → Checked Scalar
  | 0, _, _, c => return c
  | count + 1, index, last, c =>
    let byte := (input.getD index 0).toNat
    if last ≥ 0 ∧ byte ≤ last then reject
    else hintBitUnpackScalar input count (index + 1) byte (c.set byte 1)

/-- Returns the scalars of the rows `i` and the index reached. -/
def hintBitUnpackFrom (omega : ℕ) (input : Bytes) : List ℕ → ℕ → Checked (List Scalar × ℕ)
  | [], index => return ([], index)
  | i :: is, index => do
    let limit := (input.getD (omega + i) 0).toNat
    if limit < index ∨ limit > omega then
      reject
    else
      let s ← hintBitUnpackScalar input (limit - index) index (-1) (List.replicate degree 0)
      let (h, last) ← hintBitUnpackFrom omega input is limit
      return (s :: h, last)

def hintBitUnpack (input : Bytes) : Checked (List Scalar) := do
  let (h, index) ← hintBitUnpackFrom p.omega input (List.range p.k) 0
  if ((input.take p.omega).drop index).any (· ≠ 0) then reject
  else return h

/-- A public key, parsed. -/
structure PublicKey where
  rho : Bytes
  t1 : List Scalar
  publicKeyHash : Bytes
  deriving DecidableEq, Repr

/-- A private key, parsed. -/
structure PrivateKey where
  rho : Bytes
  k : Bytes
  publicKeyHash : Bytes
  s1 : List Scalar
  s2 : List Scalar
  t0 : List Scalar
  deriving DecidableEq, Repr

/-- A signature, parsed. -/
structure Signature where
  cTilde : Bytes
  z : List Scalar
  h : List Scalar
  deriving DecidableEq, Repr

def Params.scalarBytes : ℕ := (degree * p.plusMinusEtaBitlen + 7) / 8

def mldsaMarshalPublicKey (pub : PublicKey) : Checked Bytes := do
  return pub.rho ++ (← vectorEncode pub.t1 10)

/-- `shake256` is SHAKE-256 with an output of 64 bytes. -/
def mldsaParsePublicKey (shake256 : Bytes → Bytes) (p : Params) (input : Bytes) :
    Checked PublicKey := do
  let (rho, cbs) ← getBytes input rhoBytes
  let (t1Bytes, cbs) ← getBytes cbs (320 * p.k)
  if cbs.length ≠ 0 then reject
  else return ⟨rho, vectorDecode10 p.k t1Bytes, shake256 input⟩

def mldsaMarshalPrivateKey (priv : PrivateKey) : Checked Bytes := do
  let s1 ← vectorEncodeSigned priv.s1 p.plusMinusEtaBitlen p.eta
  let s2 ← vectorEncodeSigned priv.s2 p.plusMinusEtaBitlen p.eta
  let t0 ← vectorEncodeSigned priv.t0 13 (2 ^ 12)
  return priv.rho ++ priv.k ++ priv.publicKeyHash ++ s1 ++ s2 ++ t0

/-- Returns what is left of the input with the key; the callers fail if that is not empty. -/
def mldsaParsePrivateKey (input : Bytes) : Checked (PrivateKey × Bytes) := do
  let (rho, cbs) ← getBytes input rhoBytes
  let (k, cbs) ← getBytes cbs kBytes
  let (publicKeyHash, cbs) ← getBytes cbs trBytes
  let (s1Bytes, cbs) ← getBytes cbs (p.scalarBytes * p.l)
  let s1 ← vectorDecodeSigned p.l s1Bytes p.plusMinusEtaBitlen p.eta
  let (s2Bytes, cbs) ← getBytes cbs (p.scalarBytes * p.k)
  let s2 ← vectorDecodeSigned p.k s2Bytes p.plusMinusEtaBitlen p.eta
  let (t0Bytes, cbs) ← getBytes cbs (416 * p.k)
  let t0 ← vectorDecodeSigned p.k t0Bytes 13 (2 ^ 12)
  return (⟨rho, k, publicKeyHash, s1, s2, t0⟩, cbs)

/-- `BCM_mldsa65_parse_private_key` and `BCM_mldsa87_parse_private_key`. -/
def bcmParsePrivateKey (input : Bytes) : Checked PrivateKey := do
  let (priv, cbs) ← mldsaParsePrivateKey p input
  if cbs.length = 0 then return priv else reject

def mldsaMarshalSignature (sign : Signature) : Checked Bytes := do
  let z ← vectorEncodeSigned sign.z 20 (2 ^ 19)
  let h ← hintBitPack p sign.h
  return sign.cTilde ++ z ++ h

def mldsaParseSignature (input : Bytes) : Checked Signature := do
  let (cTilde, cbs) ← getBytes input (2 * p.lambdaBytes)
  let (zBytes, cbs) ← getBytes cbs (640 * p.l)
  let z ← vectorDecodeSigned p.l zBytes 20 (2 ^ 19)
  let (hintBytes, _) ← getBytes cbs (p.omega + p.k)
  let h ← hintBitUnpack p hintBytes
  return ⟨cTilde, z, h⟩

end BoringSSL.MlDsa
