import BoringSSL.Ec

/-!
# ECDSA

`crypto/fipsmodule/ecdsa/ecdsa.cc.inc`: signatures of fixed length, two scalars one after the other.
-/

namespace BoringSSL.Ecdsa

open ByteLib Bn Ec EcGroup

/-- `EC_KEY`, as verification reads it. -/
structure EcKey where
  group : Option EcGroup
  pubKey : Option EcJacobian

def digestToScalar (group : EcGroup) (digest : Bytes) : Ret ℕ := do
  let order := group.order
  let numBits := bnNumBits order.N
  -- whole bytes are cut off first
  let numBytes := (numBits + 7) / 8
  let digest := digest.take numBytes
  let out ← bnBigEndianToWords order.width digest
  let out := if 8 * digest.length > numBits then out >>> (8 - numBits % 8) else out
  bnReduceOnce order.width out 0 order.N

/-- `ecdsa_verify_fixed`, from where the two scalars are read. -/
def verifyScalars (group : EcGroup) (pubKey : EcJacobian) (digest : Bytes) (r s : ℕ) :
    Ret Unit := do
  let some sInvMont := group.ecScalarToMontgomeryInvVartime s | put .ecdsaInternalError
  let m ← digestToScalar group digest
  let u1 := group.ecScalarMulMontgomery m sInvMont
  let u2 := group.ecScalarMulMontgomery r sInvMont
  let point ← orPut (group.ecPointMulScalarPublic u1 pubKey u2) .ecdsaEcLib
  let equal ← group.ecCmpXCoordinate point r
  require (equal = true) .ecdsaBadSignature

def ecdsaVerifyFixed (digest sig : Bytes) (eckey : EcKey) : Ret Unit := do
  let (some group, some pubKey) := (eckey.group, eckey.pubKey) | put .ecdsaMissingParameters
  let scalarLen := bnNumBytes group.order.N
  require (sig.length = 2 * scalarLen) .ecdsaBadSignature
  let r ← orPut (group.ecScalarFromBytes (sig.take scalarLen)) .ecdsaBadSignature
  require (ecScalarIsZero r = false) .ecdsaBadSignature
  let s ← orPut (group.ecScalarFromBytes (sig.drop scalarLen)) .ecdsaBadSignature
  require (ecScalarIsZero s = false) .ecdsaBadSignature
  verifyScalars group pubKey digest r s

/-- The signature, or `none` where the caller is to try again with another nonce. -/
def ecdsaSignImpl (group : EcGroup) (maxSigLen privKey k : ℕ) (digest : Bytes) :
    Ret (Option Bytes) := do
  let order := group.order
  require (160 ≤ bnNumBits order.N) .ecInvalidGroupOrder
  let sigLen := 2 * bnNumBytes order.N
  require (sigLen ≤ maxSigLen) .ecBufferTooSmall
  let tmpPoint ← group.ecPointMulScalarBase k
  let r ← group.ecGetXCoordinateAsScalar tmpPoint
  if ecScalarIsZero r then return none
  else
    -- one factor is in Montgomery form, so the product is not
    let s := group.ecScalarToMontgomery r
    let s := group.ecScalarMulMontgomery privKey s
    let tmp ← digestToScalar group digest
    let s ← group.ecScalarAdd s tmp
    let tmp := group.ecScalarInv0Montgomery k
    let tmp := group.ecScalarFromMontgomery tmp
    let s := group.ecScalarMulMontgomery s tmp
    if ecScalarIsZero s then return none
    else
      let sigR ← group.ecScalarToBytes r
      let sigS ← group.ecScalarToBytes s
      return some (sigR ++ sigS)

end BoringSSL.Ecdsa
