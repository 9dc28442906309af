import Mathlib.Data.Nat.Notation

/-!
# Record lengths of `ssl/ssl_aead_ctx.cc`

What sealing does to the length of a record, for the ciphers `ssl_cipher_get_evp_aead` can pick in
DTLS.  The bytes themselves are not modelled here.
-/

namespace BoringSSL

/-- The ciphers of an `SSLAEADContext`, as far as its lengths go. -/
inductive SslAead
  | nullCipher
  /-- AES-GCM before TLS 1.3. -/
  | aesGcmTls12
  /-- ChaCha20-Poly1305, and every AEAD from TLS 1.3 on. -/
  | xorNonce
  | aesCbcSha1
  | aesCbcSha256
  | desEde3CbcSha1
  deriving DecidableEq, Repr

namespace SslAead

def isNullCipher : SslAead → Bool
  | nullCipher => true
  | _ => false

/-- The block size and the MAC length of a CBC cipher. -/
def cbc : SslAead → Option (ℕ × ℕ)
  | aesCbcSha1 => some (16, 20)
  | aesCbcSha256 => some (16, 32)
  | desEde3CbcSha1 => some (8, 20)
  | _ => none

def explicitNonceLen : SslAead → ℕ
  | aesGcmTls12 => 8
  | aesCbcSha1 => 16
  | aesCbcSha256 => 16
  | desEde3CbcSha1 => 8
  | _ => 0

variable (aead : SslAead)

def evpMaxOverhead : ℕ :=
  match aead.cbc with
  | some (blockSize, macLen) => blockSize + macLen
  | none => 16

def suffixLen (inLen extraInLen : ℕ) : ℕ :=
  if aead.isNullCipher then extraInLen
  else
    match aead.cbc with
    | some (blockSize, macLen) => macLen + (blockSize - (inLen + macLen) % blockSize)
    | none => extraInLen + 16

/-- `CiphertextLen`: fails from `0xffff` bytes on. -/
def ciphertextLen (inLen extraInLen : ℕ) : Option ℕ :=
  let len := aead.suffixLen inLen extraInLen + aead.explicitNonceLen + inLen
  if len ≥ 0xffff then none else some len

def maxSealInputLen (maxOut : ℕ) : ℕ :=
  if maxOut ≤ aead.explicitNonceLen then 0
  else
    let maxOut := maxOut - aead.explicitNonceLen
    if aead.isNullCipher then maxOut
    else
      match aead.cbc with
      | some (blockSize, _) =>
        -- The output is a whole number of blocks, and then the least padding is one byte.
        maxOut / blockSize * blockSize - (aead.evpMaxOverhead - (blockSize - 1))
      | none => maxOut - aead.evpMaxOverhead

end SslAead

end BoringSSL
