import BoringSSL.TlsSeal

/-!
# TLS records, `ssl/tls_record.cc` and `ssl/ssl_aead_ctx.cc`

Both ends of a connection: how `tls_seal_record` lays out what it writes, and how `tls_open_record`
takes it apart.  The ciphers themselves are a parameter.  A context of theirs may change with each
call, and that of the sealing end need not look like that of the opening one.
-/

namespace BoringSSL

open ByteLib

namespace TlsRecord

/-- The versions of TLS. -/
inductive TlsVersion
  | tls1 | tls11 | tls12 | tls13
  deriving DecidableEq, Repr

def TlsVersion.wire : TlsVersion → UInt16
  | tls1 => 0x0301
  | tls11 => 0x0302
  | tls12 => 0x0303
  | tls13 => 0x0304

/-- The ciphers of `SSL_CIPHER`, as far as records go: those with one kind of AEAD are one. -/
inductive SslCipher
  | aesGcm | chacha20Poly1305 | aesCbcSha1 | aesCbcSha256 | desEde3CbcSha1
  deriving DecidableEq, Repr

namespace SslCipher

def isBlockCipher : SslCipher → Bool
  | aesGcm => false
  | chacha20Poly1305 => false
  | _ => true

/-- The versions from `SSL_CIPHER_get_min_version` to `SSL_CIPHER_get_max_version` of a suite with
the cipher. -/
def supports : SslCipher → TlsVersion → Bool
  | aesGcm, v => v = .tls12 ∨ v = .tls13
  | chacha20Poly1305, v => v = .tls12 ∨ v = .tls13
  | aesCbcSha256, v => v = .tls12
  | _, v => v ≠ .tls13

def recordSplitLen (cipher : SslCipher) : ℕ :=
  let ret := 1 + 20
  match cipher with
  | desEde3CbcSha1 => ret + (8 - ret % 8)
  | aesCbcSha1 => ret + (16 - ret % 16)
  | aesCbcSha256 => ret + (16 - ret % 16)
  | _ => 0

end SslCipher

/-- `EVP_AEAD`: its lengths, and the block size and MAC length of a CBC one. -/
structure EvpAead where
  nonceLen : ℕ
  maxOverhead : ℕ
  cbc : Option (ℕ × ℕ)
  deriving DecidableEq, Repr

def EvpAead.tagLen (aead : EvpAead) (inLen extraInLen : ℕ) : ℕ :=
  match aead.cbc with
  | some (blockSize, hmacLen) => hmacLen + (blockSize - (inLen + hmacLen) % blockSize)
  | none => extraInLen + aead.maxOverhead

/-- `ssl_cipher_get_evp_aead`: the AEAD, the length of the MAC key and that of the fixed IV. -/
def sslCipherGetEvpAead (cipher : SslCipher) (version : TlsVersion) : EvpAead × ℕ × ℕ :=
  match cipher with
  | .aesGcm => (⟨12, 16, none⟩, 0, if version = .tls13 then 12 else 4)
  | .chacha20Poly1305 => (⟨12, 16, none⟩, 0, 12)
  | .desEde3CbcSha1 =>
    if version = .tls1 then (⟨0, 8 + 20, some (8, 20)⟩, 20, 8)
    else (⟨8, 8 + 20, some (8, 20)⟩, 20, 0)
  | .aesCbcSha1 =>
    if version = .tls1 then (⟨0, 16 + 20, some (16, 20)⟩, 20, 16)
    else (⟨16, 16 + 20, some (16, 20)⟩, 20, 0)
  | .aesCbcSha256 => (⟨16, 16 + 32, some (16, 32)⟩, 32, 0)

/-- What the AEADs compute.  A context that seals is a `σ` and one that opens a `ρ`; given are the
nonce, the input, for sealing the extra input, and the additional data. -/
structure EvpImpl (σ ρ : Type) where
  sealScatter : σ → Bytes → Bytes → Bytes → Bytes → Option (Bytes × Bytes) × σ
  aeadOpen : ρ → Bytes → Bytes → Bytes → Option Bytes × ρ

/-- `RAND_bytes`, which may fail; the nonces of different records are different calls. -/
abbrev RandBytes := UInt64 → (n : ℕ) → Option { bytes : Bytes // bytes.length = n }

/-! ## `SSLAEADContext` -/

/-- `SSLAEADContext`, over the state of its AEAD. -/
structure SslAeadCtx (τ : Type) where
  cipher : Option SslCipher
  aead : EvpAead
  fixedNonce : Bytes
  variableNonceLen : ℕ
  variableNonceIncludedInRecord : Bool
  randomVariableNonce : Bool
  xorFixedNonce : Bool
  omitLengthInAd : Bool
  adIsHeader : Bool
  ctx : τ
  deriving DecidableEq, Repr

namespace SslAeadCtx

variable {τ : Type}

def createNullCipher (ctx : τ) : SslAeadCtx τ where
  cipher := none
  aead := ⟨0, 0, none⟩
  fixedNonce := []
  variableNonceLen := 0
  variableNonceIncludedInRecord := false
  randomVariableNonce := false
  xorFixedNonce := false
  omitLengthInAd := false
  adIsHeader := false
  ctx := ctx

/-- `Create`; `ctx` is what `EVP_AEAD_CTX_init_with_direction` makes of the keys. -/
def create (version : TlsVersion) (cipher : SslCipher) (macKey fixedIv : Bytes) (ctx : τ) :
    Option (SslAeadCtx τ) :=
  let (aead, expectedMacKeyLen, expectedFixedIvLen) := sslCipherGetEvpAead cipher version
  if expectedFixedIvLen ≠ fixedIv.length ∨ expectedMacKeyLen ≠ macKey.length then none
  else if macKey = [] then
    let xor := version = .tls13 ∨ cipher = .chacha20Poly1305
    some {
      cipher := some cipher
      aead := aead
      fixedNonce := fixedIv
      variableNonceLen := if xor then 8 else aead.nonceLen - fixedIv.length
      variableNonceIncludedInRecord := ¬ xor
      randomVariableNonce := false
      xorFixedNonce := xor
      omitLengthInAd := false
      adIsHeader := version = .tls13
      ctx := ctx }
  else
    some {
      cipher := some cipher
      aead := aead
      fixedNonce := []
      variableNonceLen := aead.nonceLen
      variableNonceIncludedInRecord := true
      randomVariableNonce := true
      xorFixedNonce := false
      omitLengthInAd := true
      adIsHeader := false
      ctx := ctx }

variable (c : SslAeadCtx τ)

def isNullCipher : Bool := c.cipher.isNone

def explicitNonceLen : ℕ := if c.variableNonceIncludedInRecord then c.variableNonceLen else 0

def suffixLen (inLen extraInLen : ℕ) : ℕ :=
  if c.isNullCipher then extraInLen else c.aead.tagLen inLen extraInLen

def ciphertextLen (inLen extraInLen : ℕ) : Option ℕ :=
  let len := c.suffixLen inLen extraInLen + c.explicitNonceLen + inLen
  if len ≥ 0xffff then none else some len

def maxOverhead : ℕ :=
  c.explicitNonceLen + if c.isNullCipher then 0 else c.aead.maxOverhead

def getAdditionalData (type : UInt8) (recordVersion : UInt16) (seqnum : UInt64)
    (plaintextLen : ℕ) (header : Bytes) : Bytes :=
  if c.adIsHeader then header
  else
    beBytes 8 seqnum.toNat ++ [type] ++ beBytes 2 recordVersion.toNat
      ++ if c.omitLengthInAd then [] else beBytes 2 plaintextLen

/-- The nonce before its variable part: the fixed one, or zeros if it is to be XORed. -/
def nonceStart : Bytes :=
  if c.xorFixedNonce then List.replicate (c.fixedNonce.length - c.variableNonceLen) 0
  else c.fixedNonce

def xorNonce (nonce : Bytes) : Bytes :=
  if c.xorFixedNonce then nonce.zipWith (· ^^^ ·) c.fixedNonce else nonce

def aeadOpen {σ ρ : Type} (impl : EvpImpl σ ρ) (c : SslAeadCtx ρ) (type : UInt8)
    (recordVersion : UInt16) (seqnum : UInt64) (header input : Bytes) :
    Option Bytes × SslAeadCtx ρ :=
  if c.isNullCipher then (some input, c)
  else if !c.omitLengthInAd ∧ input.length < c.maxOverhead then (none, c)
  else
    let plaintextLen := if c.omitLengthInAd then 0 else input.length - c.maxOverhead
    let ad := c.getAdditionalData type recordVersion seqnum plaintextLen header
    if c.variableNonceIncludedInRecord ∧ input.length < c.variableNonceLen then (none, c)
    else
      let variableNonce :=
        if c.variableNonceIncludedInRecord then input.take c.variableNonceLen
        else beBytes 8 seqnum.toNat
      let input := if c.variableNonceIncludedInRecord then input.drop c.variableNonceLen else input
      let nonce := c.xorNonce (c.nonceStart ++ variableNonce)
      match impl.aeadOpen c.ctx nonce input ad with
      | (out, ctx) => (out, { c with ctx := ctx })

/-- The variable part of a nonce to seal with. -/
def variableNonce (rand : RandBytes) (seqnum : UInt64) : Option Bytes :=
  if c.randomVariableNonce then (rand seqnum c.variableNonceLen).map (·.val)
  else some (beBytes 8 seqnum.toNat)

def sealScatter {σ ρ : Type} (impl : EvpImpl σ ρ) (c : SslAeadCtx σ) (rand : RandBytes)
    (type : UInt8) (recordVersion : UInt16) (seqnum : UInt64) (header data extra : Bytes) :
    Option (Bytes × Bytes × Bytes) × SslAeadCtx σ :=
  if c.isNullCipher then (some ([], data, extra), c)
  else
    let ad := c.getAdditionalData type recordVersion seqnum data.length header
    match c.variableNonce rand seqnum with
    | none => (none, c)
    | some variableNonce =>
      let nonce := c.nonceStart ++ variableNonce
      let outPrefix :=
        if c.variableNonceIncludedInRecord then
          (nonce.drop c.fixedNonce.length).take c.variableNonceLen
        else []
      match impl.sealScatter c.ctx (c.xorNonce nonce) data extra ad with
      | (none, ctx) => (none, { c with ctx := ctx })
      | (some (out, outSuffix), ctx) => (some (outPrefix, out, outSuffix), { c with ctx := ctx })

end SslAeadCtx

def tlsRecordVersion (version : Option TlsVersion) : UInt16 :=
  match version with
  | none => TlsVersion.tls1.wire
  | some .tls13 => TlsVersion.tls12.wire
  | some version => version.wire

/-- The part of a connection that writes.  There is no version before it is determined. -/
structure Writer (σ : Type) where
  version : Option TlsVersion
  cbcRecordSplitting : Bool
  aeadWriteCtx : SslAeadCtx σ
  writeSequence : UInt64
  deriving DecidableEq, Repr

section Seal

variable {σ ρ : Type} (impl : EvpImpl σ ρ) (rand : RandBytes)

namespace Writer

variable (w : Writer σ)

def sslNeedsRecordSplitting : Bool :=
  !w.aeadWriteCtx.isNullCipher && w.version = some .tls1 && w.cbcRecordSplitting
    && w.aeadWriteCtx.cipher.any (·.isBlockCipher)

/-- TLS 1.3 hides the type of a record. -/
def hidesType : Bool := !w.aeadWriteCtx.isNullCipher && w.version = some .tls13

def extraInLen : ℕ := if w.hidesType then 1 else 0

def splits (type : UInt8) (inLen : ℕ) : Bool :=
  type == ssl3RtApplicationData && decide (inLen > 1) && w.sslNeedsRecordSplitting

def sslMaxSealOverhead : ℕ :=
  let ret := ssl3RtHeaderLength + w.aeadWriteCtx.maxOverhead + w.extraInLen
  if w.sslNeedsRecordSplitting then ret * 2 else ret

def header (type : UInt8) (ciphertextLen : ℕ) : Bytes :=
  (if w.hidesType then ssl3RtApplicationData else type)
    :: (beBytes 2 (tlsRecordVersion w.version).toNat ++ beBytes 2 ciphertextLen)

end Writer

variable (w : Writer σ)

def doSealRecord (type : UInt8) (data : Bytes) :
    Except WriteError (Bytes × Bytes × Bytes) × Writer σ :=
  let extra := if w.hidesType then [type] else []
  match w.aeadWriteCtx.ciphertextLen data.length extra.length with
  | none => (.error .recordTooLarge, w)
  | some ciphertextLen =>
    let header := w.header type ciphertextLen
    if w.writeSequence + 1 = 0 then (.error .overflow, w)
    else
      let outType := if w.hidesType then ssl3RtApplicationData else type
      match w.aeadWriteCtx.sealScatter impl rand outType (tlsRecordVersion w.version)
          w.writeSequence header data extra with
      | (none, aead) => (.error .cipher, { w with aeadWriteCtx := aead })
      | (some (nonce, out, outSuffix), aead) =>
        (.ok (header ++ nonce, out, outSuffix),
          { w with aeadWriteCtx := aead, writeSequence := w.writeSequence + 1 })

def tlsSealScatterPrefixLen (type : UInt8) (inLen : ℕ) : ℕ :=
  if w.splits type inLen then
    ssl3RtHeaderLength + (w.aeadWriteCtx.cipher.map (·.recordSplitLen)).getD 0
      + (ssl3RtHeaderLength - 1)
  else ssl3RtHeaderLength + w.aeadWriteCtx.explicitNonceLen

def tlsSealScatterSuffixLen (type : UInt8) (inLen : ℕ) : ℕ :=
  w.aeadWriteCtx.suffixLen (if w.splits type inLen then inLen - 1 else inLen) w.extraInLen

/-- `tls_seal_scatter_record`.  The header of the second record of a split is written to a buffer of
its own; its last byte takes the place of the byte that went into the first one. -/
def tlsSealScatterRecord (type : UInt8) (data : Bytes) :
    Except WriteError (Bytes × Bytes × Bytes) × Writer σ :=
  if w.splits type data.length then
    match doSealRecord impl rand w type (data.take 1) with
    | (.error e, w) => (.error e, w)
    | (.ok (splitPrefix, splitBody, splitSuffix), w) =>
      match doSealRecord impl rand w type (data.drop 1) with
      | (.error e, w) => (.error e, w)
      | (.ok (tmpPrefix, out, outSuffix), w) =>
        let outPrefix :=
          splitPrefix ++ splitBody ++ splitSuffix ++ tmpPrefix.take (ssl3RtHeaderLength - 1)
        (.ok (outPrefix, (tmpPrefix.drop (ssl3RtHeaderLength - 1)).take 1 ++ out, outSuffix), w)
  else doSealRecord impl rand w type data

/-- `tls_seal_record`, for an output that does not overlap the input: the first `out_len` bytes. -/
def tlsSealRecord (maxOutLen : ℕ) (type : UInt8) (data : Bytes) :
    Except WriteError Bytes × Writer σ :=
  let prefixLen := tlsSealScatterPrefixLen w type data.length
  let suffixLen := tlsSealScatterSuffixLen w type data.length
  match (addSize data.length prefixLen).bind fun len => addSize len suffixLen with
  | none => (.error .recordTooLarge, w)
  | some len =>
    if maxOutLen < len then (.error .bufferTooSmall, w)
    else
      match tlsSealScatterRecord impl rand w type data with
      | (.error e, w) => (.error e, w)
      | (.ok (outPrefix, body, suffix), w) => (.ok ((outPrefix ++ body ++ suffix).take len), w)

end Seal

/-- Why `tls_open_record` returns `ssl_open_record_error`. -/
inductive OpenReason
  | internalError
  | excessiveMessageSize
  | wrongVersionNumber
  | encryptedLengthTooLong
  | tooManyEmptyFragments
  | tooMuchSkippedEarlyData
  | overflow
  | decryptionFailedOrBadRecordMac
  | dataLengthTooLong
  | invalidOuterRecordType
  | unexpectedRecord
  | badAlert
  | tooManyWarningAlerts
  | unknownAlertType
  | alertReceived (descr : UInt8)
  deriving DecidableEq, Repr

/-- What opening a record gives. -/
inductive OpenResult
  | success (type : UInt8) (out : Bytes)
  | discard
  /-- `ssl_open_record_partial`: the consumed bytes are those needed. -/
  | incomplete
  | closeNotify
  | error (reason : OpenReason) (alert : UInt8)
  deriving DecidableEq, Repr

/-- The read side of a connection. -/
structure Reader (ρ : Type) where
  version : Option TlsVersion
  hasFinalVersion : Bool
  inInit : Bool
  maxHandshakeMessageLen : ℕ
  readShutdown : SslShutdown
  hsBuf : Option Bytes
  hasMessage : Bool
  aeadReadCtx : SslAeadCtx ρ
  readSequence : UInt64
  emptyRecordCount : UInt8
  warningAlertCount : UInt8
  skipEarlyData : Bool
  earlyDataSkipped : UInt16
  deriving DecidableEq, Repr

namespace Reader

variable {σ ρ : Type} (r : Reader ρ)

/-- `parse_message`: the length of the message with its header, or the bytes needed for one. -/
def parseMessage : Except ℕ ℕ :=
  match r.hsBuf with
  | none => .error 4
  | some buf =>
    if buf.length < 4 then .error 4
    else
      let len := beNat ((buf.drop 1).take 3)
      if (buf.drop 4).length < len then .error (4 + len) else .ok (4 + len)

/-- `tls_can_accept_handshake_data`: the error, if it cannot. -/
def tlsCanAcceptHandshakeData : Option OpenResult :=
  match r.parseMessage with
  | .ok _ => some (.error .internalError 80)
  | .error bytesNeeded =>
    if bytesNeeded > 4 + r.maxHandshakeMessageLen then some (.error .excessiveMessageSize 47)
    else none

def tlsHasUnprocessedHandshakeData : Bool :=
  let msgLen :=
    if r.hasMessage then
      match r.parseMessage with
      | .ok len => len
      | .error _ => 0
    else 0
  match r.hsBuf with
  | none => false
  | some buf => decide (buf.length > msgLen)

def kMaxEmptyRecords : UInt8 := 32

def kMaxEarlyDataSkipped : ℕ := 16384

def kMaxWarningAlerts : UInt8 := 4

/-- `skip_early_data`; the sum is a `uint16_t`. -/
def skipEarly (consumed : ℕ) : OpenResult × Reader ρ :=
  let sum := (r.earlyDataSkipped.toNat + consumed) % 2 ^ 16
  let sum := if sum < consumed then kMaxEarlyDataSkipped + 1 else sum
  let r := { r with earlyDataSkipped := UInt16.ofNat sum }
  if sum > kMaxEarlyDataSkipped then (.error .tooMuchSkippedEarlyData 10, r) else (.discard, r)

def sslProcessAlert (input : Bytes) : OpenResult × Reader ρ :=
  match input with
  | [level, descr] =>
    if level = 1 then
      if descr = 0 then (.closeNotify, { r with readShutdown := .closeNotify })
      else if r.hasFinalVersion ∧ r.version = some .tls13 ∧ descr ≠ 90 then
        (.error .badAlert 50, r)
      else
        let r := { r with warningAlertCount := r.warningAlertCount + 1 }
        if r.warningAlertCount > kMaxWarningAlerts then (.error .tooManyWarningAlerts 10, r)
        else (.discard, r)
    else if level = 2 then (.error (.alertReceived descr) 0, r)
    else (.error .unknownAlertType 47, r)
  | _ => (.error .badAlert 50, r)

/-- The loop that strips the padding: the last byte that is not zero, and what is before it. -/
def stripPadding : Bytes → Option (UInt8 × Bytes)
  | [] => none
  | b :: out =>
    match stripPadding out with
    | some (type, rest) => some (type, b :: rest)
    | none => if b = 0 then none else some (b, [])

def deliver (type : UInt8) (out : Bytes) : OpenResult × Reader ρ :=
  let count := if out = [] then r.emptyRecordCount + 1 else 0
  let r := { r with emptyRecordCount := count }
  if out = [] ∧ count > kMaxEmptyRecords then (.error .tooManyEmptyFragments 10, r)
  else if type = ssl3RtAlert then r.sslProcessAlert out
  else if type ≠ 22 ∧ r.tlsHasUnprocessedHandshakeData then (.error .unexpectedRecord 10, r)
  else (.success type out, { r with warningAlertCount := 0 })

def openPlaintext (type : UInt8) (out : Bytes) : OpenResult × Reader ρ :=
  let hasPadding := !r.aeadReadCtx.isNullCipher && r.version = some .tls13
  let plaintextLimit := if hasPadding then 2 ^ 14 + 1 else 2 ^ 14
  if out.length > plaintextLimit then (.error .dataLengthTooLong 22, r)
  else if hasPadding then
    if type ≠ ssl3RtApplicationData then (.error .invalidOuterRecordType 50, r)
    else
      match stripPadding out with
      | none => (.error .decryptionFailedOrBadRecordMac 51, r)
      | some (type, out) => r.deliver type out
  else r.deliver type out

def openBody (impl : EvpImpl σ ρ) (r : Reader ρ) (type : UInt8) (version : UInt16)
    (header body : Bytes) : OpenResult × Reader ρ :=
  let consumed := ssl3RtHeaderLength + body.length
  if r.hasFinalVersion ∧ r.version = some .tls13 ∧ r.inInit ∧ type = 20 ∧ body = [1] then
    let r := { r with emptyRecordCount := r.emptyRecordCount + 1 }
    if r.emptyRecordCount > kMaxEmptyRecords then (.error .tooManyEmptyFragments 10, r)
    else (.discard, r)
  else if r.skipEarlyData ∧ r.aeadReadCtx.isNullCipher ∧ type = ssl3RtApplicationData then
    r.skipEarly consumed
  else if r.readSequence + 1 = 0 then (.error .overflow 80, r)
  else
    match r.aeadReadCtx.aeadOpen impl type version r.readSequence header body with
    | (none, aead) =>
      let r := { r with aeadReadCtx := aead }
      if r.skipEarlyData ∧ !r.aeadReadCtx.isNullCipher then r.skipEarly consumed
      else (.error .decryptionFailedOrBadRecordMac 20, r)
    | (some out, aead) =>
      { r with
        aeadReadCtx := aead
        skipEarlyData := false
        readSequence := r.readSequence + 1 }.openPlaintext type out

def tlsOpenRecord (impl : EvpImpl σ ρ) (r : Reader ρ) (input : Bytes) :
    OpenResult × ℕ × Reader ρ :=
  if r.readShutdown = .closeNotify then (.closeNotify, 0, r)
  else
    match r.tlsCanAcceptHandshakeData with
    | some err => (err, 0, r)
    | none =>
      match input with
      | type :: v1 :: v0 :: l1 :: l0 :: rest =>
        let version := UInt16.ofNat (beNat [v1, v0])
        let ciphertextLen := beNat [l1, l0]
        let versionOk : Bool :=
          if r.aeadReadCtx.isNullCipher then v1 = 3 else version = tlsRecordVersion r.version
        if !versionOk then (.error .wrongVersionNumber 70, 0, r)
        else if ciphertextLen > ssl3RtMaxEncryptedLength then
          (.error .encryptedLengthTooLong 22, 0, r)
        else if rest.length < ciphertextLen then
          (.incomplete, ssl3RtHeaderLength + ciphertextLen, r)
        else
          let (result, r) := r.openBody impl type version [type, v1, v0, l1, l0]
            (rest.take ciphertextLen)
          (result, ssl3RtHeaderLength + ciphertextLen, r)
      | _ => (.incomplete, ssl3RtHeaderLength, r)

/-- Calls of `tls_open_record` that all succeed: what they give, and the input they leave. -/
def openRecords (impl : EvpImpl σ ρ) : ℕ → Reader ρ → Bytes →
    Option (List (UInt8 × Bytes) × Bytes × Reader ρ)
  | 0, r, input => some ([], input, r)
  | n + 1, r, input =>
    match r.tlsOpenRecord impl input with
    | (.success type out, consumed, r) =>
      (openRecords impl n r (input.drop consumed)).map fun (records, rest) =>
        ((type, out) :: records, rest)
    | _ => none

end Reader

end TlsRecord

end BoringSSL
