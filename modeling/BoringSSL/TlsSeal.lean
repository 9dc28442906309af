import BoringSSL.DtlsRecord
import BoringSSL.SslBuffer
import BoringSSL.Lib.Prog
import BoringSSL.Lib.Log

/-!
# Sealing TLS records, `ssl/tls_record.cc`

The state of a TLS connection as far as writing goes, and `tls_seal_record`.  Beside the fields of
`SSL3_STATE` the state has a history: the records sealed so far and the bytes the transport
accepted.
-/

namespace BoringSSL

open ByteLib

/-- The caller's buffer that `pending_write` points to. -/
structure PendingWrite where
  addr : ℕ
  len : ℕ
  deriving DecidableEq, Repr

/-- What one call of `tls_seal_record` wrote: one record or, where records are split, two.  `seq` is
the `write_sequence` it began with, under the `epoch`-th of the keys. -/
structure TlsSealed where
  epoch : ℕ
  seq : UInt64
  type : UInt8
  plaintext : Bytes
  bytes : Bytes
  deriving DecidableEq, Repr

/-- One was sealed before the other. -/
def TlsSealed.Before (a b : TlsSealed) : Prop :=
  a.epoch < b.epoch ∨ a.epoch = b.epoch ∧ a.seq < b.seq

/-- The write side of a connection. -/
structure TlsWriteState where
  writeBuffer : SslBuffer
  pendingWrite : PendingWrite
  pendingWriteType : UInt8
  pendingHsData : Option Bytes
  pendingFlight : Option Bytes
  pendingFlightOffset : ℕ
  unreportedBytesWritten : ℕ
  writeSequence : UInt64
  keyUpdatePending : Bool
  writeShutdown : SslShutdown
  alertDispatch : Bool
  sendAlert : UInt8 × UInt8
  canEarlyWrite : Bool
  earlyDataWritten : UInt16
  -- The history: how often the keys changed, what was sealed, what the transport accepted, and
  -- whether `offset_` of the write buffer wrapped around with bytes left in it.
  writeEpoch : ℕ
  records : List TlsSealed
  wire : Bytes
  offsetWrapped : Bool
  deriving DecidableEq, Repr

/-- A new connection, with what the array in the write buffer happens to hold. -/
def TlsWriteState.new (fill : UInt8) : TlsWriteState where
  writeBuffer := .new fill
  pendingWrite := ⟨0, 0⟩
  pendingWriteType := 0
  pendingHsData := none
  pendingFlight := none
  pendingFlightOffset := 0
  unreportedBytesWritten := 0
  writeSequence := 0
  keyUpdatePending := false
  writeShutdown := .none
  alertDispatch := false
  sendAlert := (0, 0)
  canEarlyWrite := false
  earlyDataWritten := 0
  writeEpoch := 0
  records := []
  wire := []
  offsetWrapped := false

/-- `aead_write_ctx` with the version it is for: its lengths, and what `SealScatter` writes, which
is the explicit nonce, the body and the suffix. -/
structure WriteAead where
  isNullCipher : Bool
  isTls13 : Bool
  explicitNonceLen : ℕ
  maxOverhead : ℕ
  suffixLen : ℕ → ℕ → Option ℕ
  needsRecordSplitting : Bool
  recordSplitLen : ℕ
  sealScatter : UInt64 → Bytes → Bytes → Bytes → Option Bytes
  length_sealScatter : ∀ {seq header data extra out n},
    sealScatter seq header data extra = some out →
    suffixLen data.length extra.length = some n → out.length = explicitNonceLen + data.length + n
  /-- What `tls_seal_scatter_record` asserts: the ciphers of TLS 1.0 have no explicit nonce, and
  `ssl_cipher_get_record_split_len` is the length of a record of one byte. -/
  recordSplitting : needsRecordSplitting = true → isTls13 = false ∧ explicitNonceLen = 0
    ∧ ∀ n, suffixLen 1 0 = some n → recordSplitLen = 1 + n

/-- What a call finds: the settings of the connection, and what the transport and the allocator
answer, which may depend on all that has happened. -/
structure WriteEnv where
  aead : WriteAead
  recordVersion : UInt16
  partialWrite : Bool
  movingWriteBuffer : Bool
  /-- `SSL_set_max_send_fragment` brings it into these bounds. -/
  maxSendFragment : { n : ℕ // 512 ≤ n ∧ n ≤ 16384 }
  /-- `ticket_max_early_data` of the session, for a client in early data. -/
  ticketMaxEarlyData : Option UInt32
  hasWbio : Bool
  /-- `BIO_write` fails, or accepts one byte more than this or all there are. -/
  bioWrite : TlsWriteState → Option ℕ
  bioFlush : Bool
  malloc : TlsWriteState → Option UInt64
  fill : UInt8
  bufMemNew : TlsWriteState → Bool
  bufMemReserve : TlsWriteState → ℕ → Bool
  bufMemAppend : TlsWriteState → Bool

/-- Why a call does not return one. -/
inductive WriteError
  | protocolIsShutdown | badLength | badWriteRetry | bioNotSet | internalError | overflow
  | recordTooLarge | bufferTooSmall | cipher | malloc | bio | needsHandshake | alertDeferred
  deriving DecidableEq, Repr

/-- A program on the write side. -/
abbrev TlsProg := Prog WriteError TlsWriteState

/-- The sum of two `size_t`, unless it wraps around, which shows in a comparison with `a`. -/
def addSize (a b : ℕ) : Option ℕ := if a + b < sizeMod then some (a + b) else none

namespace WriteAead

variable (aead : WriteAead)

def hidesType : Bool := !aead.isNullCipher && aead.isTls13

def ciphertextLen (inLen extraInLen : ℕ) : Option ℕ :=
  (aead.suffixLen inLen extraInLen).bind fun suffixLen =>
    let len := suffixLen + aead.explicitNonceLen + inLen
    if len ≥ 0xffff then none else some len

def sslMaxSealOverhead : ℕ :=
  let ret := ssl3RtHeaderLength + aead.maxOverhead + if aead.hidesType then 1 else 0
  if aead.needsRecordSplitting then ret * 2 else ret

def tlsSealAlignPrefixLen : ℕ :=
  ssl3RtHeaderLength + aead.explicitNonceLen
    + if aead.needsRecordSplitting then ssl3RtHeaderLength + aead.recordSplitLen else 0

/-- Whether the record of so much data is split in two. -/
def splits (type : UInt8) (inLen : ℕ) : Bool :=
  type == ssl3RtApplicationData && decide (inLen > 1) && aead.needsRecordSplitting

def tlsSealScatterPrefixLen (type : UInt8) (inLen : ℕ) : ℕ :=
  if aead.splits type inLen then ssl3RtHeaderLength + aead.recordSplitLen + (ssl3RtHeaderLength - 1)
  else ssl3RtHeaderLength + aead.explicitNonceLen

def tlsSealScatterSuffixLen (type : UInt8) (inLen : ℕ) : Option ℕ :=
  aead.suffixLen (if aead.splits type inLen then inLen - 1 else inLen)
    (if aead.hidesType then 1 else 0)

end WriteAead

variable (env : WriteEnv)

def recordHeader (type : UInt8) (ciphertextLen : ℕ) : Bytes :=
  (if env.aead.hidesType then ssl3RtApplicationData else type)
    :: (beBytes 2 env.recordVersion.toNat ++ beBytes 2 ciphertextLen)

def doSealRecord (type : UInt8) (data : Bytes) : TlsProg Bytes := do
  let extra := if env.aead.hidesType then [type] else []
  match env.aead.ciphertextLen data.length extra.length with
  | none => throw .recordTooLarge
  | some ciphertextLen =>
    let header := recordHeader env type ciphertextLen
    let s ← get
    if s.writeSequence + 1 = 0 then throw .overflow
    else
      match env.aead.sealScatter s.writeSequence header data extra with
      | none => throw .cipher
      | some out => do
        set { s with writeSequence := s.writeSequence + 1 }
        pure (header ++ out)

/-- `tls_seal_scatter_record`: the two halves of a split record come one after the other. -/
def tlsSealScatterRecord (type : UInt8) (data : Bytes) : TlsProg Bytes :=
  if env.aead.splits type data.length then do
    let first ← doSealRecord env type (data.take 1)
    let rest ← doSealRecord env type (data.drop 1)
    pure (first ++ rest)
  else doSealRecord env type data

/-- `tls_seal_record`, for an output that does not overlap the input.  What it wrote is added to the
records. -/
def tlsSealRecord (maxOutLen : ℕ) (type : UInt8) (data : Bytes) : TlsProg Bytes := do
  match env.aead.tlsSealScatterSuffixLen type data.length with
  | none => throw .cipher
  | some suffixLen =>
    match (addSize data.length (env.aead.tlsSealScatterPrefixLen type data.length)).bind
        fun len => addSize len suffixLen with
    | none => throw .recordTooLarge
    | some len =>
      if maxOutLen < len then throw .bufferTooSmall
      else do
        let before ← get
        let out ← tlsSealScatterRecord env type data
        modify fun s => { s with
          records := s.records ++ [⟨s.writeEpoch, before.writeSequence, type, data, out⟩] }
        pure out

end BoringSSL
