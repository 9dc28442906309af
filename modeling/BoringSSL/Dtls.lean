import BoringSSL.Cbs
import BoringSSL.DtlsBitmap
import BoringSSL.SslAead

/-!
# The DTLS handshake state

The parts of `SSL` and `DTLS1_STATE` that the handshake side of DTLS reads and writes, and the
functions of `ssl/d1_both.cc` and `ssl/d1_lib.cc` that reset them.
-/

namespace BoringSSL

open ByteLib

def sslMaxHandshakeFlight : ℕ := 7

def dtls1HmHeaderLength : ℕ := 12

def dtlsMaxAckBuffer : ℕ := 32

def tls12Version : ℕ := 0x0303

def tls13Version : ℕ := 0x0304

instance neZero_sequence : NeZero (2 ^ 48) := inferInstance

/-- An epoch and a sequence number in it. -/
structure RecordNumber where
  epoch : UInt16
  sequence : Fin (2 ^ 48)
  deriving DecidableEq, Repr

/-- `MRUQueue<T, DTLS_MAX_ACK_BUFFER>::PushBack`; the queue is a list, oldest first. -/
def mruPushBack {α : Type*} (queue : List α) (t : α) : List α :=
  if queue.length < dtlsMaxAckBuffer then queue ++ [t] else queue.tail ++ [t]

/-- `hm_header_st`: the header of a fragment. -/
structure HmHeader where
  type : UInt8
  msgLen : ℕ
  seq : ℕ
  fragOff : ℕ
  fragLen : ℕ
  deriving DecidableEq, Repr

def cbsGetU16 (cbs : Bytes) : Option (ℕ × Bytes) := (cbsGetU cbs 2).map fun (v, r) => (v.toNat, r)

def cbsGetU24 (cbs : Bytes) : Option (ℕ × Bytes) := (cbsGetU cbs 3).map fun (v, r) => (v.toNat, r)

def dtls1ParseFragment (cbs : Bytes) : Option (HmHeader × Bytes × Bytes) :=
  (cbsGetU8 cbs).bind fun (type, cbs) =>
  (cbsGetU24 cbs).bind fun (msgLen, cbs) =>
  (cbsGetU16 cbs).bind fun (seq, cbs) =>
  (cbsGetU24 cbs).bind fun (fragOff, cbs) =>
  (cbsGetU24 cbs).bind fun (fragLen, cbs) =>
  (cbsGetBytes cbs fragLen).map fun (body, cbs) =>
  (⟨type, msgLen, seq, fragOff, fragLen⟩, body, cbs)

/-- A message that is put together. -/
structure DtlsIncomingMessage where
  type : UInt8
  seq : ℕ
  data : Bytes
  reassembly : DtlsMessageBitmap
  deriving DecidableEq, Repr

namespace DtlsIncomingMessage

def msg (m : DtlsIncomingMessage) : Bytes := m.data.drop dtls1HmHeaderLength

def msgLen (m : DtlsIncomingMessage) : ℕ := m.msg.length

end DtlsIncomingMessage

/-- A message of the flight. -/
structure DtlsOutgoingMessage where
  data : Bytes
  epoch : UInt16
  isCcs : Bool
  acked : DtlsMessageBitmap
  deriving DecidableEq, Repr

namespace DtlsOutgoingMessage

def msgLen (m : DtlsOutgoingMessage) : ℕ := m.data.length - dtls1HmHeaderLength

def isFullyAcked (m : DtlsOutgoingMessage) : Bool := !m.isCcs && m.acked.isComplete

end DtlsOutgoingMessage

/-- `DTLSSentRecord`: from `firstMsgStart` of message `firstMsg` to `lastMsgEnd` of `lastMsg`. -/
structure DtlsSentRecord where
  number : RecordNumber
  firstMsg : ℕ
  lastMsg : ℕ
  firstMsgStart : ℕ
  lastMsgEnd : ℕ
  deriving DecidableEq, Repr

/-- `DTLSWriteEpoch`; its epoch is that of `nextRecord`. -/
structure DtlsWriteEpoch where
  nextRecord : RecordNumber
  aead : SslAead
  deriving DecidableEq, Repr

/-- The enumerators; the underlying type is `int`. -/
inductive QueuedKeyUpdate
  | none | updateNotRequested | updateRequested
  deriving DecidableEq, Repr

namespace QueuedKeyUpdate

def value : QueuedKeyUpdate → ℤ
  | none => 0
  | updateNotRequested => 1
  | updateRequested => 2

/-- What the two bits of `queued_key_update` keep of an enumerator. -/
def toField (q : QueuedKeyUpdate) : BitVec 2 := .ofInt 2 q.value

/-- A comparison with `queued_key_update`.  The bits are read as a signed number, as the underlying
type is signed. -/
def isIn (q : QueuedKeyUpdate) (field : BitVec 2) : Bool := field.toInt == q.value

end QueuedKeyUpdate

/-- What `SSL` tells the handshake side: `SSL_in_init`, the configuration, the version (`none`
before it is known, else the TLS version it corresponds to) and whether that is only the early
version, the clock in microseconds, and what fresh memory holds. -/
structure SslContext where
  inInit : Bool
  server : Bool
  verifyPeer : Bool
  maxCertList : ℕ
  version : Option ℕ
  isEarlyVersion : Bool
  initialTimeoutDurationMs : ℕ
  now : ℕ
  fill : UInt8
  deriving DecidableEq, Repr

namespace SslContext

def hasFinalVersion (ssl : SslContext) : Bool := ssl.version.isSome && !ssl.isEarlyVersion

def isTls13 (ssl : SslContext) : Bool := decide (tls13Version ≤ ssl.version.getD 0)

def maxHandshakeMessageLen (ssl : SslContext) : ℕ :=
  if ssl.inInit then
    if (!ssl.server || ssl.verifyPeer) ∧ 16384 < ssl.maxCertList then ssl.maxCertList else 16384
  else if !ssl.isTls13 then 0
  else if ssl.server then 1
  else 16384

end SslContext

/-- The part of `DTLS1_STATE` this development models, with `has_message` and `key_update_pending`
of `s3`.  A timer is the time it is set for, in microseconds. -/
structure Dtls1State where
  -- Receiving.
  handshakeReadSeq : ℕ
  handshakeReadOverflow : Bool
  hasMessage : Bool
  readEpoch : UInt16
  nextReadEpoch : Option UInt16
  incomingMessages : Fin 7 → Option DtlsIncomingMessage
  recordsToAck : List RecordNumber
  ackTimer : Option ℕ
  sendingAck : Bool
  -- Sending.
  handshakeWriteSeq : ℕ
  handshakeWriteOverflow : Bool
  outgoingMessages : List DtlsOutgoingMessage
  sentRecords : Option (List DtlsSentRecord)
  outgoingWritten : ℕ
  outgoingOffset : ℕ
  outgoingMessagesComplete : Bool
  flightHasReply : Bool
  sendingFlight : Bool
  writeEpoch : DtlsWriteEpoch
  extraWriteEpochs : List DtlsWriteEpoch
  keyUpdatePending : Bool
  queuedKeyUpdate : BitVec 2
  mtu : UInt32
  -- Retransmission.
  numTimeouts : ℕ
  retransmitTimer : Option ℕ
  timeoutDurationMs : ℕ
  deriving DecidableEq

def Dtls1State.new : Dtls1State where
  handshakeReadSeq := 0
  handshakeReadOverflow := false
  hasMessage := false
  readEpoch := 0
  nextReadEpoch := none
  incomingMessages := fun _ => none
  recordsToAck := []
  ackTimer := none
  sendingAck := false
  handshakeWriteSeq := 0
  handshakeWriteOverflow := false
  outgoingMessages := []
  sentRecords := none
  outgoingWritten := 0
  outgoingOffset := 0
  outgoingMessagesComplete := false
  flightHasReply := false
  sendingFlight := false
  writeEpoch := ⟨⟨0, 0⟩, .nullCipher⟩
  extraWriteEpochs := []
  keyUpdatePending := false
  queuedKeyUpdate := QueuedKeyUpdate.none.toField
  mtu := 0
  numTimeouts := 0
  retransmitTimer := none
  timeoutDurationMs := 0

def dtls1StopTimer (ssl : SslContext) (d1 : Dtls1State) : Dtls1State :=
  { d1 with
    numTimeouts := 0
    retransmitTimer := none
    timeoutDurationMs := ssl.initialTimeoutDurationMs }

def dtlsClearUnusedWriteEpochs (d1 : Dtls1State) : Dtls1State :=
  { d1 with
    extraWriteEpochs := d1.extraWriteEpochs.filter fun e =>
      d1.outgoingMessages.any fun m => m.epoch == e.nextRecord.epoch && !m.isFullyAcked }

def dtlsClearOutgoingMessages (d1 : Dtls1State) : Dtls1State :=
  dtlsClearUnusedWriteEpochs
    { d1 with
      outgoingMessages := []
      sentRecords := none
      outgoingWritten := 0
      outgoingOffset := 0
      outgoingMessagesComplete := false
      flightHasReply := false
      sendingFlight := false }

end BoringSSL
