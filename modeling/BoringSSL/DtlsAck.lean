import BoringSSL.DtlsFlight

/-!
# DTLS 1.3 acknowledgements, `ssl/d1_pkt.cc`

An ACK lists record numbers.  Each is looked up among the records sent, and the part of the flight
that record went over is marked as acknowledged.  Once all of the flight is, it is discarded, and a
key update that waited for it is made.
-/

namespace BoringSSL

open ByteLib

/-- `ssl_encryption_level_t`. -/
inductive SslEncryptionLevel
  | initial | earlyData | handshake | application
  deriving DecidableEq, Repr

def SslEncryptionLevel.epoch : SslEncryptionLevel → UInt16
  | initial => 0
  | earlyData => 1
  | handshake => 2
  | application => 3

variable (ssl : SslContext)

def nextEpoch (level : SslEncryptionLevel) (prev : UInt16) : Option UInt16 :=
  match level with
  | .application =>
    if prev < SslEncryptionLevel.application.epoch ∧ ssl.isTls13 then some level.epoch
    else if prev = 0xffff then none
    else some (prev + 1)
  | _ => some level.epoch

/-- `dtls1_set_write_state`, when the keys can be set up. -/
def dtls1SetWriteState (level : SslEncryptionLevel) (aead : SslAead) (d1 : Dtls1State) :
    Option Dtls1State :=
  (nextEpoch ssl level d1.writeEpoch.epoch).map fun epoch =>
    dtlsClearUnusedWriteEpochs { d1 with
      writeEpoch := ⟨⟨epoch, 0⟩, aead⟩
      extraWriteEpochs := d1.extraWriteEpochs ++ [d1.writeEpoch] }

variable (d1 : Dtls1State)

def tls13RotateTrafficKey : Option Dtls1State :=
  dtls1SetWriteState ssl .application .xorNonce d1

def ssl3MtKeyUpdate : UInt8 := 24

def tls13AddKeyUpdate (updateRequested : Bool) (d1 : Dtls1State) : Bool × Dtls1State :=
  if d1.keyUpdatePending then (true, d1)
  else if !d1.outgoingMessages.isEmpty then
    (true, { d1 with
      queuedKeyUpdate := QueuedKeyUpdate.toField
        (if updateRequested then .updateRequested else .updateNotRequested) })
  else
    match dtls1Message ssl.fill d1.handshakeWriteSeq ssl3MtKeyUpdate
      (.addWord (.u8 (if updateRequested then 1 else 0)) .done) with
    | none => (false, d1)
    | some data =>
      let r := dtls1AddMessage ssl d1 data
      if !r.1 then r else (true, dtls1FinishFlight ssl { r.2 with keyUpdatePending := true })

def Dtls1State.markAcked (i start stop : ℕ) : Dtls1State :=
  { d1 with outgoingMessages := d1.outgoingMessages.modify i fun m =>
      { m with acked := m.acked.markRange start stop } }

def ackSentRecord (r : DtlsSentRecord) : Dtls1State :=
  if r.firstMsg = r.lastMsg then d1.markAcked r.firstMsg r.firstMsgStart r.lastMsgEnd
  else
    let d1 := d1.markAcked r.firstMsg r.firstMsgStart (sizeMod - 1)
    let d1 := (List.range' (r.firstMsg + 1) (r.lastMsg - (r.firstMsg + 1))).foldl
      (fun d1 i => d1.markAcked i 0 (sizeMod - 1)) d1
    if r.lastMsgEnd ≠ 0 then d1.markAcked r.lastMsg 0 r.lastMsgEnd else d1

def DtlsSentRecord.cleared (r : DtlsSentRecord) : DtlsSentRecord := ⟨r.number, 0, 0, 0, 0⟩

def ackRecordNumber (number : RecordNumber) : Dtls1State :=
  match (d1.sentRecords.getD []).find? fun r => r.number == number with
  | none => d1
  | some r =>
    let sent := d1.sentRecords.getD []
    { ackSentRecord d1 r with
      sentRecords := some (sent.modify (sent.findIdx fun r => r.number == number) .cleared) }

def ssl3RtMaxSequence : ℕ := 2 ^ 48 - 1

/-- A record number of an ACK that came in a record of epoch `ackEpoch`: during the handshake no
higher epoch is acknowledged, and what does not fit was not sent. -/
def checkRecordNumber (ackEpoch : UInt16) (epoch seq : UInt64) : Option RecordNumber :=
  if h : (ackEpoch < SslEncryptionLevel.application.epoch ∧ epoch > ackEpoch.toUInt64)
      ∨ epoch > 0xffff ∨ seq.toNat > ssl3RtMaxSequence then none
  else some ⟨epoch.toUInt16, ⟨seq.toNat, by
    have h48 : ssl3RtMaxSequence < 2 ^ 48 := by decide
    simp only [not_or] at h
    omega⟩⟩

/-- The record numbers up to the first that is refused, and why it is. -/
def parseRecordNumbers (ackEpoch : UInt16) : ℕ → Bytes → List RecordNumber × Option SslError
  | 0, _ => ([], none)
  | fuel + 1, cbs =>
    if cbs.isEmpty then ([], none)
    else
      match (cbsGetU cbs 8).bind fun (epoch, cbs) =>
          (cbsGetU cbs 8).map fun (seq, cbs) => (epoch, seq, cbs) with
      | none => ([], some ⟨.decodeError, some .decodeError⟩)
      | some (epoch, seq, cbs) =>
        match checkRecordNumber ackEpoch epoch seq with
        | none => ([], some ⟨.illegalParameter, some .decodeError⟩)
        | some number =>
          let r := parseRecordNumbers ackEpoch fuel cbs
          (number :: r.1, r.2)

def ackContents (data : Bytes) : Option Bytes :=
  match (cbsGetU16 data).bind fun (len, cbs) => cbsGetBytes cbs len with
  | some (contents, rest) => if rest.isEmpty then some contents else none
  | none => none

def ackedNumbers (ackEpoch : UInt16) (data : Bytes) : List RecordNumber :=
  match ackContents data with
  | none => []
  | some contents => (parseRecordNumbers ackEpoch contents.length contents).1

/-- Why an ACK is refused; a key update that fails sets no alert. -/
inductive AckError
  | ssl (error : SslError)
  | keyUpdate
  deriving DecidableEq, Repr

/-- What happens once the flight is all acknowledged. -/
def finishAckedFlight : Dtls1State × Option AckError :=
  let d1 := dtlsClearOutgoingMessages (dtls1StopTimer ssl d1)
  -- The key update was deferred until it was acknowledged.
  match if d1.keyUpdatePending then tls13RotateTrafficKey ssl d1 else some d1 with
  | none => (d1, some .keyUpdate)
  | some d1 =>
    let d1 := { d1 with keyUpdatePending := false }
    if QueuedKeyUpdate.none.isIn d1.queuedKeyUpdate then (d1, none)
    else
      let r := tls13AddKeyUpdate ssl (QueuedKeyUpdate.updateRequested.isIn d1.queuedKeyUpdate)
        { d1 with queuedKeyUpdate := QueuedKeyUpdate.none.toField }
      (r.2, if r.1 then none else some .keyUpdate)

/-- `dtls1_process_ack`, for an ACK in the record `ackRecordNumber`.  With no error the record is
discarded. -/
def dtls1ProcessAck (ackRecord : RecordNumber) (data : Bytes) (d1 : Dtls1State) :
    Dtls1State × Option AckError :=
  if !ssl.hasFinalVersion then (d1, none)
  else if !ssl.isTls13 then (d1, some (.ssl ⟨.unexpectedMessage, some .unexpectedRecord⟩))
  else
    match ackContents data with
    | none => (d1, some (.ssl ⟨.decodeError, some .decodeError⟩))
    | some contents =>
      -- The numbers before one that is refused have been marked by then.
      let numbers := parseRecordNumbers ackRecord.epoch contents.length contents
      let d1 := numbers.1.foldl ackRecordNumber d1
      match numbers.2 with
      | some error => (d1, some (.ssl error))
      | none =>
        if d1.outgoingMessages.all DtlsOutgoingMessage.isFullyAcked then finishAckedFlight ssl d1
        else (dtlsClearUnusedWriteEpochs d1, none)

/-- A flight none of which has been sent or acknowledged. -/
structure Dtls1State.NewFlight (d1 : Dtls1State) : Prop where
  wellFormed : ∀ m ∈ d1.outgoingMessages, m.WellFormed
  unmarked : ∀ m ∈ d1.outgoingMessages, ∀ i < max m.msgLen 1, ¬ m.acked.Marked i
  sentRecords : d1.sentRecords = none
  writeSeq : d1.handshakeWriteSeq < 2 ^ 16

/-- Each write epoch was installed once, and the latest last. -/
structure Dtls1State.EpochsOrdered (d1 : Dtls1State) : Prop where
  lt : ∀ e ∈ d1.extraWriteEpochs, e.epoch < d1.writeEpoch.epoch
  nodup : (d1.extraWriteEpochs.map DtlsWriteEpoch.epoch).Nodup

/-- The runs from `d0`: `seal_next_record` with any packet size, moves to any place in the flight (a
new pass, or a packet to send again), records of other kinds, and ACKs.  `sealed` are the records of
the flight sealed so far, the latest first, and `acked` those an ACK has named after they were. -/
inductive AckRun (d0 : Dtls1State) : Dtls1State → List SealedRecord → List SealedRecord → Prop
  | start : AckRun d0 d0 [] []
  | sealNext {d1 sealed acked} (ssl : SslContext) (outSize : ℕ) : AckRun d0 d1 sealed acked →
    outSize < sizeMod →
    AckRun d0 (sealNextRecord ssl outSize d1).2.2
      ((sealNextRecord ssl outSize d1).2.1.toList ++ sealed) acked
  | seek {d1 sealed acked} (written offset : ℕ) : AckRun d0 d1 sealed acked →
    AckRun d0 (d1.seek written offset) sealed acked
  | other {d1 d1' sealed acked} (ssl : SslContext) (maxOut : ℕ) (type : UInt8) (plaintext : Bytes)
      (epoch : UInt16) (record : SealedRecord) : AckRun d0 d1 sealed acked →
    dtlsSealRecord ssl d1 maxOut type plaintext epoch = .ok (record, d1') →
    AckRun d0 d1' sealed acked
  | ack {d1 sealed acked} (ssl : SslContext) (ackRecord : RecordNumber) (data : Bytes) :
    AckRun d0 d1 sealed acked →
    AckRun d0 (dtls1ProcessAck ssl ackRecord data d1).1 sealed
      (acked ++ sealed.filter fun r => decide (r.number ∈ ackedNumbers ackRecord.epoch data))

end BoringSSL
