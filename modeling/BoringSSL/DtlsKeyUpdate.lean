import BoringSSL.DtlsAck

/-!
# Key updates over DTLS 1.3, `ssl/tls13_both.cc`

A KeyUpdate is a flight of its own.  While another flight is out it is deferred, into
`queued_key_update`, until that flight has been acknowledged; the keys change when the KeyUpdate has
been acknowledged itself.
-/

namespace BoringSSL

open ByteLib

variable (ssl : SslContext)

/-- `SSL_key_update`, on a connection that has or has not completed its handshake. -/
def sslKeyUpdate (initialHandshakeComplete updateRequested : Bool) (d1 : Dtls1State) :
    Bool × Dtls1State :=
  if !initialHandshakeComplete then (false, d1)
  else if !ssl.isTls13 then (false, d1)
  else tls13AddKeyUpdate ssl updateRequested d1

def dtlsHasUnprocessedHandshakeData (d1 : Dtls1State) : Bool :=
  (List.finRange 7).any fun i =>
    !(d1.hasMessage && i == msgSlot d1.handshakeReadSeq) && (d1.incomingMessages i).isSome

/-- `tls13_rotate_traffic_key` for opening; `keysOk` is whether the keys can be set up. -/
def tls13RotateReadKey (keysOk : Bool) (d1 : Dtls1State) : Option Dtls1State :=
  if !keysOk || dtlsHasUnprocessedHandshakeData d1 then none
  else
    (nextEpoch ssl .application d1.readEpoch).map fun epoch =>
      if ssl.isTls13 then { d1 with nextReadEpoch := some epoch }
      else { d1 with readEpoch := epoch }

def keyUpdateRequest (body : Bytes) : Option Bool :=
  match body with
  | [0] => some false
  | [1] => some true
  | _ => none

def tls13ReceiveKeyUpdate (keysOk : Bool) (body : Bytes) (d1 : Dtls1State) : Bool × Dtls1State :=
  match keyUpdateRequest body with
  | none => (false, d1)
  | some requested =>
    match tls13RotateReadKey ssl keysOk d1 with
    | none => (false, d1)
    | some d1 => if requested then tls13AddKeyUpdate ssl false d1 else (true, d1)

/-- It is a KeyUpdate with this request. -/
def DtlsOutgoingMessage.IsKeyUpdate (m : DtlsOutgoingMessage) (updateRequested : Bool) : Prop :=
  m.data.head? = some ssl3MtKeyUpdate
    ∧ m.data.drop dtls1HmHeaderLength = [if updateRequested then 1 else 0]

instance (m : DtlsOutgoingMessage) (updateRequested : Bool) :
    Decidable (m.IsKeyUpdate updateRequested) := inferInstanceAs (Decidable (_ ∧ _))

/-- The flight that a call put out, if it used up a message number. -/
def sentMessages (d1 d1' : Dtls1State) : List DtlsOutgoingMessage :=
  if d1'.handshakeWriteSeq = d1.handshakeWriteSeq then [] else d1'.outgoingMessages

def ackMarks (ackRecord : RecordNumber) (data : Bytes) (d1 : Dtls1State) : Option Dtls1State :=
  if !ssl.hasFinalVersion || !ssl.isTls13 then none
  else
    (ackContents data).bind fun contents =>
      let numbers := parseRecordNumbers ackRecord.epoch contents.length contents
      if numbers.2.isNone then some (numbers.1.foldl ackRecordNumber d1) else none

/-- The ACK is the last one the flight waits for. -/
def FlightAcked (ackRecord : RecordNumber) (data : Bytes) (d1 : Dtls1State) : Prop :=
  ∃ marked, ackMarks ssl ackRecord data d1 = some marked
    ∧ marked.outgoingMessages.all DtlsOutgoingMessage.isFullyAcked = true

instance (ssl : SslContext) (ackRecord : RecordNumber) (data : Bytes) (d1 : Dtls1State) :
    Decidable (FlightAcked ssl ackRecord data d1) :=
  match h : ackMarks ssl ackRecord data d1 with
  | none => isFalse fun ⟨_, hm, _⟩ => nomatch h.symm.trans hm
  | some marked =>
    if hall : marked.outgoingMessages.all DtlsOutgoingMessage.isFullyAcked = true then
      isTrue ⟨marked, h, hall⟩
    else isFalse fun ⟨_, hm, hall'⟩ => hall (Option.some.inj (h.symm.trans hm) ▸ hall')

/-- The handshake is complete and no key update is under way; some flight may be. -/
structure Dtls1State.Established (d1 : Dtls1State) : Prop where
  epoch : SslEncryptionLevel.application.epoch ≤ d1.writeEpoch.epoch
  writeSeq : d1.handshakeWriteSeq < 2 ^ 16
  pending : d1.keyUpdatePending = false
  queued : d1.queuedKeyUpdate = QueuedKeyUpdate.none.toField

/-- A KeyUpdate asked for now would be deferred. -/
def Dtls1State.defers (d1 : Dtls1State) : Bool :=
  !d1.keyUpdatePending && !d1.outgoingMessages.isEmpty

/-- The runs of calls of `SSL_key_update`, received KeyUpdates, ACKs and records sent, from `d0`,
where a KeyUpdate is asked for only as `may` says.  `asked` is whether a call with
`SSL_KEY_UPDATE_REQUESTED` has been deferred and the flight it was deferred for is still out.
`sent` are the messages put out, each with whether it has to request an update. -/
inductive KeyRun (may : Dtls1State → Bool → Prop) (d0 : Dtls1State) :
    Dtls1State → Bool → List (Bool × DtlsOutgoingMessage) → Prop
  | start : KeyRun may d0 d0 false []
  | keyUpdate {d1 asked sent} (ssl : SslContext) (complete requested : Bool) :
    KeyRun may d0 d1 asked sent → (complete = true → ssl.isTls13 = true → may d1 requested) →
    KeyRun may d0 (sslKeyUpdate ssl complete requested d1).2
      (asked || (requested && complete && ssl.isTls13 && d1.defers))
      (sent ++ (sentMessages d1 (sslKeyUpdate ssl complete requested d1).2).map (requested, ·))
  | receive {d1 asked sent} (ssl : SslContext) (keysOk : Bool) (body : Bytes) :
    KeyRun may d0 d1 asked sent → (keyUpdateRequest body = some true → may d1 false) →
    KeyRun may d0 (tls13ReceiveKeyUpdate ssl keysOk body d1).2 asked
      (sent ++ (sentMessages d1 (tls13ReceiveKeyUpdate ssl keysOk body d1).2).map (false, ·))
  | ack {d1 asked sent} (ssl : SslContext) (ackRecord : RecordNumber) (data : Bytes) :
    KeyRun may d0 d1 asked sent →
    KeyRun may d0 (dtls1ProcessAck ssl ackRecord data d1).1
      (asked && !decide (FlightAcked ssl ackRecord data d1))
      (sent ++ (sentMessages d1 (dtls1ProcessAck ssl ackRecord data d1).1).map (asked, ·))
  | sealNext {d1 asked sent} (ssl : SslContext) (outSize : ℕ) : KeyRun may d0 d1 asked sent →
    KeyRun may d0 (sealNextRecord ssl outSize d1).2.2 asked sent
  | seek {d1 asked sent} (written offset : ℕ) : KeyRun may d0 d1 asked sent →
    KeyRun may d0 (d1.seek written offset) asked sent
  | other {d1 d1' asked sent} (ssl : SslContext) (maxOut : ℕ) (type : UInt8) (plaintext : Bytes)
      (epoch : UInt16) (record : SealedRecord) : KeyRun may d0 d1 asked sent →
    dtlsSealRecord ssl d1 maxOut type plaintext epoch = .ok (record, d1') →
    KeyRun may d0 d1' asked sent

/-- No request is deferred. -/
def NoRequestDeferred (d1 : Dtls1State) (requested : Bool) : Prop :=
  requested = true → d1.defers = false

end BoringSSL
