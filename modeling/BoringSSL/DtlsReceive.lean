import BoringSSL.Dtls

/-!
# Receiving handshake messages, `ssl/d1_both.cc`

A record is a string of fragments.  Each is put in its message's slot of `incoming_messages`, and
the message at `handshake_read_seq` is handed out once its bitmap is complete.
-/

namespace BoringSSL

open ByteLib

/-- The alerts sent. -/
inductive SslAlert
  | decodeError | illegalParameter | unexpectedMessage | internalError | recordOverflow
  | decryptError
  deriving DecidableEq, Repr

/-- The reasons put on the error queue. -/
inductive SslReason
  | badHandshakeRecord
  | excessHandshakeData
  | excessiveMessageSize
  | fragmentMismatch
  | decodeError
  | unexpectedRecord
  | dataLengthTooLong
  | decryptionFailedOrBadRecordMac
  | badAlert
  | tooManyWarningAlerts
  | unknownAlertType
  | alertReceived (description : UInt8)
  | tooManyKeyUpdates
  deriving DecidableEq, Repr

/-- An alert with its reason. -/
structure SslError where
  alert : SslAlert
  reason : Option SslReason
  deriving DecidableEq, Repr

/-- The unfragmented header of a message, written with a CBB over its first twelve bytes. -/
def hmHeaderBytes (fill : UInt8) (hdr : HmHeader) : Option Bytes :=
  cbbFinish ((Writes.addWord (.u8 hdr.type) <| .addWord (.u24 (UInt32.ofNat hdr.msgLen)) <|
    .addWord (.u16 (UInt16.ofNat hdr.seq)) <| .addWord (.u24 0) <|
    .addWord (.u24 (UInt32.ofNat hdr.msgLen)) .done).exec
      (cbbInitFixed (List.replicate dtls1HmHeaderLength fill)) 0)

/-- `dtls_new_incoming_message`; the body is not initialised. -/
def dtlsNewIncomingMessage (fill : UInt8) (hdr : HmHeader) : Option DtlsIncomingMessage :=
  (hmHeaderBytes fill hdr).map fun header =>
    ⟨hdr.type, hdr.seq, header ++ List.replicate hdr.msgLen fill, .init hdr.msgLen⟩

def msgSlot (seq : ℕ) : Fin 7 := ⟨seq % sslMaxHandshakeFlight, Nat.mod_lt _ (by decide)⟩

variable (d1 : Dtls1State)

def dtls1IsCurrentMessageComplete : Bool :=
  match d1.incomingMessages (msgSlot d1.handshakeReadSeq) with
  | some frag => frag.reassembly.isComplete
  | none => false

def Dtls1State.setIncoming (idx : Fin 7) (frag : Option DtlsIncomingMessage) : Dtls1State :=
  { d1 with incomingMessages := Function.update d1.incomingMessages idx frag }

variable (ssl : SslContext)

def dtls1GetIncomingMessage (d1 : Dtls1State) (hdr : HmHeader) :
    Except SslError (DtlsIncomingMessage × Dtls1State) :=
  if hdr.seq < d1.handshakeReadSeq ∨ hdr.seq - d1.handshakeReadSeq ≥ sslMaxHandshakeFlight then
    .error ⟨.internalError, none⟩
  else
    let idx := msgSlot hdr.seq
    match d1.incomingMessages idx with
    | some frag =>
      if frag.type ≠ hdr.type ∨ frag.msgLen ≠ hdr.msgLen then
        .error ⟨.illegalParameter, some .fragmentMismatch⟩
      else .ok (frag, d1)
    | none =>
      match dtlsNewIncomingMessage ssl.fill hdr with
      | none => .error ⟨.internalError, none⟩
      | some frag => .ok (frag, d1.setIncoming idx (some frag))

/-- `d1` and the two flags of the loop of `dtls1_process_handshake_fragments`. -/
structure FragmentAcc where
  d1 : Dtls1State
  implicitAck : Bool
  skippedFragments : Bool
  deriving DecidableEq

variable (number : RecordNumber)

def processFragment (hdr : HmHeader) (body : Bytes) (acc : FragmentAcc) :
    FragmentAcc × Option SslError :=
  let d1 := acc.d1
  if hdr.fragOff > hdr.msgLen ∨ hdr.fragLen > hdr.msgLen - hdr.fragOff then
    (acc, some ⟨.illegalParameter, some .badHandshakeRecord⟩)
  else if hdr.seq < d1.handshakeReadSeq ∨ d1.handshakeReadOverflow then
    -- A retransmit of data already received.
    (acc, none)
  else if number.epoch ≠ d1.readEpoch ∨ d1.nextReadEpoch.isSome then
    (acc, some ⟨.unexpectedMessage, some .excessHandshakeData⟩)
  else if hdr.msgLen > ssl.maxHandshakeMessageLen then
    (acc, some ⟨.illegalParameter, some .excessiveMessageSize⟩)
  else
    let acc := { acc with
      implicitAck := acc.implicitAck || (ssl.inInit && ssl.hasFinalVersion && ssl.isTls13) }
    if hdr.seq - d1.handshakeReadSeq > sslMaxHandshakeFlight then
      -- Too far in the future.
      ({ acc with skippedFragments := true }, none)
    else
      match dtls1GetIncomingMessage ssl d1 hdr with
      | .error e => (acc, some e)
      | .ok (frag, d1) =>
        if frag.reassembly.isComplete then ({ acc with d1 := d1 }, none)
        else
          let frag := { frag with
            data := overwrite frag.data (dtls1HmHeaderLength + hdr.fragOff) body
            reassembly := frag.reassembly.markRange hdr.fragOff (hdr.fragOff + hdr.fragLen) }
          ({ acc with d1 := d1.setIncoming (msgSlot hdr.seq) (some frag) }, none)

/-- The loop of `dtls1_process_handshake_fragments`.  Each round reads a header, so the record's
length is fuel enough. -/
def processFragments (ssl : SslContext) (number : RecordNumber) :
    ℕ → Bytes → FragmentAcc → FragmentAcc × Option SslError
  | 0, _, acc => (acc, none)
  | fuel + 1, cbs, acc =>
    if cbs.isEmpty then (acc, none)
    else
      match dtls1ParseFragment cbs with
      | none => (acc, some ⟨.decodeError, some .badHandshakeRecord⟩)
      | some (hdr, body, cbs) =>
        let r := processFragment ssl number hdr body acc
        if r.2.isSome then r else processFragments ssl number fuel cbs r.1

def finishFragments (acc : FragmentAcc) : Dtls1State :=
  let d1 :=
    if acc.implicitAck then dtlsClearOutgoingMessages (dtls1StopTimer ssl acc.d1) else acc.d1
  if acc.skippedFragments then d1
  else
    let d1 := { d1 with recordsToAck := mruPushBack d1.recordsToAck number }
    if ssl.hasFinalVersion && ssl.isTls13 && d1.ackTimer.isNone && !d1.sendingAck then
      { d1 with ackTimer := some (ssl.now + d1.timeoutDurationMs * 1000 / 4) }
    else d1

def dtls1ProcessHandshakeFragments (record : Bytes) (d1 : Dtls1State) :
    Dtls1State × Option SslError :=
  let r := processFragments ssl number record.length record ⟨d1, false, false⟩
  if r.2.isSome then (r.1.d1, r.2) else (finishFragments ssl number r.1, none)

/-- A well-formed fragment: its fields fit, and it lies within its message. -/
structure Fragment where
  hdr : HmHeader
  body : Bytes
  msgLen_lt : hdr.msgLen < 2 ^ 24
  seq_lt : hdr.seq < 2 ^ 16
  within : hdr.fragOff + hdr.fragLen ≤ hdr.msgLen
  body_length : body.length = hdr.fragLen

/-- The header as it stands before a fragment, or, with its offset zero and its length that of the
message, before a whole message. -/
def HmHeader.encode (hdr : HmHeader) : Bytes :=
  hdr.type :: (beBytes 3 hdr.msgLen ++ beBytes 2 hdr.seq ++ beBytes 3 hdr.fragOff
    ++ beBytes 3 hdr.fragLen)

def Fragment.encode (f : Fragment) : Bytes := f.hdr.encode ++ f.body

def encodeRecord (frags : List Fragment) : Bytes := frags.flatMap Fragment.encode

/-- It is beyond the window of messages. -/
def Fragment.Far (f : Fragment) : Prop :=
  d1.handshakeReadSeq + sslMaxHandshakeFlight ≤ f.hdr.seq

instance (d1 : Dtls1State) (f : Fragment) : Decidable (f.Far d1) :=
  inferInstanceAs (Decidable (_ ≤ _))

/-- What `dtls1_get_incoming_message` compares. -/
def Fragment.kind (f : Fragment) : UInt8 × ℕ := (f.hdr.type, f.hdr.msgLen)

def DtlsIncomingMessage.kind (m : DtlsIncomingMessage) : UInt8 × ℕ := (m.type, m.msgLen)

/-- The fragments in the window agree on the type and the length of each message, with what has been
queued of it and with one another. -/
def ConsistentFragments (frags : List Fragment) : Prop :=
  ∀ f ∈ frags, d1.handshakeReadSeq ≤ f.hdr.seq → ¬ f.Far d1 →
    (∀ m ∈ d1.incomingMessages (msgSlot f.hdr.seq), m.kind = f.kind)
      ∧ ∀ g ∈ frags, g.hdr.seq = f.hdr.seq → g.kind = f.kind

/-- The record fares as it would without the fragments past the window, and is not to be
acknowledged if it has one. -/
def IgnoresFuture (frags : List Fragment) (d1 : Dtls1State) : Prop :=
  let r := dtls1ProcessHandshakeFragments ssl number (encodeRecord frags) d1
  let near := dtls1ProcessHandshakeFragments ssl number
    (encodeRecord (frags.filter fun f => ¬ f.Far d1)) d1
  r.2 = near.2 ∧ r.1.incomingMessages = near.1.incomingMessages
    ∧ ((∃ f ∈ frags, f.Far d1) → r.1.recordsToAck = d1.recordsToAck)

/-- A message that is complete. -/
structure SslMessage where
  type : UInt8
  body : Bytes
  raw : Bytes
  deriving DecidableEq, Repr

/-- `dtls1_get_message`: the message, if it is complete, and the state, where it is noted. -/
def dtls1GetMessage : Option SslMessage × Dtls1State :=
  if !dtls1IsCurrentMessageComplete d1 then (none, d1)
  else
    ((d1.incomingMessages (msgSlot d1.handshakeReadSeq)).map fun frag =>
      ⟨frag.type, frag.msg, frag.data⟩, { d1 with hasMessage := true })

def dtls1NextMessage : Dtls1State :=
  let seq := (d1.handshakeReadSeq + 1) % 2 ^ 16
  let d1' := d1.setIncoming (msgSlot d1.handshakeReadSeq) none
  { d1' with
    handshakeReadSeq := seq
    handshakeReadOverflow := d1.handshakeReadOverflow || seq == 0
    hasMessage := false
    flightHasReply := d1.flightHasReply || d1.outgoingMessagesComplete }

/-- A message the peer sends. -/
structure HandshakeMessage where
  type : UInt8
  body : Bytes
  length_lt : body.length < 2 ^ 24

def HandshakeMessage.header (m : HandshakeMessage) (seq : ℕ) : HmHeader :=
  ⟨m.type, m.body.length, seq, 0, m.body.length⟩

def HandshakeMessage.toSslMessage (m : HandshakeMessage) (seq : ℕ) : SslMessage :=
  ⟨m.type, m.body, (m.header seq).encode ++ m.body⟩

/-- It is a fragment of one of the messages. -/
structure Fragment.Of (msgs : ℕ → HandshakeMessage) (f : Fragment) : Prop where
  type : f.hdr.type = (msgs f.hdr.seq).type
  msgLen : f.hdr.msgLen = (msgs f.hdr.seq).body.length
  body : f.body = ((msgs f.hdr.seq).body.drop f.hdr.fragOff).take f.hdr.fragLen

/-- It holds byte `i` of a message. -/
def Fragment.Covers (f : Fragment) (seq i : ℕ) : Prop :=
  f.hdr.seq = seq ∧ f.hdr.fragOff ≤ i ∧ i < f.hdr.fragOff + f.hdr.fragLen

/-- The fragments cover the message. -/
def ReceivedWhole (msgs : ℕ → HandshakeMessage) (recv : List Fragment) (seq : ℕ) : Prop :=
  (∃ f ∈ recv, f.hdr.seq = seq) ∧ ∀ i < (msgs seq).body.length, ∃ f ∈ recv, f.Covers seq i

/-- Nothing has been received yet, and the read epoch is settled. -/
structure Dtls1State.EmptyQueue (d1 : Dtls1State) : Prop where
  slots : ∀ idx, d1.incomingMessages idx = none
  readSeq : d1.handshakeReadSeq < 2 ^ 16
  overflow : d1.handshakeReadOverflow = false
  noNext : d1.nextReadEpoch = none

/-- The runs from `d0`: records with fragments of `msgs` that are in the window and not too long,
calls of `dtls1_get_message`, and of `dtls1_next_message` after it has returned a message.  `recv`
are the fragments received, `out` the messages handed out. -/
inductive Receives (msgs : ℕ → HandshakeMessage) (d0 : Dtls1State) :
    List Fragment → List SslMessage → Dtls1State → Prop
  | start : Receives msgs d0 [] [] d0
  | record {recv out d1} (ssl : SslContext) (number : RecordNumber) (frags : List Fragment) :
    Receives msgs d0 recv out d1 → number.epoch = d1.readEpoch →
    (∀ f ∈ frags, f.Of msgs ∧ f.hdr.msgLen ≤ ssl.maxHandshakeMessageLen
      ∧ (d1.handshakeReadOverflow = true
        ∨ f.hdr.seq < d1.handshakeReadSeq + sslMaxHandshakeFlight)) →
    Receives msgs d0 (recv ++ frags) out
      (dtls1ProcessHandshakeFragments ssl number (encodeRecord frags) d1).1
  | get {recv out d1} : Receives msgs d0 recv out d1 →
    Receives msgs d0 recv out (dtls1GetMessage d1).2
  | next {recv out d1} (m : SslMessage) : Receives msgs d0 recv out d1 → d1.hasMessage = true →
    (dtls1GetMessage d1).1 = some m → Receives msgs d0 recv (out ++ [m]) (dtls1NextMessage d1)

end BoringSSL
