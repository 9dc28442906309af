import BoringSSL.DtlsSend

/-!
# What a flight is to carry

A record is read as the fragments a receiver parses out of it, and these as the bytes of messages
they carry; a message with no body is carried by its header.  `flightItems` is what a flight still
has to carry: what is not acknowledged, in order.  `FlightPass` is the calls of `send_flight` that
send a flight once.
-/

namespace BoringSSL

open ByteLib

/-- ChangeCipherSpec, the header of an empty message, or one byte of a message. -/
inductive CarriedItem
  | ccs
  | header (type : UInt8) (msgLen seq : ℕ)
  | byte (type : UInt8) (msgLen seq index : ℕ) (value : UInt8)
  deriving DecidableEq, Repr

/-- The fragments a record is read as, up to the first that cannot be. -/
def recordFragments : ℕ → Bytes → List (HmHeader × Bytes)
  | 0, _ => []
  | fuel + 1, cbs =>
    match dtls1ParseFragment cbs with
    | none => []
    | some (hdr, body, rest) => (hdr, body) :: recordFragments fuel rest

def fragmentItems (hdr : HmHeader) (body : Bytes) : List CarriedItem :=
  if body.isEmpty then [.header hdr.type hdr.msgLen hdr.seq]
  else (List.range body.length).map fun k =>
    .byte hdr.type hdr.msgLen hdr.seq (hdr.fragOff + k) (body.getD k 0)

def SealedRecord.items (r : SealedRecord) : List CarriedItem :=
  if r.type = ssl3RtChangeCipherSpec then [.ccs]
  else (recordFragments r.plaintext.length r.plaintext).flatMap fun f => fragmentItems f.1 f.2

namespace DtlsOutgoingMessage

variable (m : DtlsOutgoingMessage)

def bits (start : ℕ) : List ℕ :=
  if m.isCcs then [0]
  else (List.range (max m.msgLen 1)).filter fun i => start ≤ i ∧ ¬ m.acked.Marked i

def item (i : ℕ) : CarriedItem :=
  match m.decode with
  | none => .ccs
  | some (hdr, body) =>
    if body.isEmpty then .header hdr.type hdr.msgLen hdr.seq
    else .byte hdr.type hdr.msgLen hdr.seq i (body.getD i 0)

/-- The message is the handshake message `hm` with number `seq`, and its bitmap has a bit for each
byte, or one for the header of an empty message. -/
structure Sends (m : DtlsOutgoingMessage) (hm : HandshakeMessage) (seq : ℕ) : Prop where
  isCcs : m.isCcs = false
  seq_lt : seq < 2 ^ 16
  data : m.data = (hm.header seq).encode ++ hm.body
  ok : m.acked.Ok
  unmarked : ∀ i, ¬ m.acked.Marked i → i < max hm.body.length 1

/-- It is a ChangeCipherSpec or sends a message. -/
def WellFormed : Prop :=
  (m.isCcs = true ∧ m.data = []) ∨ ∃ hm seq, m.Sends hm seq

def ranges (m : DtlsOutgoingMessage) : ℕ → ℕ → List BitmapRange
  | 0, _ => []
  | fuel + 1, start =>
    let range := m.acked.nextUnmarkedRange start
    if range.empty then [] else range :: m.ranges fuel range.stop

/-- The lengths of the fragments' bodies the message is sent as from `start` on, if none is cut. -/
def fragmentLens (fuel start : ℕ) : List ℕ :=
  (m.ranges fuel start).map fun r => if m.msgLen = 0 then 0 else r.size

end DtlsOutgoingMessage

/-- The same for all the messages that can share a record of this epoch. -/
def recordLens (epoch : UInt16) (allowMultipleMessages : Bool) :
    List DtlsOutgoingMessage → ℕ → List ℕ
  | [], _ => []
  | m :: rest, start =>
    if m.epoch ≠ epoch ∨ m.isCcs then []
    else m.fragmentLens (m.acked.bytes.length * 8 + 1) start
      ++ if allowMultipleMessages then recordLens epoch allowMultipleMessages rest 0 else []

def flightItems (messages : List DtlsOutgoingMessage) : List CarriedItem :=
  messages.flatMap fun m => (m.bits 0).map m.item

/-- No record was sealed with too much plaintext, or refused for its length. -/
def KeepsLimit (r : SealResult × Option SealedRecord × Dtls1State) : Prop :=
  (∀ record, r.2.1 = some record → record.plaintext.length ≤ ssl3RtMaxPlainLength)
    ∧ r.1 ≠ .error (some .recordTooLarge)

def packedLen (lens : List ℕ) (k : ℕ) : ℕ := ((lens.take k).map (dtls1HmHeaderLength + ·)).sum

/-- Fragments with bodies of these lengths, as many as there is `room` for and the last cut to what
is left, come to no more than a record may hold: there is no more room, or they end before. -/
def LensWithinLimit (room : ℕ) (lens : List ℕ) : Prop :=
  room ≤ ssl3RtMaxPlainLength ∨ ∃ k ≤ lens.length, packedLen lens k ≤ ssl3RtMaxPlainLength
    ∧ (k = lens.length ∨ room < packedLen lens k + dtls1HmHeaderLength + 1)

/-- If the next record is of handshake messages, its fragments keep to the limit, or there is no
record number for it. -/
def NextWithinLimit (ssl : SslContext) (outSize : ℕ) (d1 : Dtls1State) : Prop :=
  let next :=
    skipAcked (d1.outgoingMessages.drop d1.outgoingWritten) d1.outgoingWritten d1.outgoingOffset
  ∀ m, d1.outgoingMessages[next.1]? = some m → m.isCcs = false →
    (∃ e, getWriteEpoch d1 m.epoch = some e ∧ e.nextRecord.next? = none)
      ∨ LensWithinLimit (dtlsSealMaxInputLen ssl d1 m.epoch outSize)
        (recordLens m.epoch (m.epoch != 0) (d1.outgoingMessages.drop next.1) next.2)

/-- A record of the epoch with `n` bytes of plaintext can be sealed into `maxOut` bytes. -/
def RecordFits (ssl : SslContext) (d1 : Dtls1State) (epoch : UInt16) (n maxOut : ℕ) : Prop :=
  ∃ e, getWriteEpoch d1 epoch = some e
    ∧ ∃ len, e.aead.ciphertextLen n (if useDtls13RecordHeader ssl epoch then 1 else 0) = some len
      ∧ dtlsRecordHeaderWriteLen ssl epoch + len ≤ maxOut

/-- The results of `send_flight` after which it is called again for the same packets. -/
def SendResult.retries : SendResult → Bool
  | bioWriteFailed => true
  | bioFlushFailed => true
  | notReady => true
  | _ => false

/-- The states in which `send_flight` is called during a pass over the flight, with the packets the
transport has taken.  Between calls everything may change but the flight and how far it is sent. -/
inductive FlightPass (messages : List DtlsOutgoingMessage) :
    Dtls1State → List (List SealedRecord) → Prop
  | start {d1} : d1.outgoingMessages = messages → d1.outgoingWritten = 0 → d1.outgoingOffset = 0 →
    FlightPass messages d1 []
  | retry {d1 packets} (env : SendEnv) (d1' : Dtls1State) : FlightPass messages d1 packets →
    (sendFlight env d1).1.retries → d1'.outgoingMessages = messages →
    d1'.outgoingWritten = (sendFlight env d1).2.2.outgoingWritten →
    d1'.outgoingOffset = (sendFlight env d1).2.2.outgoingOffset →
    FlightPass messages d1' (packets ++ (sendFlight env d1).2.1)

end BoringSSL
