import BoringSSL.DtlsReceive

/-!
# Sending a flight, `ssl/d1_both.cc` and `ssl/dtls_record.cc`

A sealed record is its number, type, plaintext and length on the wire; encryption is taken to
succeed.  Handshake records are packed with fragments of the outgoing messages, skipping what has
been acknowledged, and records are packed into packets of at most the MTU.
-/

namespace BoringSSL

open ByteLib

/-- `dtls1_init_message`, the calls that write the body, and `dtls1_finish_message`. -/
def dtls1Message (fill : UInt8) (seq : ℕ) (type : UInt8) (body : Writes) : Option Bytes :=
  (cbbFinish ((Writes.addWord (.u8 type) <| .addWord (.u24 0) <|
    .addWord (.u16 (UInt16.ofNat seq)) <| .addWord (.u24 0) <|
    .addChild .u24 body .done).exec (cbbInit 64 fill) 0)).bind fun msg =>
  if msg.length < dtls1HmHeaderLength then none
  else
    -- The fragment length is copied into the total message length.
    some (overwrite msg 1 ((msg.drop (dtls1HmHeaderLength - 3)).take 3))

variable (ssl : SslContext) (d1 : Dtls1State)

/-- `add_outgoing`, but for the transcript. -/
def addOutgoing (isCcs : Bool) (data : Bytes) : Bool × Dtls1State :=
  let d1 := if d1.outgoingMessagesComplete then
      dtlsClearOutgoingMessages (dtls1StopTimer ssl d1) else d1
  if !isCcs ∧ d1.handshakeWriteOverflow then (false, d1)
  else
    let seq := if isCcs then d1.handshakeWriteSeq else (d1.handshakeWriteSeq + 1) % 2 ^ 16
    let d1 := { d1 with
      handshakeWriteSeq := seq
      handshakeWriteOverflow := d1.handshakeWriteOverflow || (!isCcs && seq == 0) }
    -- An empty message needs a bit too, for its header.
    let acked := if isCcs then ⟨[], 0⟩
      else DtlsMessageBitmap.init (max (data.length - dtls1HmHeaderLength) 1)
    if d1.outgoingMessages.length < sslMaxHandshakeFlight then
      (true, { d1 with
        outgoingMessages := d1.outgoingMessages ++
          [⟨data, d1.writeEpoch.nextRecord.epoch, isCcs, acked⟩] })
    else (false, d1)

def dtls1AddMessage (data : Bytes) : Bool × Dtls1State :=
  addOutgoing ssl d1 false data

def dtls1FinishFlight : Dtls1State :=
  match d1.outgoingMessages with
  | [] => d1
  | msg :: _ =>
    if d1.outgoingMessagesComplete then d1
    else
      -- Handshake messages acknowledge the previous flight.
      let d1 := if msg.epoch ≤ 2 then
          { d1 with recordsToAck := [], ackTimer := none, sendingAck := false } else d1
      dtls1StopTimer ssl { d1 with outgoingMessagesComplete := true, sendingFlight := true }

def dtlsPlaintextRecordHeaderLength : ℕ := 13

def dtls13RecordHeaderWriteLength : ℕ := 5

def ssl3RtMaxPlainLength : ℕ := 2 ^ 14

def ssl3RtChangeCipherSpec : UInt8 := 20

def ssl3RtHandshake : UInt8 := 22

def DtlsWriteEpoch.epoch (e : DtlsWriteEpoch) : UInt16 := e.nextRecord.epoch

variable (epoch : UInt16)

def useDtls13RecordHeader : Bool :=
  decide (tls12Version < ssl.version.getD 0) && decide (epoch > 0)

def getWriteEpoch : Option DtlsWriteEpoch :=
  (d1.writeEpoch :: d1.extraWriteEpochs).find? fun e => e.epoch == epoch

def dtlsRecordHeaderWriteLen : ℕ :=
  if !useDtls13RecordHeader ssl epoch then dtlsPlaintextRecordHeaderLength
  else dtls13RecordHeaderWriteLength

def dtlsSealPrefixLen : ℕ :=
  match getWriteEpoch d1 epoch with
  | none => 0
  | some e => dtlsRecordHeaderWriteLen ssl epoch + e.aead.explicitNonceLen

def dtlsSealMaxInputLen (maxOut : ℕ) : ℕ :=
  match getWriteEpoch d1 epoch with
  | none => 0
  | some e =>
    let headerLen := dtlsRecordHeaderWriteLen ssl epoch
    if maxOut ≤ headerLen then 0
    else
      let maxOut := e.aead.maxSealInputLen (maxOut - headerLen)
      -- One byte goes to the encrypted record type.
      if maxOut > 0 ∧ useDtls13RecordHeader ssl epoch then maxOut - 1 else maxOut

/-- What was sealed, and its length. -/
structure SealedRecord where
  number : RecordNumber
  type : UInt8
  plaintext : Bytes
  len : ℕ
  deriving DecidableEq, Repr

/-- Why a record is not sealed. -/
inductive SealError
  | noWriteEpoch | overflow | recordTooLarge | bufferTooSmall
  deriving DecidableEq, Repr

def RecordNumber.next? (n : RecordNumber) : Option RecordNumber :=
  if h : n.sequence.val + 1 < 2 ^ 48 then some ⟨n.epoch, ⟨n.sequence.val + 1, h⟩⟩ else none

def Dtls1State.setNextRecord (next : RecordNumber) : Dtls1State :=
  if d1.writeEpoch.epoch = next.epoch then
    { d1 with writeEpoch := { d1.writeEpoch with nextRecord := next } }
  else
    { d1 with
      extraWriteEpochs := d1.extraWriteEpochs.modify
        (d1.extraWriteEpochs.findIdx fun e => e.epoch == next.epoch)
        fun e => { e with nextRecord := next } }

def dtlsSealRecord (maxOut : ℕ) (type : UInt8) (plaintext : Bytes) (epoch : UInt16) :
    Except SealError (SealedRecord × Dtls1State) :=
  match getWriteEpoch d1 epoch with
  | none => .error .noWriteEpoch
  | some e =>
    match e.nextRecord.next? with
    | none => .error .overflow
    | some next =>
      let extraInLen := if useDtls13RecordHeader ssl epoch then 1 else 0
      match e.aead.ciphertextLen plaintext.length extraInLen with
      | none => .error .recordTooLarge
      | some ciphertextLen =>
        let len := dtlsRecordHeaderWriteLen ssl epoch + ciphertextLen
        if maxOut < len then .error .bufferTooSmall
        else .ok (⟨e.nextRecord, type, plaintext, len⟩, d1.setNextRecord next)

/-- How the loop over a message's ranges ends: at the end of the message, at `packet_full`, or in
`seal_error`. -/
inductive PackExit
  | nextMessage | packetFull | error | outOfFuel
  deriving DecidableEq, Repr

/-- The calls that assemble a fragment, up to `CBB_flush`. -/
def addFragment (cbb : Cbb) (hdr : HmHeader) (fragOff : ℕ) (frag : Bytes) : Bool × Cbb :=
  if h : frag.length < sizeMod then
    cbbFlush ((Writes.addWord (.u8 hdr.type) <| .addWord (.u24 (UInt32.ofNat hdr.msgLen)) <|
      .addWord (.u16 (UInt16.ofNat hdr.seq)) <| .addWord (.u24 (UInt32.ofNat fragOff)) <|
      .addChild .u24 (.addBytes ⟨frag, h⟩ .done) .done).exec cbb 0) 0
  else (false, cbb)

/-- The loop over the un-acked ranges of a message, from `outgoing_offset`.  It ends with the new
offset and CBB.  Each round moves past a range, so the bits of the bitmap are fuel enough. -/
def packMessage (hdr : HmHeader) (body : Bytes) (acked : DtlsMessageBitmap) (size : ℕ) :
    ℕ → ℕ → Cbb → PackExit × ℕ × Cbb
  | 0, offset, cbb => (.outOfFuel, offset, cbb)
  | fuel + 1, offset, cbb =>
    let range := acked.nextUnmarkedRange offset
    if range.empty then (.nextMessage, 0, cbb)
    else
      let capacity := size - cbb.base.len
      if capacity < dtls1HmHeaderLength + 1 then (.packetFull, offset, cbb)
      else
        let todo := min range.size (capacity - dtls1HmHeaderLength)
        -- The one bit of an empty message stands for its header.
        let frag := if body.isEmpty then [] else (body.drop range.start).take todo
        let r := addFragment cbb hdr range.start frag
        if !r.1 then (.error, offset, r.2)
        else if todo < range.size then (.packetFull, range.start + todo, r.2)
        else packMessage hdr body acked size fuel (range.start + todo) r.2

/-- `msg.data` as `seal_next_record` reads it back: its header and body. -/
def DtlsOutgoingMessage.decode (msg : DtlsOutgoingMessage) : Option (HmHeader × Bytes) :=
  (dtls1ParseFragment msg.data).bind fun (hdr, body, rest) =>
    if hdr.fragOff ≠ 0 ∨ hdr.fragLen ≠ body.length ∨ hdr.msgLen ≠ body.length ∨ rest.length ≠ 0
    then none else some (hdr, body)

/-- `seal_result_t`, with the reason of an error where `dtls_seal_record` gives one, and the failed
assertion that the caller is not told to go on when nothing was packed. -/
inductive SealResult
  | error (reason : Option SealError)
  | continue
  | flush
  | assertFailed
  | outOfFuel
  deriving DecidableEq, Repr

/-- Where packing has got to: `outgoing_written`, `outgoing_offset`, the CBB. -/
structure PackState where
  written : ℕ
  offset : ℕ
  cbb : Cbb
  deriving DecidableEq

/-- The loop over the messages that can share a record; the list is the messages from
`outgoing_written` on.  The result is what `should_continue` says if there is no error. -/
def packMessages (epoch : UInt16) (allowMultipleMessages : Bool) (size : ℕ) :
    List DtlsOutgoingMessage → PackState → SealResult × PackState
  | [], s => (.flush, s)
  | msg :: rest, s =>
    if msg.epoch ≠ epoch ∨ msg.isCcs then (.continue, s)
    else
      match msg.decode with
      | none => (.error none, s)
      | some (hdr, body) =>
        let r := packMessage hdr body msg.acked size (msg.acked.bytes.length * 8 + 1) s.offset s.cbb
        match r.1 with
        | .nextMessage =>
          if !allowMultipleMessages then (.continue, ⟨s.written + 1, r.2.1, r.2.2⟩)
          else packMessages epoch allowMultipleMessages size rest ⟨s.written + 1, r.2.1, r.2.2⟩
        | .packetFull => (.flush, ⟨s.written, r.2.1, r.2.2⟩)
        | .error => (.error none, ⟨s.written, r.2.1, r.2.2⟩)
        | .outOfFuel => (.outOfFuel, ⟨s.written, r.2.1, r.2.2⟩)

/-- Skips the messages that are fully acked: `outgoing_written` and `outgoing_offset` after it. -/
def skipAcked : List DtlsOutgoingMessage → ℕ → ℕ → ℕ × ℕ
  | [], written, offset => (written, offset)
  | msg :: rest, written, offset =>
    if msg.isFullyAcked then skipAcked rest (written + 1) 0 else (written, offset)

def Dtls1State.seek (written offset : ℕ) : Dtls1State :=
  { d1 with outgoingWritten := written, outgoingOffset := offset }

def Dtls1State.pushSentRecord (r : DtlsSentRecord) : Dtls1State :=
  if ssl.version.isNone || ssl.isTls13 then
    { d1 with sentRecords := some (mruPushBack (d1.sentRecords.getD []) r) }
  else d1

def sealCcs (outSize : ℕ) (d1 : Dtls1State) (msg : DtlsOutgoingMessage) :
    SealResult × Option SealedRecord × Dtls1State :=
  match dtlsSealRecord ssl d1 outSize ssl3RtChangeCipherSpec [1] msg.epoch with
  | .error e => (.error (some e), none, d1)
  | .ok (record, d1) => (.continue, some record, d1.seek (d1.outgoingWritten + 1) 0)

def sealHandshake (outSize : ℕ) (d1 : Dtls1State) (msg : DtlsOutgoingMessage) :
    SealResult × Option SealedRecord × Dtls1State :=
  -- `fragments`, the part of the output where they are staged.
  let size := min (dtlsSealMaxInputLen ssl d1 msg.epoch outSize)
    (outSize - dtlsSealPrefixLen ssl d1 msg.epoch)
  let (result, s) := packMessages msg.epoch (msg.epoch != 0) size
    (d1.outgoingMessages.drop d1.outgoingWritten)
    ⟨d1.outgoingWritten, d1.outgoingOffset, cbbInitFixed (List.replicate size ssl.fill)⟩
  let d1' := d1.seek s.written s.offset
  if result ≠ .continue ∧ result ≠ .flush then (result, none, d1')
  else if s.cbb.base.len = 0 then (if result = .continue then .assertFailed else .flush, none, d1')
  else
    match dtlsSealRecord ssl d1' outSize ssl3RtHandshake (s.cbb.base.buf.take s.cbb.base.len)
      msg.epoch with
    | .error e => (.error (some e), none, d1')
    | .ok (record, d1') =>
      (result, some record, d1'.pushSentRecord ssl
        ⟨record.number, d1.outgoingWritten, s.written, d1.outgoingOffset, s.offset⟩)

/-- `seal_next_record`, into `outSize` bytes: the result, the record if one was sealed, and the
state. -/
def sealNextRecord (outSize : ℕ) (d1 : Dtls1State) :
    SealResult × Option SealedRecord × Dtls1State :=
  let skipped :=
    skipAcked (d1.outgoingMessages.drop d1.outgoingWritten) d1.outgoingWritten d1.outgoingOffset
  let d1 := d1.seek skipped.1 skipped.2
  match d1.outgoingMessages[d1.outgoingWritten]? with
  | none => (.flush, none, d1)
  | some firstMsg =>
    if dtlsSealMaxInputLen ssl d1 firstMsg.epoch outSize = 0 then (.flush, none, d1)
    else if firstMsg.isCcs then sealCcs ssl outSize d1 firstMsg
    else sealHandshake ssl outSize d1 firstMsg

/-- More rounds than a pass over the flight can take: each sends a bit, or ends it. -/
def flightFuel : ℕ :=
  (d1.outgoingMessages.map fun m => m.acked.bytes.length * 8 + 1).sum + 2

def packetLen (packet : List SealedRecord) : ℕ := (packet.map SealedRecord.len).sum

def sealNextPacket (ssl : SslContext) : ℕ → ℕ → Dtls1State →
    SealResult × List SealedRecord × Dtls1State
  | 0, _, d1 => (.outOfFuel, [], d1)
  | fuel + 1, outSize, d1 =>
    let r := sealNextRecord ssl outSize d1
    let packet := r.2.1.toList
    if r.1 = .continue then
      let next := sealNextPacket ssl fuel (outSize - packetLen packet) r.2.2
      (next.1, packet ++ next.2.1, next.2.2)
    else (r.1, packet, r.2.2)

/-- What `SSL` and its transport tell `send_flight`: whether writing is shut down, the BIO and its
MTU, and whether each call of `BIO_write` and the last `BIO_flush` succeed. -/
structure SendEnv where
  ssl : SslContext
  writeShutdown : Bool
  hasWbio : Bool
  noQueryMtu : Bool
  queryMtu : ℤ
  bioWrite : ℕ → Bool
  bioFlush : Bool

def dtls1MinMtu : UInt32 := 256 - 28

def dtls1DefaultMtu : UInt32 := 1500 - 28

def dtls1MaxTimeouts : ℕ := 12

def sslSetMtu (mtu : UInt32) : Bool × Dtls1State :=
  if mtu < dtls1MinMtu then (false, d1) else (true, { d1 with mtu := mtu })

def dtls1UpdateMtu (env : SendEnv) (d1 : Dtls1State) : Dtls1State :=
  if d1.mtu < dtls1MinMtu ∧ !env.noQueryMtu then
    if 0 ≤ env.queryMtu ∧ env.queryMtu ≤ 2 ^ 30 ∧ dtls1MinMtu ≤ UInt32.ofNat env.queryMtu.toNat then
      { d1 with mtu := UInt32.ofNat env.queryMtu.toNat }
    else { d1 with mtu := dtls1DefaultMtu }
  else d1

/-- How sending a flight ends. -/
inductive SendResult
  | sent
  | bioWriteFailed
  | bioFlushFailed
  | mtuTooSmall
  | sealFailed (result : SealResult)
  | notReady
  deriving DecidableEq, Repr

/-- The loop of `send_flight`; `n` counts the calls of `BIO_write`.  The packets are those the
transport took. -/
def sendPackets (env : SendEnv) : ℕ → ℕ → Dtls1State →
    SendResult × List (List SealedRecord) × Dtls1State
  | 0, _, d1 => (.sealFailed .outOfFuel, [], d1)
  | fuel + 1, n, d1 =>
    if d1.outgoingMessages.length ≤ d1.outgoingWritten then
      (if env.bioFlush then .sent else .bioFlushFailed, [], d1)
    else
      let r := sealNextPacket env.ssl (flightFuel d1) d1.mtu.toNat d1
      if r.1 ≠ .flush then (.sealFailed r.1, [], r.2.2)
      else if packetLen r.2.1 = 0 then
        if r.2.2.outgoingWritten < r.2.2.outgoingMessages.length then (.mtuTooSmall, [], r.2.2)
        else sendPackets env fuel n r.2.2
      else if env.bioWrite n then
        let next := sendPackets env fuel (n + 1) r.2.2
        (next.1, r.2.1 :: next.2.1, next.2.2)
      else
        -- Retry this packet the next time around.
        (.bioWriteFailed, [], r.2.2.seek d1.outgoingWritten d1.outgoingOffset)

def sendFlight (env : SendEnv) (d1 : Dtls1State) :
    SendResult × List (List SealedRecord) × Dtls1State :=
  if env.writeShutdown ∨ !env.hasWbio ∨ d1.numTimeouts > dtls1MaxTimeouts then (.notReady, [], d1)
  else
    let d1 := dtls1UpdateMtu env d1
    sendPackets env (flightFuel d1) 0 d1

end BoringSSL
