import BoringSSL.DtlsAck

/-!
# Opening DTLS records, `ssl/dtls_record.cc`

A record is read against one of up to three read epochs: the current one, the next once its keys are
known, and the previous one for a time.  Each has a bitmap of the sequence numbers it has seen,
which moves with it.  The ciphers are parameters: what opens and what does not is not modelled.
-/

namespace BoringSSL

open ByteLib

/-- The window of numbers seen. -/
structure DtlsReplayBitmap where
  map : BitVec 256
  maxSeqNum : Fin (2 ^ 48)
  deriving DecidableEq

namespace DtlsReplayBitmap

def new : DtlsReplayBitmap := ⟨0, 0⟩

def windowSize : ℕ := 256

def shouldDiscard (bm : DtlsReplayBitmap) (seqNum : Fin (2 ^ 48)) : Bool :=
  if bm.maxSeqNum < seqNum then false
  else
    let idx := bm.maxSeqNum.val - seqNum.val
    windowSize ≤ idx || bm.map.getLsbD idx

def record (bm : DtlsReplayBitmap) (seqNum : Fin (2 ^ 48)) : DtlsReplayBitmap :=
  let bm :=
    if bm.maxSeqNum < seqNum then
      let shift := seqNum.val - bm.maxSeqNum.val
      { map := if windowSize ≤ shift then 0 else bm.map <<< shift, maxSeqNum := seqNum }
    else bm
  let idx := bm.maxSeqNum.val - seqNum.val
  if idx < windowSize then { bm with map := bm.map ||| BitVec.twoPow 256 idx } else bm

end DtlsReplayBitmap

def kMaxSequence : UInt64 := 0xffffffffffff

def RecordNumber.fromCombined (combined : UInt64) : RecordNumber :=
  ⟨(combined >>> 48).toUInt16, ⟨combined.toNat % 2 ^ 48, Nat.mod_lt _ (by decide)⟩⟩

def RecordNumber.combined (n : RecordNumber) : UInt64 :=
  (n.epoch.toUInt64 <<< 48) ||| UInt64.ofNat n.sequence.val

def reconstructEpoch (wireEpoch : UInt8) (currentEpoch : UInt16) : UInt16 :=
  let currentEpochHigh := currentEpoch &&& 0xfffc
  let epoch := (wireEpoch &&& 0x3).toUInt16 ||| currentEpochHigh
  if epoch > currentEpoch ∧ currentEpochHigh > 0 then epoch - 4 else epoch

def reconstructSeqnum (wireSeq : UInt16) (seqMask maxValidSeqnum : UInt64) : UInt64 :=
  let maxSeqnumPlusOne := maxValidSeqnum + 1
  let diff := (wireSeq.toUInt64 - maxSeqnumPlusOne) &&& seqMask
  let step := seqMask + 1
  let seqnum := maxSeqnumPlusOne + diff
  let tooLarge := seqnum > kMaxSequence
  let closerIsLess := diff > step / 2
  let wouldUnderflow := seqnum < step
  if tooLarge ∨ (closerIsLess ∧ ¬ wouldUnderflow) then seqnum - step else seqnum

/-- It keeps to the range of sequence numbers, so that it can be made into a `DTLSRecordNumber`. -/
lemma reconstructSeqnum_lt (wireSeq : UInt16) {seqMask : UInt64} (hmask : seqMask ≤ 0xffff)
    (maxValidSeqnum : Fin (2 ^ 48)) :
    (reconstructSeqnum wireSeq seqMask (UInt64.ofNat maxValidSeqnum.val)).toNat < 2 ^ 48 := by
  have hmax := maxValidSeqnum.isLt
  have hdiff : ((wireSeq.toUInt64 - (UInt64.ofNat maxValidSeqnum.val + 1)) &&& seqMask).toNat
      ≤ seqMask.toNat := by
    rw [UInt64.toNat_and]
    exact Nat.and_le_right
  simp only [reconstructSeqnum]
  generalize (wireSeq.toUInt64 - (UInt64.ofNat maxValidSeqnum.val + 1)) &&& seqMask
    = diff at hdiff ⊢
  have hk : kMaxSequence.toNat = 2 ^ 48 - 1 := rfl
  have hm : seqMask.toNat ≤ 0xffff := UInt64.le_iff_toNat_le.mp hmask
  have hplus : (UInt64.ofNat maxValidSeqnum.val + 1).toNat = maxValidSeqnum.val + 1 := by
    rw [UInt64.toNat_add, UInt64.toNat_ofNat']
    simp only [UInt64.reduceToNat]
    omega
  have hstep : (seqMask + 1).toNat = seqMask.toNat + 1 := by
    rw [UInt64.toNat_add]
    simp only [UInt64.reduceToNat]
    omega
  have hseq : (UInt64.ofNat maxValidSeqnum.val + 1 + diff).toNat
      = maxValidSeqnum.val + 1 + diff.toNat := by
    rw [UInt64.toNat_add, hplus]
    omega
  split_ifs with hc
  · have hle : seqMask + 1 ≤ UInt64.ofNat maxValidSeqnum.val + 1 + diff := by
      simp only [UInt64.lt_iff_toNat_lt, UInt64.le_iff_toNat_le, gt_iff_lt, hseq, hstep] at hc ⊢
      omega
    rw [UInt64.toNat_sub_of_le _ _ hle, hseq, hstep]
    omega
  · simp only [UInt64.lt_iff_toNat_lt, gt_iff_lt, hseq, not_or] at hc
    omega

/-- `SSLAEADContext` as `Open` uses it: the null cipher, or a cipher that opens a record of a type,
version and sequence number, with a header, or does not. -/
inductive ReadAead
  | nullCipher
  | cipher (openBody : UInt8 → UInt16 → UInt64 → Bytes → Bytes → Option Bytes)

namespace ReadAead

def isNullCipher : ReadAead → Bool
  | nullCipher => true
  | cipher _ => false

def openRecord (aead : ReadAead) (type : UInt8) (version : UInt16) (seqnum : UInt64)
    (header body : Bytes) : Option Bytes :=
  match aead with
  | nullCipher => some body
  | cipher openBody => openBody type version seqnum header body

end ReadAead

/-- `RecordNumberEncrypter::GenerateMask` for two bytes, from the record's body. -/
abbrev GenerateMask := Bytes → Option (UInt8 × UInt8)

/-- `DTLSReadEpoch`; `rnEncrypter` is not used where there is none. -/
structure DtlsReadEpoch where
  epoch : UInt16
  aead : ReadAead
  rnEncrypter : GenerateMask
  bitmap : DtlsReplayBitmap

def DtlsReadEpoch.record (e : DtlsReadEpoch) (seq : Fin (2 ^ 48)) : DtlsReadEpoch :=
  { e with bitmap := e.bitmap.record seq }

/-- The epoch before and when it expires. -/
structure DtlsPrevReadEpoch where
  epoch : DtlsReadEpoch
  expire : UInt64

/-- `ssl_shutdown_t`. -/
inductive SslShutdown
  | none | closeNotify | error
  deriving DecidableEq, Repr

/-- What `dtls_open_record` reads and writes of `DTLS1_STATE` and `s3`. -/
structure DtlsReadState where
  readEpoch : DtlsReadEpoch
  nextReadEpoch : Option DtlsReadEpoch
  prevReadEpoch : Option DtlsPrevReadEpoch
  readShutdown : SslShutdown
  warningAlertCount : UInt8

/-- Where a pointer to a read epoch points. -/
inductive EpochSlot
  | current | next | prev
  deriving DecidableEq, Repr

namespace DtlsReadState

def new : DtlsReadState where
  readEpoch := ⟨0, .nullCipher, fun _ => none, .new⟩
  nextReadEpoch := none
  prevReadEpoch := none
  readShutdown := .none
  warningAlertCount := 0

def get (s : DtlsReadState) : EpochSlot → Option DtlsReadEpoch
  | .current => some s.readEpoch
  | .next => s.nextReadEpoch
  | .prev => s.prevReadEpoch.map DtlsPrevReadEpoch.epoch

def record (s : DtlsReadState) (slot : EpochSlot) (seq : Fin (2 ^ 48)) : DtlsReadState :=
  match slot with
  | .current => { s with readEpoch := s.readEpoch.record seq }
  | .next => { s with nextReadEpoch := s.nextReadEpoch.map (·.record seq) }
  | .prev => { s with
      prevReadEpoch := s.prevReadEpoch.map fun p => { p with epoch := p.epoch.record seq } }

def find (s : DtlsReadState) (epoch : UInt16) : Option EpochSlot :=
  if epoch = s.readEpoch.epoch then some .current
  else if s.nextReadEpoch.any fun e => epoch == e.epoch then some .next
  else if s.prevReadEpoch.any fun p => epoch == p.epoch.epoch then some .prev
  else none

end DtlsReadState

variable (ssl : SslContext)

def SslContext.tvSec : UInt64 := UInt64.ofNat (ssl.now / 1000000)

def DtlsReadState.dropExpired (s : DtlsReadState) (ssl : SslContext) : DtlsReadState :=
  if s.prevReadEpoch.any fun p => decide (ssl.tvSec > p.expire) then
    { s with prevReadEpoch := none }
  else s

/-- A record with its header parsed. -/
structure ParsedDtlsRecord where
  readEpoch : Option EpochSlot
  number : RecordNumber
  header : Bytes
  body : Bytes
  type : UInt8
  version : UInt16
  rest : Bytes

def seqMask (wide : Bool) : UInt64 := if wide then 0xffff else 0xff

lemma seqMask_le (wide : Bool) : seqMask wide ≤ 0xffff := by
  cases wide <;> decide

def cbsGetU16LengthPrefixed (cbs : Bytes) : Option (Bytes × Bytes × Bytes) :=
  (cbsGetU16 cbs).bind fun (len, rest) =>
    (cbsGetBytes rest len).map fun (body, rest) => (cbs.take 2, body, rest)

/-- `parse_dtls13_record`.  The sequence number is unmasked in place, so the header has it so. -/
def parseDtls13Record (type : UInt8) (cbs : Bytes) (s : DtlsReadState) :
    DtlsReadState × Option ParsedDtlsRecord :=
  if type &&& 0x10 ≠ 0 then (s, none)
  else
    let maxEpoch := match s.nextReadEpoch with
      | none => s.readEpoch.epoch
      | some e => max s.readEpoch.epoch e.epoch
    let epoch := reconstructEpoch type maxEpoch
    let wide := type &&& 0x08 ≠ 0
    match (cbsGetBytes cbs (if wide then 2 else 1)).bind fun (seqBytes, cbs) =>
        (if type &&& 0x04 ≠ 0 then cbsGetU16LengthPrefixed cbs else some ([], cbs, [])).map
          fun (lenBytes, body, rest) => (seqBytes, lenBytes, body, rest) with
    | none => (s, none)
    | some (seqBytes, lenBytes, body, rest) =>
      let s := s.dropExpired ssl
      let unknown := ⟨none, ⟨0, 0⟩, type :: seqBytes ++ lenBytes, body, type, 0, rest⟩
      match (s.find epoch).bind fun slot => (s.get slot).map fun e => (slot, e) with
      | none => (s, some unknown)
      | some (slot, e) =>
        if !useDtls13RecordHeader ssl epoch then (s, some unknown)
        else
          match e.rnEncrypter body with
          | none => (s, none)
          | some (m0, m1) =>
            let writableSeq := seqBytes.zipWith (· ^^^ ·) [m0, m1]
            let seq : UInt64 := writableSeq.foldl (fun seq b => (seq <<< 8) ||| b.toUInt64) 0
            let fullSeq : Fin (2 ^ 48) := ⟨(reconstructSeqnum seq.toUInt16 (seqMask wide)
              (UInt64.ofNat e.bitmap.maxSeqNum.val)).toNat,
                reconstructSeqnum_lt _ (seqMask_le wide) e.bitmap.maxSeqNum⟩
            (s, some ⟨some slot, ⟨epoch, fullSeq⟩, type :: writableSeq ++ lenBytes, body, type, 0,
              rest⟩)

def dtlsRecordVersion : UInt16 :=
  match ssl.version with
  | none => 0xfeff
  | some v => if tls12Version ≤ v then 0xfefd else 0xfeff

/-- `version_ok` of `parse_dtls12_record`; for epoch 0 only the first byte is checked. -/
def dtls12VersionOk (epoch version : UInt16) : Bool :=
  if epoch = 0 then version >>> 8 = 0xfe else version = dtlsRecordVersion ssl

def parseDtls12Record (type : UInt8) (cbs : Bytes) (s : DtlsReadState) : Option ParsedDtlsRecord :=
  (cbsGetU16 cbs).bind fun (version, rest) =>
  (cbsGetU rest 8).bind fun (epochAndSeq, rest) =>
  (cbsGetU16LengthPrefixed rest).bind fun (lenBytes, body, rest) =>
    let version := UInt16.ofNat version
    let number := RecordNumber.fromCombined epochAndSeq
    if !dtls12VersionOk ssl number.epoch version then none
    else
      let known := number.epoch = s.readEpoch.epoch ∧ !useDtls13RecordHeader ssl number.epoch
      some ⟨if known then some .current else none, number,
        type :: cbs.take 10 ++ lenBytes, body, type, version, rest⟩

def ssl3RtMaxEncryptedLength : ℕ := 256 + 64 + ssl3RtMaxPlainLength

def parseDtlsRecord (cbs : Bytes) (s : DtlsReadState) : DtlsReadState × Option ParsedDtlsRecord :=
  match cbsGetU8 cbs with
  | none => (s, none)
  | some (type, cbs) =>
    let r := if type &&& 0xe0 = 0x20 then parseDtls13Record ssl type cbs s
      else (s, parseDtls12Record ssl type cbs s)
    (r.1, r.2.filter fun record => record.body.length ≤ ssl3RtMaxEncryptedLength)

/-- `ssl_open_record_t`, with what is set along with it; `incomplete` is `ssl_open_record_partial`.
An alert of none is not sent. -/
inductive SslOpenRecord
  | success (type : UInt8) (number : RecordNumber) (out : Bytes)
  | discard
  | incomplete
  | closeNotify
  | error (alert : Option SslAlert) (reason : Option SslReason)
  deriving DecidableEq, Repr

def ssl3RtAlert : UInt8 := 21

def ssl3RtApplicationData : UInt8 := 23

def kMaxWarningAlerts : UInt8 := 4

def sslProcessAlert (s : DtlsReadState) (data : Bytes) : DtlsReadState × SslOpenRecord :=
  match data with
  | [alertLevel, alertDescr] =>
    if alertLevel = 1 then
      if alertDescr = 0 then ({ s with readShutdown := .closeNotify }, .closeNotify)
      else if ssl.hasFinalVersion ∧ ssl.isTls13 ∧ alertDescr ≠ 90 then
        (s, .error (some .decodeError) (some .badAlert))
      else
        let s := { s with warningAlertCount := s.warningAlertCount + 1 }
        if s.warningAlertCount > kMaxWarningAlerts then
          (s, .error (some .unexpectedMessage) (some .tooManyWarningAlerts))
        else (s, .discard)
    else if alertLevel = 2 then (s, .error none (some (.alertReceived alertDescr)))
    else (s, .error (some .illegalParameter) (some .unknownAlertType))
  | _ => (s, .error (some .decodeError) (some .badAlert))

def dtlsAeadSequence (num : RecordNumber) : UInt64 :=
  if ssl.version.isSome ∧ ssl.isTls13 then UInt64.ofNat num.sequence.val else num.combined

/-- The loop that takes off the padding, from the end: the record type and what is before it. -/
def stripPadding : Bytes → Option (UInt8 × Bytes)
  | [] => none
  | type :: rest => if type = 0 then stripPadding rest else some (type, rest)

/-- The type and plaintext inside what was decrypted: in DTLS 1.3 the type is in it. -/
def innerPlaintext (aead : ReadAead) (type : UInt8) (out : Bytes) :
    Except SslOpenRecord (UInt8 × Bytes) :=
  let hasPadding := !aead.isNullCipher && ssl.isTls13
  if ssl3RtMaxPlainLength + (if hasPadding then 1 else 0) < out.length then
    .error (.error (some .recordOverflow) (some .dataLengthTooLong))
  else if hasPadding then
    match stripPadding out.reverse with
    | none => .error (.error (some .decryptError) (some .decryptionFailedOrBadRecordMac))
    | some (type, rest) => .ok (type, rest.reverse)
  else .ok (type, out)

/-- Checks and decrypts a record: the epoch it was read with, its type and plaintext, or why the
record goes no further. -/
def decryptRecord (record : ParsedDtlsRecord) (s : DtlsReadState) :
    Except SslOpenRecord (EpochSlot × UInt8 × Bytes) :=
  match record.readEpoch.bind fun slot => (s.get slot).map fun e => (slot, e) with
  | none => .error .discard
  | some (slot, e) =>
    if e.bitmap.shouldDiscard record.number.sequence then .error .discard
    else
      match e.aead.openRecord record.type record.version (dtlsAeadSequence ssl record.number)
        record.header record.body with
      | none => .error .discard
      | some out => (innerPlaintext ssl e.aead record.type out).map fun inner => (slot, inner)

def dtlsPrevReadEpochExpireSeconds : UInt64 := 4 * 60

/-- The next read epoch becomes the current one, and that the previous one. -/
def DtlsReadState.advance (s : DtlsReadState) (ssl : SslContext) : DtlsReadState :=
  match s.nextReadEpoch with
  | none => s
  | some e =>
    let expire :=
      if ssl.tvSec ≥ 0xffffffffffffffff - dtlsPrevReadEpochExpireSeconds then 0xffffffffffffffff
      else ssl.tvSec + dtlsPrevReadEpochExpireSeconds
    { s with prevReadEpoch := some ⟨s.readEpoch, expire⟩, readEpoch := e, nextReadEpoch := none }

def appDataAllowed (epoch : UInt16) : Bool :=
  if ssl.version.isSome ∧ ssl.isTls13 then epoch = 1 || epoch ≥ 3 else epoch ≥ 1

def dispatchRecord (number : RecordNumber) (type : UInt8) (out : Bytes) (s : DtlsReadState) :
    DtlsReadState × SslOpenRecord :=
  if type = ssl3RtAlert then sslProcessAlert ssl s out
  else if type = ssl3RtApplicationData ∧ !appDataAllowed ssl number.epoch then
    (s, .error (some .unexpectedMessage) (some .unexpectedRecord))
  else ({ s with warningAlertCount := 0 }, .success type number out)

/-- What is done with a record once it is known to be authentic; `mallocOk` says whether there is
memory for the previous epoch. -/
def acceptRecord (mallocOk : Bool) (slot : EpochSlot) (number : RecordNumber) (type : UInt8)
    (out : Bytes) (s : DtlsReadState) : DtlsReadState × SslOpenRecord :=
  let s := s.record slot number.sequence
  if slot = .next then
    if !mallocOk then (s, .error (some .internalError) none)
    else dispatchRecord ssl number type out (s.advance ssl)
  else dispatchRecord ssl number type out s

def dtlsOpenRecord (mallocOk : Bool) (input : Bytes) (s : DtlsReadState) :
    DtlsReadState × SslOpenRecord × ℕ :=
  if s.readShutdown = .closeNotify then (s, .closeNotify, 0)
  else if input.isEmpty then (s, .incomplete, 0)
  else
    let parsed := parseDtlsRecord ssl input s
    match parsed.2 with
    | none => (parsed.1, .discard, input.length)
    | some record =>
      let consumed := input.length - record.rest.length
      match decryptRecord ssl record parsed.1 with
      | .error r => (parsed.1, r, consumed)
      | .ok (slot, type, out) =>
        let r := acceptRecord ssl mallocOk slot record.number type out parsed.1
        (r.1, r.2, consumed)

/-- `dtls1_set_read_state`, with the keys, and whether there is handshake data that has not been
processed.  An error it sends no alert for is none. -/
def dtls1SetReadState (level : SslEncryptionLevel) (aead : ReadAead)
    (rnEncrypter : Option GenerateMask) (unprocessed mallocOk : Bool) (s : DtlsReadState) :
    Except (Option SslError) DtlsReadState :=
  if unprocessed then .error (some ⟨.unexpectedMessage, some .excessHandshakeData⟩)
  else
    match nextEpoch ssl level s.readEpoch.epoch with
    | none => .error (some ⟨.unexpectedMessage, some .tooManyKeyUpdates⟩)
    | some epoch =>
      if ssl.isTls13 then
        match rnEncrypter with
        | none => .error none
        | some rnEncrypter =>
          if !mallocOk then .error none
          else .ok { s with nextReadEpoch := some ⟨epoch, aead, rnEncrypter, .new⟩ }
      else .ok { s with readEpoch := ⟨epoch, aead, rnEncrypter.getD fun _ => none, .new⟩ }

/-- The number of the record, if it is authentic and whole: the sequence number is then recorded. -/
def acceptedNumber (input : Bytes) (s : DtlsReadState) : Option RecordNumber :=
  if s.readShutdown = .closeNotify then none
  else
    let parsed := parseDtlsRecord ssl input s
    parsed.2.bind fun record =>
      match decryptRecord ssl record parsed.1 with
      | .error _ => none
      | .ok _ => some record.number

def SslOpenRecord.number? : SslOpenRecord → Option RecordNumber
  | success _ number _ => some number
  | _ => none

/-- The record is dropped, for its sequence number, before it is decrypted. -/
def RejectsReplay (record : ParsedDtlsRecord) (s : DtlsReadState) : Prop :=
  ∃ slot e, record.readEpoch = some slot ∧ s.get slot = some e
    ∧ e.bitmap.shouldDiscard record.number.sequence = true

/-- The runs of a connection's packets and epochs, where an epoch is installed only as `allowed`
says, with the record numbers reported and those recorded. -/
inductive ReadRun (allowed : SslContext → SslEncryptionLevel → DtlsReadState → Prop) :
    DtlsReadState → List RecordNumber → List RecordNumber → Prop
  | start : ReadRun allowed .new [] []
  | packet {s reported accepted} (ssl : SslContext) (mallocOk : Bool) (input : Bytes) :
    ReadRun allowed s reported accepted →
    ReadRun allowed (dtlsOpenRecord ssl mallocOk input s).1
      ((dtlsOpenRecord ssl mallocOk input s).2.1.number?.toList ++ reported)
      ((acceptedNumber ssl input s).toList ++ accepted)
  | install {s s' reported accepted} (ssl : SslContext) (level : SslEncryptionLevel)
      (aead : ReadAead) (rnEncrypter : Option GenerateMask) (unprocessed mallocOk : Bool) :
    ReadRun allowed s reported accepted → allowed ssl level s →
    dtls1SetReadState ssl level aead rnEncrypter unprocessed mallocOk s = .ok s' →
    ReadRun allowed s' reported accepted

/-- The next epoch has been taken up, which `dtls1_set_read_state` asserts. -/
def NextTakenUp (_ : SslContext) (_ : SslEncryptionLevel) (s : DtlsReadState) : Prop :=
  s.nextReadEpoch.isNone

/-- Besides, the epoch is above the current one. -/
def InstallsAbove (level : SslEncryptionLevel) (s : DtlsReadState) : Prop :=
  NextTakenUp ssl level s
    ∧ ∀ epoch, nextEpoch ssl level s.readEpoch.epoch = some epoch → s.readEpoch.epoch < epoch

end BoringSSL
