import BoringSSL.DtlsKeyUpdate
import BoringSSL.Proofs.DtlsAckRun

/-!
# Key updates are not lost

Each KeyUpdate put out changes the write keys once, when it has been acknowledged (`keyRun_inv`).
One that was deferred never requests an update: the field for it is too narrow, and a request reads
back as something else.  So a request is kept only if it is not deferred (`keyRun_requests`).
-/

namespace BoringSSL

open ByteLib List

variable {requested : Bool} {ssl : SslContext} {d0 d1 d1' : Dtls1State}

/-- What the key updates of a connection depend on. -/
structure KeyView where
  pending : Bool
  queued : BitVec 2
  data : List Bytes
  writeSeq : ℕ
  epoch : UInt16

/-- The view of a state. -/
def Dtls1State.keyView (d1 : Dtls1State) : KeyView where
  pending := d1.keyUpdatePending
  queued := d1.queuedKeyUpdate
  data := d1.outgoingMessages.map DtlsOutgoingMessage.data
  writeSeq := d1.handshakeWriteSeq
  epoch := d1.writeEpoch.epoch

lemma sentMessages_eq_nil (h : d1'.keyView.writeSeq = d1.keyView.writeSeq) :
    sentMessages d1 d1' = [] := if_pos h

lemma sentMessages_of_next (h : d1'.keyView.writeSeq = (d1.keyView.writeSeq + 1) % 2 ^ 16) :
    sentMessages d1 d1' = d1'.outgoingMessages := by
  refine if_neg fun hsame => ?_
  have : d1.keyView.writeSeq = (d1.keyView.writeSeq + 1) % 2 ^ 16 := hsame.symm.trans h
  omega

lemma sentMessages_congr (h : d1'.keyView = d1.keyView) :
    sentMessages d1' = sentMessages d1 := by
  funext d
  rw [sentMessages, sentMessages, show d1'.handshakeWriteSeq = _ from congrArg KeyView.writeSeq h]
  rfl

/-! ## Sealing leaves it alone -/

lemma keyView_setNextRecord (d1 : Dtls1State) (next : RecordNumber) :
    (d1.setNextRecord next).keyView = d1.keyView := by
  unfold Dtls1State.setNextRecord
  split_ifs with heq
  · simp only [Dtls1State.keyView, heq]
    rfl
  · rfl

lemma keyView_dtlsSealRecord {maxOut : ℕ} {type : UInt8} {plaintext : Bytes} {epoch : UInt16}
    {record : SealedRecord}
    (h : dtlsSealRecord ssl d1 maxOut type plaintext epoch = .ok (record, d1')) :
    d1'.keyView = d1.keyView := by
  obtain ⟨next, -, rfl⟩ := dtlsSealRecord_ok h
  exact keyView_setNextRecord d1 next

lemma keyView_pushSentRecord (ssl : SslContext) (d1 : Dtls1State) (r : DtlsSentRecord) :
    (d1.pushSentRecord ssl r).keyView = d1.keyView := by
  unfold Dtls1State.pushSentRecord
  split_ifs <;> rfl

lemma keyView_sealCcs (ssl : SslContext) (outSize : ℕ) (d1 : Dtls1State)
    (msg : DtlsOutgoingMessage) : (sealCcs ssl outSize d1 msg).2.2.keyView = d1.keyView := by
  unfold sealCcs
  rcases hs : dtlsSealRecord ssl d1 outSize ssl3RtChangeCipherSpec [1] msg.epoch with
    e | ⟨record, d1'⟩
  · rfl
  · have hview := keyView_dtlsSealRecord hs
    exact hview

lemma keyView_sealHandshake (ssl : SslContext) (outSize : ℕ) (d1 : Dtls1State)
    (msg : DtlsOutgoingMessage) : (sealHandshake ssl outSize d1 msg).2.2.keyView = d1.keyView := by
  unfold sealHandshake
  simp only []
  generalize packMessages msg.epoch (msg.epoch != 0) _ _ _ = packed
  obtain ⟨result, s⟩ := packed
  by_cases hresult : result ≠ .continue ∧ result ≠ .flush
  · rw [if_pos hresult]
    rfl
  rw [if_neg hresult]
  by_cases hempty : s.cbb.base.len = 0
  · rw [if_pos hempty]
    rfl
  rw [if_neg hempty]
  rcases hs : dtlsSealRecord ssl (d1.seek s.written s.offset) outSize ssl3RtHandshake
    (s.cbb.base.buf.take s.cbb.base.len) msg.epoch with e | ⟨record, d1'⟩
  · rfl
  · have hview := keyView_dtlsSealRecord hs
    exact (keyView_pushSentRecord ssl d1' _).trans hview

lemma keyView_sealNextRecord (ssl : SslContext) (outSize : ℕ) (d1 : Dtls1State) :
    (sealNextRecord ssl outSize d1).2.2.keyView = d1.keyView := by
  unfold sealNextRecord
  simp only []
  generalize skipAcked _ _ _ = skipped
  split
  · rfl
  · split_ifs
    · rfl
    · exact keyView_sealCcs ssl outSize _ _
    · exact keyView_sealHandshake ssl outSize _ _

/-! ## Asking for a KeyUpdate -/

lemma QueuedKeyUpdate.isIn_none {field : BitVec 2} : none.isIn field = true ↔ field = 0 := by
  revert field
  decide

/-- A request that is stored reads back as `-2`. -/
lemma QueuedKeyUpdate.isIn_updateRequested (field : BitVec 2) :
    updateRequested.isIn field = false := by
  revert field
  decide

/-- What asking for a KeyUpdate does: the result, the view after it and the messages put out. -/
inductive AddsKeyUpdate (requested : Bool) (v : KeyView) :
    Bool → KeyView → List DtlsOutgoingMessage → Prop
  | pending (hp : v.pending = true) : AddsKeyUpdate requested v true v []
  | deferred (hp : v.pending = false) (hdata : v.data ≠ []) : AddsKeyUpdate requested v true
      { v with
        queued := QueuedKeyUpdate.toField
          (if requested then .updateRequested else .updateNotRequested) } []
  | failed (hp : v.pending = false) (hdata : v.data = []) : AddsKeyUpdate requested v false v []
  | sent (m : DtlsOutgoingMessage) (hp : v.pending = false) (hdata : v.data = [])
    (hm : m.IsKeyUpdate requested) : AddsKeyUpdate requested v true
      ⟨true, v.queued, [m.data], (v.writeSeq + 1) % 2 ^ 16, v.epoch⟩ [m]

lemma keyView_finishFlight (ssl : SslContext) (d1 : Dtls1State) :
    (dtls1FinishFlight ssl d1).keyView = d1.keyView
      ∧ (dtls1FinishFlight ssl d1).outgoingMessages = d1.outgoingMessages := by
  unfold dtls1FinishFlight
  split
  · exact ⟨rfl, rfl⟩
  · split_ifs <;> exact ⟨rfl, rfl⟩

lemma isKeyUpdate_of_message {data : Bytes} (hseq : d1.handshakeWriteSeq < 2 ^ 16)
    (h : dtls1Message ssl.fill d1.handshakeWriteSeq ssl3MtKeyUpdate
      (.addWord (.u8 (if requested then 1 else 0)) .done) = some data) (epoch : UInt16)
    (acked : DtlsMessageBitmap) :
    DtlsOutgoingMessage.IsKeyUpdate ⟨data, epoch, false, acked⟩ requested := by
  obtain ⟨hm, htype, hbody, rfl⟩ := dtls1Message_eq_some hseq h
  have hbytes : hm.body = [if requested then 1 else 0] := by
    rw [hbody]
    cases requested <;> decide
  refine ⟨?_, ?_⟩
  · simp [HmHeader.encode, HandshakeMessage.header, htype]
  · rw [hbytes]
    simp [HmHeader.encode, dtls1HmHeaderLength, beBytes]

lemma addMessage_cases (ssl : SslContext) (hnil : d1.outgoingMessages = []) (data : Bytes) :
    (∃ d1', dtls1AddMessage ssl d1 data = (false, d1') ∧ d1'.keyView = d1.keyView)
      ∨ ∃ d1' epoch acked, dtls1AddMessage ssl d1 data = (true, d1')
        ∧ d1'.outgoingMessages = [⟨data, epoch, false, acked⟩]
        ∧ d1'.keyView = { d1.keyView with
            data := [data]
            writeSeq := (d1.keyView.writeSeq + 1) % 2 ^ 16 } := by
  have hview : (if d1.outgoingMessagesComplete then
      dtlsClearOutgoingMessages (dtls1StopTimer ssl d1) else d1).keyView = d1.keyView := by
    split_ifs
    · simp only [Dtls1State.keyView, hnil]
      rfl
    · rfl
  unfold dtls1AddMessage addOutgoing
  generalize (if d1.outgoingMessagesComplete then
    dtlsClearOutgoingMessages (dtls1StopTimer ssl d1) else d1) = d1₁ at hview
  have hnil₁ : d1₁.outgoingMessages = [] := by
    rw [← map_eq_nil_iff, show d1₁.outgoingMessages.map _ = _ from congrArg KeyView.data hview]
    simp [Dtls1State.keyView, hnil]
  simp only [Bool.not_false, true_and, Bool.false_eq_true, if_false]
  by_cases hover : d1₁.handshakeWriteOverflow = true
  · rw [if_pos hover]
    exact .inl ⟨_, rfl, hview⟩
  · rw [if_neg hover, if_pos (by rw [hnil₁]; decide)]
    refine .inr ⟨_, _, _, rfl, by rw [hnil₁]; rfl, ?_⟩
    rw [← hview]
    simp only [Dtls1State.keyView, hnil₁]
    rfl

lemma tls13AddKeyUpdate_cases (ssl : SslContext) (requested : Bool) (d1 : Dtls1State)
    (hseq : d1.handshakeWriteSeq < 2 ^ 16) :
    AddsKeyUpdate requested d1.keyView (tls13AddKeyUpdate ssl requested d1).1
      (tls13AddKeyUpdate ssl requested d1).2.keyView
      (sentMessages d1 (tls13AddKeyUpdate ssl requested d1).2) := by
  rw [tls13AddKeyUpdate]
  by_cases hp : d1.keyUpdatePending = true
  · rw [if_pos hp, sentMessages_eq_nil rfl]
    exact .pending hp
  rw [if_neg hp]
  have hp' : d1.keyView.pending = false := Bool.eq_false_iff.mpr hp
  by_cases hm : (!d1.outgoingMessages.isEmpty) = true
  · simp only [if_pos hm, sentMessages, if_true]
    exact .deferred hp' (by simpa [Dtls1State.keyView] using hm)
  rw [if_neg hm]
  have hnil : d1.outgoingMessages = [] := by simpa using hm
  have hdata : d1.keyView.data = [] := map_eq_nil_iff.mpr hnil
  rcases hd : dtls1Message ssl.fill d1.handshakeWriteSeq ssl3MtKeyUpdate
    (.addWord (.u8 (if requested then 1 else 0)) .done) with _ | data
  · rw [sentMessages_eq_nil rfl]
    exact .failed hp' hdata
  rcases addMessage_cases ssl hnil data with ⟨d1₁, hadd, hview⟩
    | ⟨d1₁, epoch, acked, hadd, hmsgs, hview⟩
  · simp only [hadd, Bool.not_false, if_true]
    rw [sentMessages_eq_nil (congrArg KeyView.writeSeq hview), hview]
    exact .failed hp' hdata
  · simp only [hadd, Bool.not_true, Bool.false_eq_true, if_false]
    obtain ⟨hfin, hmsgs'⟩ := keyView_finishFlight ssl { d1₁ with keyUpdatePending := true }
    replace hfin : _ = { d1₁.keyView with pending := true } := hfin
    rw [hview] at hfin
    rw [sentMessages_of_next (congrArg KeyView.writeSeq hfin), hfin, hmsgs', hmsgs]
    exact .sent _ hp' hdata (isKeyUpdate_of_message hseq hd epoch acked)

/-! ## ACKs -/

lemma keyView_ackRecordNumber (d1 : Dtls1State) (number : RecordNumber) :
    (ackRecordNumber d1 number).keyView = d1.keyView := by
  rcases ackRecordNumber_cases d1 number with h | ⟨s, -, -, msgs, idx, hmarks, h⟩
  · rw [h]
  · simp only [h, Dtls1State.keyView, hmarks.map_data]

lemma keyView_foldl_ackRecordNumber : ∀ (numbers : List RecordNumber) (d1 : Dtls1State),
    (numbers.foldl ackRecordNumber d1).keyView = d1.keyView
  | [], _ => rfl
  | number :: numbers, d1 =>
    (keyView_foldl_ackRecordNumber numbers _).trans (keyView_ackRecordNumber d1 number)

lemma dtls1ProcessAck_cases (ssl : SslContext) (ackRecord : RecordNumber) (data : Bytes)
    (d1 : Dtls1State) :
    (¬ FlightAcked ssl ackRecord data d1
      ∧ (dtls1ProcessAck ssl ackRecord data d1).1.keyView = d1.keyView)
      ∨ (FlightAcked ssl ackRecord data d1 ∧ ∃ marked : Dtls1State, marked.keyView = d1.keyView
        ∧ dtls1ProcessAck ssl ackRecord data d1 = finishAckedFlight ssl marked) := by
  unfold dtls1ProcessAck FlightAcked ackMarks
  by_cases hfinal : (!ssl.hasFinalVersion) = true
  · simp [hfinal]
  by_cases htls : (!ssl.isTls13) = true
  · simp [hfinal, htls]
  have hor : ¬ (!ssl.hasFinalVersion || !ssl.isTls13) = true := by
    rw [Bool.or_eq_true, not_or]
    exact ⟨hfinal, htls⟩
  rw [if_neg hfinal, if_neg htls, if_neg hor]
  rcases ackContents data with _ | contents
  · simp
  simp only [Option.bind_some]
  have hview := keyView_foldl_ackRecordNumber
    (parseRecordNumbers ackRecord.epoch contents.length contents).1 d1
  rcases (parseRecordNumbers ackRecord.epoch contents.length contents).2 with _ | error
  · simp only [Option.isNone_none, if_true, Option.some.injEq, exists_eq_left']
    split_ifs with hall
    · exact .inr ⟨hall, _, hview, rfl⟩
    · exact .inl ⟨hall, hview⟩
  · simpa using hview

/-- What the end of a flight does: the view after it, the messages put out and the error. -/
inductive FinishesFlight (v : KeyView) :
    KeyView → List DtlsOutgoingMessage → Option AckError → Prop
  | quiet (hp : v.pending = false) (hq : v.queued = 0) :
    FinishesFlight v { v with data := [] } [] none
  | rotated (hp : v.pending = true) (hmax : v.epoch ≠ 0xffff) :
    FinishesFlight v { v with pending := false, data := [], epoch := v.epoch + 1 } [] none
  | stuck (hp : v.pending = true) (hmax : v.epoch = 0xffff) :
    FinishesFlight v { v with data := [] } [] (some .keyUpdate)
  | failed (hp : v.pending = false) :
    FinishesFlight v { v with queued := 0, data := [] } [] (some .keyUpdate)
  | sent (m : DtlsOutgoingMessage) (hp : v.pending = false) (hq : v.queued ≠ 0)
    (hm : m.IsKeyUpdate false) :
    FinishesFlight v ⟨true, 0, [m.data], (v.writeSeq + 1) % 2 ^ 16, v.epoch⟩ [m] none

lemma nextEpoch_application {prev : UInt16} (h : SslEncryptionLevel.application.epoch ≤ prev) :
    nextEpoch ssl .application prev = if prev = 0xffff then none else some (prev + 1) := by
  simp only [nextEpoch]
  rw [if_neg fun hlt => UInt16.not_lt.mpr h hlt.1]

lemma finishAckedFlight_cases (ssl : SslContext) (hseq : d1.keyView.writeSeq < 2 ^ 16)
    (hepoch : SslEncryptionLevel.application.epoch ≤ d1.keyView.epoch)
    (hqueue : d1.keyView.pending = true → d1.keyView.queued = 0) :
    FinishesFlight d1.keyView (finishAckedFlight ssl d1).1.keyView
      (sentMessages d1 (finishAckedFlight ssl d1).1) (finishAckedFlight ssl d1).2 := by
  have hclear : (dtlsClearOutgoingMessages (dtls1StopTimer ssl d1)).keyView
      = { d1.keyView with data := [] } := rfl
  have hmsgs : (dtlsClearOutgoingMessages (dtls1StopTimer ssl d1)).outgoingMessages = [] := rfl
  have hsent : sentMessages d1 = sentMessages (dtlsClearOutgoingMessages (dtls1StopTimer ssl d1)) :=
    rfl
  rw [hsent]
  unfold finishAckedFlight
  generalize dtlsClearOutgoingMessages (dtls1StopTimer ssl d1) = c at hclear hmsgs
  generalize d1.keyView = v at *
  have hp : c.keyUpdatePending = v.pending := congrArg KeyView.pending hclear
  have hq : c.queuedKeyUpdate = v.queued := congrArg KeyView.queued hclear
  have hs : c.handshakeWriteSeq = v.writeSeq := congrArg KeyView.writeSeq hclear
  have he : c.writeEpoch.epoch = v.epoch := congrArg KeyView.epoch hclear
  rcases hpend : v.pending with _ | _
  · simp only [hp, hpend, Bool.false_eq_true, if_false]
    by_cases hnone : c.queuedKeyUpdate = 0
    · simp only [if_pos (QueuedKeyUpdate.isIn_none.mpr hnone), sentMessages, if_true]
      rw [show Dtls1State.keyView _ = { v with data := [] } by rw [← hclear, ← hpend, ← hp]]
      exact .quiet hpend (hq ▸ hnone)
    · rw [if_neg (mt QueuedKeyUpdate.isIn_none.mp hnone), QueuedKeyUpdate.isIn_updateRequested]
      have hcases := tls13AddKeyUpdate_cases ssl false
        { c with keyUpdatePending := false, queuedKeyUpdate := QueuedKeyUpdate.none.toField }
        (hs.trans_lt hseq)
      generalize tls13AddKeyUpdate ssl false _ = r at hcases
      obtain ⟨ok, d⟩ := r
      replace hcases : AddsKeyUpdate false ⟨false, 0, c.keyView.data, c.keyView.writeSeq,
        c.keyView.epoch⟩ ok d.keyView (sentMessages c d) := hcases
      rw [hclear] at hcases
      generalize d.keyView = v', sentMessages c d = msgs at hcases
      cases hcases with
      | pending h => cases h
      | deferred _ hdata => exact absurd rfl hdata
      | failed =>
        have := FinishesFlight.failed hpend
        rwa [hpend] at this
      | sent m _ _ hm => exact .sent m hpend (hq ▸ hnone) hm
  · have hnone := hqueue hpend
    simp only [hp, hpend, if_true]
    rw [tls13RotateTrafficKey, dtls1SetWriteState, nextEpoch_application (he ▸ hepoch)]
    split_ifs with hmax
    · simp only [sentMessages, if_true, Option.map_none, hclear]
      exact .stuck hpend (he ▸ hmax)
    · simp only [Option.map_some, dtlsClearUnusedWriteEpochs, hq, hnone,
        QueuedKeyUpdate.isIn_none.mpr rfl, if_true, sentMessages, Dtls1State.keyView, hmsgs, hs,
        he, List.map_nil]
      have := FinishesFlight.rotated hpend (he ▸ hmax)
      rwa [hnone] at this

/-! ## Runs -/

/-- Each message put out since epoch `e₀` is a KeyUpdate and has changed the write keys, but for the
last while it is pending. -/
structure KeyInv (e₀ : UInt16) (v : KeyView) (sent : List (Bool × DtlsOutgoingMessage)) : Prop where
  writeSeq : v.writeSeq < 2 ^ 16
  epoch : SslEncryptionLevel.application.epoch ≤ v.epoch
  count : e₀.toNat + sent.length = v.epoch.toNat + if v.pending then 1 else 0
  keyUpdates : ∀ e ∈ sent, ∃ requested, e.2.IsKeyUpdate requested
  pending : v.pending = true → (v.data = [] ∧ v.epoch = 0xffff)
    ∨ ∃ e, sent.getLast? = some e ∧ v.data = [e.2.data]
  queued : v.queued ≠ 0 → v.pending = false ∧ v.data ≠ []

lemma keyView_rotateReadKey {keysOk : Bool} (h : tls13RotateReadKey ssl keysOk d1 = some d1') :
    d1'.keyView = d1.keyView := by
  unfold tls13RotateReadKey at h
  split_ifs at h
  all_goals
    obtain ⟨epoch, -, rfl⟩ := Option.map_eq_some_iff.mp h
    rfl

section Inv

variable {e₀ : UInt16} {v v' : KeyView} {sent : List (Bool × DtlsOutgoingMessage)}
  {msgs : List DtlsOutgoingMessage} {ok : Bool} {error : Option AckError}

namespace KeyInv

section

variable (h : KeyInv e₀ v sent)

include h

lemma queued_of_pending (hp : v.pending = true) : v.queued = 0 := by
  by_contra hne
  exact Bool.false_ne_true ((h.queued hne).1.symm.trans hp)

lemma sends {m : DtlsOutgoingMessage} (w : Bool) (hp : v.pending = false)
    (hm : m.IsKeyUpdate requested) :
    KeyInv e₀ ⟨true, 0, [m.data], (v.writeSeq + 1) % 2 ^ 16, v.epoch⟩ (sent ++ [(w, m)]) := by
  refine ⟨Nat.mod_lt _ (by decide), h.epoch, ?_, fun e he => ?_, fun _ => ?_,
    fun hq => absurd rfl hq⟩
  · have hcount := h.count
    rw [hp, if_neg Bool.false_ne_true] at hcount
    rw [if_pos rfl, length_append, length_singleton]
    exact congrArg Nat.succ hcount
  · rcases mem_append.mp he with he | he
    · exact h.keyUpdates e he
    · obtain rfl := mem_singleton.mp he
      exact ⟨requested, hm⟩
  · exact .inr ⟨(w, m), getLast?_concat, rfl⟩

lemma add (w : Bool) (hr : AddsKeyUpdate requested v ok v' msgs) :
    KeyInv e₀ v' (sent ++ msgs.map (w, ·)) := by
  cases hr with
  | pending | failed => simpa using h
  | deferred hp hdata => simpa using { h with queued := fun _ => ⟨hp, hdata⟩ }
  | sent m hp hdata hm =>
    have hq : v.queued = 0 := by
      by_contra hne
      exact (h.queued hne).2 hdata
    rw [hq]
    exact h.sends w hp hm

lemma finish (w : Bool) (hr : FinishesFlight v v' msgs error) :
    KeyInv e₀ v' (sent ++ msgs.map (w, ·)) := by
  cases hr with
  | quiet hp hq =>
    rw [map_nil, List.append_nil]
    exact { h with
      pending := fun hp' => absurd (hp.symm.trans hp') Bool.false_ne_true
      queued := fun hne => absurd hq hne }
  | failed hp =>
    rw [map_nil, List.append_nil]
    exact { h with
      pending := fun hp' => absurd (hp.symm.trans hp') Bool.false_ne_true
      queued := fun hne => absurd rfl hne }
  | stuck hp hmax =>
    rw [map_nil, List.append_nil]
    exact { h with
      pending := fun _ => .inl ⟨rfl, hmax⟩
      queued := fun hne => absurd (h.queued_of_pending hp) hne }
  | rotated hp hmax =>
    have hne : v.epoch.toNat ≠ 0xffff := fun heq => hmax (UInt16.toNat_inj.mp heq)
    have hlt := v.epoch.toNat_lt
    have hadd : (v.epoch + 1).toNat = v.epoch.toNat + 1 := by
      rw [UInt16.toNat_add, UInt16.toNat_one]
      omega
    have hle := UInt16.le_iff_toNat_le.mp h.epoch
    have hcount := h.count
    rw [hp, if_pos rfl] at hcount
    rw [map_nil, List.append_nil]
    exact { h with
      epoch := UInt16.le_iff_toNat_le.mpr (by rw [hadd]; omega)
      count := by rw [hadd]; exact hcount
      pending := fun hp' => absurd hp' Bool.false_ne_true
      queued := fun hne => absurd (h.queued_of_pending hp) hne }
  | sent m hp hq hm => exact h.sends w hp hm

end

lemma processAck (h : KeyInv e₀ d1.keyView sent) (ssl : SslContext) (ackRecord : RecordNumber)
    (data : Bytes) (w : Bool) : KeyInv e₀ (dtls1ProcessAck ssl ackRecord data d1).1.keyView
      (sent ++ (sentMessages d1 (dtls1ProcessAck ssl ackRecord data d1).1).map (w, ·)) := by
  rcases dtls1ProcessAck_cases ssl ackRecord data d1 with ⟨-, hview⟩ | ⟨-, marked, hview, heq⟩
  · rw [sentMessages_eq_nil (congrArg KeyView.writeSeq hview), hview]
    simpa using h
  · rw [← hview] at h
    rw [heq, ← sentMessages_congr hview]
    exact h.finish w (finishAckedFlight_cases ssl h.writeSeq h.epoch h.queued_of_pending)

lemma receive (h : KeyInv e₀ d1.keyView sent) (ssl : SslContext) (keysOk : Bool) (body : Bytes)
    (w : Bool) : KeyInv e₀ (tls13ReceiveKeyUpdate ssl keysOk body d1).2.keyView
      (sent ++ (sentMessages d1 (tls13ReceiveKeyUpdate ssl keysOk body d1).2).map (w, ·)) := by
  have hkeep : KeyInv e₀ d1.keyView (sent ++ (sentMessages d1 d1).map (w, ·)) := by
    rw [sentMessages_eq_nil rfl]
    simpa using h
  unfold tls13ReceiveKeyUpdate
  rcases keyUpdateRequest body with _ | requested
  · exact hkeep
  rcases hr : tls13RotateReadKey ssl keysOk d1 with _ | d1₁
  · exact hkeep
  have hview := keyView_rotateReadKey hr
  rw [← sentMessages_congr hview]
  rw [← hview] at h
  simp only
  split_ifs
  · exact h.add w (tls13AddKeyUpdate_cases ssl false d1₁ h.writeSeq)
  · rw [sentMessages_eq_nil rfl]
    simpa using h

lemma keyUpdate (h : KeyInv e₀ d1.keyView sent) (ssl : SslContext) (complete requested w : Bool) :
    KeyInv e₀ (sslKeyUpdate ssl complete requested d1).2.keyView
      (sent ++ (sentMessages d1 (sslKeyUpdate ssl complete requested d1).2).map (w, ·)) := by
  unfold sslKeyUpdate
  split_ifs
  any_goals
    rw [sentMessages_eq_nil rfl]
    simpa using h
  exact h.add w (tls13AddKeyUpdate_cases ssl requested d1 h.writeSeq)

end KeyInv

end Inv

section Requests

variable {may : Dtls1State → Bool → Prop} {asked : Bool} {sent : List (Bool × DtlsOutgoingMessage)}

lemma keyRun_inv (h0 : d0.Established) (h : KeyRun may d0 d1 asked sent) :
    KeyInv d0.writeEpoch.epoch d1.keyView sent := by
  induction h with
  | start =>
    refine ⟨h0.writeSeq, h0.epoch, ?_, by simp, fun hp => ?_, fun hq => absurd h0.queued hq⟩
    · rw [show d0.keyView.pending = false from h0.pending]
      rfl
    · exact absurd (h0.pending.symm.trans hp) Bool.false_ne_true
  | keyUpdate ssl complete requested _ _ ih => exact ih.keyUpdate ssl complete requested requested
  | receive ssl keysOk body _ _ ih => exact ih.receive ssl keysOk body false
  | ack ssl ackRecord data _ ih => exact ih.processAck ssl ackRecord data _
  | sealNext ssl outSize _ ih =>
    rw [keyView_sealNextRecord]
    exact ih
  | seek written offset _ ih => exact ih
  | other ssl maxOut type plaintext epoch record _ hseal ih =>
    rw [keyView_dtlsSealRecord hseal]
    exact ih

/-- No request is deferred, and the messages that had to carry one did. -/
structure RequestInv (asked : Bool) (sent : List (Bool × DtlsOutgoingMessage)) : Prop where
  asked : asked = false
  sent : ∀ e ∈ sent, e.1 = true → e.2.IsKeyUpdate true

namespace RequestInv

variable (h : RequestInv asked sent)

include h

lemma append {w : Bool} {msgs : List DtlsOutgoingMessage}
    (hmsgs : ∀ m ∈ msgs, w = true → m.IsKeyUpdate true) :
    RequestInv asked (sent ++ msgs.map (w, ·)) := by
  refine ⟨h.asked, fun e he hw => ?_⟩
  rcases mem_append.mp he with he | he
  · exact h.sent e he hw
  · obtain ⟨m, hm, rfl⟩ := List.mem_map.mp he
    exact hmsgs m hm hw

lemma append_false (msgs : List DtlsOutgoingMessage) :
    RequestInv asked (sent ++ msgs.map (false, ·)) :=
  h.append fun _ _ habs => nomatch habs

lemma add {v v' : KeyView} {msgs : List DtlsOutgoingMessage} {ok : Bool}
    (hr : AddsKeyUpdate requested v ok v' msgs) :
    RequestInv asked (sent ++ msgs.map (requested, ·)) := by
  refine h.append fun m hm hw => ?_
  cases hr with
  | pending | deferred | failed => exact absurd hm not_mem_nil
  | sent _ _ _ hkey =>
    obtain rfl := mem_singleton.mp hm
    exact hw ▸ hkey

lemma keyUpdate (hseq : d1.handshakeWriteSeq < 2 ^ 16) (ssl : SslContext)
    (complete requested : Bool)
    (hmay : complete = true → ssl.isTls13 = true → NoRequestDeferred d1 requested) :
    RequestInv (asked || (requested && complete && ssl.isTls13 && d1.defers))
      (sent
        ++ (sentMessages d1 (sslKeyUpdate ssl complete requested d1).2).map (requested, ·)) := by
  have hnone : sent ++ (sentMessages d1 d1).map (requested, ·) = sent := by
    rw [sentMessages_eq_nil rfl, map_nil, List.append_nil]
  unfold sslKeyUpdate
  cases complete with
  | false => grind
  | true =>
    by_cases htls : ssl.isTls13 = true
    · have hdefers : (requested && d1.defers) = false := by
        cases requested with
        | false => rfl
        | true => exact hmay rfl htls rfl
      simp only [Bool.not_true, Bool.false_eq_true, if_false, Bool.and_true, htls, hdefers,
        Bool.or_false]
      exact h.add (tls13AddKeyUpdate_cases ssl requested d1 hseq)
    · grind

end RequestInv

lemma keyRun_requestInv {may : Dtls1State → Bool → Prop} (h0 : d0.Established)
    (h : KeyRun may d0 d1 asked sent)
    (hmay : ∀ d1 requested, may d1 requested → NoRequestDeferred d1 requested) :
    RequestInv asked sent := by
  induction h with
  | start => exact ⟨rfl, by simp⟩
  | keyUpdate ssl complete requested hrun hstep ih =>
    exact ih.keyUpdate (keyRun_inv h0 hrun).writeSeq ssl complete requested
      fun hc ht => hmay _ _ (hstep hc ht)
  | receive ssl keysOk body _ _ ih => exact ih.append_false _
  | ack ssl ackRecord data _ ih =>
    obtain rfl := ih.asked
    exact ih.append_false _
  | sealNext _ _ _ ih | seek _ _ _ ih | other _ _ _ _ _ _ _ _ ih => exact ih

/-- The ACK that completes a flight puts out the KeyUpdate that was deferred, unless it fails; it
never requests an update. -/
lemma KeyInv.deferred {e₀ : UInt16} (h : KeyInv e₀ d1.keyView sent) (ssl : SslContext)
    (ackRecord : RecordNumber) (data : Bytes) (hq : d1.queuedKeyUpdate ≠ 0)
    (hacked : FlightAcked ssl ackRecord data d1)
    (hok : (dtls1ProcessAck ssl ackRecord data d1).2 = none) :
    ∃ m, sentMessages d1 (dtls1ProcessAck ssl ackRecord data d1).1 = [m]
      ∧ m.IsKeyUpdate false := by
  rcases dtls1ProcessAck_cases ssl ackRecord data d1 with ⟨hnot, _⟩ | ⟨_, marked, hview, heq⟩
  · exact absurd hacked hnot
  have hp := (h.queued hq).1
  replace hq : d1.keyView.queued ≠ 0 := hq
  rw [← hview] at h hq hp
  have hcases := finishAckedFlight_cases ssl h.writeSeq h.epoch h.queued_of_pending
  rw [heq] at hok ⊢
  rw [hok, sentMessages_congr hview] at hcases
  generalize sentMessages d1 (finishAckedFlight ssl marked).1 = msgs at hcases ⊢
  generalize (finishAckedFlight ssl marked).1.keyView = v' at hcases
  cases hcases with
  | quiet _ hnone => exact absurd hnone hq
  | rotated hp' => exact absurd (hp.symm.trans hp') Bool.false_ne_true
  | sent m _ _ hm => exact ⟨m, rfl, hm⟩

lemma writeEpoch_addKeyUpdate (ssl : SslContext) (requested : Bool) (d1 : Dtls1State) :
    (tls13AddKeyUpdate ssl requested d1).2.writeEpoch.epoch = d1.writeEpoch.epoch :=
  congrArg DtlsWriteEpoch.epoch (KeepsEpochs.addKeyUpdate ssl requested d1).writeEpoch

lemma KeyInv.rotates {e₀ : UInt16} (h : KeyInv e₀ d1.keyView sent) (ssl : SslContext)
    (ackRecord : RecordNumber) (data : Bytes)
    (hne : (dtls1ProcessAck ssl ackRecord data d1).1.writeEpoch.epoch ≠ d1.writeEpoch.epoch) :
    FlightAcked ssl ackRecord data d1 ∧ ∃ e, sent.getLast? = some e
      ∧ d1.outgoingMessages.map DtlsOutgoingMessage.data = [e.2.data] := by
  rcases dtls1ProcessAck_cases ssl ackRecord data d1 with ⟨_, hview⟩ | ⟨hacked, marked, hview, heq⟩
  · exact absurd (congrArg KeyView.epoch hview) hne
  refine ⟨hacked, ?_⟩
  replace hne : (dtls1ProcessAck ssl ackRecord data d1).1.keyView.epoch ≠ d1.keyView.epoch := hne
  rw [heq, ← hview] at hne
  rw [← hview] at h
  have hcases := finishAckedFlight_cases ssl h.writeSeq h.epoch h.queued_of_pending
  generalize sentMessages marked _ = msgs, (finishAckedFlight ssl marked).2 = error at hcases
  generalize (finishAckedFlight ssl marked).1.keyView = v' at hcases hne
  cases hcases with
  | quiet | stuck | failed | sent => exact absurd rfl hne
  | rotated hp hmax =>
    have := (h.pending hp).resolve_left fun hnil => hmax hnil.2
    rwa [hview] at this

/-- In every run, the ACK that completes a flight puts out the KeyUpdate that was deferred, unless
it fails, without the request; each message put out is a KeyUpdate, and changes the write keys once;
and only an ACK changes them, which completes the acknowledgement of the KeyUpdate put out last,
alone in its flight.  So the messages that have to request an update do if none is deferred. -/
theorem keyRun_requests {may : Dtls1State → Bool → Prop} (h0 : d0.Established)
    (h : KeyRun may d0 d1 asked sent) :
    ((∀ d1 requested, may d1 requested → NoRequestDeferred d1 requested) →
        asked = false ∧ ∀ e ∈ sent, e.1 = true → e.2.IsKeyUpdate true)
      ∧ (∀ ssl ackRecord data, d1.queuedKeyUpdate ≠ QueuedKeyUpdate.none.toField →
        FlightAcked ssl ackRecord data d1 → (dtls1ProcessAck ssl ackRecord data d1).2 = none →
        ∃ m, sentMessages d1 (dtls1ProcessAck ssl ackRecord data d1).1 = [m]
          ∧ m.IsKeyUpdate false)
      ∧ ((∀ e ∈ sent, ∃ requested, e.2.IsKeyUpdate requested)
        ∧ d0.writeEpoch.epoch.toNat + sent.length
          = d1.writeEpoch.epoch.toNat + if d1.keyUpdatePending then 1 else 0)
      ∧ (∀ ssl ackRecord data,
        (dtls1ProcessAck ssl ackRecord data d1).1.writeEpoch.epoch ≠ d1.writeEpoch.epoch →
        FlightAcked ssl ackRecord data d1 ∧ ∃ e, sent.getLast? = some e
          ∧ d1.outgoingMessages.map DtlsOutgoingMessage.data = [e.2.data])
      ∧ ∀ ssl requested,
        (tls13AddKeyUpdate ssl requested d1).2.writeEpoch.epoch = d1.writeEpoch.epoch := by
  have hkey := keyRun_inv h0 h
  refine ⟨fun hmay => ?_, hkey.deferred, ⟨hkey.keyUpdates, hkey.count⟩, hkey.rotates,
    fun ssl requested => writeEpoch_addKeyUpdate ssl requested d1⟩
  have hreq := keyRun_requestInv h0 h hmay
  exact ⟨hreq.asked, hreq.sent⟩

end Requests

def ticketFlight : Dtls1State :=
  { Dtls1State.new with
    outgoingMessages := [⟨[4, 0, 0, 1, 0, 9, 0, 0, 0, 0, 0, 1, 7], 3, false, .init 1⟩]
    handshakeWriteSeq := 10
    outgoingMessagesComplete := true
    sendingFlight := true
    readEpoch := 3
    writeEpoch := ⟨⟨3, 0⟩, .xorNonce⟩ }

lemma ticketFlight_established : ticketFlight.Established := ⟨by decide, by decide, rfl, rfl⟩

def tls13Server : SslContext := ⟨false, true, false, 0, some 0x0304, false, 0, 0, 0⟩

def ackOfEpoch3 : Bytes := [0, 16, 0, 0, 0, 0, 0, 0, 0, 3, 0, 0, 0, 0, 0, 0, 0, 0]

/-- The ticket is sent and acknowledged, and then an update is requested. -/
theorem keyRun_requests_ticket : ∃ d1 asked sent,
    KeyRun NoRequestDeferred ticketFlight d1 asked sent
    ∧ (∃ e ∈ sent, e.1 = true) ∧ ∀ e ∈ sent, e.1 = true → e.2.IsKeyUpdate true := by
  have hrun : KeyRun NoRequestDeferred ticketFlight _ _ _ := .keyUpdate tls13Server true true
    (.ack tls13Server ⟨3, 0⟩ ackOfEpoch3 (.sealNext tls13Server 100 .start))
    fun _ _ _ => by decide +kernel
  exact ⟨_, _, _, hrun, by decide +kernel,
    ((keyRun_requests ticketFlight_established hrun).1 fun _ _ h => h).2⟩

/-- An update is requested before the ticket is acknowledged: it is deferred, and the request is
lost. -/
theorem keyRun_request_lost : ∃ d1 asked sent, KeyRun (fun _ _ => True) ticketFlight d1 asked sent
    ∧ ∃ e ∈ sent, e.1 = true ∧ e.2.IsKeyUpdate false := by
  have hrun : KeyRun (fun _ _ => True) ticketFlight _ _ _ := .ack tls13Server ⟨3, 0⟩ ackOfEpoch3
    (.keyUpdate tls13Server true true (.sealNext tls13Server 100 .start) fun _ _ => trivial)
  exact ⟨_, _, _, hrun, by decide +kernel⟩

end BoringSSL
