import BoringSSL.DtlsAck
import BoringSSL.Proofs.DtlsFlight

/-!
# What acknowledgements mark

A record sent is remembered as the stretch of the flight it went over (`DtlsSentRecord.Spans`).
Every bit in the stretch was carried by the record or already marked when it was sealed, so marking
the stretch marks only what acknowledged records carried (`AckInv`).
-/

namespace BoringSSL

open ByteLib List

variable {α : Type*} {i : ℕ} {x : α} {r : SealedRecord}

/-- `msgs'` is `msgs` with the bits of `S` marked, as far as a `size_t` counts. -/
structure Marks (msgs msgs' : List DtlsOutgoingMessage) (S : ℕ → ℕ → Prop) : Prop where
  length : msgs'.length = msgs.length
  get : ∀ j m, msgs[j]? = some m → ∃ bm, msgs'[j]? = some { m with acked := bm }
    ∧ (m.acked.Ok → bm.Ok ∧ (∀ i, m.acked.Marked i → bm.Marked i)
      ∧ ∀ i < sizeMod - 1, bm.Marked i ↔ m.acked.Marked i ∨ S j i)

namespace Marks

variable {msgs msgs' msgs'' : List DtlsOutgoingMessage} {S T : ℕ → ℕ → Prop}

lemma refl : Marks msgs msgs fun _ _ => False :=
  ⟨rfl, fun _ m h => ⟨m.acked, h, fun hok => ⟨hok, fun _ => id, fun i _ => by simp⟩⟩⟩

variable (h : Marks msgs msgs' S)

include h

lemma trans (h' : Marks msgs' msgs'' T) : Marks msgs msgs'' fun j i => S j i ∨ T j i := by
  refine ⟨h'.length.trans h.length, fun j m hm => ?_⟩
  obtain ⟨bm, hget, hbm⟩ := h.get j m hm
  obtain ⟨bm', hget', hbm'⟩ := h'.get j _ hget
  refine ⟨bm', hget', fun hok => ?_⟩
  obtain ⟨h1, h2, h3⟩ := hbm hok
  obtain ⟨h1', h2', h3'⟩ := hbm' h1
  exact ⟨h1', fun i hi => h2' i (h2 i hi), fun i hi => by rw [h3' i hi, h3 i hi, or_assoc]⟩

lemma congr (hST : ∀ j i, i < sizeMod - 1 → (S j i ↔ T j i)) : Marks msgs msgs' T := by
  refine ⟨h.length, fun j m hm => ?_⟩
  obtain ⟨bm, hget, hbm⟩ := h.get j m hm
  refine ⟨bm, hget, fun hok => ?_⟩
  obtain ⟨h1, h2, h3⟩ := hbm hok
  exact ⟨h1, h2, fun i hi => by rw [h3 i hi, hST j i hi]⟩

lemma of_get {j : ℕ} {m' : DtlsOutgoingMessage} (hm' : msgs'[j]? = some m') :
    ∃ m bm, msgs[j]? = some m ∧ m' = { m with acked := bm }
      ∧ (m.acked.Ok → bm.Ok ∧ (∀ i, m.acked.Marked i → bm.Marked i)
        ∧ ∀ i < sizeMod - 1, bm.Marked i ↔ m.acked.Marked i ∨ S j i) := by
  have hj : j < msgs.length := h.length ▸ (List.getElem?_eq_some_iff.mp hm').1
  obtain ⟨bm, hbm, hmarks⟩ := h.get j msgs[j] (getElem?_eq_getElem hj)
  exact ⟨msgs[j], bm, getElem?_eq_getElem hj, Option.some.inj (hm'.symm.trans hbm), hmarks⟩

lemma wellFormed (hwf : ∀ m ∈ msgs, m.WellFormed) : ∀ m ∈ msgs', m.WellFormed := by
  intro m' hm'
  obtain ⟨j, hj⟩ := mem_iff_getElem?.mp hm'
  obtain ⟨m, bm, hget, rfl, hmarks⟩ := h.of_get hj
  rcases hwf m (mem_of_getElem? hget) with hc | ⟨hm, seq, hs⟩
  · exact .inl hc
  · obtain ⟨h1, h2, -⟩ := hmarks hs.ok
    exact .inr ⟨hm, seq, hs.isCcs, hs.seq_lt, hs.data, h1, fun i hi =>
      hs.unmarked i fun h => hi (h2 i h)⟩

end Marks

variable (d1 : Dtls1State)

lemma marks_markAcked (k start stop : ℕ) :
    Marks d1.outgoingMessages (d1.markAcked k start stop).outgoingMessages
      fun j i => j = k ∧ start ≤ i ∧ i < stop := by
  refine ⟨by simp [Dtls1State.markAcked], fun j m hm => ?_⟩
  simp only [Dtls1State.markAcked, getElem?_modify, hm]
  by_cases hk : k = j
  · refine ⟨m.acked.markRange start stop, by simp [hk], fun hok => ?_⟩
    obtain ⟨h1, h2⟩ := DtlsMessageBitmap.markRange_spec hok start stop
    exact ⟨h1, fun i hi => (h2 i).mpr (.inl hi), fun i _ => by rw [h2 i]; simp [hk]⟩
  · exact ⟨m.acked, by simp [hk], fun hok => ⟨hok, fun _ => id, fun i _ => by
      simp [Ne.symm hk]⟩⟩

lemma marks_foldl_markAcked : ∀ (n k : ℕ) (d1 : Dtls1State),
    Marks d1.outgoingMessages ((range' k n).foldl (fun d1 i => d1.markAcked i 0 (sizeMod - 1))
      d1).outgoingMessages fun j i => k ≤ j ∧ j < k + n ∧ i < sizeMod - 1
  | 0, k, d1 => by
    refine Marks.refl.congr fun j i _ => ?_
    simp only [false_iff]
    omega
  | n + 1, k, d1 => by
    refine ((marks_markAcked d1 k 0 (sizeMod - 1)).trans
      (marks_foldl_markAcked n (k + 1) _)).congr fun j i _ => ?_
    omega

variable (s : DtlsSentRecord)

/-- The record held byte `i` of message `j`. -/
def DtlsSentRecord.Spans (j i : ℕ) : Prop :=
  if s.firstMsg = s.lastMsg then j = s.firstMsg ∧ s.firstMsgStart ≤ i ∧ i < s.lastMsgEnd
  else (j = s.firstMsg ∧ s.firstMsgStart ≤ i) ∨ (s.firstMsg < j ∧ j < s.lastMsg)
    ∨ (j = s.lastMsg ∧ i < s.lastMsgEnd)

lemma marks_ackSentRecord :
    Marks d1.outgoingMessages (ackSentRecord d1 s).outgoingMessages s.Spans := by
  by_cases hone : s.firstMsg = s.lastMsg
  · rw [ackSentRecord, if_pos hone]
    exact (marks_markAcked d1 _ _ _).congr fun j i _ => by simp [DtlsSentRecord.Spans, hone]
  have hfirst := (marks_markAcked d1 s.firstMsg s.firstMsgStart (sizeMod - 1)).trans
    (marks_foldl_markAcked (s.lastMsg - (s.firstMsg + 1)) (s.firstMsg + 1) _)
  rw [ackSentRecord, if_neg hone]
  split_ifs with hend
  · refine (hfirst.trans (marks_markAcked _ s.lastMsg 0 s.lastMsgEnd)).congr fun j i hi => ?_
    simp only [DtlsSentRecord.Spans, if_neg hone]
    omega
  · refine hfirst.congr fun j i hi => ?_
    simp only [DtlsSentRecord.Spans, if_neg hone]
    omega

lemma foldl_markAcked_eq : ∀ (l : List ℕ) (d1 : Dtls1State), ∃ msgs,
    l.foldl (fun d1 i => d1.markAcked i 0 (sizeMod - 1)) d1 = { d1 with outgoingMessages := msgs }
  | [], d1 => ⟨d1.outgoingMessages, rfl⟩
  | i :: l, d1 => by
    obtain ⟨msgs, h⟩ := foldl_markAcked_eq l (d1.markAcked i 0 (sizeMod - 1))
    exact ⟨msgs, h⟩

lemma ackSentRecord_eq : ∃ msgs, ackSentRecord d1 s = { d1 with outgoingMessages := msgs } := by
  unfold ackSentRecord
  split_ifs
  · exact ⟨_, rfl⟩
  all_goals
    obtain ⟨msgs, h⟩ := foldl_markAcked_eq
      (range' (s.firstMsg + 1) (s.lastMsg - (s.firstMsg + 1)))
      (d1.markAcked s.firstMsg s.firstMsgStart (sizeMod - 1))
    simp only [h]
    exact ⟨_, rfl⟩

lemma ackRecordNumber_cases (number : RecordNumber) :
    ackRecordNumber d1 number = d1 ∨ ∃ s ∈ d1.sentRecords.getD [], s.number = number ∧ ∃ msgs idx,
      Marks d1.outgoingMessages msgs s.Spans ∧ ackRecordNumber d1 number = { d1 with
        outgoingMessages := msgs
        sentRecords := some ((d1.sentRecords.getD []).modify idx .cleared) } := by
  rcases hf : (d1.sentRecords.getD []).find? fun r => r.number == number with _ | s
  · exact .inl (by simp only [ackRecordNumber, hf])
  · obtain ⟨msgs, hmsgs⟩ := ackSentRecord_eq d1 s
    have hmarks := marks_ackSentRecord d1 s
    rw [hmsgs] at hmarks
    refine .inr ⟨s, mem_of_find?_eq_some hf, by simpa using find?_some hf, msgs,
      (d1.sentRecords.getD []).findIdx fun r => r.number == number, hmarks, ?_⟩
    simp only [ackRecordNumber, hf, hmsgs]

lemma mem_modify {f : α → α} {l : List α} (h : x ∈ l.modify i f) : x ∈ l ∨ ∃ y ∈ l, x = f y := by
  obtain ⟨j, hj⟩ := mem_iff_getElem?.mp h
  rw [getElem?_modify] at hj
  rcases hl : l[j]? with _ | y
  · simp [hl] at hj
  · grind

lemma not_spans_cleared (j i : ℕ) : ¬ s.cleared.Spans j i := by
  simp [DtlsSentRecord.Spans, DtlsSentRecord.cleared]

/-- The record carried every bit of the stretch that is not marked. -/
def Carried (msgs : List DtlsOutgoingMessage) (s : DtlsSentRecord) (r : SealedRecord) : Prop :=
  ∀ j m, msgs[j]? = some m → m.isCcs = false → ∀ i < max m.msgLen 1, s.Spans j i →
    m.acked.Marked i ∨ m.item i ∈ r.items

/-- Every marked bit was carried by an acknowledged record, and every record remembered carried what
it will mark. -/
structure AckInv (d1 : Dtls1State) (sealedRecords acked : List SealedRecord) : Prop where
  wellFormed : ∀ m ∈ d1.outgoingMessages, m.WellFormed
  writeSeq : d1.handshakeWriteSeq < 2 ^ 16
  marked : ∀ m ∈ d1.outgoingMessages, m.isCcs = false → ∀ i < max m.msgLen 1, m.acked.Marked i →
    ∃ r ∈ acked, m.item i ∈ r.items
  sent : ∀ s ∈ d1.sentRecords.getD [], ∃ r ∈ sealedRecords, r.number = s.number
    ∧ Carried d1.outgoingMessages s r

namespace AckInv

variable {d1 : Dtls1State} {sealedRecords acked : List SealedRecord}

lemma mono (h : AckInv d1 sealedRecords acked) {acked' : List SealedRecord}
    (hsub : ∀ r ∈ acked, r ∈ acked') : AckInv d1 sealedRecords acked' :=
  ⟨h.wellFormed, h.writeSeq, fun m hm hc i hi hmk => by
    obtain ⟨r, hr, hitem⟩ := h.marked m hm hc i hi hmk
    exact ⟨r, hsub r hr, hitem⟩, h.sent⟩

lemma congr (h : AckInv d1 sealedRecords acked) {d1' : Dtls1State}
    (hm : d1'.outgoingMessages = d1.outgoingMessages)
    (hw : d1'.handshakeWriteSeq = d1.handshakeWriteSeq) (hs : d1'.sentRecords = d1.sentRecords) :
    AckInv d1' sealedRecords acked :=
  ⟨hm ▸ h.wellFormed, hw ▸ h.writeSeq, hm ▸ h.marked, hm ▸ hs ▸ h.sent⟩

lemma lt_sizeMod {m : DtlsOutgoingMessage} (hwf : m.WellFormed) (hc : m.isCcs = false)
    (hi : i < max m.msgLen 1) : m.acked.Ok ∧ i < sizeMod - 1 := by
  obtain ⟨hm, seq, hs⟩ := hwf.resolve_left fun h => by simp [hc] at h
  have hlen := hm.length_lt
  rw [hs.msgLen] at hi
  have : (2 : ℕ) ^ 24 < sizeMod - 1 := by decide
  exact ⟨hs.ok, by omega⟩

lemma ackRecordNumber (h : AckInv d1 sealedRecords acked) {number : RecordNumber}
    (hacked : ∀ r ∈ sealedRecords, r.number = number → r ∈ acked) :
    AckInv (ackRecordNumber d1 number) sealedRecords acked := by
  rcases ackRecordNumber_cases d1 number with hd | ⟨s, hs, hnum, msgs, idx, hmarks, hd⟩
  · rwa [hd]
  rw [hd]
  obtain ⟨r, hr, hrnum, hcarried⟩ := h.sent s hs
  refine ⟨hmarks.wellFormed h.wellFormed, h.writeSeq, ?_, ?_⟩
  · intro m' hm' hc i hi hmk
    obtain ⟨j, hj⟩ := mem_iff_getElem?.mp hm'
    obtain ⟨m, bm, hget, rfl, hbits⟩ := hmarks.of_get hj
    have hm := mem_of_getElem? hget
    obtain ⟨hok, hlt⟩ := lt_sizeMod (h.wellFormed m hm) hc hi
    have hold : m.acked.Marked i → ∃ r ∈ acked, m.item i ∈ r.items := h.marked m hm hc i hi
    rcases ((hbits hok).2.2 i hlt).mp hmk with hmk | hspan
    · exact hold hmk
    · exact (hcarried j m hget hc i hi hspan).elim hold fun hitem =>
        ⟨r, hacked r hr (hrnum.trans hnum), hitem⟩
  · -- What is remembered of other records only grows in marks.
    have hkeep : ∀ s' r', Carried d1.outgoingMessages s' r' → Carried msgs s' r' := by
      intro s' r' hc' j m' hj hc i hi hspan
      obtain ⟨m, bm, hget, rfl, hbits⟩ := hmarks.of_get hj
      obtain ⟨hok, -⟩ := lt_sizeMod (h.wellFormed m (mem_of_getElem? hget)) hc hi
      exact (hc' j m hget hc i hi hspan).imp_left ((hbits hok).2.1 i)
    intro s' hs'
    rcases mem_modify hs' with hold | ⟨s'', hold, rfl⟩
    · obtain ⟨r', hr', hn', hc'⟩ := h.sent s' hold
      exact ⟨r', hr', hn', hkeep s' r' hc'⟩
    · obtain ⟨r', hr', hn', -⟩ := h.sent s'' hold
      exact ⟨r', hr', hn', fun j m _ _ i _ hspan => absurd hspan (not_spans_cleared s'' j i)⟩

lemma foldl_ackRecordNumber : ∀ (numbers : List RecordNumber) {d1 : Dtls1State},
    AckInv d1 sealedRecords acked →
    (∀ r ∈ sealedRecords, r.number ∈ numbers → r ∈ acked) →
      AckInv (numbers.foldl BoringSSL.ackRecordNumber d1) sealedRecords acked
  | [], _, h, _ => h
  | _ :: numbers, _, h, hacked =>
    foldl_ackRecordNumber numbers
      (h.ackRecordNumber fun r hr hn => hacked r hr (hn ▸ mem_cons_self))
      fun r hr hn => hacked r hr (mem_cons_of_mem _ hn)

end AckInv

lemma mem_pendingFrom : ∀ {l : List DtlsOutgoingMessage} {w o k i : ℕ} {m : DtlsOutgoingMessage},
    l[k]? = some m → m.isCcs = false → i < max m.msgLen 1 → ¬ m.acked.Marked i → (k = 0 → o ≤ i) →
      ⟨w + k, i, m.item i⟩ ∈ pendingFrom l w o
  | [], _, _, _, _, _, hget, _, _, _, _ => by simp at hget
  | m' :: rest, w, o, 0, i, m, hget, hc, hi, hmk, ho => by
    obtain rfl : m' = m := by simpa using hget
    refine mem_append_left _ (List.mem_map.mpr ⟨i, ?_, rfl⟩)
    exact (DtlsOutgoingMessage.mem_bits hc).mpr ⟨hi, ho rfl, hmk⟩
  | m' :: rest, w, o, k + 1, i, m, hget, hc, hi, hmk, _ => by
    have := mem_pendingFrom (l := rest) (w := w + 1) (o := 0) hget hc hi hmk fun _ => Nat.zero_le i
    rw [add_right_comm, add_assoc] at this
    exact mem_append_right _ this

lemma le_index_of_mem_pendingFrom : ∀ {l : List DtlsOutgoingMessage} {w o : ℕ} {p : PendingBit},
    p ∈ pendingFrom l w o → w ≤ p.index
  | [], _, _, _, hp => by simp [pendingFrom] at hp
  | m :: rest, w, o, p, hp => by
    rcases mem_append.mp hp with hp | hp
    · obtain ⟨i, -, rfl⟩ := List.mem_map.mp hp
      exact le_rfl
    · exact (Nat.le_succ w).trans (le_index_of_mem_pendingFrom hp)

lemma Moves.carried {all : List DtlsOutgoingMessage} {w₀ o₀ w o : ℕ}
    (h : Moves all w₀ o₀ w o r.items) : Carried all ⟨r.number, w₀, w, o₀, o⟩ r := by
  intro j m hget hc i hi hspan
  by_contra hn
  rw [not_or] at hn
  obtain ⟨P, hP, hitems⟩ := h.pending
  have hle := h.le
  simp only [DtlsSentRecord.Spans] at hspan
  have hbefore : ⟨j, i, m.item i⟩ ∈ pendingAt all w₀ o₀ := by
    have hj : w₀ ≤ j := by split_ifs at hspan <;> omega
    obtain ⟨k, rfl⟩ := Nat.exists_eq_add_of_le hj
    refine mem_pendingFrom (by rwa [getElem?_drop]) hc hi hn.1 ?_
    split_ifs at hspan <;> omega
  rw [hP] at hbefore
  rcases mem_append.mp hbefore with hp | hp
  · exact hn.2 (hitems ▸ List.mem_map.mpr ⟨_, hp, rfl⟩)
  · have hj : w ≤ j := le_index_of_mem_pendingFrom hp
    rcases Nat.eq_or_lt_of_le hj with rfl | hlt
    · rw [pendingAt_cons hget] at hp
      rcases mem_append.mp hp with hp | hp
      · obtain ⟨i', hi', heq⟩ := List.mem_map.mp hp
        obtain rfl : i' = i := congrArg PendingBit.bit heq
        have ho := ((DtlsOutgoingMessage.mem_bits hc).mp hi').2.1
        split_ifs at hspan <;> omega
      · have : w + 1 ≤ w := le_index_of_mem_pendingFrom hp
        omega
    · split_ifs at hspan <;> omega

lemma mem_of_mem_mruPushBack {queue : List α} {t : α} (h : x ∈ mruPushBack queue t) :
    x ∈ queue ∨ x = t := by
  unfold mruPushBack at h
  split_ifs at h <;> simp only [mem_append, mem_singleton] at h
  · exact h
  · exact h.imp_left mem_of_mem_tail

namespace AckInv

variable {d1 : Dtls1State} {sealedRecords acked : List SealedRecord}
  (h : AckInv d1 sealedRecords acked)

include h

lemma cons (r : SealedRecord) : AckInv d1 (r :: sealedRecords) acked :=
  ⟨h.wellFormed, h.writeSeq, h.marked, fun s hs => by
    obtain ⟨r', hr', hn⟩ := h.sent s hs
    exact ⟨r', mem_cons_of_mem _ hr', hn⟩⟩

lemma seek (w o : ℕ) :
    AckInv (d1.seek w o) sealedRecords acked := h.congr rfl rfl rfl

lemma setNextRecord (next : RecordNumber) : AckInv (d1.setNextRecord next) sealedRecords acked := by
  obtain ⟨e, es, hd⟩ := setNextRecord_eq d1 next
  rw [hd]
  exact h.congr rfl rfl rfl

lemma pushSentRecord (ssl : SslContext) {s : DtlsSentRecord} (hr : r ∈ sealedRecords)
    (hn : r.number = s.number) (hc : Carried d1.outgoingMessages s r) :
    AckInv (d1.pushSentRecord ssl s) sealedRecords acked := by
  unfold Dtls1State.pushSentRecord
  split_ifs
  · refine ⟨h.wellFormed, h.writeSeq, h.marked, fun s' hs' => ?_⟩
    rcases mem_of_mem_mruPushBack hs' with hs' | rfl
    · exact h.sent s' hs'
    · exact ⟨r, hr, hn, hc⟩
  · exact h

lemma sealStep {ssl : SslContext} {outSize : ℕ}
    {r : SealResult × Option SealedRecord × Dtls1State} (hstep : SealStep ssl outSize d1 r) :
    AckInv r.2.2 (r.2.1.toList ++ sealedRecords) acked := by
  cases hstep with
  | finished => exact h.seek _ _
  | noRoom => exact h.seek _ _
  | ccs => exact (((h.seek _ _).setNextRecord _).seek _ _).cons _
  | @handshake w₀ o₀ w o _ _ _ record next _ _ hmove _ _ =>
    refine (((h.seek w o).setNextRecord next).cons record).pushSentRecord ssl
      (s := ⟨record.number, w₀, w, o₀, o⟩) mem_cons_self rfl ?_
    rw [setNextRecord_outgoingMessages]
    exact hmove.carried
  | misplaced => exact h.seek _ _
  | failed => exact h.seek _ _

end AckInv

section Acks

variable {ssl : SslContext} {d1 : Dtls1State} {sealedRecords acked : List SealedRecord}

/-- The flight is cleared. -/
structure Cleared (d1 : Dtls1State) : Prop where
  messages : d1.outgoingMessages = []
  sentRecords : d1.sentRecords = none
  writeSeq : d1.handshakeWriteSeq < 2 ^ 16

lemma Cleared.inv (h : Cleared d1) : AckInv d1 sealedRecords acked :=
  ⟨by simp [h.messages], h.writeSeq, by simp [h.messages], by simp [h.sentRecords]⟩

lemma dtls1FinishFlight_fields (ssl : SslContext) (d1 : Dtls1State) :
    (dtls1FinishFlight ssl d1).outgoingMessages = d1.outgoingMessages
      ∧ (dtls1FinishFlight ssl d1).sentRecords = d1.sentRecords
      ∧ (dtls1FinishFlight ssl d1).handshakeWriteSeq = d1.handshakeWriteSeq := by
  unfold dtls1FinishFlight
  split
  · exact ⟨rfl, rfl, rfl⟩
  · split_ifs <;> exact ⟨rfl, rfl, rfl⟩

lemma Cleared.addMessage (h : Cleared d1) (ssl : SslContext) (hm : HandshakeMessage) :
    AckInv (dtls1AddMessage ssl d1 ((hm.header d1.handshakeWriteSeq).encode ++ hm.body)).2
      sealedRecords acked := by
  have hs := sends_init hm h.writeSeq rfl
  unfold dtls1AddMessage addOutgoing
  have hclear : Cleared (if d1.outgoingMessagesComplete then
      dtlsClearOutgoingMessages (dtls1StopTimer ssl d1) else d1) := by
    split_ifs
    · exact ⟨rfl, rfl, h.writeSeq⟩
    · exact h
  generalize (if d1.outgoingMessagesComplete then
    dtlsClearOutgoingMessages (dtls1StopTimer ssl d1) else d1) = d1' at hclear
  simp only [Bool.not_false, true_and, Bool.false_eq_true, if_false]
  split_ifs
  · exact hclear.inv
  · refine ⟨?_, Nat.mod_lt _ (by decide), ?_, by simp [hclear.sentRecords]⟩
    all_goals
      simp only [hclear.messages, nil_append, mem_singleton, forall_eq]
    · exact .inr ⟨hm, _, hs _⟩
    · intro _ i hi hmk
      exact absurd (((DtlsMessageBitmap.init_spec _).2 i).mp hmk) (not_le.mpr hi)
  · exact Cleared.inv ⟨hclear.messages, hclear.sentRecords, Nat.mod_lt _ (by decide)⟩

lemma Cleared.addKeyUpdate (h : Cleared d1) (requested : Bool) :
    AckInv (tls13AddKeyUpdate ssl requested d1).2 sealedRecords acked := by
  rw [tls13AddKeyUpdate]
  by_cases hp : d1.keyUpdatePending
  · rw [if_pos hp]
    exact h.inv
  rw [if_neg hp, if_neg (by simp [h.messages])]
  rcases hd : dtls1Message ssl.fill d1.handshakeWriteSeq ssl3MtKeyUpdate
    (.addWord (.u8 (if requested then 1 else 0)) .done) with _ | data
  · exact h.inv
  obtain ⟨hm, -, -, rfl⟩ := dtls1Message_eq_some h.writeSeq hd
  have hadd : AckInv _ sealedRecords acked := h.addMessage ssl hm
  simp only []
  generalize dtls1AddMessage ssl d1 ((hm.header d1.handshakeWriteSeq).encode ++ hm.body)
    = added at hadd
  split_ifs with hok
  · exact hadd
  · obtain ⟨h1, h2, h3⟩ := dtls1FinishFlight_fields ssl { added.2 with keyUpdatePending := true }
    exact hadd.congr h1 h3 h2

lemma finishAckedFlight_inv (hw : d1.handshakeWriteSeq < 2 ^ 16) :
    AckInv (finishAckedFlight ssl d1).1 sealedRecords acked := by
  have hclear : Cleared (dtlsClearOutgoingMessages (dtls1StopTimer ssl d1)) := ⟨rfl, rfl, hw⟩
  unfold finishAckedFlight
  generalize dtlsClearOutgoingMessages (dtls1StopTimer ssl d1) = d1' at hclear
  rcases hr : (if d1'.keyUpdatePending then tls13RotateTrafficKey ssl d1' else some d1')
    with _ | d1''
  · simp only [hr]
    exact hclear.inv
  have hclear' : Cleared d1'' := by
    split_ifs at hr
    · simp only [tls13RotateTrafficKey, dtls1SetWriteState, Option.map_eq_some_iff] at hr
      obtain ⟨epoch, -, rfl⟩ := hr
      exact ⟨hclear.messages, hclear.sentRecords, hclear.writeSeq⟩
    · exact Option.some.inj hr ▸ hclear
  simp only [hr]
  by_cases hq : QueuedKeyUpdate.none.isIn d1''.queuedKeyUpdate = true
  · simp only [hq, if_true]
    exact Cleared.inv ⟨hclear'.messages, hclear'.sentRecords, hclear'.writeSeq⟩
  · simp only [hq]
    have hqueue : Cleared { d1'' with
        keyUpdatePending := false
        queuedKeyUpdate := QueuedKeyUpdate.none.toField } :=
      ⟨hclear'.messages, hclear'.sentRecords, hclear'.writeSeq⟩
    exact hqueue.addKeyUpdate _

lemma AckInv.processAck (h : AckInv d1 sealedRecords acked) (ackRecord : RecordNumber)
    (data : Bytes)
    (hacked : ∀ r ∈ sealedRecords, r.number ∈ ackedNumbers ackRecord.epoch data → r ∈ acked) :
    AckInv (dtls1ProcessAck ssl ackRecord data d1).1 sealedRecords acked := by
  unfold dtls1ProcessAck
  split_ifs
  · exact h
  · exact h
  rcases hc : ackContents data with _ | contents
  · simpa only [hc] using h
  simp only [hc, ackedNumbers] at hacked ⊢
  have hfold := AckInv.foldl_ackRecordNumber _ h hacked
  generalize (parseRecordNumbers ackRecord.epoch contents.length contents).1.foldl
    BoringSSL.ackRecordNumber d1 = d1' at hfold
  split
  · exact hfold
  · split_ifs
    · exact finishAckedFlight_inv hfold.writeSeq
    · exact hfold.congr rfl rfl rfl

end Acks

end BoringSSL
