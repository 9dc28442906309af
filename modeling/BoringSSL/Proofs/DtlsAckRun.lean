import BoringSSL.Proofs.DtlsRecordNumber

/-!
# A flight is discarded once all of it has been acknowledged

Over whole runs of sealing, moving in the flight and ACKs, every bit that is marked was carried by a
record that has been acknowledged (`ackRun_inv`), and a flight goes away on an ACK only when
acknowledged records have carried all of it (`ackRun_sound`).
-/

namespace BoringSSL

open ByteLib List

lemma Marks.map_data {msgs msgs' : List DtlsOutgoingMessage} {S : ℕ → ℕ → Prop}
    (h : Marks msgs msgs' S) :
    msgs'.map DtlsOutgoingMessage.data = msgs.map DtlsOutgoingMessage.data := by
  refine ext_getElem? fun j => ?_
  rw [getElem?_map, getElem?_map]
  rcases hm : msgs[j]? with _ | m
  · have hj := List.getElem?_eq_none_iff.mp hm
    rw [List.getElem?_eq_none_iff.mpr (h.length ▸ hj)]
  · obtain ⟨bm, hbm, -⟩ := h.get j m hm
    rw [hbm]
    rfl

lemma marks_foldl_ackRecordNumber : ∀ (numbers : List RecordNumber) (d1 : Dtls1State), ∃ S,
    Marks d1.outgoingMessages (numbers.foldl ackRecordNumber d1).outgoingMessages S
  | [], _ => ⟨_, .refl⟩
  | number :: numbers, d1 => by
    obtain ⟨S, hrest⟩ := marks_foldl_ackRecordNumber numbers (ackRecordNumber d1 number)
    rcases ackRecordNumber_cases d1 number with h | ⟨s, -, -, msgs, idx, hmarks, h⟩
    · rw [h] at hrest
      rw [foldl_cons, h]
      exact ⟨S, hrest⟩
    · rw [h] at hrest
      rw [foldl_cons, h]
      exact ⟨_, hmarks.trans hrest⟩

/-- Every byte of the message, or its header, was carried by one of the records. -/
def CarriedBy (records : List SealedRecord) (m : DtlsOutgoingMessage) : Prop :=
  m.isCcs = false ∧ ∀ i < max m.msgLen 1, ∃ r ∈ records, m.item i ∈ r.items

section Run

variable {d0 d1 : Dtls1State} {sealedRecords acked : List SealedRecord}

/-- An ACK keeps the messages of the flight, or acknowledged records have carried all of them. -/
lemma AckInv.processAck_discards (h : AckInv d1 sealedRecords acked) (ssl : SslContext)
    (ackRecord : RecordNumber) (data : Bytes)
    (hacked : ∀ r ∈ sealedRecords, r.number ∈ ackedNumbers ackRecord.epoch data → r ∈ acked) :
    (dtls1ProcessAck ssl ackRecord data d1).1.outgoingMessages.map DtlsOutgoingMessage.data
        = d1.outgoingMessages.map DtlsOutgoingMessage.data
      ∨ ∀ m ∈ d1.outgoingMessages, CarriedBy acked m := by
  unfold dtls1ProcessAck
  split_ifs
  · exact .inl rfl
  · exact .inl rfl
  rcases hc : ackContents data with _ | contents
  · exact .inl rfl
  simp only [hc, ackedNumbers] at hacked ⊢
  obtain ⟨S, hmarks⟩ := marks_foldl_ackRecordNumber
    (parseRecordNumbers ackRecord.epoch contents.length contents).1 d1
  have hfold := AckInv.foldl_ackRecordNumber _ h hacked
  generalize (parseRecordNumbers ackRecord.epoch contents.length contents).1.foldl
    BoringSSL.ackRecordNumber d1 = d1' at hmarks hfold
  split
  · exact .inl hmarks.map_data
  split_ifs with hall
  swap
  · exact .inl hmarks.map_data
  refine .inr fun m hm => ?_
  obtain ⟨j, hj⟩ := mem_iff_getElem?.mp hm
  obtain ⟨bm, hget, -⟩ := hmarks.get j m hj
  have hmem := mem_of_getElem? hget
  have hfull := List.all_eq_true.mp hall _ hmem
  simp only [DtlsOutgoingMessage.isFullyAcked, Bool.and_eq_true, Bool.not_eq_true'] at hfull
  refine ⟨hfull.1, fun i hi => hfold.marked _ hmem hfull.1 i hi ?_⟩
  obtain ⟨hok, -⟩ := AckInv.lt_sizeMod (hfold.wellFormed _ hmem) hfull.1 hi
  exact (DtlsMessageBitmap.isComplete_iff hok).mp hfull.2 i

/-- Every event of a run keeps the invariant. -/
lemma ackRun_inv (h0 : d0.NewFlight) (h : AckRun d0 d1 sealedRecords acked) :
    AckInv d1 sealedRecords acked := by
  induction h with
  | start =>
    exact ⟨h0.wellFormed, h0.writeSeq, fun m hm _ i hi hmk => absurd hmk (h0.unmarked m hm i hi),
      by simp [h0.sentRecords]⟩
  | sealNext ssl outSize _ hout ih => exact ih.sealStep (sealNextRecord_step ih.wellFormed hout)
  | seek written offset _ ih => exact ih.seek written offset
  | other ssl maxOut type plaintext epoch record _ hseal ih =>
    obtain ⟨next, -, rfl⟩ := dtlsSealRecord_ok hseal
    exact ih.setNextRecord next
  | ack ssl ackRecord data _ ih =>
    refine (ih.mono fun r hr => mem_append_left _ hr).processAck ackRecord data fun r hr hn => ?_
    exact mem_append_right _ (mem_filter.mpr ⟨hr, decide_eq_true hn⟩)

lemma ackRun_numberInv (h0 : d0.NewFlight) (hep : d0.EpochsOrdered)
    (h : AckRun d0 d1 sealedRecords acked) : NumberInv d1 sealedRecords := by
  induction h with
  | start => exact ⟨hep, by simp, by simp, nodup_nil⟩
  | sealNext ssl outSize hrun hout ih =>
    exact ih.sealStep (sealNextRecord_step (ackRun_inv h0 hrun).wellFormed hout)
  | seek written offset _ ih => exact ih.keeps ⟨rfl, .refl _⟩
  | other ssl maxOut type plaintext epoch record _ hseal ih =>
    obtain ⟨next, hs, rfl⟩ := dtlsSealRecord_ok hseal
    exact (ih.seals hs).tail
  | ack ssl ackRecord data _ ih => exact ih.processAck ssl ackRecord data

lemma acked_subset (h : AckRun d0 d1 sealedRecords acked) : acked ⊆ sealedRecords := by
  induction h with
  | start => exact List.Subset.refl _
  | sealNext ssl outSize _ _ ih => exact fun r hr => mem_append_right _ (ih hr)
  | seek _ _ _ ih => exact ih
  | other _ _ _ _ _ _ _ _ ih => exact ih
  | ack ssl ackRecord data _ ih =>
    exact append_subset.mpr ⟨ih, fun r hr => (mem_filter.mp hr).1⟩

/-- A bit is marked only if a record that carried it has been acknowledged.  An ACK keeps the
messages of the flight unless acknowledged records, its own among them, have carried all of them.
And an acknowledged record is one that was sealed, which its number determines. -/
theorem ackRun_sound (h0 : d0.NewFlight) (h : AckRun d0 d1 sealedRecords acked) :
    (∀ m ∈ d1.outgoingMessages, m.isCcs = false → ∀ i < max m.msgLen 1, m.acked.Marked i →
        ∃ r ∈ acked, m.item i ∈ r.items)
      ∧ (∀ ssl ackRecord data,
        (dtls1ProcessAck ssl ackRecord data d1).1.outgoingMessages.map DtlsOutgoingMessage.data
            = d1.outgoingMessages.map DtlsOutgoingMessage.data
          ∨ ∀ m ∈ d1.outgoingMessages, CarriedBy (acked ++ sealedRecords.filter fun r =>
            decide (r.number ∈ ackedNumbers ackRecord.epoch data)) m)
      ∧ acked ⊆ sealedRecords
      ∧ (d0.EpochsOrdered → (sealedRecords.map SealedRecord.number).Nodup) := by
  have hinv := ackRun_inv h0 h
  refine ⟨hinv.marked, fun ssl ackRecord data => ?_, acked_subset h, fun hep =>
    (ackRun_numberInv h0 hep h).nodup⟩
  refine (hinv.mono fun r hr => mem_append_left _ hr).processAck_discards ssl ackRecord data
    fun r hr hn => ?_
  exact mem_append_right _ (mem_filter.mpr ⟨hr, decide_eq_true hn⟩)

end Run

def finishedFlight : Dtls1State :=
  { Dtls1State.new with
    outgoingMessages :=
      [⟨[20, 0, 0, 3, 0, 1, 0, 0, 0, 0, 0, 3, 7, 8, 9], 2, false, .init 3⟩,
        ⟨[14, 0, 0, 0, 0, 2, 0, 0, 0, 0, 0, 0], 2, false, .init 1⟩]
    handshakeWriteSeq := 3
    writeEpoch := ⟨⟨2, 0⟩, .xorNonce⟩
    extraWriteEpochs := [⟨⟨0, 5⟩, .nullCipher⟩] }

lemma finishedFlight_new : finishedFlight.NewFlight := by
  refine ⟨fun m hm => ?_, ?_, rfl, by decide⟩
  · simp only [finishedFlight, mem_cons, not_mem_nil, or_false] at hm
    rcases hm with rfl | rfl
    · exact .inr ⟨⟨20, [7, 8, 9], by decide⟩, 1, sends_init _ (by decide) (by decide) 2⟩
    · exact .inr ⟨⟨14, [], by decide⟩, 2, sends_init _ (by decide) (by decide) 2⟩
  · decide

def tls13Client : SslContext := ⟨true, false, false, 0, some 0x0304, false, 0, 0, 0⟩

def ackOf (sequence : UInt8) : Bytes :=
  [0, 16, 0, 0, 0, 0, 0, 0, 0, 2, 0, 0, 0, 0, 0, 0, 0, sequence]

/-- The flight is sent in packets too small for the first message, and the first record is
acknowledged, which marks two bytes. -/
theorem ackRun_sound_finishedFlight : ∃ d1 sealedRecords acked,
    AckRun finishedFlight d1 sealedRecords acked ∧ acked.length = 1
    ∧ (∃ m ∈ d1.outgoingMessages, m.isCcs = false ∧ 1 < m.msgLen ∧ m.acked.Marked 1)
    ∧ ∀ m ∈ d1.outgoingMessages, m.isCcs = false → ∀ i < max m.msgLen 1, m.acked.Marked i →
        ∃ r ∈ acked, m.item i ∈ r.items := by
  have hrun := AckRun.ack tls13Client ⟨3, 0⟩ (ackOf 0)
    (.sealNext tls13Client 36 (.sealNext tls13Client 36 (AckRun.start : AckRun finishedFlight _ _ _)
      (by decide)) (by decide))
  refine ⟨_, _, _, hrun, ?_, ?_, (ackRun_sound finishedFlight_new hrun).1⟩
  all_goals decide +kernel

end BoringSSL
