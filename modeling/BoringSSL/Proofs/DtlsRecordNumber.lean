import BoringSSL.Proofs.DtlsAck

/-!
# Record numbers

A record's number is taken from its write epoch, whose next number goes up by one.  As long as each
epoch is installed once, in order (`Dtls1State.EpochsOrdered`), no two records have the same number
(`NumberInv`): ACKs only drop epochs, or install one above all others for a key update.
-/

namespace BoringSSL

open ByteLib List

variable {epoch : UInt16} {outSize : ℕ} {d1' d1 : Dtls1State} {sealedRecords : List SealedRecord}
  {next : RecordNumber}

lemma RecordNumber.next?_eq_some {n : RecordNumber} (h : n.next? = some next) :
    next.epoch = n.epoch ∧ next.sequence.val = n.sequence.val + 1 := by
  unfold RecordNumber.next? at h
  split_ifs at h with hlt
  cases h
  exact ⟨rfl, rfl⟩

/-- The list after `next_record` of one epoch has been set, when no two have the same epoch. -/
lemma mem_modify_findIdx : ∀ {es : List DtlsWriteEpoch},
    (es.map DtlsWriteEpoch.epoch).Nodup → ∀ {e : DtlsWriteEpoch},
    e ∈ (es.modify (es.findIdx fun e => e.epoch == next.epoch) fun e =>
      { e with nextRecord := next }) → (e ∈ es ∧ e.epoch ≠ next.epoch) ∨ e.nextRecord = next
  | [], _, _, h => by simp at h
  | e' :: es, hnd, e, h => by
    obtain ⟨hnot, hnd⟩ := nodup_cons.mp hnd
    rw [findIdx_cons] at h
    by_cases he : e'.epoch = next.epoch
    · grind
    · rw [beq_eq_false_iff_ne.mpr he, cond_false, modify_succ_cons] at h
      rcases mem_cons.mp h with rfl | h
      · exact .inl ⟨mem_cons_self, he⟩
      · exact (mem_modify_findIdx hnd h).imp_left fun h => ⟨mem_cons_of_mem _ h.1, h.2⟩

/-- Some write epochs that are not needed are dropped, and nothing else. -/
structure KeepsEpochs (d1 d1' : Dtls1State) : Prop where
  writeEpoch : d1'.writeEpoch = d1.writeEpoch
  extra : d1'.extraWriteEpochs.Sublist d1.extraWriteEpochs

lemma KeepsEpochs.trans {a b c : Dtls1State} (h : KeepsEpochs a b) (h' : KeepsEpochs b c) :
    KeepsEpochs a c := ⟨h'.writeEpoch.trans h.writeEpoch, h'.extra.trans h.extra⟩

lemma lt_nextEpoch {ssl : SslContext} {prev : UInt16}
    (h : nextEpoch ssl .application prev = some epoch) : prev < epoch := by
  simp only [nextEpoch] at h
  split_ifs at h with h1 h2
  · exact Option.some.inj h ▸ h1.1
  · grind

/-- No record number was used twice, and none will be: those of a live epoch are below its next. -/
structure NumberInv (d1 : Dtls1State) (sealedRecords : List SealedRecord) : Prop where
  ordered : d1.EpochsOrdered
  epoch_le : ∀ r ∈ sealedRecords, r.number.epoch ≤ d1.writeEpoch.epoch
  below : ∀ r ∈ sealedRecords, ∀ e ∈ d1.writeEpoch :: d1.extraWriteEpochs,
    e.epoch = r.number.epoch → r.number.sequence < e.nextRecord.sequence
  nodup : (sealedRecords.map SealedRecord.number).Nodup

namespace NumberInv

variable {ssl : SslContext} {d1 : Dtls1State} {sealedRecords : List SealedRecord}

lemma mem_setNextRecord (h : d1.EpochsOrdered) {e : DtlsWriteEpoch}
    (he : e ∈ (d1.setNextRecord next).writeEpoch :: (d1.setNextRecord next).extraWriteEpochs) :
    (e ∈ d1.writeEpoch :: d1.extraWriteEpochs ∧ e.epoch ≠ next.epoch) ∨ e.nextRecord = next := by
  unfold Dtls1State.setNextRecord at he
  split_ifs at he with hw
  · rcases mem_cons.mp he with rfl | he
    · exact .inr rfl
    · exact .inl ⟨mem_cons_of_mem _ he, fun heq => by
        have hlt := h.lt e he
        rw [hw, heq] at hlt
        exact UInt16.lt_irrefl _ hlt⟩
  · rcases mem_cons.mp he with rfl | he
    · exact .inl ⟨mem_cons_self, hw⟩
    · exact (mem_modify_findIdx h.nodup he).imp_left fun h => ⟨mem_cons_of_mem _ h.1, h.2⟩

lemma ordered_setNextRecord (h : d1.EpochsOrdered) (next : RecordNumber) :
    (d1.setNextRecord next).EpochsOrdered := by
  have hkeys := congrArg (List.map Prod.fst) (setNextRecord_key d1 next)
  simp only [map_cons, List.map_map, List.cons.injEq] at hkeys
  obtain ⟨hw, he⟩ := hkeys
  change (d1.setNextRecord next).writeEpoch.epoch = d1.writeEpoch.epoch at hw
  change (d1.setNextRecord next).extraWriteEpochs.map DtlsWriteEpoch.epoch
    = d1.extraWriteEpochs.map DtlsWriteEpoch.epoch at he
  refine ⟨fun e hmem => ?_, he ▸ h.nodup⟩
  obtain ⟨e', hmem', heq⟩ := List.mem_map.mp
    (he ▸ List.mem_map_of_mem (f := DtlsWriteEpoch.epoch) hmem)
  rw [hw, ← heq]
  exact h.lt e' hmem'

lemma seals (h : NumberInv d1 sealedRecords) {type : UInt8} {plaintext : Bytes}
    {record : SealedRecord} (hs : Seals ssl d1 outSize type plaintext epoch record next) :
    NumberInv (d1.setNextRecord next) (record :: sealedRecords) := by
  obtain ⟨e, hget, hnum⟩ := hs.writeEpoch
  have hlive : e ∈ d1.writeEpoch :: d1.extraWriteEpochs := mem_of_find?_eq_some hget
  have hepoch : e.epoch = record.number.epoch := congrArg RecordNumber.epoch hnum
  obtain ⟨hnext, hseq⟩ := RecordNumber.next?_eq_some hs.next
  have hwrite : (d1.setNextRecord next).writeEpoch.epoch = d1.writeEpoch.epoch :=
    congrArg Prod.fst (List.cons.inj (setNextRecord_key d1 next)).1
  have hlt : record.number.sequence < next.sequence := by
    omega
  refine ⟨ordered_setNextRecord h.ordered next, ?_, ?_, ?_⟩
  · rw [hwrite]
    intro r hr
    rcases mem_cons.mp hr with rfl | hr
    · rw [← hepoch]
      rcases mem_cons.mp hlive with rfl | hlive
      · exact UInt16.le_refl _
      · exact UInt16.le_of_lt (h.ordered.lt e hlive)
    · exact h.epoch_le r hr
  · intro r hr e' he' heq
    rcases mem_setNextRecord h.ordered he' with ⟨hold, hne⟩ | hnew
    · rcases mem_cons.mp hr with rfl | hr
      · exact absurd (heq.trans hnext.symm) hne
      · exact h.below r hr e' hold heq
    · rw [hnew]
      rcases mem_cons.mp hr with rfl | hr
      · exact hlt
      · refine lt_trans (hnum ▸ h.below r hr e hlive ?_) hlt
        rw [hepoch, ← hnext, ← heq]
        exact congrArg RecordNumber.epoch hnew.symm
  · rw [map_cons, nodup_cons]
    refine ⟨fun hmem => ?_, h.nodup⟩
    obtain ⟨r, hr, heq⟩ := List.mem_map.mp hmem
    have := h.below r hr e hlive (by rw [hepoch, heq])
    rw [hnum, heq] at this
    exact absurd this (lt_irrefl _)

lemma tail {r : SealedRecord} (h : NumberInv d1 (r :: sealedRecords)) :
    NumberInv d1 sealedRecords :=
  ⟨h.ordered, fun r hr => h.epoch_le r (mem_cons_of_mem _ hr),
    fun r hr => h.below r (mem_cons_of_mem _ hr), (nodup_cons.mp h.nodup).2⟩

lemma keeps (h : NumberInv d1 sealedRecords) (hk : KeepsEpochs d1 d1') :
    NumberInv d1' sealedRecords := by
  obtain ⟨hw, he⟩ := hk
  refine ⟨⟨fun e hmem => hw ▸ h.ordered.lt e (he.subset hmem), h.ordered.nodup.sublist (he.map _)⟩,
    hw ▸ h.epoch_le, fun r hr e hmem => h.below r hr e ?_, h.nodup⟩
  rw [hw] at hmem
  exact mem_cons.mpr ((mem_cons.mp hmem).imp_right fun hm => he.subset hm)

lemma sealStep (h : NumberInv d1 sealedRecords)
    {r : SealResult × Option SealedRecord × Dtls1State} (hstep : SealStep ssl outSize d1 r) :
    NumberInv r.2.2 (r.2.1.toList ++ sealedRecords) := by
  have hseek : ∀ w o, NumberInv (d1.seek w o) sealedRecords := fun w o => h.keeps ⟨rfl, .refl _⟩
  cases hstep with
  | finished => exact hseek _ _
  | noRoom => exact hseek _ _
  | @ccs w o _ record next _ _ _ hs =>
    exact ((hseek w o).seals (hs.to_seek w o)).keeps ⟨rfl, .refl _⟩
  | @handshake w₀ o₀ w o _ _ _ record next _ _ _ _ hs =>
    obtain ⟨sent, hpush⟩ := pushSentRecord_eq ssl ((d1.seek w o).setNextRecord next)
      ⟨record.number, w₀, w, o₀, o⟩
    rw [hpush]
    exact ((hseek w o).seals (hs.to_seek w o)).keeps ⟨rfl, .refl _⟩
  | misplaced => exact hseek _ _
  | failed => exact hseek _ _

lemma rotate (h : NumberInv d1 sealedRecords)
    (hr : tls13RotateTrafficKey ssl d1 = some d1') : NumberInv d1' sealedRecords := by
  simp only [tls13RotateTrafficKey, dtls1SetWriteState, Option.map_eq_some_iff] at hr
  obtain ⟨epoch, hepoch, rfl⟩ := hr
  have hlt : d1.writeEpoch.epoch < epoch := lt_nextEpoch hepoch
  suffices hnew : NumberInv { d1 with
      writeEpoch := ⟨⟨epoch, 0⟩, .xorNonce⟩
      extraWriteEpochs := d1.extraWriteEpochs ++ [d1.writeEpoch] } sealedRecords from
    hnew.keeps ⟨rfl, filter_sublist⟩
  refine ⟨⟨fun e hmem => ?_, ?_⟩, fun r hr => ?_, fun r hr e hmem heq => ?_, h.nodup⟩
  · rcases mem_append.mp hmem with hmem | hmem
    · exact UInt16.lt_trans (h.ordered.lt e hmem) hlt
    · exact mem_singleton.mp hmem ▸ hlt
  · rw [map_append, map_singleton, nodup_append]
    refine ⟨h.ordered.nodup, nodup_singleton _, fun a ha b hb => ?_⟩
    obtain ⟨e, hmem, rfl⟩ := List.mem_map.mp ha
    rw [mem_singleton.mp hb]
    exact UInt16.ne_of_lt (h.ordered.lt e hmem)
  · exact UInt16.le_of_lt (UInt16.lt_of_le_of_lt (h.epoch_le r hr) hlt)
  · rcases mem_cons.mp hmem with rfl | hmem
    · have hle := h.epoch_le r hr
      rw [← heq] at hle
      exact absurd hlt (UInt16.not_lt.mpr hle)
    · refine h.below r hr e (mem_cons.mpr ?_) heq
      exact (mem_append.mp hmem).symm.imp_left mem_singleton.mp

end NumberInv

lemma KeepsEpochs.clear (ssl : SslContext) (d1 : Dtls1State) :
    KeepsEpochs d1 (dtlsClearOutgoingMessages (dtls1StopTimer ssl d1)) :=
  ⟨rfl, filter_sublist⟩

lemma KeepsEpochs.foldl_ackRecordNumber : ∀ (numbers : List RecordNumber) (d1 : Dtls1State),
    KeepsEpochs d1 (numbers.foldl ackRecordNumber d1)
  | [], d1 => ⟨rfl, .refl _⟩
  | number :: numbers, d1 => by
    have hstep : KeepsEpochs d1 (ackRecordNumber d1 number) := by
      rcases ackRecordNumber_cases d1 number with h | ⟨s, -, -, msgs, idx, -, h⟩ <;> rw [h] <;>
        exact ⟨rfl, .refl _⟩
    exact hstep.trans (foldl_ackRecordNumber numbers _)

lemma KeepsEpochs.addMessage (ssl : SslContext) (d1 : Dtls1State) (data : Bytes) :
    KeepsEpochs d1 (dtls1AddMessage ssl d1 data).2 := by
  unfold dtls1AddMessage addOutgoing
  have hclear : KeepsEpochs d1 (if d1.outgoingMessagesComplete then
      dtlsClearOutgoingMessages (dtls1StopTimer ssl d1) else d1) := by
    split_ifs
    · exact .clear ssl d1
    · exact ⟨rfl, .refl _⟩
  generalize (if d1.outgoingMessagesComplete then
    dtlsClearOutgoingMessages (dtls1StopTimer ssl d1) else d1) = d1' at hclear
  simp only [Bool.not_false, true_and, Bool.false_eq_true, if_false]
  split_ifs <;> exact ⟨hclear.writeEpoch, hclear.extra⟩

lemma KeepsEpochs.addKeyUpdate (ssl : SslContext) (requested : Bool) (d1 : Dtls1State) :
    KeepsEpochs d1 (tls13AddKeyUpdate ssl requested d1).2 := by
  rw [tls13AddKeyUpdate]
  by_cases hp : d1.keyUpdatePending
  · rw [if_pos hp]
    exact ⟨rfl, .refl _⟩
  rw [if_neg hp]
  by_cases hm : (!d1.outgoingMessages.isEmpty) = true
  · rw [if_pos hm]
    exact ⟨rfl, .refl _⟩
  rw [if_neg hm]
  rcases dtls1Message ssl.fill d1.handshakeWriteSeq ssl3MtKeyUpdate
    (.addWord (.u8 (if requested then 1 else 0)) .done) with _ | data
  · exact ⟨rfl, .refl _⟩
  have hadd := KeepsEpochs.addMessage ssl d1 data
  simp only []
  generalize dtls1AddMessage ssl d1 data = added at hadd
  split_ifs with hok
  · exact hadd
  · refine hadd.trans ?_
    unfold dtls1FinishFlight
    split
    · exact ⟨rfl, .refl _⟩
    · split_ifs <;> exact ⟨rfl, .refl _⟩

lemma NumberInv.finishAckedFlight (h : NumberInv d1 sealedRecords) (ssl : SslContext) :
    NumberInv (finishAckedFlight ssl d1).1 sealedRecords := by
  have hclear := h.keeps (.clear ssl d1)
  unfold BoringSSL.finishAckedFlight
  generalize dtlsClearOutgoingMessages (dtls1StopTimer ssl d1) = d1' at hclear
  rcases hr : (if d1'.keyUpdatePending then tls13RotateTrafficKey ssl d1' else some d1')
    with _ | d1''
  · simp only [hr]
    exact hclear
  have hrotate : NumberInv d1'' sealedRecords := by
    split_ifs at hr
    · exact hclear.rotate hr
    · exact Option.some.inj hr ▸ hclear
  simp only [hr]
  by_cases hq : QueuedKeyUpdate.none.isIn d1''.queuedKeyUpdate = true
  · simp only [hq, if_true]
    exact hrotate.keeps ⟨rfl, .refl _⟩
  · simp only [hq]
    refine (hrotate.keeps ?_).keeps (.addKeyUpdate ssl _ _)
    exact ⟨rfl, .refl _⟩

lemma NumberInv.processAck
    (h : NumberInv d1 sealedRecords) (ssl : SslContext) (ackRecord : RecordNumber) (data : Bytes) :
    NumberInv (dtls1ProcessAck ssl ackRecord data d1).1 sealedRecords := by
  unfold dtls1ProcessAck
  split_ifs
  · exact h
  · exact h
  rcases ackContents data with _ | contents
  · exact h
  have hfold := h.keeps (.foldl_ackRecordNumber
    (parseRecordNumbers ackRecord.epoch contents.length contents).1 d1)
  simp only []
  split
  · exact hfold
  · split_ifs
    · exact hfold.finishAckedFlight ssl
    · exact hfold.keeps ⟨rfl, filter_sublist⟩

end BoringSSL
