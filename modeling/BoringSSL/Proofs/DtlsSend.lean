import BoringSSL.Proofs.DtlsPack

/-!
# Sealing the next record

`SealStep` says all that `seal_next_record` can do with a flight of well-formed messages.  It can
fail its assertion only from a place in the flight that sending never stops at.
-/

namespace BoringSSL

open ByteLib List

variable {type : UInt8} {record : SealedRecord} {ssl : SslContext} {d1 : Dtls1State}
  {w o outSize : ℕ} {next : RecordNumber} {epoch : UInt16} {frags : List Fragment}
  {m : DtlsOutgoingMessage}

lemma SslAead.ciphertext_le (aead : SslAead) (maxOut n extra : ℕ) (he : extra ≤ 1)
    (h : 0 < aead.maxSealInputLen maxOut) (hn : n + extra ≤ aead.maxSealInputLen maxOut) :
    aead.suffixLen n extra + aead.explicitNonceLen + n ≤ maxOut := by
  generalize hM : aead.maxSealInputLen maxOut = M at h hn
  cases aead <;>
    simp only [maxSealInputLen, explicitNonceLen, isNullCipher, cbc, evpMaxOverhead, suffixLen,
      Bool.false_eq_true, if_false, if_true] at hM ⊢ <;>
    split_ifs at hM <;> omega

lemma SslAead.maxSealInputLen_le (aead : SslAead) (maxOut : ℕ)
    (h : 0 < aead.maxSealInputLen maxOut) :
    aead.explicitNonceLen + aead.maxSealInputLen maxOut ≤ maxOut := by
  generalize hM : aead.maxSealInputLen maxOut = M at h
  cases aead <;>
    simp only [maxSealInputLen, explicitNonceLen, isNullCipher, cbc, evpMaxOverhead,
      Bool.false_eq_true, if_false, if_true] at hM ⊢ <;>
    split_ifs at hM <;> omega

section Seal

variable {ssl : SslContext} {d1 d1' : Dtls1State} {epoch : UInt16} {outSize : ℕ}

lemma dtlsSealMaxInputLen_le (h : 0 < dtlsSealMaxInputLen ssl d1 epoch outSize) :
    dtlsSealPrefixLen ssl d1 epoch + dtlsSealMaxInputLen ssl d1 epoch outSize ≤ outSize := by
  rw [dtlsSealPrefixLen]
  rw [dtlsSealMaxInputLen] at h ⊢
  rcases hg : getWriteEpoch d1 epoch with _ | e
  · simp [hg] at h
  simp only [hg] at h ⊢
  set header := dtlsRecordHeaderWriteLen ssl epoch
  have hle := e.aead.maxSealInputLen_le (outSize - header)
  split_ifs at h ⊢ with h1 h2 <;> omega

/-- What sealing a record gives. -/
structure Seals (ssl : SslContext) (d1 : Dtls1State) (outSize : ℕ) (type : UInt8)
    (plaintext : Bytes) (epoch : UInt16) (record : SealedRecord) (next : RecordNumber) : Prop where
  writeEpoch : ∃ e, getWriteEpoch d1 epoch = some e ∧ e.nextRecord = record.number
  next : record.number.next? = some next
  type : record.type = type
  plaintext : record.plaintext = plaintext
  pos : 0 < record.len
  le : record.len ≤ outSize

lemma dtlsRecordHeaderWriteLen_pos (ssl : SslContext) (epoch : UInt16) :
    0 < dtlsRecordHeaderWriteLen ssl epoch := by
  unfold dtlsRecordHeaderWriteLen
  split_ifs <;> decide

lemma dtlsSealRecord_ok {plaintext : Bytes}
    (h : dtlsSealRecord ssl d1 outSize type plaintext epoch = .ok (record, d1')) :
    ∃ next, Seals ssl d1 outSize type plaintext epoch record next
      ∧ d1' = d1.setNextRecord next := by
  have hpos := dtlsRecordHeaderWriteLen_pos ssl epoch
  unfold dtlsSealRecord at h
  rcases hg : getWriteEpoch d1 epoch with _ | e
  · simp [hg] at h
  rcases hn : e.nextRecord.next? with _ | next
  · simp [hg, hn] at h
  rcases hc : e.aead.ciphertextLen plaintext.length
    (if useDtls13RecordHeader ssl epoch then 1 else 0) with _ | c
  · simp [hg, hn, hc] at h
  simp only [hg, hn, hc] at h
  split_ifs at h with hle
  obtain ⟨rfl, rfl⟩ := h
  exact ⟨next, ⟨⟨e, hg, rfl⟩, hn, rfl, rfl, by simp only []; omega, by simp only []; omega⟩, rfl⟩

/-- Plaintext that fits the room is refused only for want of a record number, or for its length. -/
lemma dtlsSealRecord_error {plaintext : Bytes} {error : SealError}
    (h : dtlsSealRecord ssl d1 outSize type plaintext epoch = .error error)
    (hlen : plaintext.length ≤ dtlsSealMaxInputLen ssl d1 epoch outSize)
    (hpos : 0 < dtlsSealMaxInputLen ssl d1 epoch outSize) :
    error = .overflow ∨ error = .recordTooLarge := by
  unfold dtlsSealRecord at h
  rw [dtlsSealMaxInputLen] at hlen hpos
  rcases hg : getWriteEpoch d1 epoch with _ | e
  · simp [hg] at hpos
  rcases hn : e.nextRecord.next? with _ | next
  · simp [hg, hn] at h
    exact .inl h.symm
  rcases hc : e.aead.ciphertextLen plaintext.length
    (if useDtls13RecordHeader ssl epoch then 1 else 0) with _ | c
  · simp [hg, hn, hc] at h
    exact .inr h.symm
  simp only [hg, hn, hc] at h hlen hpos
  split_ifs at h with hsmall
  set header := dtlsRecordHeaderWriteLen ssl epoch
  have hcl : c = e.aead.suffixLen plaintext.length
      (if useDtls13RecordHeader ssl epoch then 1 else 0)
      + e.aead.explicitNonceLen + plaintext.length := by
    simp only [SslAead.ciphertextLen] at hc
    split_ifs at hc <;> simp_all
  have hle := e.aead.ciphertext_le (outSize - header) plaintext.length
    (if useDtls13RecordHeader ssl epoch then 1 else 0) (by split_ifs <;> omega)
  rw [← hcl] at hle
  by_cases hroom : outSize ≤ header
  · simp [if_pos hroom] at hpos
  rw [if_neg hroom] at hlen hpos
  by_cases hd : useDtls13RecordHeader ssl epoch <;>
    simp only [hd, and_true, if_true, Bool.false_eq_true, and_false, if_false] at hle hlen hpos
  · split_ifs at hlen hpos <;> omega
  · omega

end Seal

lemma Seals.of_seek {plaintext : Bytes}
    (h : Seals ssl (d1.seek w o) outSize type plaintext epoch record next) :
    Seals ssl d1 outSize type plaintext epoch record next :=
  ⟨h.writeEpoch, h.next, h.type, h.plaintext, h.pos, h.le⟩

lemma Seals.to_seek {plaintext : Bytes}
    (h : Seals ssl d1 outSize type plaintext epoch record next) (w o : ℕ) :
    Seals ssl (d1.seek w o) outSize type plaintext epoch record next :=
  ⟨h.writeEpoch, h.next, h.type, h.plaintext, h.pos, h.le⟩

section Frame

variable (ssl : SslContext) (d1 : Dtls1State) (w o : ℕ) (next : RecordNumber) (r : DtlsSentRecord)

@[simp] lemma seek_outgoingMessages : (d1.seek w o).outgoingMessages = d1.outgoingMessages := rfl
@[simp] lemma seek_outgoingWritten : (d1.seek w o).outgoingWritten = w := rfl
@[simp] lemma seek_outgoingOffset : (d1.seek w o).outgoingOffset = o := rfl
@[simp] lemma seek_mtu : (d1.seek w o).mtu = d1.mtu := rfl

@[simp] lemma dtlsSealMaxInputLen_seek (epoch : UInt16) (outSize : ℕ) :
    dtlsSealMaxInputLen ssl (d1.seek w o) epoch outSize
      = dtlsSealMaxInputLen ssl d1 epoch outSize := rfl

lemma setNextRecord_eq : ∃ e es, d1.setNextRecord next
    = { d1 with writeEpoch := e, extraWriteEpochs := es } := by
  unfold Dtls1State.setNextRecord
  split_ifs
  · exact ⟨_, d1.extraWriteEpochs, rfl⟩
  · exact ⟨d1.writeEpoch, _, rfl⟩

@[simp] lemma setNextRecord_outgoingMessages :
    (d1.setNextRecord next).outgoingMessages = d1.outgoingMessages := by
  obtain ⟨e, es, h⟩ := setNextRecord_eq d1 next
  rw [h]
@[simp] lemma setNextRecord_outgoingWritten :
    (d1.setNextRecord next).outgoingWritten = d1.outgoingWritten := by
  obtain ⟨e, es, h⟩ := setNextRecord_eq d1 next
  rw [h]
@[simp] lemma setNextRecord_outgoingOffset :
    (d1.setNextRecord next).outgoingOffset = d1.outgoingOffset := by
  obtain ⟨e, es, h⟩ := setNextRecord_eq d1 next
  rw [h]
@[simp] lemma setNextRecord_mtu : (d1.setNextRecord next).mtu = d1.mtu := by
  obtain ⟨e, es, h⟩ := setNextRecord_eq d1 next
  rw [h]

lemma pushSentRecord_eq : ∃ sent, d1.pushSentRecord ssl r = { d1 with sentRecords := sent } := by
  unfold Dtls1State.pushSentRecord
  split_ifs
  · exact ⟨_, rfl⟩
  · exact ⟨d1.sentRecords, rfl⟩

@[simp] lemma pushSentRecord_outgoingMessages :
    (d1.pushSentRecord ssl r).outgoingMessages = d1.outgoingMessages := by
  obtain ⟨sent, h⟩ := pushSentRecord_eq ssl d1 r
  rw [h]
@[simp] lemma pushSentRecord_outgoingWritten :
    (d1.pushSentRecord ssl r).outgoingWritten = d1.outgoingWritten := by
  obtain ⟨sent, h⟩ := pushSentRecord_eq ssl d1 r
  rw [h]
@[simp] lemma pushSentRecord_outgoingOffset :
    (d1.pushSentRecord ssl r).outgoingOffset = d1.outgoingOffset := by
  obtain ⟨sent, h⟩ := pushSentRecord_eq ssl d1 r
  rw [h]
@[simp] lemma pushSentRecord_mtu : (d1.pushSentRecord ssl r).mtu = d1.mtu := by
  obtain ⟨sent, h⟩ := pushSentRecord_eq ssl d1 r
  rw [h]

end Frame

/-- What `seal_next_record` can do with a flight of well-formed messages. -/
inductive SealStep (ssl : SslContext) (outSize : ℕ) (d1 : Dtls1State) :
    SealResult × Option SealedRecord × Dtls1State → Prop
  | finished {w o : ℕ} :
    Moves d1.outgoingMessages d1.outgoingWritten d1.outgoingOffset w o [] →
    d1.outgoingMessages.length ≤ w → SealStep ssl outSize d1 (.flush, none, d1.seek w o)
  | noRoom {w o : ℕ} {m : DtlsOutgoingMessage} :
    Moves d1.outgoingMessages d1.outgoingWritten d1.outgoingOffset w o [] →
    m ∈ d1.outgoingMessages → m.isFullyAcked = false →
    dtlsSealMaxInputLen ssl d1 m.epoch outSize
      < (if m.isCcs then 1 else dtls1HmHeaderLength + 1) →
    SealStep ssl outSize d1 (.flush, none, d1.seek w o)
  | ccs {w o : ℕ} {epoch : UInt16} {record : SealedRecord} {next : RecordNumber} :
    Moves d1.outgoingMessages d1.outgoingWritten d1.outgoingOffset w o [] →
    Moves d1.outgoingMessages w o (w + 1) 0 record.items → record.items ≠ [] →
    Seals ssl d1 outSize ssl3RtChangeCipherSpec [1] epoch record next →
    SealStep ssl outSize d1
      (.continue, some record, ((d1.seek w o).setNextRecord next).seek (w + 1) 0)
  | handshake {w₀ o₀ w o : ℕ} {result : SealResult} {epoch : UInt16} {plaintext : Bytes}
      {record : SealedRecord} {next : RecordNumber} :
    result = .continue ∨ result = .flush →
    Moves d1.outgoingMessages d1.outgoingWritten d1.outgoingOffset w₀ o₀ [] →
    Moves d1.outgoingMessages w₀ o₀ w o record.items → record.items ≠ [] →
    Seals ssl d1 outSize ssl3RtHandshake plaintext epoch record next →
    SealStep ssl outSize d1 (result, some record,
      ((d1.seek w o).setNextRecord next).pushSentRecord ssl ⟨record.number, w₀, w, o₀, o⟩)
  | misplaced {w o : ℕ} {result : SealResult} :
    ¬ Place d1.outgoingMessages d1.outgoingWritten d1.outgoingOffset →
    SealStep ssl outSize d1 (result, none, d1.seek w o)
  | failed {w o : ℕ} {error : SealError} : error = .overflow ∨ error = .recordTooLarge →
    SealStep ssl outSize d1 (.error (some error), none, d1.seek w o)

section Step

variable {ssl : SslContext} {outSize : ℕ} {d1 : Dtls1State}

lemma PacksRecord.plaintext {all msgs : List DtlsOutgoingMessage} {allow : Bool}
    {size : ℕ} {s : PackState} {r : SealResult × PackState}
    (h : PacksRecord all epoch allow size msgs s [] frags r) :
    r.2.cbb.base.len = (encodeRecord frags).length
      ∧ r.2.cbb.base.buf.take r.2.cbb.base.len = encodeRecord frags := by
  have h1 := h.stands.holds.len
  have h2 := h.stands.holds.content
  simpa [layout] using And.intro h1 h2

lemma encodeRecord_eq_nil : (encodeRecord frags).length = 0 ↔ frags = [] := by
  rcases frags with _ | ⟨f, fs⟩
  · simp [encodeRecord]
  · have := f.encode_length_pos
    simp only [encodeRecord, flatMap_cons, length_append, reduceCtorEq, iff_false]
    omega

variable (hwf : ∀ m ∈ d1.outgoingMessages, m.WellFormed)

include hwf

lemma sealHandshake_packed (hout : outSize < sizeMod)
    (hroom : 0 < dtlsSealMaxInputLen ssl d1 m.epoch outSize) :
    ∃ frags r, PacksRecord d1.outgoingMessages m.epoch (m.epoch != 0)
        (dtlsSealMaxInputLen ssl d1 m.epoch outSize) (d1.outgoingMessages.drop d1.outgoingWritten)
        ⟨d1.outgoingWritten, d1.outgoingOffset,
          cbbInitFixed (replicate (dtlsSealMaxInputLen ssl d1 m.epoch outSize) ssl.fill)⟩ [] frags r
      ∧ (frags = [] → sealHandshake ssl outSize d1 m
        = (if r.1 = .continue then .assertFailed else .flush, none, d1.seek r.2.written r.2.offset))
      ∧ (frags ≠ [] → ∀ error, dtlsSealRecord ssl (d1.seek r.2.written r.2.offset) outSize
          ssl3RtHandshake (encodeRecord frags) m.epoch = .error error →
        sealHandshake ssl outSize d1 m
          = (.error (some error), none, d1.seek r.2.written r.2.offset))
      ∧ (frags ≠ [] → ∀ record d1', dtlsSealRecord ssl (d1.seek r.2.written r.2.offset) outSize
          ssl3RtHandshake (encodeRecord frags) m.epoch = .ok (record, d1') →
        sealHandshake ssl outSize d1 m = (r.1, some record, d1'.pushSentRecord ssl
          ⟨record.number, d1.outgoingWritten, r.2.written, d1.outgoingOffset, r.2.offset⟩)) := by
  have hle := dtlsSealMaxInputLen_le hroom
  have hst := (CbbRoot.fixed ⟨replicate (dtlsSealMaxInputLen ssl d1 m.epoch outSize) ssl.fill,
    by rw [length_replicate]; omega⟩).stands
  simp only [CbbRoot.cbb, CbbRoot.limit, length_replicate] at hst
  obtain ⟨frags, hp⟩ := packMessages_packs hwf m.epoch (m.epoch != 0) _
    (d1.outgoingMessages.drop d1.outgoingWritten) ⟨d1.outgoingWritten, d1.outgoingOffset,
      cbbInitFixed (replicate (dtlsSealMaxInputLen ssl d1 m.epoch outSize) ssl.fill)⟩ rfl hst
  have hsize : min (dtlsSealMaxInputLen ssl d1 m.epoch outSize)
      (outSize - dtlsSealPrefixLen ssl d1 m.epoch) = dtlsSealMaxInputLen ssl d1 m.epoch outSize :=
    min_eq_left (by omega)
  refine ⟨frags, _, hp, ?_⟩
  rw [sealHandshake, hsize]
  generalize packMessages m.epoch _ _ _ _ = r at hp ⊢
  obtain ⟨hlen, hplain⟩ := hp.plaintext
  have hcond : ¬ (r.1 ≠ .continue ∧ r.1 ≠ .flush) := by
    rcases hp.result with h | h <;> simp [h]
  rw [hlen] at hplain
  simp only [if_neg hcond, hlen, hplain, encodeRecord_eq_nil]
  refine ⟨fun hnil => by rw [if_pos hnil], fun hnil error hs => ?_, fun hnil record d1' hs => ?_⟩
  · rw [if_neg hnil, hs]
  · rw [if_neg hnil, hs]

lemma sealHandshake_step (hout : outSize < sizeMod)
    (hmove : Moves d1.outgoingMessages d1.outgoingWritten d1.outgoingOffset w o [])
    (hget : d1.outgoingMessages[w]? = some m) (hacked : m.isFullyAcked = false)
    (hbits : Place d1.outgoingMessages d1.outgoingWritten d1.outgoingOffset → m.bits o ≠ [])
    (hccs : m.isCcs = false) (hroom : 0 < dtlsSealMaxInputLen ssl d1 m.epoch outSize) :
    SealStep ssl outSize d1 (sealHandshake ssl outSize (d1.seek w o) m) := by
  obtain ⟨frags, r, hp, hnothing, herror, hok⟩ := sealHandshake_packed
    (show ∀ m ∈ (d1.seek w o).outgoingMessages, m.WellFormed from hwf) hout
    (show 0 < dtlsSealMaxInputLen ssl (d1.seek w o) m.epoch outSize from hroom)
  have hmoves := hp.moves
  by_cases hnil : frags = []
  · by_cases hplace : Place d1.outgoingMessages d1.outgoingWritten d1.outgoingOffset
    swap
    · rw [hnothing hnil]
      exact .misplaced hplace
    have hhead : (d1.outgoingMessages.drop w).head? = some m := by rw [head?_drop, hget]
    obtain ⟨hflush, hsmall⟩ := hp.nothing m hhead rfl hccs (hbits hplace) hnil
    rw [hnil] at hmoves
    rw [hnothing hnil, hflush]
    exact .noRoom (hmove.trans hmoves) (mem_of_getElem? hget) hacked (by simpa [hccs] using hsmall)
  have hshort : (encodeRecord frags).length ≤ dtlsSealMaxInputLen ssl d1 m.epoch outSize := by
    simpa using hp.stands.length_le
  rcases hs : dtlsSealRecord ssl ((d1.seek w o).seek r.2.written r.2.offset) outSize ssl3RtHandshake
      (encodeRecord frags) m.epoch with error | ⟨record, d1'⟩
  · rw [herror hnil error hs]
    exact .failed (dtlsSealRecord_error hs hshort hroom)
  · rw [hok hnil record d1' hs]
    obtain ⟨next, hseals, rfl⟩ := dtlsSealRecord_ok hs
    have hitems := items_encodeRecord hseals.type hseals.plaintext
    rw [← hitems] at hmoves
    refine .handshake hp.result hmove hmoves ?_ hseals.of_seek.of_seek
    rw [hitems]
    intro h
    obtain ⟨f, fs, rfl⟩ := exists_cons_of_ne_nil hnil
    exact f.items_ne_nil (append_eq_nil_iff.mp h).1

lemma sealNextRecord_step (hout : outSize < sizeMod) :
    SealStep ssl outSize d1 (sealNextRecord ssl outSize d1) := by
  obtain ⟨hmove, hstop⟩ := skipAcked_moves hwf _ (w := d1.outgoingWritten)
    (o := d1.outgoingOffset) rfl
  rw [sealNextRecord]
  generalize skipAcked _ _ _ = skipped at *
  obtain ⟨w, o⟩ := skipped
  simp only [seek_outgoingMessages, seek_outgoingWritten] at *
  rcases hget : d1.outgoingMessages[w]? with _ | m
  · exact .finished hmove (List.getElem?_eq_none_iff.mp hget)
  obtain ⟨hacked, hbits⟩ := hstop m hget
  simp only []
  by_cases hroom : dtlsSealMaxInputLen ssl (d1.seek w o) m.epoch outSize = 0
  · rw [if_pos hroom]
    rw [dtlsSealMaxInputLen_seek] at hroom
    refine .noRoom hmove (mem_of_getElem? hget) hacked ?_
    rw [hroom]
    split_ifs <;> decide
  split_ifs with hccs
  · rw [sealCcs]
    have hdata : m.data = [] := by
      rcases hwf m (mem_of_getElem? hget) with h | ⟨hm, seq, h⟩
      · exact h.2
      · simp [h.isCcs] at hccs
    rcases hs : dtlsSealRecord ssl (d1.seek w o) outSize ssl3RtChangeCipherSpec [1] m.epoch
      with error | ⟨record, d1'⟩
    · have hpos := Nat.pos_of_ne_zero hroom
      exact .failed (dtlsSealRecord_error hs hpos hpos)
    · obtain ⟨next, hseals, rfl⟩ := dtlsSealRecord_ok hs
      have hitems : record.items = (m.bits o).map m.item := by
        have hnone : m.decode = none := by rw [DtlsOutgoingMessage.decode, hdata]; rfl
        simp [SealedRecord.items, hseals.type, DtlsOutgoingMessage.bits, hccs,
          DtlsOutgoingMessage.item, hnone]
      simp only [setNextRecord_outgoingWritten, seek_outgoingWritten]
      refine .ccs hmove ?_ ?_ hseals.of_seek
      · rw [hitems]
        exact Moves.next hget
      · simp [hitems, DtlsOutgoingMessage.bits, hccs]
  · exact sealHandshake_step hwf hout hmove hget hacked hbits (by simpa using hccs)
      (Nat.pos_of_ne_zero hroom)

end Step

end BoringSSL
