import BoringSSL.Proofs.DtlsFlight

/-!
# How large a handshake record gets

The fragments packed into a record fill it as `fillRecord` says, and the room they have comes from
the size of the packet alone.  So `seal_next_record` keeps to the limit on records just when the
room or the fragments do (`sealNextRecord_keepsLimit_iff`), and a large MTU lets it exceed the limit
(`sealNextRecord_exceeds_limit`).
-/

namespace BoringSSL

open ByteLib

variable {room seq : ℕ} {hm : HandshakeMessage} {m : DtlsOutgoingMessage}

lemma fillRecord_le : ∀ {used : ℕ} (lens : List ℕ), used ≤ room →
    (fillRecord room used lens).1 ≤ room
  | used, [], h => h
  | used, n :: lens, h => by
    rw [fillRecord]
    split_ifs with h1 h2
    · exact h
    · exact le_rfl
    · exact fillRecord_le lens (by omega)

@[simp] lemma packedLen_zero (lens : List ℕ) : packedLen lens 0 = 0 := rfl

@[simp] lemma packedLen_succ (n : ℕ) (lens : List ℕ) (k : ℕ) :
    packedLen (n :: lens) (k + 1) = dtls1HmHeaderLength + n + packedLen lens k := rfl

/-- The fill is within a limit that the room exceeds just when the fragments stop short of it. -/
lemma fillRecord_le_iff {limit : ℕ} (hroom : limit < room) :
    ∀ {used : ℕ} (lens : List ℕ), used ≤ room →
      ((fillRecord room used lens).1 ≤ limit ↔ ∃ k ≤ lens.length, used + packedLen lens k ≤ limit
        ∧ (k = lens.length ∨ room < used + packedLen lens k + dtls1HmHeaderLength + 1))
  | used, [], _ => by simp [fillRecord, packedLen]
  | used, n :: lens, h => by
    rw [fillRecord]
    split_ifs with h1 h2
    · constructor
      · exact fun hl => ⟨0, Nat.zero_le _, hl, .inr (by rw [packedLen_zero]; omega)⟩
      · rintro ⟨k, -, hk, -⟩
        exact (Nat.le_add_right _ _).trans hk
    · refine ⟨fun hl => absurd hl (not_le.mpr hroom), ?_⟩
      rintro ⟨_ | k, -, hk, hstop⟩
      · simp only [packedLen_zero, List.length_cons, Nat.right_eq_add, Nat.add_eq_zero_iff,
          Nat.one_ne_zero, and_false, false_or] at hstop
        omega
      · rw [packedLen_succ] at hk
        omega
    · rw [fillRecord_le_iff hroom lens (by omega)]
      constructor
      · rintro ⟨k, hk, hsum, hstop⟩
        refine ⟨k + 1, Nat.succ_le_succ hk, ?_, ?_⟩ <;> rw [packedLen_succ]
        · omega
        · exact hstop.imp (congrArg (· + 1)) fun _ => by omega
      · rintro ⟨_ | k, hk, hsum, hstop⟩
        · simp only [packedLen_zero, List.length_cons, Nat.right_eq_add, Nat.add_eq_zero_iff,
            Nat.one_ne_zero, and_false, false_or] at hstop
          omega
        · rw [packedLen_succ] at hsum hstop
          exact ⟨k, Nat.le_of_succ_le_succ hk, by omega, hstop.imp Nat.succ.inj fun _ => by omega⟩

lemma lensWithinLimit_iff (room : ℕ) (lens : List ℕ) :
    LensWithinLimit room lens ↔ (fillRecord room 0 lens).1 ≤ ssl3RtMaxPlainLength := by
  unfold LensWithinLimit
  by_cases hroom : room ≤ ssl3RtMaxPlainLength
  · have : (fillRecord room 0 lens).1 ≤ room := fillRecord_le lens (Nat.zero_le room)
    exact iff_of_true (.inl hroom) (this.trans hroom)
  · rw [fillRecord_le_iff (Nat.lt_of_not_le hroom) lens (Nat.zero_le room)]
    simp [hroom]

lemma SslAead.ciphertextLen_ne_none (aead : SslAead) {n extra : ℕ} (hn : n ≤ ssl3RtMaxPlainLength)
    (he : extra ≤ 1) : aead.ciphertextLen n extra ≠ none := by
  have hn' : n ≤ 16384 := hn
  have hlen : aead.suffixLen n extra + aead.explicitNonceLen + n < 0xffff := by
    cases aead <;>
      simp only [suffixLen, explicitNonceLen, isNullCipher, cbc, Bool.false_eq_true, if_false,
        if_true] <;> omega
  simp only [ciphertextLen]
  rw [if_neg (by omega)]
  simp

section Limit

variable {ssl : SslContext} {outSize : ℕ} {d1 : Dtls1State}

/-- Sealing plaintext that fits the room keeps to the limit just when the plaintext does, unless
there is no record number. -/
lemma dtlsSealRecord_limit (type : UInt8) {plaintext : Bytes} {epoch : UInt16}
    (hlen : plaintext.length ≤ dtlsSealMaxInputLen ssl d1 epoch outSize)
    (hpos : 0 < dtlsSealMaxInputLen ssl d1 epoch outSize) :
    ((∀ r, dtlsSealRecord ssl d1 outSize type plaintext epoch = .ok r →
          r.1.plaintext.length ≤ ssl3RtMaxPlainLength)
        ∧ dtlsSealRecord ssl d1 outSize type plaintext epoch ≠ .error .recordTooLarge)
      ↔ (∃ e, getWriteEpoch d1 epoch = some e ∧ e.nextRecord.next? = none)
        ∨ plaintext.length ≤ ssl3RtMaxPlainLength := by
  rcases hg : getWriteEpoch d1 epoch with _ | e
  · simp [dtlsSealMaxInputLen, hg] at hpos
  simp only [Option.some.injEq, exists_eq_left']
  rcases hs : dtlsSealRecord ssl d1 outSize type plaintext epoch with error | ⟨record, d1'⟩
  · have herror := dtlsSealRecord_error hs hlen hpos
    rw [dtlsSealRecord, hg] at hs
    rcases hn : e.nextRecord.next? with _ | next
    · simp only [hn, Except.error.injEq] at hs
      simp [← hs]
    rcases hc : e.aead.ciphertextLen plaintext.length
      (if useDtls13RecordHeader ssl epoch then 1 else 0) with _ | c
    · simp only [hn, hc, Except.error.injEq] at hs
      have hlong : ¬ plaintext.length ≤ ssl3RtMaxPlainLength := fun h =>
        e.aead.ciphertextLen_ne_none h (by split_ifs <;> omega) hc
      simp [← hs, hlong]
    · grind
  · obtain ⟨next, hseals, -⟩ := dtlsSealRecord_ok hs
    obtain ⟨e', he', hnum⟩ := hseals.writeEpoch
    obtain rfl : e = e' := by simpa [hg] using he'
    simp [hnum, hseals.next, hseals.plaintext]

lemma keepsLimit_none {result : SealResult} (h : result ≠ .error (some .recordTooLarge)) :
    KeepsLimit (result, none, d1) := ⟨by simp, h⟩

lemma sealHandshake_keepsLimit (hwf : ∀ m ∈ d1.outgoingMessages, m.WellFormed)
    (hout : outSize < sizeMod) (hroom : 0 < dtlsSealMaxInputLen ssl d1 m.epoch outSize) :
    KeepsLimit (sealHandshake ssl outSize d1 m) ↔
      (∃ e, getWriteEpoch d1 m.epoch = some e ∧ e.nextRecord.next? = none)
        ∨ (fillRecord (dtlsSealMaxInputLen ssl d1 m.epoch outSize) 0
          (recordLens m.epoch (m.epoch != 0)
          (d1.outgoingMessages.drop d1.outgoingWritten) d1.outgoingOffset)).1
            ≤ ssl3RtMaxPlainLength := by
  obtain ⟨frags, r, hp, hnothing, herror, hok⟩ := sealHandshake_packed hwf hout hroom
  have hfill : (fillRecord (dtlsSealMaxInputLen ssl d1 m.epoch outSize) 0 (recordLens m.epoch
      (m.epoch != 0) (d1.outgoingMessages.drop d1.outgoingWritten) d1.outgoingOffset)).1
        = (encodeRecord frags).length := hp.fill
  rw [hfill]
  by_cases hnil : frags = []
  · refine iff_of_true ?_ (.inr (by simp [hnil, encodeRecord]))
    rw [hnothing hnil]
    exact keepsLimit_none (by split_ifs <;> simp)
  have hshort : (encodeRecord frags).length ≤ dtlsSealMaxInputLen ssl d1 m.epoch outSize := by
    simpa using hp.stands.length_le
  have hlimit := dtlsSealRecord_limit ssl3RtHandshake (show (encodeRecord frags).length
    ≤ dtlsSealMaxInputLen ssl (d1.seek r.2.written r.2.offset) m.epoch outSize from hshort) hroom
  refine Iff.trans ?_ hlimit
  rcases hs : dtlsSealRecord ssl (d1.seek r.2.written r.2.offset) outSize ssl3RtHandshake
      (encodeRecord frags) m.epoch with error | ⟨record, d1'⟩
  · rw [herror hnil error hs]
    simp [KeepsLimit]
  · rw [hok hnil record d1' hs]
    rcases hp.result with h | h <;> simp [KeepsLimit, h]

lemma sealCcs_keepsLimit (hroom : 0 < dtlsSealMaxInputLen ssl d1 m.epoch outSize) :
    KeepsLimit (sealCcs ssl outSize d1 m) := by
  obtain ⟨h1, h2⟩ := (dtlsSealRecord_limit ssl3RtChangeCipherSpec
    (show [1].length ≤ dtlsSealMaxInputLen ssl d1 m.epoch outSize from hroom) hroom).mpr
    (.inr (by decide))
  rw [sealCcs]
  rcases hs : dtlsSealRecord ssl d1 outSize ssl3RtChangeCipherSpec [1] m.epoch
    with error | ⟨record, d1'⟩
  · rw [hs] at h2
    exact keepsLimit_none (by simpa using h2)
  · exact ⟨fun r hr => by simpa [← Option.some.inj hr] using h1 _ hs, by simp⟩

lemma sealNextRecord_keepsLimit_fill (hwf : ∀ m ∈ d1.outgoingMessages, m.WellFormed)
    (hout : outSize < sizeMod) {w o : ℕ}
    (hskip : skipAcked (d1.outgoingMessages.drop d1.outgoingWritten) d1.outgoingWritten
      d1.outgoingOffset = (w, o)) :
    KeepsLimit (sealNextRecord ssl outSize d1) ↔
      ∀ m, d1.outgoingMessages[w]? = some m → m.isCcs = false →
        (∃ e, getWriteEpoch d1 m.epoch = some e ∧ e.nextRecord.next? = none)
          ∨ (fillRecord (dtlsSealMaxInputLen ssl d1 m.epoch outSize) 0 (recordLens m.epoch
            (m.epoch != 0) (d1.outgoingMessages.drop w) o)).1 ≤ ssl3RtMaxPlainLength := by
  rw [sealNextRecord, hskip]
  simp only [seek_outgoingMessages, seek_outgoingWritten]
  rcases hget : d1.outgoingMessages[w]? with _ | m
  · exact iff_of_true (keepsLimit_none (by simp)) (by simp)
  simp only [Option.some.injEq, forall_eq']
  by_cases hroom : dtlsSealMaxInputLen ssl (d1.seek w o) m.epoch outSize = 0
  · rw [if_pos hroom]
    refine iff_of_true (keepsLimit_none (by simp)) fun _ => .inr ?_
    rw [dtlsSealMaxInputLen_seek] at hroom
    rw [hroom]
    exact (fillRecord_le _ le_rfl).trans (Nat.zero_le _)
  have hpos := Nat.pos_of_ne_zero hroom
  split_ifs with hccs
  · exact iff_of_true (sealCcs_keepsLimit hpos) (by simp [hccs])
  · rw [sealHandshake_keepsLimit (by exact hwf) hout hpos]
    simp only [hccs, forall_const]
    rfl

/-- `seal_next_record` keeps to the limit on records just when the room for the next record, or the
fragments for it, do. -/
theorem sealNextRecord_keepsLimit_iff (hwf : ∀ m ∈ d1.outgoingMessages, m.WellFormed)
    (hout : outSize < sizeMod) :
    KeepsLimit (sealNextRecord ssl outSize d1) ↔ NextWithinLimit ssl outSize d1 := by
  rw [sealNextRecord_keepsLimit_fill hwf hout rfl]
  simp only [NextWithinLimit, lensWithinLimit_iff]

end Limit

theorem sealNextRecord_keepsLimit_shortFlight :
    let d1 : Dtls1State := { Dtls1State.new with outgoingMessages := shortFlight }
    NextWithinLimit (plainEnv true).ssl 20000 d1
      ∧ KeepsLimit (sealNextRecord (plainEnv true).ssl 20000 d1) := by
  intro d1
  have hnext : NextWithinLimit (plainEnv true).ssl 20000 d1 := fun m hm _ => by
    cases hm
    exact .inr ((lensWithinLimit_iff _ _).mpr (by decide +kernel))
  exact ⟨hnext, (sealNextRecord_keepsLimit_iff shortFlight_wellFormed (by decide)).mpr hnext⟩

lemma fragmentLens_init (h : m.Sends hm seq)
    (hacked : m.acked = .init (max hm.body.length 1)) (fuel : ℕ) :
    m.fragmentLens (fuel + 2) 0 = [hm.body.length] := by
  have hmarked := (DtlsMessageBitmap.init_spec (max hm.body.length 1)).2
  rw [← hacked] at hmarked
  have hr : m.acked.nextUnmarkedRange 0 = ⟨0, max hm.body.length 1⟩ := by
    rcases DtlsMessageBitmap.nextUnmarkedRange_spec h.ok 0 with ⟨-, hall⟩ | hr
    · have := (hmarked 0).mp (hall 0 le_rfl)
      omega
    · generalize m.acked.nextUnmarkedRange 0 = r at hr
      obtain ⟨start, stop⟩ := r
      have h1 := hr.lt
      have h2 := (hmarked stop).mp hr.stop
      have h3 := h.stop_le hr
      have h4 : ¬ 0 < start := fun hs => by
        have := (hmarked 0).mp (hr.before 0 le_rfl hs)
        omega
      simp only [] at h1 h2 h3 h4
      congr <;> omega
  have hnext : m.acked.nextUnmarkedRange (max hm.body.length 1) = ⟨0, 0⟩ := by
    rcases DtlsMessageBitmap.nextUnmarkedRange_spec h.ok (max hm.body.length 1) with ⟨hr, -⟩ | hr
    · exact hr
    · exact absurd ((hmarked _).mpr hr.le) (hr.unmarked _ le_rfl hr.lt)
  simp only [DtlsOutgoingMessage.fragmentLens, DtlsOutgoingMessage.ranges, hr, hnext, h.msgLen]
  rcases hl : hm.body.length with _ | n <;> simp [BitmapRange.empty, BitmapRange.size]

lemma dtls1AddMessage_new (ssl : SslContext) (mtu : UInt32) (data : Bytes) :
    dtls1AddMessage ssl { Dtls1State.new with mtu := mtu } data
      = (true, { Dtls1State.new with
          mtu := mtu
          handshakeWriteSeq := 1
          outgoingMessages :=
            [⟨data, 0, false, .init (max (data.length - dtls1HmHeaderLength) 1)⟩] }) :=
  rfl

/-- A message longer than a record may be, in a packet with room for it, is sealed as one record. -/
lemma not_keepsLimit_of_long {ssl : SslContext} {outSize : ℕ} {d1 : Dtls1State}
    (hout : outSize < sizeMod) (hmessages : d1.outgoingMessages = [m]) (hw : d1.outgoingWritten = 0)
    (ho : d1.outgoingOffset = 0) (hs : m.Sends hm seq)
    (hacked : m.acked = .init (max hm.body.length 1))
    (hnext : ∀ e, getWriteEpoch d1 m.epoch = some e → e.nextRecord.next? ≠ none)
    (hlong : ssl3RtMaxPlainLength < dtls1HmHeaderLength + hm.body.length)
    (hroom : dtls1HmHeaderLength + hm.body.length ≤ dtlsSealMaxInputLen ssl d1 m.epoch outSize) :
    ¬ KeepsLimit (sealNextRecord ssl outSize d1) := by
  have hh : dtls1HmHeaderLength = 12 := rfl
  have hl : ssl3RtMaxPlainLength = 16384 := rfl
  have hbit : ¬ m.acked.Marked 0 := by
    rw [hacked, (DtlsMessageBitmap.init_spec _).2]
    omega
  have hfull : m.isFullyAcked = false := by
    have : ¬ m.acked.isComplete = true := fun h =>
      hbit ((DtlsMessageBitmap.isComplete_iff hs.ok).mp h 0)
    simp [DtlsOutgoingMessage.isFullyAcked, this]
  have hfuel := DtlsMessageBitmap.not_marked_lt hbit
  obtain ⟨fuel, hf⟩ : ∃ fuel, m.acked.bytes.length * 8 + 1 = fuel + 2 :=
    ⟨m.acked.bytes.length * 8 - 1, by omega⟩
  have hlens : recordLens m.epoch (m.epoch != 0) [m] 0 = [hm.body.length] := by
    simp [recordLens, hs.isCcs, hf, fragmentLens_init hs hacked]
  have hwf : ∀ m' ∈ d1.outgoingMessages, m'.WellFormed := by
    have : m.WellFormed := .inr ⟨hm, seq, hs⟩
    simpa [hmessages] using this
  rw [sealNextRecord_keepsLimit_fill (w := 0) (o := 0) hwf hout
    (by simp [hmessages, hw, ho, skipAcked, hfull])]
  intro h
  rcases h m (by simp [hmessages]) hs.isCcs with ⟨e, he, hn⟩ | h
  · exact hnext e he hn
  · rw [hmessages, List.drop_zero, hlens] at h
    simp only [fillRecord] at h
    rw [if_neg (by omega), if_neg (by omega)] at h
    omega

/-- With an MTU of 20000, a message of 17000 bytes is sealed as one record. -/
theorem sealNextRecord_exceeds_limit : ∃ (hm : HandshakeMessage) (ssl : SslContext),
    (sslSetMtu Dtls1State.new 20000).1 = true
      ∧ ¬ KeepsLimit
        (sealNextRecord ssl 20000 (dtls1AddMessage ssl (sslSetMtu Dtls1State.new 20000).2
        ((hm.header 0).encode ++ hm.body)).2) := by
  obtain ⟨hm, hlen⟩ : ∃ hm : HandshakeMessage, hm.body.length = 17000 :=
    ⟨⟨11, List.replicate 17000 0, by rw [List.length_replicate]; decide⟩, List.length_replicate⟩
  refine ⟨hm, (plainEnv true).ssl, by decide, ?_⟩
  have hset : (sslSetMtu Dtls1State.new 20000).2 = { Dtls1State.new with mtu := 20000 } := by decide
  rw [hset, dtls1AddMessage_new]
  refine not_keepsLimit_of_long (by decide) rfl rfl rfl
    (sends_init hm (by decide) rfl 0) ?_ ?_ ?_ ?_
  · simp only [List.length_append, HmHeader.encode_length, Nat.add_sub_cancel_left]
  · intro e he
    obtain rfl : e = ⟨⟨0, 0⟩, .nullCipher⟩ := by
      simpa [getWriteEpoch, Dtls1State.new, DtlsWriteEpoch.epoch, eq_comm] using he
    decide
  · rw [hlen]
    decide
  · rw [hlen]
    exact (by decide : dtls1HmHeaderLength + 17000
      ≤ dtlsSealMaxInputLen (plainEnv true).ssl Dtls1State.new 0 20000)

end BoringSSL
