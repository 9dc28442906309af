import BoringSSL.Proofs.DtlsSend

/-!
# Sending a flight

A packet is sealed until a record says flush, and carries the next bits of the flight
(`sealNextPacket_spec`).  One that the transport does not take is sealed again from the same place,
so the packets taken carry what the flight was to carry, in order (`flightPass_send`).
-/

namespace BoringSSL

open ByteLib List Option

variable {d1 d1' : Dtls1State} {ssl : SslContext} {outSize : ℕ}

/-- What sealing leaves as it is. -/
def DtlsWriteEpoch.key (e : DtlsWriteEpoch) : UInt16 × SslAead := (e.epoch, e.aead)

lemma modify_findIdx_key (next : RecordNumber) : ∀ es : List DtlsWriteEpoch,
    ((es.modify (es.findIdx fun e => e.epoch == next.epoch) fun e =>
      { e with nextRecord := next }).map DtlsWriteEpoch.key) = es.map DtlsWriteEpoch.key
  | [] => rfl
  | e :: es => by
    rw [findIdx_cons]
    by_cases he : e.epoch = next.epoch
    · rw [beq_iff_eq.mpr he, cond_true, modify_zero_cons, map_cons, map_cons]
      exact congrArg (· :: _) (Prod.ext he.symm rfl)
    · rw [beq_eq_false_iff_ne.mpr he, cond_false, modify_succ_cons, map_cons, map_cons,
        modify_findIdx_key next es]

lemma getWriteEpoch_aead (h : (d1.writeEpoch :: d1.extraWriteEpochs).map DtlsWriteEpoch.key
      = (d1'.writeEpoch :: d1'.extraWriteEpochs).map DtlsWriteEpoch.key) (epoch : UInt16) :
    (getWriteEpoch d1 epoch).map DtlsWriteEpoch.aead
      = (getWriteEpoch d1' epoch).map DtlsWriteEpoch.aead := by
  have hfind : ∀ es : List DtlsWriteEpoch,
      (es.find? fun e => e.epoch == epoch).map DtlsWriteEpoch.aead
      = ((es.map DtlsWriteEpoch.key).find? fun k => k.1 == epoch).map Prod.snd := by
    intro es
    rw [find?_map, Option.map_map]
    rfl
  rw [getWriteEpoch, getWriteEpoch, hfind, hfind, h]

lemma setNextRecord_key (d1 : Dtls1State) (next : RecordNumber) :
    ((d1.setNextRecord next).writeEpoch :: (d1.setNextRecord next).extraWriteEpochs).map
      DtlsWriteEpoch.key = (d1.writeEpoch :: d1.extraWriteEpochs).map DtlsWriteEpoch.key := by
  unfold Dtls1State.setNextRecord
  split_ifs with h
  · simp only [map_cons, List.cons.injEq, and_true]
    exact Prod.ext h.symm rfl
  · simp only [map_cons, List.cons.injEq, true_and]
    exact modify_findIdx_key next d1.extraWriteEpochs

/-- The flight, the MTU and the ciphers are the same. -/
structure SameFlight (d1 d1' : Dtls1State) : Prop where
  messages : d1'.outgoingMessages = d1.outgoingMessages
  mtu : d1'.mtu = d1.mtu
  keys : (d1'.writeEpoch :: d1'.extraWriteEpochs).map DtlsWriteEpoch.key
    = (d1.writeEpoch :: d1.extraWriteEpochs).map DtlsWriteEpoch.key

lemma SameFlight.trans {a b c : Dtls1State} (h : SameFlight a b) (h' : SameFlight b c) :
    SameFlight a c :=
  ⟨h'.messages.trans h.messages, h'.mtu.trans h.mtu, h'.keys.trans h.keys⟩

lemma SameFlight.seek (d1 : Dtls1State) (w o : ℕ) : SameFlight d1 (d1.seek w o) := ⟨rfl, rfl, rfl⟩

lemma SameFlight.maxInputLen (h : SameFlight d1 d1') (ssl : SslContext)
    (epoch : UInt16) (maxOut : ℕ) :
    dtlsSealMaxInputLen ssl d1' epoch maxOut = dtlsSealMaxInputLen ssl d1 epoch maxOut := by
  have haead := getWriteEpoch_aead h.keys epoch
  unfold dtlsSealMaxInputLen
  rcases h1 : getWriteEpoch d1' epoch with _ | e' <;>
    rcases h2 : getWriteEpoch d1 epoch with _ | e <;>
    simp only [h1, h2, map_none, map_some, reduceCtorEq, Option.some.injEq] at haead
  · rfl
  · simp only [haead]

lemma SealStep.same
    {r : SealResult × Option SealedRecord × Dtls1State} (h : SealStep ssl outSize d1 r) :
    SameFlight d1 r.2.2 := by
  cases h with
  | finished => exact .seek _ _ _
  | noRoom => exact .seek _ _ _
  | ccs => exact ⟨by simp, by simp, setNextRecord_key _ _⟩
  | @handshake w₀ o₀ w o result epoch plaintext record next =>
    refine ⟨by simp, by simp, ?_⟩
    obtain ⟨sent, hs⟩ := pushSentRecord_eq ssl ((d1.seek w o).setNextRecord next)
      ⟨record.number, w₀, w, o₀, o⟩
    simp only [hs]
    exact setNextRecord_key _ _
  | misplaced => exact .seek _ _ _
  | failed => exact .seek _ _ _

/-- Some message still to be sent has no room for a fragment of one byte. -/
def NoRoom (ssl : SslContext) (d1 : Dtls1State) (outSize : ℕ) : Prop :=
  ∃ m ∈ d1.outgoingMessages, m.isFullyAcked = false ∧ dtlsSealMaxInputLen ssl d1 m.epoch outSize
    < (if m.isCcs then 1 else dtls1HmHeaderLength + 1)

lemma SameFlight.noRoom (h : SameFlight d1 d1') (hn : NoRoom ssl d1' outSize) :
    NoRoom ssl d1 outSize := by
  obtain ⟨m, hm, ha, hr⟩ := hn
  exact ⟨m, h.messages ▸ hm, ha, h.maxInputLen ssl m.epoch outSize ▸ hr⟩

/-- Where the state `d1'` has got to from `d1` by sending `items`. -/
def MovesTo (d1 d1' : Dtls1State) (items : List CarriedItem) : Prop :=
  Moves d1.outgoingMessages d1.outgoingWritten d1.outgoingOffset d1'.outgoingWritten
    d1'.outgoingOffset items

section Packet

variable {ssl : SslContext} {outSize : ℕ} {d1 : Dtls1State}
  {r : SealResult × Option SealedRecord × Dtls1State}

lemma SealStep.of_some (h : SealStep ssl outSize d1 r) {record : SealedRecord}
    (hr : r.2.1 = some record) :
    (r.1 = .continue ∨ r.1 = .flush) ∧ MovesTo d1 r.2.2 record.items ∧ record.items ≠ []
      ∧ 0 < record.len ∧ record.len ≤ outSize := by
  cases h with
  | finished => simp at hr
  | noRoom => simp at hr
  | ccs hskip hmove hne hseals =>
    simp only [Option.some.injEq] at hr
    subst hr
    refine ⟨.inl rfl, ?_, hne, hseals.pos, hseals.le⟩
    simpa [MovesTo] using hskip.trans hmove
  | handshake hresult hskip hmove hne hseals =>
    simp only [Option.some.injEq] at hr
    subst hr
    refine ⟨hresult, ?_, hne, hseals.pos, hseals.le⟩
    simpa [MovesTo] using hskip.trans hmove
  | misplaced => simp at hr
  | failed => simp at hr

lemma SealStep.of_none (h : SealStep ssl outSize d1 r)
    (hplace : Place d1.outgoingMessages d1.outgoingWritten d1.outgoingOffset) (hr : r.2.1 = none) :
    (r.1 = .flush ∧ MovesTo d1 r.2.2 []
        ∧ (d1.outgoingMessages.length ≤ r.2.2.outgoingWritten ∨ NoRoom ssl d1 outSize))
      ∨ r.1 = .error (some .overflow) ∨ r.1 = .error (some .recordTooLarge) := by
  cases h with
  | finished hmove hend => exact .inl ⟨rfl, hmove, .inl hend⟩
  | noRoom hmove hm hacked hroom => exact .inl ⟨rfl, hmove, .inr ⟨_, hm, hacked, hroom⟩⟩
  | ccs => simp at hr
  | handshake => simp at hr
  | misplaced hmis => exact absurd hplace hmis
  | failed herror =>
    grind

/-- What one packet holds of the flight. -/
structure SealsPacket (ssl : SslContext) (outSize : ℕ) (d1 : Dtls1State)
    (r : SealResult × List SealedRecord × Dtls1State) : Prop where
  same : SameFlight d1 r.2.2
  result : r.1 = .flush ∨ r.1 = .error (some .overflow) ∨ r.1 = .error (some .recordTooLarge)
  le : packetLen r.2.1 ≤ outSize
  moves : r.1 = .flush → MovesTo d1 r.2.2 (r.2.1.flatMap SealedRecord.items)
  empty : r.1 = .flush → packetLen r.2.1 = 0 →
    d1.outgoingMessages.length ≤ r.2.2.outgoingWritten ∨ NoRoom ssl d1 outSize
  zero : packetLen r.2.1 = 0 → r.2.1 = []
  nonempty : packetLen r.2.1 ≠ 0 → r.2.1.flatMap SealedRecord.items ≠ []

lemma sealNextPacket_spec (ssl : SslContext) : ∀ (fuel outSize : ℕ) (d1 : Dtls1State),
    (∀ m ∈ d1.outgoingMessages, m.WellFormed) → outSize < sizeMod →
    Place d1.outgoingMessages d1.outgoingWritten d1.outgoingOffset →
    (pendingAt d1.outgoingMessages d1.outgoingWritten d1.outgoingOffset).length < fuel →
      SealsPacket ssl outSize d1 (sealNextPacket ssl fuel outSize d1)
  | 0, outSize, d1, _, _, _, hf => absurd hf (Nat.not_lt_zero _)
  | fuel + 1, outSize, d1, hwf, hout, hplace, hf => by
    have hstep : SealStep ssl outSize d1 _ := sealNextRecord_step hwf hout
    have hsame := hstep.same
    rw [sealNextPacket]
    generalize sealNextRecord ssl outSize d1 = r at hstep hsame
    rcases hr : r.2.1 with _ | record
    · rcases hstep.of_none hplace hr with ⟨h1, h2, h3⟩ | h
      · simp only [h1, reduceCtorEq, if_false, toList_none]
        exact ⟨hsame, .inl rfl, Nat.zero_le _, fun _ => h2, fun _ _ => h3, fun _ => rfl,
          by simp [packetLen]⟩
      · have hne : r.1 ≠ .continue ∧ r.1 ≠ .flush := by rcases h with h | h <;> simp [h]
        simp only [hne.1, if_false, toList_none]
        exact ⟨hsame, .inr h, Nat.zero_le _, fun h' => absurd h' hne.2,
          fun h' => absurd h' hne.2, fun _ => rfl, by simp [packetLen]⟩
    obtain ⟨h1, h2, h3, h4, h5⟩ := hstep.of_some hr
    have hlen : packetLen [record] = record.len := by simp [packetLen]
    rcases h1 with h1 | h1
    · simp only [h1, if_true, toList_some, hlen]
      have hmove : Moves r.2.2.outgoingMessages d1.outgoingWritten d1.outgoingOffset
          r.2.2.outgoingWritten r.2.2.outgoingOffset record.items := hsame.messages ▸ h2
      have hshort := h2.length
      have hpos := length_pos_iff.mpr h3
      have ih := sealNextPacket_spec ssl fuel (outSize - record.len) r.2.2
        (hsame.messages ▸ hwf) (by omega) (hmove.place (hsame.messages ▸ hplace))
        (by rw [hsame.messages]; omega)
      generalize sealNextPacket ssl fuel (outSize - record.len) r.2.2 = next at ih
      have hcons : packetLen ([record] ++ next.2.1) = record.len + packetLen next.2.1 := by
        simp [packetLen]
      refine ⟨hsame.trans ih.same, ih.result, ?_, fun h => ?_, fun _ h => ?_, fun h => ?_,
        fun _ h => ?_⟩
      · have := ih.le
        simp only [hcons]
        omega
      · have hm := ih.moves h
        rw [MovesTo, hsame.messages] at hm
        exact h2.trans hm
      · simp only [hcons] at h
        omega
      · simp only [hcons] at h
        omega
      · exact h3 (append_eq_nil_iff.mp h).1
    · simp only [h1, reduceCtorEq, if_false, toList_some]
      exact ⟨hsame, .inl rfl, hlen.trans_le h5, fun _ => by simpa using h2,
        fun _ h => absurd (hlen.symm.trans h) h4.ne', fun h => absurd (hlen.symm.trans h) h4.ne',
        fun _ => by simpa using h3⟩

end Packet

/-- What the loop of `send_flight` can do; the packets are those the transport took. -/
structure SendsPackets (env : SendEnv) (d1 : Dtls1State)
    (r : SendResult × List (List SealedRecord) × Dtls1State) : Prop where
  same : SameFlight d1 r.2.2
  sealFailed : ∀ s, r.1 = .sealFailed s →
    s = .error (some .overflow) ∨ s = .error (some .recordTooLarge)
  mtuTooSmall : r.1 = .mtuTooSmall → NoRoom env.ssl d1 d1.mtu.toNat
  le : ∀ p ∈ r.2.1, packetLen p ≤ d1.mtu.toNat
  moves : r.1 = .sent ∨ r.1.retries → MovesTo d1 r.2.2 (r.2.1.flatten.flatMap SealedRecord.items)
  finished : r.1 = .sent → d1.outgoingMessages.length ≤ r.2.2.outgoingWritten

lemma length_pendingFrom_le : ∀ (msgs : List DtlsOutgoingMessage) (w o : ℕ),
    (∀ m ∈ msgs, m.WellFormed) →
      (pendingFrom msgs w o).length ≤ (msgs.map fun m => m.acked.bytes.length * 8 + 1).sum
  | [], _, _, _ => by simp [pendingFrom]
  | m :: rest, w, o, hwf => by
    have ih := length_pendingFrom_le rest (w + 1) 0 fun m' hm' => hwf m' (mem_cons_of_mem _ hm')
    have hm : (m.bits o).length ≤ m.acked.bytes.length * 8 + 1 := by
      rcases hwf m mem_cons_self with ⟨hc, -⟩ | ⟨hm, seq, hs⟩
      · simp [DtlsOutgoingMessage.bits, hc]
      · exact (hs.length_bits_le o).trans (Nat.le_succ _)
    simp only [pendingFrom, length_append, length_map, map_cons, sum_cons]
    omega

lemma length_pendingAt_le (hwf : ∀ m ∈ d1.outgoingMessages, m.WellFormed)
    (w o : ℕ) : (pendingAt d1.outgoingMessages w o).length + 2 ≤ flightFuel d1 := by
  have hle := length_pendingFrom_le (d1.outgoingMessages.drop w) w o fun m hm =>
    hwf m (mem_of_mem_drop hm)
  have hsum := sum_take_add_sum_drop
    (d1.outgoingMessages.map fun m => m.acked.bytes.length * 8 + 1) w
  rw [← map_drop] at hsum
  rw [pendingAt, flightFuel]
  omega

lemma SendsPackets.append {env : SendEnv}
    {next : SendResult × List (List SealedRecord) × Dtls1State} (packets : List (List SealedRecord))
    (hsame : SameFlight d1 d1')
    (hmove : MovesTo d1 d1' (packets.flatten.flatMap SealedRecord.items))
    (hle : ∀ p ∈ packets, packetLen p ≤ d1.mtu.toNat) (h : SendsPackets env d1' next) :
    SendsPackets env d1 (next.1, packets ++ next.2.1, next.2.2) where
  same := hsame.trans h.same
  sealFailed := h.sealFailed
  mtuTooSmall := fun hr => hsame.noRoom (hsame.mtu ▸ h.mtuTooSmall hr)
  le := fun p hp => (mem_append.mp hp).elim (hle p) fun hp => hsame.mtu ▸ h.le p hp
  moves := fun hr => by
    have hm := h.moves hr
    rw [MovesTo, hsame.messages] at hm
    simp only [flatten_append, flatMap_append]
    exact hmove.trans hm
  finished := fun hr => hsame.messages ▸ h.finished hr

lemma sendPackets_spec (env : SendEnv) : ∀ (fuel n : ℕ) (d1 : Dtls1State),
    (∀ m ∈ d1.outgoingMessages, m.WellFormed) →
    Place d1.outgoingMessages d1.outgoingWritten d1.outgoingOffset →
    (pendingAt d1.outgoingMessages d1.outgoingWritten d1.outgoingOffset).length + 2 ≤ fuel
      ∨ (d1.outgoingMessages.length ≤ d1.outgoingWritten ∧ 0 < fuel) →
      SendsPackets env d1 (sendPackets env fuel n d1)
  | 0, n, d1, _, _, hf => by omega
  | fuel + 1, n, d1, hwf, hplace, hf => by
    rw [sendPackets]
    by_cases hend : d1.outgoingMessages.length ≤ d1.outgoingWritten
    · rw [if_pos hend]
      refine ⟨⟨rfl, rfl, rfl⟩, fun s h => ?_, fun h => ?_, by simp, fun _ => Moves.refl,
        fun _ => hend⟩
      all_goals simp only [] at h; split_ifs at h
    rw [if_neg hend]
    have hp := sealNextPacket_spec env.ssl (flightFuel d1) d1.mtu.toNat d1 hwf
      (d1.mtu.toNat_lt.trans (by decide)) hplace
      (by have := length_pendingAt_le hwf d1.outgoingWritten d1.outgoingOffset; omega)
    generalize sealNextPacket env.ssl (flightFuel d1) d1.mtu.toNat d1 = r at hp
    by_cases hflush : r.1 = .flush
    swap
    · rw [if_pos hflush]
      refine ⟨hp.same, fun s h => ?_, by simp, by simp, by simp [SendResult.retries], by simp⟩
      simp only [SendResult.sealFailed.injEq] at h
      exact h ▸ hp.result.resolve_left hflush
    have hmove := hp.moves hflush
    have hmove' : Moves r.2.2.outgoingMessages d1.outgoingWritten d1.outgoingOffset
        r.2.2.outgoingWritten r.2.2.outgoingOffset (r.2.1.flatMap SealedRecord.items) :=
      hp.same.messages ▸ hmove
    have hplace' := hmove'.place (hp.same.messages ▸ hplace)
    have hwf' : ∀ m ∈ r.2.2.outgoingMessages, m.WellFormed := hp.same.messages ▸ hwf
    simp only [hflush, ne_eq, not_true_eq_false, if_false]
    by_cases hzero : packetLen r.2.1 = 0
    · split_ifs with hleft
      · rw [hp.same.messages] at hleft
        exact ⟨hp.same, by simp, fun _ => (hp.empty hflush hzero).resolve_left (by omega), by simp,
          by simp [SendResult.retries], by simp⟩
      · have ih := sendPackets_spec env fuel n r.2.2 hwf' hplace' (.inr ⟨by omega, by omega⟩)
        have hnil : r.2.1 = [] := hp.zero hzero
        rw [hnil] at hmove
        exact ih.append [] hp.same hmove (by simp)
    · split_ifs with hwrite
      · have hlen := hmove.length
        have hpos := length_pos_iff.mpr (hp.nonempty hzero)
        have ih := sendPackets_spec env fuel (n + 1) r.2.2 hwf' hplace' (.inl (by
          rw [hp.same.messages]
          omega))
        exact ih.append [r.2.1] hp.same (by simpa using hmove) (by simpa using hp.le)
      · exact ⟨hp.same.trans (.seek _ _ _), by simp, by simp, by simp, fun _ => Moves.refl, by simp⟩

lemma maxInputLen_of_minMtu (ssl : SslContext) (d1 : Dtls1State) {epoch : UInt16} {maxOut : ℕ}
    (hout : dtls1MinMtu.toNat ≤ maxOut) {e : DtlsWriteEpoch}
    (he : getWriteEpoch d1 epoch = some e) :
    dtls1HmHeaderLength + 1 ≤ dtlsSealMaxInputLen ssl d1 epoch maxOut := by
  have hout' : 228 ≤ maxOut := hout
  have hheader : dtlsRecordHeaderWriteLen ssl epoch ≤ 13 := by
    unfold dtlsRecordHeaderWriteLen
    split_ifs <;> decide
  have hseal : 14 ≤ e.aead.maxSealInputLen (maxOut - dtlsRecordHeaderWriteLen ssl epoch) := by
    have hn : 215 ≤ maxOut - dtlsRecordHeaderWriteLen ssl epoch := by omega
    generalize maxOut - dtlsRecordHeaderWriteLen ssl epoch = n at hn
    cases e.aead <;>
      simp only [SslAead.maxSealInputLen, SslAead.explicitNonceLen, SslAead.isNullCipher,
        SslAead.cbc, SslAead.evpMaxOverhead, Bool.false_eq_true, if_false, if_true] <;>
      split_ifs <;> omega
  simp only [dtlsSealMaxInputLen, he, dtls1HmHeaderLength]
  split_ifs <;> omega

lemma dtls1UpdateMtu_eq (env : SendEnv) (d1 : Dtls1State) :
    ∃ mtu, dtls1UpdateMtu env d1 = { d1 with mtu := mtu } := by
  unfold dtls1UpdateMtu
  split_ifs
  · exact ⟨_, rfl⟩
  · exact ⟨_, rfl⟩
  · exact ⟨d1.mtu, rfl⟩

lemma sendFlight_spec (env : SendEnv) (hwf : ∀ m ∈ d1.outgoingMessages, m.WellFormed)
    (hplace : Place d1.outgoingMessages d1.outgoingWritten d1.outgoingOffset) :
    sendFlight env d1 = (.notReady, [], d1)
      ∨ SendsPackets env (dtls1UpdateMtu env d1) (sendFlight env d1) := by
  unfold sendFlight
  split_ifs
  · exact .inl rfl
  · obtain ⟨mtu, hmtu⟩ := dtls1UpdateMtu_eq env d1
    rw [hmtu]
    exact .inr (sendPackets_spec env _ 0 _ hwf hplace (.inl (length_pendingAt_le hwf _ _)))

lemma FlightPass.moves {messages : List DtlsOutgoingMessage} (hwf : ∀ m ∈ messages, m.WellFormed)
    {packets : List (List SealedRecord)} (h : FlightPass messages d1 packets) :
    d1.outgoingMessages = messages
      ∧ Moves messages 0 0 d1.outgoingWritten d1.outgoingOffset
        (packets.flatten.flatMap SealedRecord.items) := by
  induction h with
  | start hm hw ho => exact ⟨hm, by rw [hw, ho]; exact Moves.refl⟩
  | @retry d1 packets env d1' _ hretry hm hw ho ih =>
    obtain ⟨ihm, ihmove⟩ := ih
    refine ⟨hm, ?_⟩
    rw [hw, ho, flatten_append, flatMap_append]
    refine ihmove.trans ?_
    rcases sendFlight_spec env (ihm ▸ hwf) (ihm ▸ ihmove.place (.inl rfl)) with hr | hr
    · rw [hr]
      exact Moves.refl
    · obtain ⟨mtu, hmtu⟩ := dtls1UpdateMtu_eq env d1
      have hmove := hr.moves (.inr hretry)
      rw [hmtu, MovesTo] at hmove
      exact ihm ▸ hmove

/-- Whatever calls a pass is made of and however the transport behaves: `send_flight` returns, and
fails to seal only for want of a record number or because a record is too large; it finds the MTU
too small only where a pending fragment of one byte does not fit; no packet is longer than the MTU;
and once all is sent, the packets taken have carried just what was not acknowledged, in order. -/
theorem flightPass_send {messages : List DtlsOutgoingMessage} (hwf : ∀ m ∈ messages, m.WellFormed)
    {d1 : Dtls1State} {packets : List (List SealedRecord)} (h : FlightPass messages d1 packets)
    (env : SendEnv) (hmtu : dtls1MinMtu ≤ (dtls1UpdateMtu env d1).mtu) :
    let r := sendFlight env d1
    (∀ s, r.1 = .sealFailed s → s = .error (some .overflow) ∨ s = .error (some .recordTooLarge))
      ∧ (r.1 = .mtuTooSmall → ∃ m ∈ messages, m.isFullyAcked = false
        ∧ ¬ RecordFits env.ssl d1 m.epoch (if m.isCcs then 1 else dtls1HmHeaderLength + 1)
          (dtls1UpdateMtu env d1).mtu.toNat)
      ∧ (∀ p ∈ r.2.1, packetLen p ≤ (dtls1UpdateMtu env d1).mtu.toNat)
      ∧ (r.1 = .sent →
        (packets ++ r.2.1).flatten.flatMap SealedRecord.items = flightItems messages) := by
  obtain ⟨hm, hmove⟩ := h.moves hwf
  obtain ⟨mtu, hupdate⟩ := dtls1UpdateMtu_eq env d1
  intro r
  rcases sendFlight_spec env (hm ▸ hwf) (hm ▸ hmove.place (.inl rfl)) with hr | hr
  · simp only [r, hr]
    simp
  refine ⟨hr.sealFailed, fun hsmall => ?_, hr.le, fun hsent => ?_⟩
  · obtain ⟨m, hmem, hacked, hroom⟩ := hr.mtuTooSmall hsmall
    rw [hupdate] at hmem
    refine ⟨m, hm ▸ hmem, hacked, ?_⟩
    rintro ⟨e, he, -⟩
    have hbig := maxInputLen_of_minMtu env.ssl (dtls1UpdateMtu env d1)
      (UInt32.le_iff_toNat_le.mp hmtu) (by rw [hupdate]; exact he)
    split_ifs at hroom <;> omega
  · have hsend := hr.moves (.inl hsent)
    have hend := hr.finished hsent
    rw [hupdate, MovesTo] at hsend
    rw [hupdate] at hend
    simp only [hm] at hsend hend
    obtain ⟨P, hP, hi⟩ := (hmove.trans hsend).pending
    rw [pendingAt_of_le hend, List.append_nil] at hP
    rw [flatten_append, flatMap_append, hi, flightItems_eq, hP]

def shortFlight : List DtlsOutgoingMessage :=
  [⟨[1, 0, 0, 3, 0, 0, 0, 0, 0, 0, 0, 3, 7, 8, 9], 0, false, .init 3⟩, ⟨[], 0, true, ⟨[], 0⟩⟩,
    ⟨[14, 0, 0, 0, 0, 1, 0, 0, 0, 0, 0, 0], 0, false, .init 1⟩]

lemma shortFlight_wellFormed : ∀ m ∈ shortFlight, m.WellFormed := by
  intro m hm
  simp only [shortFlight, mem_cons, not_mem_nil, or_false] at hm
  rcases hm with rfl | rfl | rfl
  · exact .inr ⟨⟨1, [7, 8, 9], by decide⟩, 0, sends_init _ (by decide) (by decide) 0⟩
  · exact .inl ⟨rfl, rfl⟩
  · exact .inr ⟨⟨14, [], by decide⟩, 1, sends_init _ (by decide) (by decide) 0⟩

/-- A transport that takes all or nothing. -/
def plainEnv (takes : Bool) : SendEnv where
  ssl := ⟨true, false, false, 0, none, false, 0, 0, 0⟩
  writeShutdown := false
  hasWbio := true
  noQueryMtu := false
  queryMtu := 228
  bioWrite := fun _ => takes
  bioFlush := true

theorem flightPass_send_shortFlight : ∃ d1, FlightPass shortFlight d1 []
    ∧ (sendFlight (plainEnv true) d1).1 = .sent
    ∧ ([] ++ (sendFlight (plainEnv true) d1).2.1).flatten.flatMap SealedRecord.items
      = flightItems shortFlight := by
  set d1 : Dtls1State := { Dtls1State.new with outgoingMessages := shortFlight } with hd1
  -- The first call fails.
  have hpass : FlightPass shortFlight (sendFlight (plainEnv false) d1).2.2 [] := by
    have hnil : (sendFlight (plainEnv false) d1).2.1 = [] := by rw [hd1]; decide +kernel
    have hstart : FlightPass shortFlight d1 [] := .start rfl rfl rfl
    have := FlightPass.retry (plainEnv false) (sendFlight (plainEnv false) d1).2.2 hstart
      (by rw [hd1]; decide +kernel) (by rw [hd1]; decide +kernel) rfl rfl
    rwa [hnil] at this
  have hsent : (sendFlight (plainEnv true) (sendFlight (plainEnv false) d1).2.2).1 = .sent := by
    decide +kernel
  exact ⟨_, hpass, hsent, (flightPass_send shortFlight_wellFormed hpass (plainEnv true)
    (by rw [hd1]; decide +kernel)).2.2.2 hsent⟩

end BoringSSL
