import BoringSSL.DtlsRecord
import BoringSSL.Lib.Window
import BoringSSL.Proofs.DtlsRecordNumber

/-!
# Replay protection

The bitmap of a read epoch is a window over the sequence numbers recorded in it
(`DtlsReplayBitmap.window`).  Each of the three read epochs tracks the numbers accepted with its
epoch, and the epochs are in order (`ReplayInv`), so a bitmap that moves from one place to another
still stands for the same numbers, and a new one for none.
-/

namespace BoringSSL

open ByteLib List Option

variable {numbers : List RecordNumber} {r : RecordNumber} {e : DtlsReadEpoch} {aead : ReadAead}
  {type : UInt8} {out : Bytes} {error : SslOpenRecord}
  {epoch : UInt16} {slot : EpochSlot} {n : RecordNumber}

/-! ## One bitmap -/

namespace DtlsReplayBitmap

def window (bm : DtlsReplayBitmap) : Window 256 := ⟨bm.map, bm.maxSeqNum.val⟩

lemma shouldDiscard_eq (bm : DtlsReplayBitmap) (n : Fin (2 ^ 48)) :
    bm.shouldDiscard n = bm.window.discards n.val := rfl

lemma window_record (bm : DtlsReplayBitmap) (n : Fin (2 ^ 48)) :
    (bm.record n).window = bm.window.record n.val := by
  have hlt : bm.maxSeqNum < n ↔ bm.window.top < n.val := Iff.rfl
  by_cases h : bm.maxSeqNum < n
  · simp only [record, Window.record, Window.slide, if_pos h, if_pos (hlt.mp h)]
    split_ifs <;> first | rfl | contradiction
  · simp only [record, Window.record, Window.slide, if_neg h, if_neg (fun h' => h (hlt.mpr h'))]
    split_ifs <;> first | rfl | contradiction

end DtlsReplayBitmap

/-- The sequence numbers of an epoch among the record numbers. -/
def seqsOf (numbers : List RecordNumber) (epoch : UInt16) : Set ℕ :=
  {n | ∃ r ∈ numbers, r.epoch = epoch ∧ r.sequence.val = n}

lemma seqsOf_cons_self (numbers : List RecordNumber) (r : RecordNumber) :
    seqsOf (r :: numbers) r.epoch = insert r.sequence.val (seqsOf numbers r.epoch) := by
  ext n
  simp [seqsOf, eq_comm]

lemma seqsOf_cons_of_ne (h : r.epoch ≠ epoch) :
    seqsOf (r :: numbers) epoch = seqsOf numbers epoch := by
  simp [seqsOf, h]

lemma mem_seqsOf : r.sequence.val ∈ seqsOf numbers r.epoch ↔ r ∈ numbers := by
  constructor
  · rintro ⟨r', hr', he, hs⟩
    obtain rfl : r' = r := by
      obtain ⟨epoch', seq'⟩ := r'
      simp only at he hs
      rw [he, Fin.ext hs]
    exact hr'
  · exact fun h => ⟨r, h, rfl, rfl⟩

/-- The epoch's bitmap stands for the numbers with its epoch. -/
def DtlsReadEpoch.Tracks (e : DtlsReadEpoch) (accepted : List RecordNumber) : Prop :=
  e.bitmap.window.Tracks (seqsOf accepted e.epoch)

namespace DtlsReadEpoch.Tracks

variable {e : DtlsReadEpoch} {accepted : List RecordNumber} {r : RecordNumber}

lemma cons_of_ne (h : e.Tracks accepted) (hne : r.epoch ≠ e.epoch) : e.Tracks (r :: accepted) := by
  rw [DtlsReadEpoch.Tracks, seqsOf_cons_of_ne hne]
  exact h

lemma record (h : e.Tracks accepted) (he : e.epoch = r.epoch) :
    (e.record r.sequence).Tracks (r :: accepted) := by
  change (e.bitmap.record r.sequence).window.Tracks (seqsOf (r :: accepted) e.epoch)
  rw [DtlsReplayBitmap.window_record, he, seqsOf_cons_self, ← he]
  exact Window.Tracks.record h r.sequence.val

lemma shouldDiscard_iff (h : e.Tracks accepted) (he : e.epoch = r.epoch) :
    e.bitmap.shouldDiscard r.sequence = true ↔ r ∈ accepted
      ∨ ∃ n ∈ accepted, n.epoch = r.epoch ∧ r.sequence.val + 256 ≤ n.sequence.val := by
  rw [DtlsReplayBitmap.shouldDiscard_eq, h.discards_iff (by decide), he, mem_seqsOf]
  refine or_congr_right ⟨?_, ?_⟩
  · rintro ⟨m, ⟨n, hn, hepoch, rfl⟩, hle⟩
    exact ⟨n, hn, hepoch, hle⟩
  · rintro ⟨n, hn, hepoch, hle⟩
    exact ⟨n.sequence.val, ⟨n, hn, hepoch, rfl⟩, hle⟩

end DtlsReadEpoch.Tracks

lemma tracks_new {accepted : List RecordNumber} (h : ∀ n ∈ accepted, n.epoch ≠ epoch)
    (aead : ReadAead) (rnEncrypter : GenerateMask) :
    (DtlsReadEpoch.mk epoch aead rnEncrypter .new).Tracks accepted := by
  have hnone : seqsOf accepted epoch = ∅ := by
    ext n
    simp only [seqsOf, Set.mem_ofPred_eq, Set.mem_empty_iff_false, iff_false]
    rintro ⟨r, hr, he, -⟩
    exact h r hr he
  rw [DtlsReadEpoch.Tracks, hnone]
  exact Window.tracks_empty 256

/-! ## The three epochs -/

/-- Each read epoch stands for the numbers accepted with it, the epochs are in order, and no number
has been reported twice. -/
structure ReplayInv (s : DtlsReadState) (reported accepted : List RecordNumber) : Prop where
  current : s.readEpoch.Tracks accepted
  next : ∀ e, s.nextReadEpoch = some e → s.readEpoch.epoch < e.epoch ∧ e.Tracks accepted
  prev : ∀ p, s.prevReadEpoch = some p → p.epoch.epoch < s.readEpoch.epoch ∧ p.epoch.Tracks accepted
  known : ∀ n ∈ accepted, n.epoch ≤ s.readEpoch.epoch
    ∨ ∃ e, s.nextReadEpoch = some e ∧ n.epoch = e.epoch
  subset : reported ⊆ accepted
  nodup : reported.Nodup

namespace ReplayInv

variable {s : DtlsReadState} {reported accepted : List RecordNumber} {ssl : SslContext}

lemma start : ReplayInv .new [] [] :=
  ⟨tracks_new (by simp) _ _, by simp [DtlsReadState.new], by simp [DtlsReadState.new], by simp,
    List.Subset.refl _, nodup_nil⟩

variable (h : ReplayInv s reported accepted)

include h

lemma congr {s' : DtlsReadState} (hc : s'.readEpoch = s.readEpoch)
    (hn : s'.nextReadEpoch = s.nextReadEpoch) (hp : s'.prevReadEpoch = s.prevReadEpoch) :
    ReplayInv s' reported accepted :=
  ⟨hc ▸ h.current, hc ▸ hn ▸ h.next, hc ▸ hp ▸ h.prev, hc ▸ hn ▸ h.known, h.subset, h.nodup⟩

lemma dropPrev : ReplayInv { s with prevReadEpoch := none } reported accepted :=
  ⟨h.current, h.next, by simp, h.known, h.subset, h.nodup⟩

lemma tracks (he : s.get slot = some e) : e.Tracks accepted := by
  cases slot with
  | current => exact Option.some.inj he ▸ h.current
  | next => exact (h.next e he).2
  | prev =>
    obtain ⟨p, hp, rfl⟩ := map_eq_some_iff.mp he
    exact (h.prev p hp).2

lemma record (he : s.get slot = some e) (hn : e.epoch = n.epoch) :
    ReplayInv (s.record slot n.sequence) reported (n :: accepted) := by
  have hsub : reported ⊆ n :: accepted := fun r hr => mem_cons_of_mem _ (h.subset hr)
  cases slot with
  | current =>
    cases he
    refine ⟨h.current.record hn, fun e' he' => ?_, fun p hp => ?_, ?_, hsub, h.nodup⟩
    · obtain ⟨hlt, htr⟩ := h.next e' he'
      exact ⟨hlt, htr.cons_of_ne (hn ▸ UInt16.ne_of_lt hlt)⟩
    · obtain ⟨hlt, htr⟩ := h.prev p hp
      exact ⟨hlt, htr.cons_of_ne (hn ▸ (UInt16.ne_of_lt hlt).symm)⟩
    · intro r hr
      rcases mem_cons.mp hr with rfl | hr
      · exact .inl (hn ▸ UInt16.le_refl _)
      · exact h.known r hr
  | next =>
    obtain ⟨hlt, htr⟩ := h.next e he
    have hnext : (s.record .next n.sequence).nextReadEpoch = some (e.record n.sequence) := by
      rw [DtlsReadState.record, show s.nextReadEpoch = some e from he, map_some]
    refine ⟨h.current.cons_of_ne (hn ▸ (UInt16.ne_of_lt hlt).symm), fun e' he' => ?_,
      fun p hp => ?_, fun r hr => ?_, hsub, h.nodup⟩
    · rw [hnext] at he'
      cases he'
      exact ⟨hlt, htr.record hn⟩
    · obtain ⟨hlt', htr'⟩ := h.prev p hp
      exact ⟨hlt', htr'.cons_of_ne (hn ▸ (UInt16.ne_of_lt (UInt16.lt_trans hlt' hlt)).symm)⟩
    · rcases mem_cons.mp hr with rfl | hr
      · exact .inr ⟨_, hnext, hn.symm⟩
      · refine (h.known r hr).imp_right ?_
        rintro ⟨e', he', hr'⟩
        cases he.symm.trans he'
        exact ⟨_, hnext, hr'⟩
  | prev =>
    obtain ⟨p, hp, rfl⟩ := map_eq_some_iff.mp he
    obtain ⟨hlt, htr⟩ := h.prev p hp
    refine ⟨h.current.cons_of_ne (hn ▸ UInt16.ne_of_lt hlt), fun e' he' => ?_, fun p' hp' => ?_,
      fun r hr => ?_, hsub, h.nodup⟩
    · obtain ⟨hlt', htr'⟩ := h.next e' he'
      exact ⟨hlt', htr'.cons_of_ne (hn ▸ UInt16.ne_of_lt (UInt16.lt_trans hlt hlt'))⟩
    · change s.prevReadEpoch.map _ = some p' at hp'
      rw [hp, map_some] at hp'
      cases hp'
      exact ⟨hlt, htr.record hn⟩
    · rcases mem_cons.mp hr with rfl | hr
      · exact .inl (hn ▸ UInt16.le_of_lt hlt)
      · exact h.known r hr

lemma advance (ssl : SslContext) : ReplayInv (s.advance ssl) reported accepted := by
  unfold DtlsReadState.advance
  rcases hn : s.nextReadEpoch with _ | e
  · exact h
  obtain ⟨hlt, htr⟩ := h.next e hn
  refine ⟨htr, by simp, fun p hp => ?_, fun r hr => .inl ?_, h.subset, h.nodup⟩
  · cases hp
    exact ⟨hlt, h.current⟩
  · rcases h.known r hr with hle | ⟨e', he', hr'⟩
    · exact UInt16.le_of_lt (UInt16.lt_of_le_of_lt hle hlt)
    · grind

lemma report (hn : n ∈ accepted) (hnew : n ∉ reported) : ReplayInv s (n :: reported) accepted :=
  ⟨h.current, h.next, h.prev, h.known, cons_subset.mpr ⟨hn, h.subset⟩,
    nodup_cons.mpr ⟨hnew, h.nodup⟩⟩

end ReplayInv

/-! ## One packet -/

section Packet

variable {ssl : SslContext} {s : DtlsReadState}

/-- What parsing does to the state, and which epoch the record is read with. -/
structure Parses (s : DtlsReadState) (r : DtlsReadState × Option ParsedDtlsRecord) : Prop where
  state : r.1 = s ∨ r.1 = { s with prevReadEpoch := none }
  epoch : ∀ record slot, r.2 = some record → record.readEpoch = some slot →
    ∃ e, r.1.get slot = some e ∧ e.epoch = record.number.epoch

lemma find_eq_some (hf : s.find epoch = some slot) (he : s.get slot = some e) :
    e.epoch = epoch := by
  unfold DtlsReadState.find at hf
  split_ifs at hf with h1 h2 h3 <;> cases hf
  · exact Option.some.inj he ▸ h1.symm
  · rw [show s.nextReadEpoch = some e from he] at h2
    exact (beq_iff_eq.mp h2).symm
  · obtain ⟨p, hp, rfl⟩ := map_eq_some_iff.mp he
    rw [hp] at h3
    exact (beq_iff_eq.mp h3).symm

lemma parses_dropExpired (ssl : SslContext) (s : DtlsReadState) :
    s.dropExpired ssl = s ∨ s.dropExpired ssl = { s with prevReadEpoch := none } := by
  unfold DtlsReadState.dropExpired
  split_ifs
  · exact .inr rfl
  · exact .inl rfl

lemma parses_dtls13 (type : UInt8) (cbs : Bytes) : Parses s (parseDtls13Record ssl type cbs s) := by
  unfold parseDtls13Record
  by_cases hcid : type &&& 0x10 ≠ 0
  · rw [if_pos hcid]
    exact ⟨.inl rfl, by simp⟩
  rw [if_neg hcid]
  simp only []
  generalize reconstructEpoch type _ = epoch
  split
  · exact ⟨.inl rfl, by simp⟩
  have hdrop := parses_dropExpired ssl s
  generalize s.dropExpired ssl = s' at hdrop
  rcases hfind : (s'.find epoch).bind fun slot => (s'.get slot).map fun e => (slot, e)
    with _ | ⟨slot, e⟩
  · exact ⟨hdrop, by rintro record slot hr hslot; cases hr; simp at hslot⟩
  obtain ⟨slot', hslot, hmap⟩ := bind_eq_some_iff.mp hfind
  obtain ⟨e', he, heq⟩ := map_eq_some_iff.mp hmap
  obtain ⟨rfl, rfl⟩ := Prod.mk.inj heq
  simp only []
  split_ifs
  · exact ⟨hdrop, by rintro record slot hr hslot; obtain rfl := Option.some.inj hr; simp at hslot⟩
  split
  · exact ⟨hdrop, by simp⟩
  · refine ⟨hdrop, fun record slot hr hrec => ?_⟩
    obtain rfl := Option.some.inj hr
    obtain rfl := Option.some.inj hrec
    exact ⟨e', he, find_eq_some hslot he⟩

lemma parses_dtls12 (type : UInt8) (cbs : Bytes) :
    Parses s (s, parseDtls12Record ssl type cbs s) := by
  refine ⟨.inl rfl, fun record slot hr hslot => ?_⟩
  simp only [parseDtls12Record, bind_eq_some_iff] at hr
  obtain ⟨⟨version, rest⟩, -, ⟨epochAndSeq, rest'⟩, -, ⟨lenBytes, body, rest''⟩, -, hr⟩ := hr
  split_ifs at hr with hv hk
  all_goals
    cases hr
    simp only [Option.some.injEq, reduceCtorEq] at hslot
  obtain rfl := hslot
  exact ⟨s.readEpoch, rfl, hk.1.symm⟩

lemma parses_dtls (input : Bytes) : Parses s (parseDtlsRecord ssl input s) := by
  unfold parseDtlsRecord
  rcases cbsGetU8 input with _ | ⟨type, cbs⟩
  · exact ⟨.inl rfl, by simp⟩
  simp only []
  have hparse : Parses s (if type &&& 0xe0 = 0x20 then parseDtls13Record ssl type cbs s
      else (s, parseDtls12Record ssl type cbs s)) := by
    split_ifs
    · exact parses_dtls13 type cbs
    · exact parses_dtls12 type cbs
  generalize (if type &&& 0xe0 = 0x20 then parseDtls13Record ssl type cbs s
    else (s, parseDtls12Record ssl type cbs s)) = r at hparse
  exact ⟨hparse.state, fun record slot hr => hparse.epoch record slot
    (filter_eq_some_iff.mp hr).1⟩

lemma innerPlaintext_error
    (h : innerPlaintext ssl aead type out = .error error) : error.number? = none := by
  unfold innerPlaintext at h
  simp only [] at h
  split_ifs at h
  · cases h
    rfl
  · split at h
    · cases h
      rfl
    · simp at h
  · cases h
    rfl

lemma decryptRecord_ok {record : ParsedDtlsRecord}
    (h : decryptRecord ssl record s = .ok (slot, type, out)) :
    record.readEpoch = some slot ∧ ∃ e, s.get slot = some e
      ∧ e.bitmap.shouldDiscard record.number.sequence = false := by
  unfold decryptRecord at h
  rcases hb : record.readEpoch.bind fun slot => (s.get slot).map fun e => (slot, e)
    with _ | ⟨slot', e⟩
  · simp [hb] at h
  obtain ⟨slot'', hslot, hmap⟩ := bind_eq_some_iff.mp hb
  obtain ⟨e', he, heq⟩ := map_eq_some_iff.mp hmap
  obtain ⟨rfl, rfl⟩ := Prod.mk.inj heq
  simp only [hb] at h
  split_ifs at h with hd
  rcases ho : e'.aead.openRecord record.type record.version (dtlsAeadSequence ssl record.number)
    record.header record.body with _ | opened
  · simp [ho] at h
  rcases hi : innerPlaintext ssl e'.aead record.type opened with error | inner
  · simp [ho, hi, Except.map] at h
  · simp only [ho, hi, Except.map, Except.ok.injEq, Prod.mk.injEq] at h
    obtain ⟨rfl, -⟩ := h
    exact ⟨hslot, e', he, by simpa using hd⟩

lemma decryptRecord_error {record : ParsedDtlsRecord}
    (h : decryptRecord ssl record s = .error error) : error.number? = none := by
  unfold decryptRecord at h
  rcases hb : record.readEpoch.bind fun slot => (s.get slot).map fun e => (slot, e)
    with _ | ⟨slot, e⟩ <;> simp only [hb] at h
  · cases h
    rfl
  split_ifs at h
  · cases h
    rfl
  rcases ho : e.aead.openRecord record.type record.version (dtlsAeadSequence ssl record.number)
    record.header record.body with _ | out
  · rw [ho] at h
    cases h
    rfl
  rcases hi : innerPlaintext ssl e.aead record.type out with error' | inner
  · simp only [ho, hi, Except.map] at h
    cases h
    exact innerPlaintext_error hi
  · simp [ho, hi, Except.map] at h

lemma sslProcessAlert_fields (ssl : SslContext) (s : DtlsReadState) (data : Bytes) :
    (sslProcessAlert ssl s data).1.readEpoch = s.readEpoch
      ∧ (sslProcessAlert ssl s data).1.nextReadEpoch = s.nextReadEpoch
      ∧ (sslProcessAlert ssl s data).1.prevReadEpoch = s.prevReadEpoch
      ∧ (sslProcessAlert ssl s data).2.number? = none := by
  unfold sslProcessAlert
  split
  · simp only []
    split_ifs <;> exact ⟨rfl, rfl, rfl, rfl⟩
  · exact ⟨rfl, rfl, rfl, rfl⟩

lemma dispatchRecord_fields (ssl : SslContext) (number : RecordNumber) (type : UInt8) (out : Bytes)
    (s : DtlsReadState) :
    (dispatchRecord ssl number type out s).1.readEpoch = s.readEpoch
      ∧ (dispatchRecord ssl number type out s).1.nextReadEpoch = s.nextReadEpoch
      ∧ (dispatchRecord ssl number type out s).1.prevReadEpoch = s.prevReadEpoch
      ∧ ((dispatchRecord ssl number type out s).2.number? = none
        ∨ (dispatchRecord ssl number type out s).2.number? = some number) := by
  unfold dispatchRecord
  split_ifs
  · obtain ⟨h1, h2, h3, h4⟩ := sslProcessAlert_fields ssl s out
    exact ⟨h1, h2, h3, .inl h4⟩
  · exact ⟨rfl, rfl, rfl, .inl rfl⟩
  · exact ⟨rfl, rfl, rfl, .inr rfl⟩

end Packet

/-! ## Runs -/

section Run

variable {s s' : DtlsReadState} {reported accepted : List RecordNumber} {ssl : SslContext}

lemma Parses.inv {r : DtlsReadState × Option ParsedDtlsRecord} (hp : Parses s r)
    (h : ReplayInv s reported accepted) : ReplayInv r.1 reported accepted := by
  rcases hp.state with hs | hs
  · exact hs ▸ h
  · exact hs ▸ h.dropPrev

lemma ReplayInv.acceptRecord (h : ReplayInv s reported accepted)
    (he : s.get slot = some e) (hn : e.epoch = n.epoch) (hnew : n ∉ accepted) (mallocOk : Bool)
    (type : UInt8) (out : Bytes) :
    ReplayInv (acceptRecord ssl mallocOk slot n type out s).1
      ((acceptRecord ssl mallocOk slot n type out s).2.number?.toList ++ reported)
      (n :: accepted) := by
  have hrec := h.record he hn
  have hdispatch : ∀ s', ReplayInv s' reported (n :: accepted) →
      ReplayInv (dispatchRecord ssl n type out s').1
        ((dispatchRecord ssl n type out s').2.number?.toList ++ reported) (n :: accepted) := by
    intro s' h'
    obtain ⟨h1, h2, h3, h4⟩ := dispatchRecord_fields ssl n type out s'
    rcases h4 with h4 | h4 <;> rw [h4]
    · exact h'.congr h1 h2 h3
    · exact (h'.congr h1 h2 h3).report mem_cons_self fun hr => hnew (h.subset hr)
  unfold BoringSSL.acceptRecord
  split_ifs
  · exact hrec
  · exact hdispatch _ (hrec.advance ssl)
  · exact hdispatch _ hrec

lemma ReplayInv.packet (h : ReplayInv s reported accepted) (mallocOk : Bool) (input : Bytes) :
    ReplayInv (dtlsOpenRecord ssl mallocOk input s).1
      ((dtlsOpenRecord ssl mallocOk input s).2.1.number?.toList ++ reported)
      ((acceptedNumber ssl input s).toList ++ accepted) := by
  unfold dtlsOpenRecord acceptedNumber
  by_cases hclose : s.readShutdown = .closeNotify
  · rw [if_pos hclose, if_pos hclose]
    exact h
  rw [if_neg hclose, if_neg hclose]
  by_cases hempty : input.isEmpty
  · rw [List.isEmpty_iff.mp hempty]
    exact h
  rw [if_neg hempty]
  have hp : Parses s (parseDtlsRecord ssl input s) := parses_dtls input
  have hinv := hp.inv h
  generalize parseDtlsRecord ssl input s = parsed at hp hinv
  obtain ⟨s', _ | record⟩ := parsed
  · exact hinv
  simp only [bind_some]
  rcases hd : decryptRecord ssl record s' with error | ⟨slot, type, out⟩
  · have hnone : error.number? = none := decryptRecord_error hd
    simp only [hnone]
    exact hinv
  · obtain ⟨hslot, e, he, hfresh⟩ := decryptRecord_ok hd
    obtain ⟨e', he', hepoch⟩ := hp.epoch record slot rfl hslot
    cases he.symm.trans he'
    have hnew : record.number ∉ accepted := fun hmem => by
      have := ((hinv.tracks he).shouldDiscard_iff hepoch).mpr (.inl hmem)
      rw [hfresh] at this
      exact Bool.false_ne_true this
    exact hinv.acceptRecord he hepoch hnew mallocOk type out

lemma ReplayInv.install (h : ReplayInv s reported accepted) {level : SslEncryptionLevel}
    (habove : InstallsAbove ssl level s) {rnEncrypter : Option GenerateMask}
    {unprocessed mallocOk : Bool}
    (hs : dtls1SetReadState ssl level aead rnEncrypter unprocessed mallocOk s = .ok s') :
    ReplayInv s' reported accepted := by
  obtain ⟨hnext, habove⟩ := habove
  have hnone : s.nextReadEpoch = none := isNone_iff_eq_none.mp hnext
  unfold dtls1SetReadState at hs
  by_cases hu : unprocessed
  · simp [hu] at hs
  rw [if_neg hu] at hs
  rcases hep : nextEpoch ssl level s.readEpoch.epoch with _ | epoch
  · simp [hep] at hs
  have hlt := habove epoch hep
  have hle : ∀ n ∈ accepted, n.epoch ≤ s.readEpoch.epoch := fun n hn =>
    (h.known n hn).resolve_right (by simp [hnone])
  have hfresh : ∀ n ∈ accepted, n.epoch ≠ epoch := fun n hn =>
    UInt16.ne_of_lt (UInt16.lt_of_le_of_lt (hle n hn) hlt)
  simp only [hep] at hs
  by_cases h13 : ssl.isTls13
  · rw [if_pos h13] at hs
    rcases rnEncrypter with _ | rnEncrypter
    · simp at hs
    split_ifs at hs
    cases hs
    refine ⟨h.current, fun e he => ?_, h.prev, fun n hn => .inl (hle n hn), h.subset, h.nodup⟩
    cases he
    exact ⟨hlt, tracks_new hfresh _ _⟩
  · rw [if_neg h13] at hs
    cases hs
    refine ⟨tracks_new hfresh _ _, by simp [hnone], fun p hp => ?_, fun n hn => .inl ?_, h.subset,
      h.nodup⟩
    · obtain ⟨hlt', htr⟩ := h.prev p hp
      exact ⟨UInt16.lt_trans hlt' hlt, htr⟩
    · exact UInt16.le_of_lt (UInt16.lt_of_le_of_lt (hle n hn) hlt)

lemma readRun_inv (h : ReadRun InstallsAbove s reported accepted) :
    ReplayInv s reported accepted := by
  induction h with
  | start => exact .start
  | packet ssl mallocOk input _ ih => exact ih.packet mallocOk input
  | install ssl level aead rnEncrypter unprocessed mallocOk _ habove hs ih =>
    exact ih.install habove hs

/-- When each epoch is installed above the current one: no record number is reported twice, and a
record that is parsed with a known epoch is dropped as a replay exactly when its number has been
accepted, or is 256 or more behind one accepted in its epoch. -/
theorem readRun_replay (h : ReadRun InstallsAbove s reported accepted) :
    reported.Nodup ∧ reported ⊆ accepted
      ∧ ∀ ssl input record, (parseDtlsRecord ssl input s).2 = some record →
        record.readEpoch.isSome →
        (RejectsReplay record (parseDtlsRecord ssl input s).1 ↔ record.number ∈ accepted
          ∨ ∃ n ∈ accepted, n.epoch = record.number.epoch
            ∧ record.number.sequence.val + 256 ≤ n.sequence.val) := by
  have hinv := readRun_inv h
  refine ⟨hinv.nodup, hinv.subset, fun ssl input record hrec hslot => ?_⟩
  have hp : Parses s (parseDtlsRecord ssl input s) := parses_dtls input
  obtain ⟨slot, hslot⟩ := isSome_iff_exists.mp hslot
  obtain ⟨e, he, hepoch⟩ := hp.epoch record slot hrec hslot
  rw [← ((hp.inv hinv).tracks he).shouldDiscard_iff hepoch]
  constructor
  · rintro ⟨slot', e', hslot', he', hd⟩
    cases hslot.symm.trans hslot'
    cases he.symm.trans he'
    exact hd
  · exact fun hd => ⟨slot, e, hslot, he, hd⟩

end Run

/-! ## Two runs -/

def opensAll : ReadAead := .cipher fun _ _ _ _ body => some body

/-- A connection of a version. -/
def peer (version : Option ℕ) : SslContext := ⟨true, true, false, 0, version, false, 0, 0, 0⟩

def handshakePacket (epoch seq : UInt8) : Bytes := [0x2c ||| epoch, 0, seq, 0, 2, 5, 22]

def warningPacket : Bytes := [21, 0xfe, 0xfd, 0, 0, 0, 0, 0, 0, 0, 0, 0, 2, 1, 100]

/-- The keys of the handshake are installed, and a record that comes twice is reported once. -/
theorem readRun_replay_handshake : ∃ s reported accepted, ReadRun InstallsAbove s reported accepted
    ∧ reported = [⟨2, 7⟩] ∧ reported.Nodup
    ∧ ∃ record, (parseDtlsRecord (peer (some 0x0304)) (handshakePacket 2 7) s).2 = some record
      ∧ RejectsReplay record (parseDtlsRecord (peer (some 0x0304)) (handshakePacket 2 7) s).1 := by
  have hrun := ReadRun.packet (peer (some 0x0304)) true (handshakePacket 2 7)
    (.packet (peer (some 0x0304)) true (handshakePacket 2 7)
      (.install (peer (some 0x0304)) .handshake opensAll (some fun _ => some (0, 0)) false true
        (ReadRun.start : ReadRun InstallsAbove _ _ _)
        ⟨rfl, fun epoch h => by cases h; decide⟩ rfl))
  obtain ⟨hnodup, -, hrejects⟩ := readRun_replay hrun
  exact ⟨_, _, _, hrun, by decide +kernel, hnodup, _, rfl,
    (hrejects (peer (some 0x0304)) (handshakePacket 2 7) _ rfl rfl).mpr (.inl (by decide +kernel))⟩

/-- Keys installed for an epoch below the current one, as `dtls1_set_read_state` does when asked to,
let a record number be reported again.  And a warning is not reported but is recorded: when it comes
again it is dropped, with no number ahead of it. -/
theorem readRun_backwards_and_warning :
    (∃ s reported accepted, ReadRun NextTakenUp s reported accepted ∧ ¬ reported.Nodup)
      ∧ ∃ s accepted record, ReadRun InstallsAbove s [] accepted
        ∧ (parseDtlsRecord (peer none) warningPacket s).2 = some record
        ∧ RejectsReplay record (parseDtlsRecord (peer none) warningPacket s).1
        ∧ ∀ n ∈ accepted, n = record.number := by
  constructor
  · have hrun := ReadRun.packet (peer (some 0x0304)) true (handshakePacket 2 7)
      (.install (peer (some 0x0304)) .handshake opensAll (some fun _ => some (0, 0)) false true
        (.packet (peer (some 0x0304)) true (handshakePacket 3 7)
          (.install (peer (some 0x0304)) .application opensAll
            (some fun _ => some (0, 0)) false true
            (.packet (peer (some 0x0304)) true (handshakePacket 2 7)
              (.install (peer (some 0x0304)) .handshake opensAll
                (some fun _ => some (0, 0)) false true
                (ReadRun.start : ReadRun NextTakenUp _ _ _) rfl rfl))
            rfl rfl))
        rfl rfl)
    exact ⟨_, _, _, hrun, by decide +kernel⟩
  · have hrun := ReadRun.packet (peer none) true warningPacket
      (ReadRun.start : ReadRun InstallsAbove _ _ _)
    exact ⟨_, _, _, hrun, rfl, ⟨.current, _, rfl, rfl, by decide +kernel⟩, by decide +kernel⟩

/-! ## Reconstructing sequence numbers -/

section Reconstruct

/-- `reconstruct_seqnum` over the integers, for wire numbers modulo `step`. -/
def closestSeqnum (step next wire : ℕ) : ℕ :=
  let diff := (wire + 2 ^ 64 - next) % step
  if 2 ^ 48 ≤ next + diff ∨ step / 2 < diff ∧ step ≤ next + diff then next + diff - step
  else next + diff

lemma toNat_and_mask {seqMask : UInt64} (hmask : seqMask = 0xff ∨ seqMask = 0xffff)
    (x : UInt64) : (x &&& seqMask).toNat = x.toNat % (seqMask.toNat + 1) := by
  rcases hmask with rfl | rfl
  · exact Nat.and_two_pow_sub_one_eq_mod x.toNat 8
  · exact Nat.and_two_pow_sub_one_eq_mod x.toNat 16

variable {wireSeq : UInt16} {seqMask maxValidSeqnum : UInt64}

lemma reconstructSeqnum_exact (wireSeq : UInt16)
    (hmask : seqMask = 0xff ∨ seqMask = 0xffff) (hmax : maxValidSeqnum ≤ kMaxSequence) :
    let next := maxValidSeqnum + 1
    let diff := (wireSeq.toUInt64 - next) &&& seqMask
    next.toNat = maxValidSeqnum.toNat + 1
      ∧ diff.toNat = (wireSeq.toNat + 2 ^ 64 - next.toNat) % (seqMask.toNat + 1)
      ∧ (seqMask + 1).toNat = seqMask.toNat + 1
      ∧ (next + diff).toNat = next.toNat + diff.toNat
      ∧ (next + diff > kMaxSequence → seqMask + 1 ≤ next + diff) := by
  intro next diff
  have hm : maxValidSeqnum.toNat ≤ 2 ^ 48 - 1 := UInt64.le_iff_toNat_le.mp hmax
  have hwire : wireSeq.toUInt64.toNat = wireSeq.toNat := rfl
  have hnext : next.toNat = maxValidSeqnum.toNat + 1 := by
    rw [UInt64.toNat_add]
    simp only [UInt64.reduceToNat]
    omega
  have hdiff : diff.toNat = (wireSeq.toNat + 2 ^ 64 - next.toNat) % (seqMask.toNat + 1) := by
    rw [toNat_and_mask hmask, UInt64.toNat_sub, hwire, hnext]
    rcases hmask with rfl | rfl <;> simp only [UInt64.reduceToNat] <;> omega
  have hbound : diff.toNat < 2 ^ 16 := by
    rw [hdiff]
    rcases hmask with rfl | rfl <;> simp only [UInt64.reduceToNat] <;> omega
  have hsum : (next + diff).toNat = next.toNat + diff.toNat := by
    rw [UInt64.toNat_add]
    omega
  refine ⟨hnext, hdiff, by rcases hmask with rfl | rfl <;> rfl, hsum, fun hlarge => ?_⟩
  have hk : kMaxSequence.toNat = 2 ^ 48 - 1 := rfl
  rw [gt_iff_lt, UInt64.lt_iff_toNat_lt, hk] at hlarge
  rw [UInt64.le_iff_toNat_le]
  rcases hmask with rfl | rfl <;> simp only [UInt64.reduceAdd, UInt64.reduceToNat] <;> omega

lemma toNat_reconstructSeqnum (hmask : seqMask = 0xff ∨ seqMask = 0xffff)
    (hmax : maxValidSeqnum ≤ kMaxSequence) :
    (reconstructSeqnum wireSeq seqMask maxValidSeqnum).toNat
      = closestSeqnum (seqMask.toNat + 1) (maxValidSeqnum.toNat + 1) wireSeq.toNat := by
  obtain ⟨hnext, hdiff, hstep, hsum, hlarge⟩ := reconstructSeqnum_exact wireSeq hmask hmax
  have hk : kMaxSequence.toNat = 2 ^ 48 - 1 := rfl
  have hhalf : ((seqMask + 1) / 2).toNat = (seqMask.toNat + 1) / 2 := by
    rw [UInt64.toNat_div, hstep]
    rfl
  simp only [reconstructSeqnum, closestSeqnum]
  rw [hnext] at hdiff hsum
  rw [← hdiff]
  by_cases hsub : maxValidSeqnum + 1 + ((wireSeq.toUInt64 - (maxValidSeqnum + 1)) &&& seqMask)
      > kMaxSequence ∨ ((wireSeq.toUInt64 - (maxValidSeqnum + 1)) &&& seqMask) > (seqMask + 1) / 2
      ∧ ¬ maxValidSeqnum + 1 + ((wireSeq.toUInt64 - (maxValidSeqnum + 1)) &&& seqMask)
        < seqMask + 1
  · have hle : seqMask + 1 ≤ maxValidSeqnum + 1
        + ((wireSeq.toUInt64 - (maxValidSeqnum + 1)) &&& seqMask) := by
      grind
    rw [if_pos hsub, UInt64.toNat_sub_of_le _ _ hle, hsum, hstep, if_pos]
    simp only [gt_iff_lt, UInt64.lt_iff_toNat_lt, hsum, hstep, hk, hhalf] at hsub
    omega
  · rw [if_neg hsub, hsum, if_neg]
    simp only [gt_iff_lt, UInt64.lt_iff_toNat_lt, hsum, hstep, hk, hhalf] at hsub
    omega

/-- Of the numbers below `2 ^ 48` that end in `wire`, it is the closest one to `next`, and the
larger one of two. -/
lemma closestSeqnum_closest {step next wire : ℕ} (hstep : step = 2 ^ 8 ∨ step = 2 ^ 16)
    (hwire : wire < step) (hnext : next ≤ 2 ^ 48) (hpos : 0 < next) :
    closestSeqnum step next wire < 2 ^ 48 ∧ closestSeqnum step next wire % step = wire
      ∧ ∀ t < 2 ^ 48, t % step = wire →
        ((closestSeqnum step next wire : ℤ) - next).natAbs < ((t : ℤ) - next).natAbs
          ∨ ((closestSeqnum step next wire : ℤ) - next).natAbs = ((t : ℤ) - next).natAbs
            ∧ t ≤ closestSeqnum step next wire := by
  rw [closestSeqnum]
  rcases hstep with rfl | rfl
  all_goals
    split_ifs with hsub <;> refine ⟨by omega, by omega, fun t ht hmod => ?_⟩ <;> omega

/-- The reconstructed number is the closest one to the next expected number that ends in the bits on
the wire, and it is the number of the record where that is within half a step. -/
theorem reconstructSeqnum_closest (wireSeq : UInt16) (seqMask maxValidSeqnum : UInt64)
    (hmask : seqMask = 0xff ∨ seqMask = 0xffff) (hwire : wireSeq.toUInt64 ≤ seqMask)
    (hmax : maxValidSeqnum ≤ kMaxSequence) :
    let next := maxValidSeqnum + 1
    let diff := (wireSeq.toUInt64 - next) &&& seqMask
    let s := reconstructSeqnum wireSeq seqMask maxValidSeqnum
    (next.toNat = maxValidSeqnum.toNat + 1 ∧ (next + diff).toNat = next.toNat + diff.toNat
        ∧ (s = next + diff ∨ s = next + diff - (seqMask + 1) ∧ seqMask + 1 ≤ next + diff))
      ∧ s ≤ kMaxSequence ∧ s &&& seqMask = wireSeq.toUInt64
      ∧ (∀ t ≤ kMaxSequence, t &&& seqMask = wireSeq.toUInt64 →
        ((s.toNat : ℤ) - next.toNat).natAbs < ((t.toNat : ℤ) - next.toNat).natAbs
          ∨ ((s.toNat : ℤ) - next.toNat).natAbs = ((t.toNat : ℤ) - next.toNat).natAbs ∧ t ≤ s)
      ∧ ∀ q ≤ kMaxSequence, q &&& seqMask = wireSeq.toUInt64 →
        ((q.toNat : ℤ) - next.toNat).natAbs < (seqMask.toNat + 1) / 2 → s = q := by
  intro next diff s
  obtain ⟨-, -, hstep, hsum, hlarge⟩ := reconstructSeqnum_exact wireSeq hmask hmax
  have hnext : next.toNat = maxValidSeqnum.toNat + 1 :=
    (reconstructSeqnum_exact wireSeq hmask hmax).1
  have hs : s.toNat = closestSeqnum (seqMask.toNat + 1) next.toNat wireSeq.toNat := by
    rw [hnext]
    exact toNat_reconstructSeqnum hmask hmax
  have hk : kMaxSequence.toNat = 2 ^ 48 - 1 := rfl
  have hm : maxValidSeqnum.toNat ≤ 2 ^ 48 - 1 := UInt64.le_iff_toNat_le.mp hmax
  have hpow : seqMask.toNat + 1 = 2 ^ 8 ∨ seqMask.toNat + 1 = 2 ^ 16 := by
    rcases hmask with rfl | rfl
    · exact Or.inl rfl
    · exact Or.inr rfl
  have hw : wireSeq.toNat ≤ seqMask.toNat := UInt64.le_iff_toNat_le.mp hwire
  obtain ⟨hlt, hmod, hclosest⟩ := closestSeqnum_closest hpow (Nat.lt_succ_of_le hw)
    (show next.toNat ≤ 2 ^ 48 by omega) (by omega)
  rw [← hs] at hlt hmod hclosest
  have hends : ∀ t : UInt64, t &&& seqMask = wireSeq.toUInt64
      ↔ t.toNat % (seqMask.toNat + 1) = wireSeq.toNat := by
    intro t
    rw [← UInt64.toNat_inj, toNat_and_mask hmask]
    rfl
  have hrange : ∀ t : UInt64, t ≤ kMaxSequence ↔ t.toNat < 2 ^ 48 := by
    intro t
    rw [UInt64.le_iff_toNat_le, hk]
    omega
  refine ⟨⟨hnext, hsum, ?_⟩, (hrange s).mpr hlt, (hends s).mpr hmod, fun t ht hend => ?_,
    fun q hq hend hnear => ?_⟩
  · by_cases hsub : next + diff > kMaxSequence ∨ diff > (seqMask + 1) / 2
        ∧ ¬ next + diff < seqMask + 1
    · refine Or.inr ⟨if_pos hsub, ?_⟩
      rcases hsub with h | ⟨-, h⟩
      · exact hlarge h
      · exact UInt64.not_lt.mp h
    · exact Or.inl (if_neg hsub)
  · have := hclosest t.toNat ((hrange t).mp ht) ((hends t).mp hend)
    rwa [UInt64.le_iff_toNat_le]
  · have hle := hclosest q.toNat ((hrange q).mp hq) ((hends q).mp hend)
    have hqmod := (hends q).mp hend
    apply UInt64.toNat_inj.mp
    rcases hpow with h | h <;> rw [h] at hmod hqmod <;> omega

theorem reconstructSeqnum_closest_wrapped :
    (0xfe : UInt16).toUInt64 ≤ 0xff ∧ (0x100 : UInt64) ≤ kMaxSequence
      ∧ reconstructSeqnum 0xfe 0xff 0x100 = 0xfe
      ∧ (((0xfe : UInt64).toNat : ℤ) - ((0x100 : UInt64) + 1).toNat).natAbs < (0xff + 1) / 2 := by
  have h := reconstructSeqnum_closest 0xfe 0xff 0x100 (Or.inl rfl) (by decide) (by decide)
  exact ⟨by decide, by decide, h.2.2.2.2 0xfe (by decide) (by decide) (by decide), by decide⟩

end Reconstruct

end BoringSSL
