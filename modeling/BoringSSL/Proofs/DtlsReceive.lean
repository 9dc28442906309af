import BoringSSL.DtlsReceive
import BoringSSL.Proofs.Cbs
import BoringSSL.Proofs.DtlsBitmap

/-!
# Reassembling handshake messages

Each slot of the queue holds what has been received of its message (`SlotHolds`): its bitmap is the
union of the ranges received, and its bytes agree with the message there.  So in every run
`dtls1_get_message` hands out the current message exactly when all of it has been received
(`receives_getMessage`).
-/

namespace BoringSSL

open ByteLib List

variable {n cur : ℕ} {hdr : HmHeader} {msgs : ℕ → HandshakeMessage} {recv : List Fragment}
  {ssl : SslContext} {d1 d0 : Dtls1State}

lemma cbsGetU24_beBytes (h : n < 2 ^ 24) (rest : Bytes) :
    cbsGetU24 (beBytes 3 n ++ rest) = some (n, rest) := by
  have hn : (UInt64.ofNat n).toNat = n := by
    rw [UInt64.toNat_ofNat']
    omega
  have hget : cbsGetU (beBytes 3 n ++ rest) 3 = some (UInt64.ofNat n, rest) := by
    rw [cbsGetU_eq_some (by norm_num), hn]
    exact ⟨rfl, by omega⟩
  simp [cbsGetU24, hget, hn]

lemma cbsGetU16_beBytes (h : n < 2 ^ 16) (rest : Bytes) :
    cbsGetU16 (beBytes 2 n ++ rest) = some (n, rest) := by
  have hn : (UInt64.ofNat n).toNat = n := by
    rw [UInt64.toNat_ofNat']
    omega
  have hget : cbsGetU (beBytes 2 n ++ rest) 2 = some (UInt64.ofNat n, rest) := by
    rw [cbsGetU_eq_some (by norm_num), hn]
    exact ⟨rfl, by omega⟩
  simp [cbsGetU16, hget, hn]

@[simp] lemma HmHeader.encode_length (hdr : HmHeader) :
    hdr.encode.length = dtls1HmHeaderLength := by
  simp [encode, dtls1HmHeaderLength]

lemma dtls1ParseFragment_encode (hm : hdr.msgLen < 2 ^ 24)
    (hs : hdr.seq < 2 ^ 16) (ho : hdr.fragOff < 2 ^ 24) {body : Bytes}
    (hb : body.length = hdr.fragLen) (hl : hdr.fragLen < 2 ^ 24) (rest : Bytes) :
    dtls1ParseFragment (hdr.encode ++ (body ++ rest)) = some (hdr, body, rest) := by
  have hbody : cbsGetBytes (body ++ rest) hdr.fragLen = some (body, rest) :=
    cbsGet_eq_some.mpr ⟨rfl, hb⟩
  simp only [dtls1ParseFragment, HmHeader.encode, cons_append, append_assoc, cbsGetU8,
    Option.bind_some, cbsGetU24_beBytes hm, cbsGetU16_beBytes hs, cbsGetU24_beBytes ho,
    cbsGetU24_beBytes hl, hbody, Option.map_some]

lemma Fragment.parse (f : Fragment) (rest : Bytes) :
    dtls1ParseFragment (f.encode ++ rest) = some (f.hdr, f.body, rest) := by
  have h1 := f.msgLen_lt
  have h2 := f.within
  exact dtls1ParseFragment_encode h1 f.seq_lt (by omega) f.body_length (by omega) rest

lemma Fragment.encode_length_pos (f : Fragment) : 0 < f.encode.length := by
  simp [encode, dtls1HmHeaderLength]

def foldFragments (ssl : SslContext) (number : RecordNumber) :
    List Fragment → FragmentAcc → FragmentAcc × Option SslError
  | [], acc => (acc, none)
  | f :: fs, acc =>
    let r := processFragment ssl number f.hdr f.body acc
    if r.2.isSome then r else foldFragments ssl number fs r.1

lemma processFragments_eq_fold (ssl : SslContext) (number : RecordNumber) :
    ∀ (frags : List Fragment) (fuel : ℕ) (acc : FragmentAcc), (encodeRecord frags).length ≤ fuel →
      processFragments ssl number fuel (encodeRecord frags) acc
        = foldFragments ssl number frags acc
  | [], 0, _, _ => rfl
  | [], _ + 1, _, _ => rfl
  | f :: fs, 0, _, h => by
    have := f.encode_length_pos
    rw [encodeRecord, flatMap_cons, length_append] at h
    omega
  | f :: fs, fuel + 1, acc, h => by
    have hpos := f.encode_length_pos
    have hcons : encodeRecord (f :: fs) = f.encode ++ encodeRecord fs := rfl
    rw [hcons, length_append] at h
    have hne : (f.encode ++ encodeRecord fs).isEmpty = false := by
      rw [isEmpty_eq_false_iff, ← length_pos_iff, length_append]
      omega
    rw [hcons, processFragments, hne, f.parse, foldFragments]
    simp only [Bool.false_eq_true, if_false]
    rw [processFragments_eq_fold ssl number fs fuel _ (by omega)]

lemma dtls1Process_encodeRecord (ssl : SslContext) (number : RecordNumber)
    (frags : List Fragment) (d1 : Dtls1State) :
    dtls1ProcessHandshakeFragments ssl number (encodeRecord frags) d1 =
      let r := foldFragments ssl number frags ⟨d1, false, false⟩
      if r.2.isSome then (r.1.d1, r.2) else (finishFragments ssl number r.1, none) := by
  rw [dtls1ProcessHandshakeFragments, processFragments_eq_fold ssl number frags _ _ le_rfl]

lemma hmHeaderBytes_eq (fill : UInt8) (hm : hdr.msgLen < 2 ^ 24) (hs : hdr.seq < 2 ^ 16) :
    hmHeaderBytes fill hdr
      = some ({ hdr with fragOff := 0, fragLen := hdr.msgLen } : HmHeader).encode := by
  have hroot := (CbbRoot.fixed ⟨replicate dtls1HmHeaderLength fill,
    by rw [length_replicate]; decide⟩).stands
  have hm' : (UInt32.ofNat hdr.msgLen).toNat = hdr.msgLen := by
    rw [UInt32.toNat_ofNat']
    omega
  have hs' : (UInt16.ofNat hdr.seq).toNat = hdr.seq := by
    rw [UInt16.toNat_ofNat']
    omega
  have ht := hdr.type.toNat_lt
  refine (Writes.finish_exec hroot _).trans ?_
  rw [Writes.spec, if_neg]
  · simp [Writes.serialise, Word.width, Word.val, hm', hs', HmHeader.encode, beBytes]
  · simp [Writes.Fails, Writes.peak, Word.Fits, Word.width, Word.val, hm', hs', CbbRoot.limit,
      dtls1HmHeaderLength]
    omega

section Slots

variable {msgs : ℕ → HandshakeMessage} {recv : List Fragment} {seq : ℕ} {m : DtlsIncomingMessage}
  {f : Fragment}

/-- The slot's message holds what has been received of message `seq`. -/
structure SlotHolds (msgs : ℕ → HandshakeMessage) (recv : List Fragment) (seq : ℕ)
    (m : DtlsIncomingMessage) : Prop where
  type : m.type = (msgs seq).type
  ok : m.reassembly.Ok
  marked : ∀ i, m.reassembly.Marked i
    ↔ (msgs seq).body.length ≤ i ∨ ∃ f ∈ recv, f.Covers seq i
  data : ∃ part : Bytes, m.data = ((msgs seq).header seq).encode ++ part
    ∧ part.length = (msgs seq).body.length
    ∧ ∀ i, (∃ f ∈ recv, f.Covers seq i) → part[i]? = (msgs seq).body[i]?

/-- The slot of message `seq`: empty until a fragment of it is received. -/
def SlotOk (msgs : ℕ → HandshakeMessage) (recv : List Fragment) (seq : ℕ) :
    Option DtlsIncomingMessage → Prop
  | none => ∀ f ∈ recv, f.hdr.seq ≠ seq
  | some m => (∃ f ∈ recv, f.hdr.seq = seq) ∧ SlotHolds msgs recv seq m

lemma SlotHolds.msgLen (h : SlotHolds msgs recv seq m) : m.msgLen = (msgs seq).body.length := by
  obtain ⟨part, hd, hl, -⟩ := h.data
  rw [DtlsIncomingMessage.msgLen, DtlsIncomingMessage.msg, hd, ← HmHeader.encode_length,
    drop_left, hl]

lemma exists_covers_concat {i : ℕ} :
    (∃ g ∈ recv ++ [f], g.Covers seq i) ↔ (∃ g ∈ recv, g.Covers seq i) ∨ f.Covers seq i := by
  simp only [mem_append, mem_singleton, or_and_right, exists_or, exists_eq_left]

lemma SlotOk.concat_of_ne {slot : Option DtlsIncomingMessage} (h : SlotOk msgs recv seq slot)
    (hf : f.hdr.seq ≠ seq) : SlotOk msgs (recv ++ [f]) seq slot := by
  have hc : ∀ i, (∃ g ∈ recv ++ [f], g.Covers seq i) ↔ ∃ g ∈ recv, g.Covers seq i := by
    intro i
    rw [exists_covers_concat]
    exact ⟨fun h => h.resolve_right fun hn => hf hn.1, Or.inl⟩
  cases slot with
  | none =>
    intro g hg
    rcases mem_append.mp hg with hg | hg
    · exact h g hg
    · rw [mem_singleton.mp hg]
      exact hf
  | some m =>
    obtain ⟨⟨g, hg, hs⟩, hm⟩ := h
    refine ⟨⟨g, mem_append_left _ hg, hs⟩, hm.type, hm.ok, fun i => ?_, ?_⟩
    · rw [hc, hm.marked]
    · obtain ⟨part, h1, h2, h3⟩ := hm.data
      exact ⟨part, h1, h2, fun i hi => h3 i ((hc i).mp hi)⟩

lemma slotHolds_new (fill : UInt8) (ht : hdr.type = (msgs hdr.seq).type)
    (hl : hdr.msgLen = (msgs hdr.seq).body.length) (hs : hdr.seq < 2 ^ 16)
    (hnone : ∀ f ∈ recv, f.hdr.seq ≠ hdr.seq) :
    ∃ m, dtlsNewIncomingMessage fill hdr = some m ∧ SlotHolds msgs recv hdr.seq m := by
  have hlt := (msgs hdr.seq).length_lt
  have hcov : ∀ i, ¬ ∃ f ∈ recv, f.Covers hdr.seq i := fun i ⟨f, hf, hc⟩ => hnone f hf hc.1
  obtain ⟨hok, hmark⟩ := DtlsMessageBitmap.init_spec hdr.msgLen
  rw [dtlsNewIncomingMessage, hmHeaderBytes_eq fill (by omega) hs]
  refine ⟨_, rfl, ht, hok, fun i => ?_, replicate hdr.msgLen fill, ?_, ?_, ?_⟩
  · rw [hmark, hl]
    exact ⟨Or.inl, fun h => h.resolve_right (hcov i)⟩
  · simp [HandshakeMessage.header, ht, hl]
  · rw [length_replicate, hl]
  · exact fun i h => absurd h (hcov i)

lemma SlotHolds.concat_complete (h : SlotHolds msgs recv seq m)
    (hc : m.reassembly.isComplete = true) : SlotHolds msgs (recv ++ [f]) seq m := by
  have hall := (DtlsMessageBitmap.isComplete_iff h.ok).mp hc
  refine ⟨h.type, h.ok, fun i => ⟨fun _ => ?_, fun _ => hall i⟩, ?_⟩
  · rw [exists_covers_concat, ← or_assoc]
    exact Or.inl ((h.marked i).mp (hall i))
  · obtain ⟨part, h1, h2, h3⟩ := h.data
    refine ⟨part, h1, h2, fun i _ => ?_⟩
    rcases (h.marked i).mp (hall i) with hi | hi
    · rw [getElem?_eq_none (by omega), getElem?_eq_none hi]
    · exact h3 i hi

lemma SlotHolds.concat (h : SlotHolds msgs recv f.hdr.seq m) (hf : f.Of msgs) :
    SlotHolds msgs (recv ++ [f]) f.hdr.seq
      { m with
        data := overwrite m.data (dtls1HmHeaderLength + f.hdr.fragOff) f.body
        reassembly := m.reassembly.markRange f.hdr.fragOff (f.hdr.fragOff + f.hdr.fragLen) } := by
  have hin := f.within
  have hbl := f.body_length
  have hml := hf.msgLen
  obtain ⟨part, h1, h2, h3⟩ := h.data
  refine ⟨h.type, h.ok.markRange _ _, fun i => ?_, overwrite part f.hdr.fragOff f.body, ?_, ?_, ?_⟩
  · rw [DtlsMessageBitmap.marked_markRange h.ok, h.marked, exists_covers_concat, or_assoc]
    simp [Fragment.Covers]
  · rw [h1, ← HmHeader.encode_length, overwrite_append_left]
  · rw [overwrite_length (by omega), h2]
  · intro i hi
    rw [getElem?_overwrite (by omega)]
    split_ifs with hr
    · rw [hf.body, getElem?_take, getElem?_drop, if_pos (by omega)]
      congr 1
      omega
    · refine h3 i ((exists_covers_concat.mp hi).resolve_right fun hc => hr ?_)
      rw [hbl]
      exact hc.2

end Slots

/-- The state when message number `cur` is next and `recv` have been received.  `cur` is the count
that `handshake_read_seq` holds the low 16 bits of. -/
structure Assembles (msgs : ℕ → HandshakeMessage) (d1 : Dtls1State) (cur : ℕ)
    (recv : List Fragment) : Prop where
  readSeq : d1.handshakeReadSeq = cur % 2 ^ 16
  overflow : d1.handshakeReadOverflow = decide (2 ^ 16 ≤ cur)
  le : cur ≤ 2 ^ 16
  noNext : d1.nextReadEpoch = none
  window : ∀ f ∈ recv, f.hdr.seq < cur + sslMaxHandshakeFlight
  slots : ∀ seq, cur ≤ seq → seq < cur + sslMaxHandshakeFlight →
    SlotOk msgs recv seq (d1.incomingMessages (msgSlot seq))

lemma msgSlot_ne {a b : ℕ} (ha : cur ≤ a) (ha' : a < cur + sslMaxHandshakeFlight)
    (hb : cur ≤ b) (hb' : b < cur + sslMaxHandshakeFlight) (h : a ≠ b) :
    msgSlot a ≠ msgSlot b := by
  simp only [sslMaxHandshakeFlight] at ha' hb'
  simp only [msgSlot, sslMaxHandshakeFlight, ne_eq, Fin.mk.injEq]
  omega

namespace Assembles

variable {msgs : ℕ → HandshakeMessage} {d1 : Dtls1State} {cur : ℕ} {recv : List Fragment}
  {f : Fragment} (h : Assembles msgs d1 cur recv)

include h

lemma congr {d1' : Dtls1State} (h1 : d1'.handshakeReadSeq = d1.handshakeReadSeq)
    (h2 : d1'.handshakeReadOverflow = d1.handshakeReadOverflow)
    (h3 : d1'.nextReadEpoch = d1.nextReadEpoch) (h4 : d1'.incomingMessages = d1.incomingMessages) :
    Assembles msgs d1' cur recv :=
  ⟨h1.trans h.readSeq, h2.trans h.overflow, h.le, h3.trans h.noNext, h.window, by
    rw [h4]
    exact h.slots⟩

lemma past (hf : f.hdr.seq < cur) : Assembles msgs d1 cur (recv ++ [f]) := by
  refine ⟨h.readSeq, h.overflow, h.le, h.noNext, fun g hg => ?_, fun seq h1 h2 =>
    (h.slots seq h1 h2).concat_of_ne (by omega)⟩
  rcases mem_append.mp hg with hg | hg
  · exact h.window g hg
  · rw [mem_singleton.mp hg]
    omega

lemma setIncoming {m : DtlsIncomingMessage} (hlo : cur ≤ f.hdr.seq)
    (hhi : f.hdr.seq < cur + sslMaxHandshakeFlight)
    (hm : SlotHolds msgs (recv ++ [f]) f.hdr.seq m) :
    Assembles msgs (d1.setIncoming (msgSlot f.hdr.seq) (some m)) cur (recv ++ [f]) := by
  refine ⟨h.readSeq, h.overflow, h.le, h.noNext, fun g hg => ?_, fun seq h1 h2 => ?_⟩
  · rcases mem_append.mp hg with hg | hg
    · exact h.window g hg
    · rw [mem_singleton.mp hg]
      exact hhi
  · by_cases hs : f.hdr.seq = seq
    · subst hs
      simp only [Dtls1State.setIncoming, Function.update_self]
      exact ⟨⟨f, by simp, rfl⟩, hm⟩
    · have hne := msgSlot_ne h1 h2 hlo hhi (Ne.symm hs)
      simp only [Dtls1State.setIncoming, Function.update_of_ne hne]
      exact (h.slots seq h1 h2).concat_of_ne hs

lemma getIncoming (hf : f.Of msgs) (ssl : SslContext) (hlo : cur ≤ f.hdr.seq)
    (hhi : f.hdr.seq < cur + sslMaxHandshakeFlight) :
    ∃ m d1', dtls1GetIncomingMessage ssl d1 f.hdr = .ok (m, d1')
      ∧ SlotHolds msgs recv f.hdr.seq m
      ∧ d1' = d1.setIncoming (msgSlot f.hdr.seq) (some m) := by
  have hseq := f.seq_lt
  have hread : d1.handshakeReadSeq = cur := by
    rw [h.readSeq]
    omega
  have hslot := h.slots f.hdr.seq hlo hhi
  rw [dtls1GetIncomingMessage, hread, if_neg (by omega)]
  simp only []
  rcases hm : d1.incomingMessages (msgSlot f.hdr.seq) with _ | m
  · rw [hm] at hslot
    obtain ⟨m, hnew, hh⟩ := slotHolds_new ssl.fill hf.type hf.msgLen hseq hslot
    simp only [hnew]
    exact ⟨m, _, rfl, hh, rfl⟩
  · rw [hm] at hslot
    have hh := hslot.2
    have hok : ¬ (m.type ≠ f.hdr.type ∨ m.msgLen ≠ f.hdr.msgLen) := by
      rw [hh.type, hh.msgLen, hf.type, hf.msgLen]
      simp
    simp only [if_neg hok]
    refine ⟨m, d1, rfl, hh, ?_⟩
    rw [Dtls1State.setIncoming, ← hm, Function.update_eq_self]

end Assembles

variable {number : RecordNumber}

lemma processFragment_assembles {acc : FragmentAcc} (h : Assembles msgs acc.d1 cur recv)
    (hn : number.epoch = acc.d1.readEpoch) {f : Fragment} (hf : f.Of msgs)
    (hlen : f.hdr.msgLen ≤ ssl.maxHandshakeMessageLen)
    (hwin : f.hdr.seq < cur + sslMaxHandshakeFlight) :
    ∃ acc', processFragment ssl number f.hdr f.body acc = (acc', none)
      ∧ Assembles msgs acc'.d1 cur (recv ++ [f]) ∧ acc'.d1.readEpoch = acc.d1.readEpoch := by
  have hin := f.within
  have hseq := f.seq_lt
  have hnext := h.noNext
  rw [processFragment]
  rw [if_neg (by omega)]
  by_cases hpast : f.hdr.seq < acc.d1.handshakeReadSeq ∨ acc.d1.handshakeReadOverflow = true
  · rw [if_pos hpast]
    refine ⟨acc, rfl, h.past ?_, rfl⟩
    rw [h.readSeq, h.overflow, decide_eq_true_eq] at hpast
    omega
  · have hlo : cur ≤ f.hdr.seq := by
      rw [h.readSeq, h.overflow, decide_eq_true_eq] at hpast
      omega
    have hnear : ¬ f.hdr.seq - acc.d1.handshakeReadSeq > sslMaxHandshakeFlight := by
      rw [h.readSeq]
      omega
    obtain ⟨m, d1', hget, hm, rfl⟩ := h.getIncoming hf ssl hlo hwin
    rw [if_neg hpast, if_neg (by simp [hn, hnext]), if_neg (by omega), if_neg hnear]
    simp only [hget]
    split_ifs with hc
    · exact ⟨_, rfl, h.setIncoming hlo hwin (hm.concat_complete hc), rfl⟩
    · have := h.setIncoming hlo hwin (hm.concat hf)
      simpa [Dtls1State.setIncoming] using this

lemma foldFragments_assembles :
    ∀ (frags : List Fragment) {recv : List Fragment} {acc : FragmentAcc},
    Assembles msgs acc.d1 cur recv → number.epoch = acc.d1.readEpoch →
    (∀ f ∈ frags, f.Of msgs ∧ f.hdr.msgLen ≤ ssl.maxHandshakeMessageLen
      ∧ f.hdr.seq < cur + sslMaxHandshakeFlight) →
    ∃ acc', foldFragments ssl number frags acc = (acc', none)
      ∧ Assembles msgs acc'.d1 cur (recv ++ frags) ∧ acc'.d1.readEpoch = acc.d1.readEpoch
  | [], recv, acc, h, _, _ => ⟨acc, rfl, by simpa using h, rfl⟩
  | f :: fs, recv, acc, h, hn, hall => by
    obtain ⟨hf, hlen, hwin⟩ := hall f (by simp)
    obtain ⟨acc₁, h1, h2, h3⟩ := processFragment_assembles h hn hf hlen hwin
    obtain ⟨acc₂, h4, h5, h6⟩ := foldFragments_assembles fs h2 (hn.trans h3.symm)
      fun g hg => hall g (mem_cons_of_mem _ hg)
    refine ⟨acc₂, ?_, by simpa using h5, h6.trans h3⟩
    simp only [foldFragments, h1, Option.isSome_none, Bool.false_eq_true, if_false, h4]

lemma finishFragments_fields (ssl : SslContext) (number : RecordNumber) (acc : FragmentAcc) :
    (finishFragments ssl number acc).handshakeReadSeq = acc.d1.handshakeReadSeq
      ∧ (finishFragments ssl number acc).handshakeReadOverflow = acc.d1.handshakeReadOverflow
      ∧ (finishFragments ssl number acc).nextReadEpoch = acc.d1.nextReadEpoch
      ∧ (finishFragments ssl number acc).incomingMessages = acc.d1.incomingMessages
      ∧ (finishFragments ssl number acc).readEpoch = acc.d1.readEpoch := by
  unfold finishFragments
  simp only []
  split_ifs <;> exact ⟨rfl, rfl, rfl, rfl, rfl⟩

lemma process_assembles (ssl : SslContext) (h : Assembles msgs d1 cur recv)
    (hn : number.epoch = d1.readEpoch) {frags : List Fragment}
    (hall : ∀ f ∈ frags, f.Of msgs ∧ f.hdr.msgLen ≤ ssl.maxHandshakeMessageLen
      ∧ f.hdr.seq < cur + sslMaxHandshakeFlight) :
    ∃ d1', dtls1ProcessHandshakeFragments ssl number (encodeRecord frags) d1 = (d1', none)
      ∧ Assembles msgs d1' cur (recv ++ frags) := by
  obtain ⟨acc, h1, h2, -⟩ := foldFragments_assembles frags (show Assembles msgs
    (FragmentAcc.mk d1 false false).d1 cur recv from h) hn hall
  obtain ⟨f1, f2, f3, f4, -⟩ := finishFragments_fields ssl number acc
  rw [dtls1Process_encodeRecord, h1]
  exact ⟨_, rfl, h2.congr f1 f2 f3 f4⟩

lemma assembles_empty (msgs : ℕ → HandshakeMessage) (h : d0.EmptyQueue) :
    Assembles msgs d0 d0.handshakeReadSeq [] := by
  have hr := h.readSeq
  refine ⟨(Nat.mod_eq_of_lt hr).symm, ?_, hr.le, h.noNext, by simp, fun seq _ _ => ?_⟩
  · rw [h.overflow, eq_comm, decide_eq_false_iff_not]
    omega
  · rw [h.slots]
    simp [SlotOk]

namespace Assembles

variable {msgs : ℕ → HandshakeMessage} {d1 : Dtls1State} {cur : ℕ} {recv : List Fragment}

lemma lt_of_receivedWhole (hr : ReceivedWhole msgs recv cur) : cur < 2 ^ 16 := by
  obtain ⟨⟨f, -, rfl⟩, -⟩ := hr
  exact f.seq_lt

lemma slot_none (h : Assembles msgs d1 cur recv) (hc : 2 ^ 16 ≤ cur) (idx : Fin 7) :
    d1.incomingMessages idx = none := by
  obtain ⟨seq, h1, h2, h3⟩ : ∃ seq, cur ≤ seq ∧ seq < cur + sslMaxHandshakeFlight
      ∧ msgSlot seq = idx := by
    refine ⟨cur + (idx.val + 7 - cur % 7) % 7, by omega,
      by simp only [sslMaxHandshakeFlight]; omega, Fin.ext ?_⟩
    simp only [msgSlot, sslMaxHandshakeFlight]
    omega
  have hs := h.slots seq h1 h2
  rw [h3] at hs
  rcases hm : d1.incomingMessages idx with _ | m
  · rfl
  · rw [hm] at hs
    obtain ⟨⟨f, -, hf⟩, -⟩ := hs
    have := f.seq_lt
    omega

lemma getMessage (h : Assembles msgs d1 cur recv) :
    (ReceivedWhole msgs recv cur →
        (dtls1GetMessage d1).1 = some ((msgs cur).toSslMessage cur))
      ∧ (¬ ReceivedWhole msgs recv cur → (dtls1GetMessage d1).1 = none) := by
  by_cases hover : 2 ^ 16 ≤ cur
  · refine ⟨fun hr => absurd (lt_of_receivedWhole hr) (by omega), fun _ => ?_⟩
    simp [dtls1GetMessage, dtls1IsCurrentMessageComplete, h.slot_none hover]
  · have hread : d1.handshakeReadSeq = cur := by
      rw [h.readSeq]
      omega
    have hslot := h.slots cur le_rfl (by simp [sslMaxHandshakeFlight])
    rcases hm : d1.incomingMessages (msgSlot cur) with _ | m <;> rw [hm] at hslot
    · refine ⟨fun ⟨⟨f, hf, hs⟩, _⟩ => absurd hs (hslot f hf), fun _ => ?_⟩
      simp [dtls1GetMessage, dtls1IsCurrentMessageComplete, hread, hm]
    · obtain ⟨hseen, hh⟩ := hslot
      -- The bitmap is complete exactly when every byte is covered.
      have hcomp : m.reassembly.isComplete = true ↔ ReceivedWhole msgs recv cur := by
        rw [DtlsMessageBitmap.isComplete_iff hh.ok]
        constructor
        · intro hall
          exact ⟨hseen, fun i hi => ((hh.marked i).mp (hall i)).resolve_left (by omega)⟩
        · intro hr i
          rw [hh.marked]
          by_cases hi : i < (msgs cur).body.length
          · exact Or.inr (hr.2 i hi)
          · exact Or.inl (by omega)
      simp only [dtls1GetMessage, dtls1IsCurrentMessageComplete, hread, hm, Option.map_some]
      refine ⟨fun hr => ?_, fun hr => ?_⟩
      · obtain ⟨part, hd, hl, hbytes⟩ := hh.data
        have hpart : part = (msgs cur).body := by
          refine ext_getElem? fun i => ?_
          by_cases hi : i < (msgs cur).body.length
          · exact hbytes i (hr.2 i hi)
          · rw [getElem?_eq_none (by omega), getElem?_eq_none (by omega)]
        simp only [hcomp.mpr hr, Bool.not_true, Bool.false_eq_true, if_false,
          HandshakeMessage.toSslMessage, hh.type, DtlsIncomingMessage.msg, hd, hpart]
        rw [← HmHeader.encode_length, drop_left]
      · simp [Bool.eq_false_iff.mpr (mt hcomp.mp hr)]

lemma nextMessage (h : Assembles msgs d1 cur recv) (hr : ReceivedWhole msgs recv cur) :
    Assembles msgs (dtls1NextMessage d1) (cur + 1) recv := by
  have hlt := lt_of_receivedWhole hr
  have hread : d1.handshakeReadSeq = cur := by
    rw [h.readSeq]
    omega
  refine ⟨?_, ?_, by omega, h.noNext, fun f hf => ?_, fun seq h1 h2 => ?_⟩
  · simp only [dtls1NextMessage, hread]
  · simp only [dtls1NextMessage, hread, h.overflow]
    rw [decide_eq_false (by omega), Bool.false_or, Bool.eq_iff_iff, beq_iff_eq, decide_eq_true_eq]
    omega
  · have := h.window f hf
    omega
  · simp only [sslMaxHandshakeFlight] at h2
    simp only [dtls1NextMessage, Dtls1State.setIncoming, hread]
    by_cases hs : seq = cur + 7
    · have hsame : msgSlot seq = msgSlot cur := by
        simp only [msgSlot, sslMaxHandshakeFlight, Fin.mk.injEq]
        omega
      rw [hsame, Function.update_self]
      intro f hf
      have := h.window f hf
      simp only [sslMaxHandshakeFlight] at this
      omega
    · have hne : msgSlot seq ≠ msgSlot cur :=
        msgSlot_ne (by omega) (by simp only [sslMaxHandshakeFlight]; omega) le_rfl
          (by simp [sslMaxHandshakeFlight]) (by omega)
      rw [Function.update_of_ne hne]
      exact h.slots seq (by omega) (by simp only [sslMaxHandshakeFlight]; omega)

end Assembles

lemma receives_assembles (h0 : d0.EmptyQueue) {out : List SslMessage}
    (h : Receives msgs d0 recv out d1) :
    Assembles msgs d1 (d0.handshakeReadSeq + out.length) recv
      ∧ out = (range out.length).map fun i =>
        (msgs (d0.handshakeReadSeq + i)).toSslMessage (d0.handshakeReadSeq + i) := by
  induction h with
  | start => exact ⟨assembles_empty msgs h0, rfl⟩
  | record ssl number frags _ hn hall ih =>
    obtain ⟨ih, hout⟩ := ih
    obtain ⟨d1', hp, ha⟩ := process_assembles ssl ih hn fun f (hf : f ∈ frags) => by
      obtain ⟨h1, h2, h3⟩ := hall f hf
      refine ⟨h1, h2, ?_⟩
      rw [ih.overflow, decide_eq_true_eq, ih.readSeq] at h3
      have := f.seq_lt
      omega
    rw [hp]
    exact ⟨ha, hout⟩
  | @get recv out d1 _ ih =>
    refine ⟨ih.1.congr ?_ ?_ ?_ ?_, ih.2⟩ <;> unfold dtls1GetMessage <;> split_ifs <;> rfl
  | @next recv out d1 m _ _ hget ih =>
    obtain ⟨ih, hout⟩ := ih
    have hr : ReceivedWhole msgs recv (d0.handshakeReadSeq + out.length) := by
      by_contra hn
      rw [ih.getMessage.2 hn] at hget
      simp at hget
    rw [ih.getMessage.1 hr, Option.some.injEq] at hget
    rw [length_append, length_singleton, ← add_assoc]
    refine ⟨ih.nextMessage hr, ?_⟩
    rw [range_succ, map_append, ← hout, ← hget]
    rfl

/-- In every run, `dtls1_get_message` returns message number `handshake_read_seq` exactly when a
fragment of it has arrived and the fragments cover it, with its bytes under the header of the whole
message; the messages handed out are the peer's, in order, each once; and no record is refused. -/
theorem receives_getMessage {msgs : ℕ → HandshakeMessage} {d0 : Dtls1State} (h0 : d0.EmptyQueue)
    {recv : List Fragment} {out : List SslMessage} {d1 : Dtls1State}
    (h : Receives msgs d0 recv out d1) {cur : ℕ} (hcur : cur = d0.handshakeReadSeq + out.length) :
    d1.handshakeReadSeq = cur % 2 ^ 16
      ∧ ((dtls1GetMessage d1).1.isSome = true ↔ ReceivedWhole msgs recv cur)
      ∧ (∀ m, (dtls1GetMessage d1).1 = some m → m = (msgs cur).toSslMessage cur)
      ∧ out = ((range out.length).map fun i =>
        (msgs (d0.handshakeReadSeq + i)).toSslMessage (d0.handshakeReadSeq + i))
      ∧ ∀ (ssl : SslContext) (number : RecordNumber) (frags : List Fragment),
        number.epoch = d1.readEpoch →
        (∀ f ∈ frags, f.Of msgs ∧ f.hdr.msgLen ≤ ssl.maxHandshakeMessageLen
          ∧ f.hdr.seq < cur + sslMaxHandshakeFlight) →
        (dtls1ProcessHandshakeFragments ssl number (encodeRecord frags) d1).2 = none := by
  subst hcur
  obtain ⟨ha, hout⟩ := receives_assembles h0 h
  obtain ⟨hyes, hno⟩ := ha.getMessage
  refine ⟨ha.readSeq, ?_, fun m hm => ?_, hout, fun ssl number frags hn hall => ?_⟩
  · grind
  · grind
  · obtain ⟨d1', hp, -⟩ := process_assembles _ ha hn hall
    rw [hp]

/-- A message of two bytes, its second byte first. -/
theorem receives_getMessage_reordered : ∃ (msgs : ℕ → HandshakeMessage) (d1 : Dtls1State)
    (recv : List Fragment), Receives msgs .new recv [] d1
      ∧ (dtls1GetMessage d1).1 = some ⟨1, [7, 8], [1, 0, 0, 2, 0, 0, 0, 0, 0, 0, 0, 2, 7, 8]⟩ := by
  have h0 : Dtls1State.new.EmptyQueue := ⟨fun _ => rfl, by decide, rfl, rfl⟩
  have hrun : Receives (fun _ => ⟨1, [7, 8], by decide⟩) Dtls1State.new _ _ _ := Receives.record
    ⟨true, true, false, 0, none, false, 0, 0, 0⟩ ⟨0, 0⟩
    [⟨⟨1, 2, 0, 1, 1⟩, [8], by decide, by decide, by decide, by decide⟩,
      ⟨⟨1, 2, 0, 0, 1⟩, [7], by decide, by decide, by decide, by decide⟩]
    .start rfl (by
      intro f hf
      simp only [mem_cons, not_mem_nil, or_false] at hf
      rcases hf with rfl | rfl <;> exact ⟨⟨rfl, rfl, rfl⟩, by decide, by decide⟩)
  refine ⟨_, _, _, hrun, ?_⟩
  obtain ⟨-, hiff, hmsg, -⟩ := receives_getMessage h0 hrun rfl
  have hsome := hiff.mpr ⟨⟨_, mem_cons_self, rfl⟩, fun i hi => by
    have hi' : i = 0 ∨ i = 1 := by
      simp only [length_cons, length_nil] at hi
      omega
    rcases hi' with rfl | rfl
    · exact ⟨_, mem_cons_of_mem _ mem_cons_self, by decide, by decide, by decide⟩
    · exact ⟨_, mem_cons_self, by decide, by decide, by decide⟩⟩
  obtain ⟨m, hm⟩ := Option.isSome_iff_exists.mp hsome
  rfl

/-- No fragment of an empty message need be received to cover it, and yet it is not handed out
before one is; and a server that asks for no certificate refuses a message of 16385 bytes. -/
theorem getMessage_without_fragment :
    (∀ i < ([] : Bytes).length, ∃ f ∈ ([] : List Fragment), f.Covers 0 i)
      ∧ (dtls1GetMessage Dtls1State.new).1 = none
      ∧ (dtls1ProcessHandshakeFragments ⟨true, true, false, 0, none, false, 0, 0, 0⟩ ⟨0, 0⟩
          (encodeRecord [⟨⟨1, 16385, 0, 0, 1⟩, [7], by decide, by decide, by decide, by decide⟩])
          .new).2 = some ⟨.illegalParameter, some .excessiveMessageSize⟩ := by
  refine ⟨fun i hi => absurd hi (Nat.not_lt_zero i), rfl, ?_⟩
  decide

end BoringSSL
