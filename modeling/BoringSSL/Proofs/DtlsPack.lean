import BoringSSL.DtlsFlight
import BoringSSL.Proofs.DtlsReceive

/-!
# Packing a flight into records

What is left to send from a place in the flight on is a list of bits (`pendingAt`); packing moves
the place along and puts what it passes in fragments (`Moves`).  The loop over one message's ranges
(`packMessage_packs`) and the loop over the messages of a record (`packMessages_packs`) do this, and
fill the record as `fillRecord` says.
-/

namespace BoringSSL

open ByteLib List

variable {r : BitmapRange} {m : DtlsOutgoingMessage} {seq : ℕ} {all : List DtlsOutgoingMessage}
  {data : Bytes} {t start : ℕ}

lemma addFragment_stands {cbb : Cbb} {lim : ℕ} {front : Bytes} (h : Stands cbb lim [] front [])
    (f : Fragment) (hlen : front.length + f.encode.length ≤ lim) :
    ∃ cbb', addFragment cbb f.hdr f.hdr.fragOff f.body = (true, cbb')
      ∧ Stands cbb' lim [] (front ++ f.encode) [] := by
  have hm := f.msgLen_lt
  have hs := f.seq_lt
  have hw := f.within
  have hb := f.body_length
  have hm' : (UInt32.ofNat f.hdr.msgLen).toNat = f.hdr.msgLen := by
    rw [UInt32.toNat_ofNat']
    omega
  have hs' : (UInt16.ofNat f.hdr.seq).toNat = f.hdr.seq := by
    rw [UInt16.toNat_ofNat']
    omega
  have ho' : (UInt32.ofNat f.hdr.fragOff).toNat = f.hdr.fragOff := by
    rw [UInt32.toNat_ofNat']
    omega
  have ht := f.hdr.type.toNat_lt
  have hsize : f.body.length < sizeMod := by
    simp only [sizeMod]
    omega
  simp only [Fragment.encode, length_append, HmHeader.encode_length, dtls1HmHeaderLength]
    at hlen
  rw [addFragment, dif_pos hsize]
  set w := Writes.addWord (.u8 f.hdr.type) _ with hwdef
  obtain ⟨hok, -⟩ := Writes.exec_stands w h
  have hrun : w.Runs lim front.length [] := by
    rw [Writes.runs_nil, hwdef]
    simp [Writes.Fails, Writes.peak, Word.Fits, Word.width, Word.val, hm', hs', ho',
      LenPrefix.lead, LenPrefix.reserved]
    omega
  have htrack : w.track [] = (f.hdr.type :: (beBytes 3 f.hdr.msgLen ++ beBytes 2 f.hdr.seq
      ++ beBytes 3 f.hdr.fragOff), [(.u24, f.body)]) := by
    simp [hwdef, Writes.track, Word.width, Word.val, hm', hs', ho', frameBytes, beBytes,
      LenPrefix.lead]
  have hst := hok hrun
  rw [htrack] at hst
  obtain ⟨hfl, -⟩ := hst.flush
  obtain ⟨c', hc', hc⟩ := hfl ⟨⟨by simp [LenPrefix.maxLen, frameBytes]; omega, trivial⟩, by
    simp [frameBytes, LenPrefix.lenOctets]
    omega⟩
  refine ⟨c', hc', ?_⟩
  simpa [frameBytes, LenPrefix.lenOctets, Fragment.encode, HmHeader.encode, hb] using hc

/-- What a fragment carries. -/
def Fragment.items (f : Fragment) : List CarriedItem := fragmentItems f.hdr f.body

lemma Fragment.items_ne_nil (f : Fragment) : f.items ≠ [] := by
  unfold items fragmentItems
  split_ifs with h
  · simp
  · simpa using h

lemma recordFragments_encodeRecord : ∀ (frags : List Fragment) (fuel : ℕ),
    (encodeRecord frags).length ≤ fuel →
      recordFragments fuel (encodeRecord frags) = frags.map fun f => (f.hdr, f.body)
  | [], 0, _ => rfl
  | [], _ + 1, _ => rfl
  | f :: fs, 0, h => by
    have := f.encode_length_pos
    simp only [encodeRecord, flatMap_cons, length_append] at h
    omega
  | f :: fs, fuel + 1, h => by
    have hpos := f.encode_length_pos
    simp only [encodeRecord, flatMap_cons, length_append] at h
    have ih := recordFragments_encodeRecord fs fuel (by simp only [encodeRecord]; omega)
    simp only [recordFragments, encodeRecord, flatMap_cons, f.parse, map_cons]
    rw [← encodeRecord, ih]

lemma items_encodeRecord {frags : List Fragment} {r : SealedRecord} (ht : r.type = ssl3RtHandshake)
    (hp : r.plaintext = encodeRecord frags) : r.items = frags.flatMap Fragment.items := by
  rw [SealedRecord.items, ht, if_neg (by decide), hp, recordFragments_encodeRecord _ _ le_rfl,
    flatMap_map]
  rfl

lemma filter_range_from {N o : ℕ} (p : ℕ → Bool) (ho : o ≤ N) :
    ((List.range N).filter fun i => decide (o ≤ i) && p i) = (range' o (N - o)).filter p := by
  have hsplit := range'_append_1 (s := 0) (m := o) (n := N - o)
  rw [zero_add, Nat.add_sub_cancel' ho] at hsplit
  rw [range_eq_range', ← hsplit, filter_append]
  have hbefore : (range' 0 o).filter (fun i => decide (o ≤ i) && p i) = [] := by
    simp only [filter_eq_nil_iff, mem_range'_1, Bool.and_eq_true, decide_eq_true_eq]
    omega
  rw [hbefore, nil_append]
  refine filter_congr fun i hi => ?_
  rw [decide_eq_true (mem_range'_1.mp hi).1, Bool.true_and]

lemma filter_range_run {N o a : ℕ} {p : ℕ → Bool} (ho : o ≤ a) (hN : a + t ≤ N)
    (hb : ∀ i, o ≤ i → i < a → p i = false) (hp : ∀ i, a ≤ i → i < a + t → p i = true) :
    ((List.range N).filter fun i => decide (o ≤ i) && p i)
      = range' a t ++ (List.range N).filter fun i => decide (a + t ≤ i) && p i := by
  have hbefore : (range' o (a - o)).filter p = [] := by
    simp only [filter_eq_nil_iff, mem_range'_1, Bool.not_eq_true]
    exact fun i hi => hb i hi.1 (by omega)
  have hrun : (range' a t).filter p = range' a t := by
    simp only [filter_eq_self, mem_range'_1]
    exact fun i hi => hp i hi.1 hi.2
  have hsplit : range' o (N - o) = range' o (a - o)
      ++ (range' a t ++ range' (a + t) (N - (a + t))) := by
    have h := range'_append_1 (s := o) (m := a - o) (n := N - a)
    rw [Nat.add_sub_cancel' ho] at h
    rw [range'_append_1, show t + (N - (a + t)) = N - a by omega, h]
    congr 1
    omega
  rw [filter_range_from p (by omega), filter_range_from p hN, hsplit, filter_append, filter_append,
    hbefore, hrun, nil_append]

def HandshakeMessage.fragment (hm : HandshakeMessage) (seq : ℕ) (hseq : seq < 2 ^ 16) (off n : ℕ)
    (h : off + n ≤ hm.body.length) : Fragment where
  hdr := ⟨hm.type, hm.body.length, seq, off, n⟩
  body := (hm.body.drop off).take n
  msgLen_lt := hm.length_lt
  seq_lt := hseq
  within := h
  body_length := by
    simp only [length_take, length_drop]
    omega

namespace DtlsOutgoingMessage

variable {m : DtlsOutgoingMessage} {hm : HandshakeMessage} {seq : ℕ}

lemma bits_eq (h : m.isCcs = false) (start : ℕ) :
    m.bits start = (List.range (max m.msgLen 1)).filter
      fun i => decide (start ≤ i) && !decide (m.acked.Marked i) := by
  simp [bits, h]

lemma mem_bits (h : m.isCcs = false) {i : ℕ} :
    i ∈ m.bits start ↔ i < max m.msgLen 1 ∧ start ≤ i ∧ ¬ m.acked.Marked i := by
  rw [bits_eq h]
  simp

namespace Sends

variable (h : m.Sends hm seq)

include h

lemma msgLen : m.msgLen = hm.body.length := by
  rw [DtlsOutgoingMessage.msgLen, h.data, length_append, HmHeader.encode_length]
  omega

lemma decode : m.decode = some (hm.header seq, hm.body) := by
  have hl := hm.length_lt
  have hp : dtls1ParseFragment ((hm.header seq).encode ++ (hm.body ++ [])) = some _ :=
    dtls1ParseFragment_encode hl h.seq_lt (show 0 < 2 ^ 24 by decide) rfl hl []
  rw [List.append_nil] at hp
  rw [DtlsOutgoingMessage.decode, h.data, hp]
  simp [HandshakeMessage.header]

lemma item (i : ℕ) : m.item i =
    if hm.body.isEmpty then .header hm.type hm.body.length seq
    else .byte hm.type hm.body.length seq i (hm.body.getD i 0) := by
  rw [DtlsOutgoingMessage.item, h.decode]
  rfl

lemma bits_eq_nil_iff : m.bits start = [] ↔ ∀ i, start ≤ i → m.acked.Marked i := by
  rw [eq_nil_iff_forall_not_mem]
  constructor
  · intro hn i hi
    by_contra hmk
    exact hn i ((mem_bits h.isCcs).mpr ⟨by rw [h.msgLen]; exact h.unmarked i hmk, hi, hmk⟩)
  · intro hall i hi
    obtain ⟨-, h2, h3⟩ := (mem_bits h.isCcs).mp hi
    exact h3 (hall i h2)

lemma length_bits_le (start : ℕ) : (m.bits start).length ≤ m.acked.bytes.length * 8 := by
  have hnd : (m.bits start).Nodup := by
    rw [bits_eq h.isCcs]
    exact nodup_range.filter _
  have hsub : m.bits start ⊆ List.range (m.acked.bytes.length * 8) := by
    intro i hi
    have := DtlsMessageBitmap.not_marked_lt ((mem_bits h.isCcs).mp hi).2.2
    rw [mem_range]
    omega
  simpa using (subperm_of_subset hnd hsub).length_le

lemma stop_le (hr : m.acked.NextRun start r) : r.stop ≤ max hm.body.length 1 := by
  have :=
    h.unmarked (r.stop - 1) (hr.unmarked _ (by have := hr.lt; omega) (by have := hr.lt; omega))
  omega

lemma bits_run (hr : m.acked.NextRun start r) (ht : t ≤ r.size) :
    m.bits start = range' r.start t ++ m.bits (r.start + t) := by
  have hstop := h.stop_le hr
  have hlt := hr.lt
  simp only [BitmapRange.size] at ht
  rw [bits_eq h.isCcs, bits_eq h.isCcs, h.msgLen]
  refine filter_range_run hr.le (by omega) (fun i h1 h2 => ?_) fun i h1 h2 => ?_
  · simpa using hr.before i h1 h2
  · simpa using hr.unmarked i h1 (by omega)

lemma items_fragment {off n : ℕ} (ht : 0 < t) (hle : off + t ≤ max hm.body.length 1)
    (hn : n = if hm.body.isEmpty then 0 else t) (hle' : off + n ≤ hm.body.length) :
    (hm.fragment seq h.seq_lt off n hle').items = (range' off t).map m.item := by
  split_ifs at hn with hb
  · have hnil := List.isEmpty_iff.mp hb
    rw [hnil] at hle
    simp only [length_nil] at hle
    obtain rfl : t = 1 := by omega
    simp [Fragment.items, fragmentItems, HandshakeMessage.fragment, h.item, hnil]
  · subst hn
    have htake : ((hm.body.drop off).take n).length = n := by
      rw [length_take, length_drop]
      omega
    have hempty : ((hm.body.drop off).take n).isEmpty = false := by
      rw [isEmpty_eq_false_iff, ← length_pos_iff, htake]
      exact ht
    simp only [Fragment.items, fragmentItems, HandshakeMessage.fragment, hempty, htake,
      Bool.false_eq_true, if_false]
    apply ext_getElem (by simp)
    intro k hk1 hk2
    have hk : k < n := by simpa using hk1
    simp only [getElem_map, getElem_range, getElem_range', h.item, hb,
      Bool.false_eq_true, if_false, one_mul, getD_eq_getElem?_getD, getElem?_take,
      getElem?_drop, hk, if_true]

end Sends

end DtlsOutgoingMessage

/-- How many of `room` bytes are filled, and whether with all of them, when fragments with bodies of
these lengths are packed after `used` bytes, the last one cut to what is left. -/
def fillRecord (room : ℕ) : ℕ → List ℕ → ℕ × Bool
  | used, [] => (used, true)
  | used, n :: rest =>
    if room - used < dtls1HmHeaderLength + 1 then (used, false)
    else if room - used - dtls1HmHeaderLength < n then (room, false)
    else fillRecord room (used + dtls1HmHeaderLength + n) rest

lemma fillRecord_append (room : ℕ) : ∀ (used : ℕ) (a b : List ℕ), fillRecord room used (a ++ b)
      = if (fillRecord room used a).2 then fillRecord room (fillRecord room used a).1 b
        else fillRecord room used a
  | used, [], b => by simp [fillRecord]
  | used, n :: a, b => by
    by_cases h1 : room - used < dtls1HmHeaderLength + 1
    · simp [fillRecord, h1]
    by_cases h2 : room - used - dtls1HmHeaderLength < n
    · simp [fillRecord, h1, h2]
    simp only [cons_append, fillRecord, if_neg h1, if_neg h2]
    exact fillRecord_append room _ a b

/-- The loop over a message's ranges, from `offset` on and after `front`, ends in `r` with these
fragments added. -/
structure Packs (m : DtlsOutgoingMessage) (size : ℕ) (front : Bytes) (offset : ℕ) (lens : List ℕ)
    (frags : List Fragment) (r : PackExit × ℕ × Cbb) : Prop where
  stands : Stands r.2.2 size [] (front ++ encodeRecord frags) []
  bits : ∃ P, m.bits offset = P ++ (if r.1 = .nextMessage then [] else m.bits r.2.1)
    ∧ frags.flatMap Fragment.items = P.map m.item
  exit : (r.1 = .nextMessage ∧ r.2.1 = 0) ∨ (r.1 = .packetFull ∧ m.bits r.2.1 ≠ []
    ∧ (frags = [] → size - front.length < dtls1HmHeaderLength + 1))
  fill : fillRecord size front.length lens
    = ((front ++ encodeRecord frags).length, r.1 == .nextMessage)

lemma packMessage_packs {hm : HandshakeMessage}
    (h : m.Sends hm seq) (size : ℕ) : ∀ (fuel offset : ℕ) {cbb : Cbb} {front : Bytes},
    (m.bits offset).length < fuel → Stands cbb size [] front [] →
      ∃ frags, Packs m size front offset (m.fragmentLens fuel offset) frags
        (packMessage (hm.header seq) hm.body m.acked size fuel offset cbb)
  | 0, offset, cbb, front, hf, _ => absurd hf (Nat.not_lt_zero _)
  | fuel + 1, offset, cbb, front, hf, hst => by
    have hlen : cbb.base.len = front.length := hst.holds.len
    rcases m.acked.nextUnmarkedRange_spec h.ok offset with ⟨hr, hall⟩ | hr
    · have hnil := h.bits_eq_nil_iff.mpr hall
      have hp : packMessage (hm.header seq) hm.body m.acked size (fuel + 1) offset cbb
          = (.nextMessage, 0, cbb) := by
        simp [packMessage, hr, BitmapRange.empty]
      have hl : m.fragmentLens (fuel + 1) offset = [] := by
        simp [DtlsOutgoingMessage.fragmentLens, DtlsOutgoingMessage.ranges, hr, BitmapRange.empty]
      rw [hp, hl]
      exact ⟨[], by simpa [encodeRecord] using hst, ⟨[], by simp [hnil], rfl⟩, .inl ⟨rfl, rfl⟩,
        by simp [fillRecord, encodeRecord]⟩
    · set range := m.acked.nextUnmarkedRange offset with hrange
      have hlt := hr.lt
      have hstop := h.stop_le hr
      have hne : range.empty = false := by simp [BitmapRange.empty]; omega
      have hsize : range.size = range.stop - range.start := rfl
      have hl : m.fragmentLens (fuel + 1) offset
          = (if hm.body.length = 0 then 0 else range.size) :: m.fragmentLens fuel range.stop := by
        simp [DtlsOutgoingMessage.fragmentLens, DtlsOutgoingMessage.ranges, ← hrange, hne, h.msgLen]
      simp only [packMessage, ← hrange, hne, Bool.false_eq_true, if_false, hlen, hl]
      by_cases hcap : size - front.length < dtls1HmHeaderLength + 1
      · have hbits := h.bits_run hr (t := 1) (by omega)
        rw [if_pos hcap]
        exact ⟨[], by simpa [encodeRecord] using hst, ⟨[], by simp, rfl⟩,
          .inr ⟨rfl, by simp [hbits], fun _ => hcap⟩, by simp [fillRecord, hcap, encodeRecord]⟩
      rw [if_neg hcap]
      set todo := min range.size (size - front.length - dtls1HmHeaderLength) with htodo
      have hbits := h.bits_run hr (t := todo) (by omega)
      set n := if hm.body.isEmpty then 0 else todo with hn
      have hempty : hm.body.isEmpty = true ↔ hm.body.length = 0 := by simp
      have hnle : range.start + n ≤ hm.body.length := by
        rw [hn]
        split_ifs with hb <;> rw [hempty] at hb <;> omega
      have hnt : n ≤ todo := by
        rw [hn]
        split_ifs <;> omega
      set f := hm.fragment seq h.seq_lt range.start n hnle with hfdef
      have hfrag :
          (if hm.body.isEmpty = true then [] else List.take todo (hm.body.drop range.start))
          = f.body := by
        simp only [hfdef, HandshakeMessage.fragment, hn]
        split_ifs with hb
        · simp
        · rfl
      have hflen : f.encode.length = dtls1HmHeaderLength + n := by
        simp [Fragment.encode, hfdef, HandshakeMessage.fragment]
        omega
      obtain ⟨cbb', hadd, hst'⟩ := addFragment_stands hst f (by have := hst.length_le; omega)
      have hadd' : addFragment cbb (hm.header seq) range.start f.body = (true, cbb') := hadd
      have hitems := h.items_fragment (t := todo) (by omega) (by omega) hn hnle
      rw [hfrag, hadd']
      simp only [Bool.not_true, Bool.false_eq_true, if_false]
      by_cases hfull : todo < range.size
      · rw [if_pos hfull]
        have hbody : ¬ hm.body.length = 0 := by omega
        have hrun : m.acked.NextRun (range.start + todo) ⟨range.start + todo, range.stop⟩ :=
          ⟨le_rfl, by simp only []; omega, fun i h1 h2 => by simp only [] at h2; omega,
            fun i h1 h2 => hr.unmarked i (by simp only [] at h1; omega) h2, hr.stop⟩
        have hrest := h.bits_run (t := 1) hrun (by simp only [BitmapRange.size]; omega)
        refine ⟨[f], by simpa [encodeRecord] using hst', ⟨_, hbits, ?_⟩, .inr ⟨rfl, ?_, by simp⟩,
          ?_⟩
        · simpa using hitems
        · simp [hrest]
        · have hnt' : n = todo := by rw [hn, if_neg (by rw [hempty]; exact hbody)]
          rw [fillRecord, if_neg hcap, if_neg hbody, if_pos (by omega)]
          simp only [encodeRecord, flatMap_cons, flatMap_nil, List.append_nil, length_append, hflen]
          refine Prod.ext ?_ rfl
          omega
      · rw [if_neg hfull]
        have hall : range.start + todo = range.stop := by omega
        have hfuel : (m.bits (range.start + todo)).length < fuel := by
          grind
        obtain ⟨frags, hp⟩ := packMessage_packs h size fuel (range.start + todo) hfuel hst'
        obtain ⟨P, hP, hi⟩ := hp.bits
        refine ⟨f :: frags, by simpa [encodeRecord] using hp.stands,
          ⟨range' range.start todo ++ P, ?_, ?_⟩, hp.exit.imp id fun hexit =>
            ⟨hexit.1, hexit.2.1, by simp⟩, ?_⟩
        · rw [hbits, hP, append_assoc]
        · rw [flatMap_cons, hi, hitems, map_append]
        · have hfill := hp.fill
          have hn' : n = if hm.body.length = 0 then 0 else range.size := by
            split_ifs <;> simp_all
          rw [fillRecord, if_neg hcap, if_neg (by rw [← hn']; omega), ← hn']
          rw [length_append, hflen, ← add_assoc, hall] at hfill
          simpa [encodeRecord, hall] using hfill

/-- A bit of a message still to be sent: the message's place in the flight, the bit, and what it
stands for. -/
structure PendingBit where
  index : ℕ
  bit : ℕ
  item : CarriedItem

def pendingFrom : List DtlsOutgoingMessage → ℕ → ℕ → List PendingBit
  | [], _, _ => []
  | m :: rest, w, o => (m.bits o).map (fun i => ⟨w, i, m.item i⟩) ++ pendingFrom rest (w + 1) 0

/-- What is still to be sent from offset `o` of message `w` on. -/
def pendingAt (all : List DtlsOutgoingMessage) (w o : ℕ) : List PendingBit :=
  pendingFrom (all.drop w) w o

/-- Sending starts at the start of a message, or where it has bits left to send. -/
def Place (all : List DtlsOutgoingMessage) (w o : ℕ) : Prop :=
  o = 0 ∨ ∃ m, all[w]? = some m ∧ m.isCcs = false ∧ m.bits o ≠ []

/-- From offset `o` of message `w`, sending `items` leads to offset `o'` of message `w'`. -/
structure Moves (all : List DtlsOutgoingMessage) (w o w' o' : ℕ) (items : List CarriedItem) :
    Prop where
  le : w ≤ w'
  le_length : w ≤ all.length → w' ≤ all.length
  place : Place all w o → Place all w' o'
  pending : ∃ P, pendingAt all w o = P ++ pendingAt all w' o' ∧ items = P.map PendingBit.item

section Moves

variable {all : List DtlsOutgoingMessage} {w o w' o' w'' o'' : ℕ} {items items' : List CarriedItem}

lemma flightItems_eq (messages : List DtlsOutgoingMessage) :
    flightItems messages = (pendingAt messages 0 0).map PendingBit.item := by
  have : ∀ (l : List DtlsOutgoingMessage) (w : ℕ),
      (pendingFrom l w 0).map PendingBit.item = flightItems l := by
    intro l
    induction l with
    | nil => intro w; rfl
    | cons m rest ih =>
      intro w
      simp only [pendingFrom, map_append, List.map_map, ih, flightItems, flatMap_cons]
      rfl
  exact (this messages 0).symm

lemma pendingAt_of_le (h : all.length ≤ w) : pendingAt all w o = [] := by
  rw [pendingAt, drop_eq_nil_of_le h, pendingFrom]

lemma pendingAt_cons (h : all[w]? = some m) :
    pendingAt all w o = (m.bits o).map (fun i => ⟨w, i, m.item i⟩) ++ pendingAt all (w + 1) 0 := by
  obtain ⟨hlt, hm⟩ := List.getElem?_eq_some_iff.mp h
  rw [pendingAt, drop_eq_getElem_cons hlt, hm, pendingFrom, pendingAt]

lemma Moves.refl : Moves all w o w o [] := ⟨le_rfl, id, id, [], rfl, rfl⟩

lemma Moves.trans (h : Moves all w o w' o' items) (h' : Moves all w' o' w'' o'' items') :
    Moves all w o w'' o'' (items ++ items') := by
  obtain ⟨P, hP, hi⟩ := h.pending
  obtain ⟨Q, hQ, hi'⟩ := h'.pending
  refine ⟨h.le.trans h'.le, h'.le_length ∘ h.le_length, h'.place ∘ h.place, P ++ Q, ?_, ?_⟩
  · rw [hP, hQ, append_assoc]
  · rw [hi, hi', map_append]

lemma Moves.length (h : Moves all w o w' o' items) :
    (pendingAt all w o).length = items.length + (pendingAt all w' o').length := by
  obtain ⟨P, hP, hi⟩ := h.pending
  rw [hP, hi, length_append, length_map]

lemma Moves.next (h : all[w]? = some m) :
    Moves all w o (w + 1) 0 ((m.bits o).map m.item) where
  le := Nat.le_succ w
  le_length := fun _ => (List.getElem?_eq_some_iff.mp h).1
  place := fun _ => Or.inl rfl
  pending := ⟨_, pendingAt_cons h, by simp⟩

lemma Moves.within {P : List ℕ} (h : all[w]? = some m)
    (hc : m.isCcs = false) (hne : m.bits o' ≠ []) (hP : m.bits o = P ++ m.bits o') :
    Moves all w o w o' (P.map m.item) where
  le := le_rfl
  le_length := id
  place := fun _ => Or.inr ⟨m, h, hc, hne⟩
  pending := by
    rw [pendingAt_cons h, pendingAt_cons h, hP]
    simp

end Moves

/-- The loop over the messages, from the place `s` on and after `front`, ends in `r` with these
fragments added. -/
structure PacksRecord (all : List DtlsOutgoingMessage) (epoch : UInt16) (allow : Bool) (size : ℕ)
    (msgs : List DtlsOutgoingMessage) (s : PackState) (front : Bytes) (frags : List Fragment)
    (r : SealResult × PackState) : Prop where
  result : r.1 = .continue ∨ r.1 = .flush
  stands : Stands r.2.cbb size [] (front ++ encodeRecord frags) []
  moves : Moves all s.written s.offset r.2.written r.2.offset (frags.flatMap Fragment.items)
  fill : (fillRecord size front.length (recordLens epoch allow msgs s.offset)).1
    = (front ++ encodeRecord frags).length
  nothing : ∀ m, msgs.head? = some m → m.epoch = epoch → m.isCcs = false → m.bits s.offset ≠ [] →
    frags = [] → r.1 = .flush ∧ size - front.length < dtls1HmHeaderLength + 1

lemma packMessages_packs (hwf : ∀ m ∈ all, m.WellFormed)
    (epoch : UInt16) (allow : Bool) (size : ℕ) : ∀ (msgs : List DtlsOutgoingMessage) (s : PackState)
    {front : Bytes}, all.drop s.written = msgs → Stands s.cbb size [] front [] →
      ∃ frags, PacksRecord all epoch allow size msgs s front frags
        (packMessages epoch allow size msgs s)
  | [], s, front, hd, hst => by
    refine ⟨[], .inr rfl, by simpa [packMessages, encodeRecord] using hst, Moves.refl, ?_, ?_⟩
    · simp [recordLens, fillRecord, encodeRecord]
    · simp
  | m :: rest, s, front, hd, hst => by
    by_cases hc : m.epoch ≠ epoch ∨ m.isCcs
    · simp only [packMessages, if_pos hc]
      refine ⟨[], .inl rfl, by simpa [encodeRecord] using hst, Moves.refl, ?_, ?_⟩
      · simp [recordLens, if_pos hc, fillRecord, encodeRecord]
      · grind
    have hget : all[s.written]? = some m := by
      rw [← head?_drop, hd]
      rfl
    have hccs : m.isCcs = false := by simpa using fun h => hc (.inr h)
    obtain ⟨hm, seq, hs⟩ := (hwf m (mem_of_getElem? hget)).resolve_left fun h => by
      simp [hccs] at h
    set fuel := m.acked.bytes.length * 8 + 1 with hfuel
    obtain ⟨frags, hp⟩ := packMessage_packs hs size fuel s.offset
      (Nat.lt_succ_of_le (hs.length_bits_le _)) hst
    obtain ⟨P, hP, hi⟩ := hp.bits
    simp only [packMessages, if_neg hc, hs.decode, ← hfuel]
    set r := packMessage (hm.header seq) hm.body m.acked size fuel s.offset s.cbb with hr
    have hfill := hp.fill
    -- What the rest of the record adds when this message is all in it.
    have hlens : ∀ lens,
        recordLens epoch allow (m :: rest) s.offset = m.fragmentLens fuel s.offset ++ lens →
        (fillRecord size front.length (recordLens epoch allow (m :: rest) s.offset)).1
          = if r.1 = .nextMessage then (fillRecord size (front ++ encodeRecord frags).length lens).1
            else (front ++ encodeRecord frags).length := by
      intro lens hl
      rw [hl, fillRecord_append, hfill]
      by_cases hn : r.1 = .nextMessage <;> simp [hn]
    rcases hp.exit with ⟨he, ho⟩ | ⟨he, hne, hnothing⟩
    · have hP' : m.bits s.offset = P := by simpa [he] using hP
      have hmove : Moves all s.written s.offset (s.written + 1) 0
          (frags.flatMap Fragment.items) := by
        rw [hi, ← hP']
        exact Moves.next hget
      have hsome : m.bits s.offset ≠ [] → frags ≠ [] := by
        rintro hb rfl
        rw [hP'] at hb
        simp [hb] at hi
      simp only [he, ho]
      cases hallow : allow
      · refine ⟨frags, .inl rfl, hp.stands, hmove, ?_, fun m' hm' _ _ hb hnil => ?_⟩
        · have := hlens [] (by simp [recordLens, if_neg hc, hallow, hfuel])
          simpa [he, fillRecord, hallow] using this
        · obtain rfl : m = m' := by simpa using hm'
          exact absurd hnil (hsome hb)
      · have hd' : all.drop (s.written + 1) = rest := by
          rw [← tail_drop, hd]
          rfl
        obtain ⟨frags', hp'⟩ := packMessages_packs hwf epoch true size rest
          ⟨s.written + 1, 0, r.2.2⟩ hd' hp.stands
        refine ⟨frags ++ frags', hp'.result, ?_, ?_, ?_, fun m' hm' _ _ hb hnil => ?_⟩
        · simpa [encodeRecord] using hp'.stands
        · rw [flatMap_append]
          exact hmove.trans hp'.moves
        · have := hlens (recordLens epoch true rest 0)
            (by simp [recordLens, if_neg hc, hallow, hfuel])
          rw [he, if_pos rfl, hp'.fill, hallow] at this
          simpa [encodeRecord] using this
        · obtain rfl : m = m' := by simpa using hm'
          exact absurd (append_eq_nil_iff.mp hnil).1 (hsome hb)
    · simp only [he]
      refine ⟨frags, .inr rfl, hp.stands, ?_, ?_, fun m' _ _ _ _ hnil => ⟨rfl, hnothing hnil⟩⟩
      · rw [hi]
        exact Moves.within hget hccs hne (by simpa [he] using hP)
      · have := hlens (if allow then recordLens epoch allow rest 0 else [])
          (by simp [recordLens, if_neg hc, hfuel])
        simpa [he] using this

lemma skipAcked_moves (hwf : ∀ m ∈ all, m.WellFormed) :
    ∀ (msgs : List DtlsOutgoingMessage) {w o : ℕ}, all.drop w = msgs →
      Moves all w o (skipAcked msgs w o).1 (skipAcked msgs w o).2 []
        ∧ ∀ m, all[(skipAcked msgs w o).1]? = some m →
          m.isFullyAcked = false ∧ (Place all w o → m.bits (skipAcked msgs w o).2 ≠ [])
  | [], w, o, hd => by
    refine ⟨Moves.refl, fun m hm => ?_⟩
    have hlt := (List.getElem?_eq_some_iff.mp hm).1
    have hlen := drop_eq_nil_iff.mp hd
    simp only [skipAcked] at hlt
    omega
  | m :: rest, w, o, hd => by
    have hget : all[w]? = some m := by
      rw [← head?_drop, hd]
      rfl
    have hm := hwf m (mem_of_getElem? hget)
    by_cases ha : m.isFullyAcked
    · simp only [skipAcked, if_pos ha]
      simp only [DtlsOutgoingMessage.isFullyAcked, Bool.and_eq_true, Bool.not_eq_true'] at ha
      obtain ⟨hm', seq, hs⟩ := hm.resolve_left fun h => by simp [ha.1] at h
      have hbits : m.bits o = [] := hs.bits_eq_nil_iff.mpr fun i _ =>
        (DtlsMessageBitmap.isComplete_iff hs.ok).mp ha.2 i
      have hmove : Moves all w o (w + 1) 0 [] := by simpa [hbits] using Moves.next (o := o) hget
      have hd' : all.drop (w + 1) = rest := by
        rw [← tail_drop, hd]
        rfl
      obtain ⟨h1, h2⟩ := skipAcked_moves hwf rest (o := 0) hd'
      exact ⟨hmove.trans h1, fun m' hm' => ⟨(h2 m' hm').1, fun _ => (h2 m' hm').2 (.inl rfl)⟩⟩
    · simp only [skipAcked, if_neg ha]
      refine ⟨Moves.refl, fun m' hm' => ?_⟩
      obtain rfl : m = m' := by simpa [hget] using hm'
      refine ⟨by simpa using ha, fun hp => ?_⟩
      rcases hm with ⟨hc, -⟩ | ⟨hm, seq, hs⟩
      · simp [DtlsOutgoingMessage.bits, hc]
      · rcases hp with rfl | ⟨m', hm'', -, hb⟩
        · intro hb
          refine ha ?_
          simp only [DtlsOutgoingMessage.isFullyAcked, hs.isCcs, Bool.not_false, Bool.true_and]
          exact (DtlsMessageBitmap.isComplete_iff hs.ok).mpr fun i =>
            hs.bits_eq_nil_iff.mp hb i (Nat.zero_le i)
        · obtain rfl : m = m' := by simpa [hget] using hm''
          exact hb

lemma dtls1Message_eq_some {fill type : UInt8} {body : Writes}
    (hseq : seq < 2 ^ 16) (h : dtls1Message fill seq type body = some data) :
    ∃ hm : HandshakeMessage, hm.type = type ∧ hm.body = body.serialise LenPrefix.lead
      ∧ data = (hm.header seq).encode ++ hm.body := by
  have hs' : (UInt16.ofNat seq).toNat = seq := by
    rw [UInt16.toNat_ofNat']
    omega
  have hfin := Writes.finish_exec (CbbRoot.growable 64 fill).stands
    (Writes.addWord (.u8 type) <| .addWord (.u24 0) <| .addWord (.u16 (UInt16.ofNat seq)) <|
      .addWord (.u24 0) <| .addChild .u24 body .done)
  have hcbb : (CbbRoot.growable 64 fill).cbb = cbbInit 64 fill := rfl
  rw [hcbb] at hfin
  rw [dtls1Message, hfin, Writes.spec] at h
  split_ifs at h with hbad
  · simp at h
  rw [not_or] at hbad
  have hlen : (body.serialise LenPrefix.lead).length ≤ 0xffffff := by
    by_contra hc
    refine hbad.1 ?_
    simp only [Writes.Fails, Writes.closes_done, LenPrefix.maxLen]
    exact .inr (.inr (.inr (.inr (.inr (.inl ⟨trivial, by omega⟩)))))
  refine ⟨⟨type, body.serialise LenPrefix.lead, by omega⟩, rfl, rfl, ?_⟩
  simp [Writes.serialise, Word.width, Word.val, hs', LenPrefix.encode, LenPrefix.lead,
    LenPrefix.lenOctets, beBytes, overwrite, dtls1HmHeaderLength] at h
  rw [← h]
  simp [HmHeader.encode, HandshakeMessage.header, beBytes]

lemma sends_init (hm : HandshakeMessage) (hseq : seq < 2 ^ 16)
    (hdata : data = (hm.header seq).encode ++ hm.body) (epoch : UInt16) :
    (⟨data, epoch, false, .init (max (data.length - dtls1HmHeaderLength) 1)⟩ :
      DtlsOutgoingMessage).Sends hm seq := by
  have hlen : data.length - dtls1HmHeaderLength = hm.body.length := by
    rw [hdata, length_append, HmHeader.encode_length]
    omega
  rw [hlen]
  obtain ⟨hok, hmarked⟩ := DtlsMessageBitmap.init_spec (max hm.body.length 1)
  exact ⟨rfl, hseq, hdata, hok, fun i hi => by rw [hmarked] at hi; omega⟩

end BoringSSL
