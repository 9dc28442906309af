import BoringSSL.Proofs.DtlsReceive
import Mathlib.Data.List.TakeWhile

/-!
# Fragments past the receive window

`dtls1_process_handshake_fragments` skips a fragment more than seven messages ahead, and
`dtls1_get_incoming_message` refuses one seven or more ahead.  A fragment exactly seven ahead is
let through by the first and fails in the second (`processFragment_edge`), and the whole record with
it.  When message numbers run out, every fragment is taken for an old one.
-/

namespace BoringSSL

open List

variable {ssl : SslContext} {number : RecordNumber} {f : Fragment} {fs frags : List Fragment}
  {acc acc' : FragmentAcc} {r : FragmentAcc × Option SslError} {d0 d1 : Dtls1State}

lemma processFragment_flags (ssl : SslContext) (number : RecordNumber) (hdr : HmHeader)
    (body : ByteLib.Bytes) (h : acc.d1 = acc'.d1) :
    (processFragment ssl number hdr body acc).1.d1 = (processFragment ssl number hdr body acc').1.d1
      ∧ (processFragment ssl number hdr body acc).2
        = (processFragment ssl number hdr body acc').2 := by
  unfold processFragment
  simp only [h]
  split_ifs
  all_goals try first | exact ⟨rfl, rfl⟩ | exact ⟨h, rfl⟩
  rcases dtls1GetIncomingMessage ssl acc'.d1 hdr with e | ⟨m, d1⟩
  · exact ⟨rfl, rfl⟩
  · simp only []
    split_ifs <;> exact ⟨rfl, rfl⟩

/-- The state lets new messages in from `number`'s epoch. -/
structure Admits (d1 : Dtls1State) (number : RecordNumber) : Prop where
  epoch : number.epoch = d1.readEpoch
  noNext : d1.nextReadEpoch = none
  noOverflow : d1.handshakeReadOverflow = false

lemma processFragment_overflow (h : acc.d1.handshakeReadOverflow = true) :
    processFragment ssl number f.hdr f.body acc = (acc, none) := by
  have hin := f.within
  rw [processFragment]
  rw [if_neg (by omega), if_pos (Or.inr h)]

lemma kind_overwrite {m : DtlsIncomingMessage} (h : m.kind = f.kind) (b : DtlsMessageBitmap) :
    DtlsIncomingMessage.kind { m with
      data := ByteLib.overwrite m.data (dtls1HmHeaderLength + f.hdr.fragOff) f.body
      reassembly := b } = f.kind := by
  obtain ⟨htype, hlen⟩ := Prod.mk.inj h
  have hin := f.within
  have hbody := f.body_length
  refine Prod.ext htype ?_
  simp only [DtlsIncomingMessage.kind, DtlsIncomingMessage.msgLen, DtlsIncomingMessage.msg,
    length_drop, Fragment.kind] at hlen ⊢
  by_cases hnil : f.body = []
  · rw [hnil, ByteLib.overwrite_nil]
    exact hlen
  · have hpos := length_pos_iff.mpr hnil
    rw [ByteLib.overwrite_length (by omega)]
    exact hlen

lemma kind_new {m : DtlsIncomingMessage} (h : dtlsNewIncomingMessage ssl.fill f.hdr = some m) :
    m.kind = f.kind := by
  rw [dtlsNewIncomingMessage, hmHeaderBytes_eq ssl.fill f.msgLen_lt f.seq_lt] at h
  cases h
  simp [DtlsIncomingMessage.kind, DtlsIncomingMessage.msgLen, DtlsIncomingMessage.msg,
    HmHeader.encode, Fragment.kind, dtls1HmHeaderLength]
  omega

/-- A message in the window is refused if it is queued with another type or length, and else it is
queued. -/
lemma dtls1GetIncomingMessage_window (ssl : SslContext) (hle : d1.handshakeReadSeq ≤ f.hdr.seq)
    (hnear : ¬ f.Far d1) :
    (∃ m ∈ d1.incomingMessages (msgSlot f.hdr.seq), m.kind ≠ f.kind
        ∧ dtls1GetIncomingMessage ssl d1 f.hdr = .error ⟨.illegalParameter, some .fragmentMismatch⟩)
      ∨ (∀ m ∈ d1.incomingMessages (msgSlot f.hdr.seq), m.kind = f.kind)
        ∧ ∃ m : DtlsIncomingMessage, m.kind = f.kind ∧ dtls1GetIncomingMessage ssl d1 f.hdr
          = .ok (m, d1.setIncoming (msgSlot f.hdr.seq) (some m)) := by
  rw [Fragment.Far, not_le] at hnear
  rw [dtls1GetIncomingMessage, if_neg (by omega)]
  simp only []
  rcases hq : d1.incomingMessages (msgSlot f.hdr.seq) with _ | m
  · rcases hnew : dtlsNewIncomingMessage ssl.fill f.hdr with _ | m
    · rw [dtlsNewIncomingMessage, hmHeaderBytes_eq ssl.fill f.msgLen_lt f.seq_lt] at hnew
      cases hnew
    · exact .inr ⟨by simp, m, kind_new hnew, rfl⟩
  · simp only []
    split_ifs with hne
    · refine .inl ⟨m, rfl, fun hkind => ?_, rfl⟩
      obtain ⟨htype, hlen⟩ := Prod.mk.inj hkind
      exact hne.elim (· htype) (· hlen)
    · rw [not_or, not_not, not_not] at hne
      have hkind : m.kind = f.kind := Prod.ext hne.1 hne.2
      refine .inr ⟨fun m' hm' => Option.some.inj hm' ▸ hkind, m, hkind, ?_⟩
      rw [Dtls1State.setIncoming, ← hq, Function.update_eq_self]

/-- What becomes of a fragment that is let in; `ack` is the flag for implicit acknowledgement. -/
inductive Handles (f : Fragment) (acc : FragmentAcc) : FragmentAcc × Option SslError → Prop
  | past (ack : Bool) (h : f.hdr.seq < acc.d1.handshakeReadSeq) :
    Handles f acc (⟨acc.d1, ack, acc.skippedFragments⟩, none)
  | skipped (ack : Bool) (h : acc.d1.handshakeReadSeq + sslMaxHandshakeFlight < f.hdr.seq) :
    Handles f acc (⟨acc.d1, ack, true⟩, none)
  | edge (ack : Bool) (h : f.hdr.seq = acc.d1.handshakeReadSeq + sslMaxHandshakeFlight) :
    Handles f acc (⟨acc.d1, ack, acc.skippedFragments⟩, some ⟨.internalError, none⟩)
  | mismatch (ack : Bool) (hle : acc.d1.handshakeReadSeq ≤ f.hdr.seq) (hnear : ¬ f.Far acc.d1)
    (m : DtlsIncomingMessage) (hm : m ∈ acc.d1.incomingMessages (msgSlot f.hdr.seq))
    (hkind : m.kind ≠ f.kind) : Handles f acc (⟨acc.d1, ack, acc.skippedFragments⟩,
      some ⟨.illegalParameter, some .fragmentMismatch⟩)
  | queued (ack : Bool) (hle : acc.d1.handshakeReadSeq ≤ f.hdr.seq) (hnear : ¬ f.Far acc.d1)
    (hq : ∀ m ∈ acc.d1.incomingMessages (msgSlot f.hdr.seq), m.kind = f.kind)
    (m : DtlsIncomingMessage) (hm : m.kind = f.kind) : Handles f acc
      (⟨acc.d1.setIncoming (msgSlot f.hdr.seq) (some m), ack, acc.skippedFragments⟩, none)

lemma processFragment_handles (ha : Admits acc.d1 number)
    (hl : f.hdr.msgLen ≤ ssl.maxHandshakeMessageLen) :
    Handles f acc (processFragment ssl number f.hdr f.body acc) := by
  have hin := f.within
  rw [processFragment]
  rw [if_neg (by omega)]
  by_cases hpast : f.hdr.seq < acc.d1.handshakeReadSeq
  · rw [if_pos (.inl hpast)]
    exact .past _ hpast
  have hle := not_lt.mp hpast
  rw [if_neg (by rw [ha.noOverflow]; simp; omega), if_neg (by simp [ha.epoch, ha.noNext]),
    if_neg (by omega)]
  rcases lt_trichotomy f.hdr.seq (acc.d1.handshakeReadSeq + sslMaxHandshakeFlight) with
    hlt | hedge | hfar
  · have hnear : ¬ f.Far acc.d1 := not_le.mpr hlt
    rw [if_neg (by omega)]
    rcases dtls1GetIncomingMessage_window ssl hle hnear with
      ⟨m, hm, hkind, hget⟩ | ⟨hq, m, hm, hget⟩
    · simp only [hget]
      exact .mismatch _ hle hnear m hm hkind
    · simp only [hget]
      split_ifs
      · exact .queued _ hle hnear hq m hm
      · simp only [Dtls1State.setIncoming, Function.update_idem]
        exact .queued _ hle hnear hq _ (kind_overwrite hm _)
  · rw [if_neg (by omega), dtls1GetIncomingMessage, if_pos (.inr (by omega))]
    exact .edge _ hedge
  · rw [if_pos (by omega)]
    exact .skipped _ hfar

section

variable (h : Handles f acc r)

include h

lemma Handles.frame : ∃ q, r.1.d1 = { acc.d1 with incomingMessages := q } := by
  cases h <;> exact ⟨_, rfl⟩

lemma Handles.admits (ha : Admits acc.d1 number) : Admits r.1.d1 number := by
  cases h <;> exact ⟨ha.epoch, ha.noNext, ha.noOverflow⟩

lemma Handles.readSeq : r.1.d1.handshakeReadSeq = acc.d1.handshakeReadSeq := by
  cases h <;> rfl

lemma Handles.outside (hout : ¬ (acc.d1.handshakeReadSeq ≤ f.hdr.seq ∧ ¬ f.Far acc.d1))
    (hne : f.hdr.seq ≠ acc.d1.handshakeReadSeq + sslMaxHandshakeFlight) :
    r.2 = none ∧ r.1.d1 = acc.d1 := by
  cases h with
  | past | skipped => exact ⟨rfl, rfl⟩
  | edge _ h => exact absurd h hne
  | mismatch _ hle hnear | queued _ hle hnear => exact absurd ⟨hle, hnear⟩ hout

lemma Handles.at_edge (hf : f.hdr.seq = acc.d1.handshakeReadSeq + sslMaxHandshakeFlight) :
    r.2 = some ⟨.internalError, none⟩ := by
  cases h with
  | past _ h | skipped _ h => omega
  | edge => rfl
  | mismatch _ _ hnear | queued _ _ hnear => exact absurd hf.ge hnear

end

/-- What becomes of fragments that are let in one after the other, until one fails. -/
inductive HandlesAll : List Fragment → FragmentAcc → FragmentAcc × Option SslError → Prop
  | nil (acc : FragmentAcc) : HandlesAll [] acc (acc, none)
  | fail {f : Fragment} {fs : List Fragment} {acc acc' : FragmentAcc} {e : SslError}
    (h : Handles f acc (acc', some e)) : HandlesAll (f :: fs) acc (acc', some e)
  | step {f : Fragment} {fs : List Fragment} {acc acc' : FragmentAcc}
    {r : FragmentAcc × Option SslError} (h : Handles f acc (acc', none))
    (hs : HandlesAll fs acc' r) : HandlesAll (f :: fs) acc r

lemma foldFragments_handles : ∀ (frags : List Fragment) (acc : FragmentAcc),
    Admits acc.d1 number → (∀ f ∈ frags, f.hdr.msgLen ≤ ssl.maxHandshakeMessageLen) →
    HandlesAll frags acc (foldFragments ssl number frags acc)
  | [], acc, _, _ => .nil acc
  | f :: fs, acc, ha, hl => by
    have h := processFragment_handles ha (hl f mem_cons_self)
    rw [foldFragments]
    generalize processFragment ssl number f.hdr f.body acc = r at h
    rcases r with ⟨acc', _ | e⟩
    · exact .step h (foldFragments_handles fs acc' (h.admits ha) fun g hg =>
        hl g (mem_cons_of_mem _ hg))
    · exact .fail h

lemma HandlesAll.frame (h : HandlesAll frags acc r) :
    ∃ q, r.1.d1 = { acc.d1 with incomingMessages := q } := by
  induction h with
  | nil => exact ⟨_, rfl⟩
  | fail h => exact h.frame
  | step h _ ih =>
    obtain ⟨q, hq⟩ := h.frame
    obtain ⟨q', hq'⟩ := ih
    exact ⟨q', by rw [hq', hq]⟩

lemma HandlesAll.near (h : HandlesAll frags acc r) :
    (∀ f ∈ frags, ¬ f.Far acc.d1) → r.2 ≠ some ⟨.internalError, none⟩ := by
  induction h with
  | nil => simp
  | fail h =>
    intro hall
    cases h with
    | edge _ h => exact absurd h.ge (hall _ mem_cons_self)
    | mismatch => simp
  | step h _ ih =>
    refine fun hall => ih fun g hg => ?_
    rw [Fragment.Far, h.readSeq]
    exact hall g (mem_cons_of_mem _ hg)

/-- Fragments past the window are noted. -/
lemma HandlesAll.skipped (h : HandlesAll frags acc r) : r.2 = none →
    acc.skippedFragments = true ∨ (∃ f ∈ frags, f.Far acc.d1) → r.1.skippedFragments = true := by
  induction h with
  | nil => simp
  | fail => simp
  | @step f fs acc acc' r h _ ih =>
    refine fun hnone hor => ih hnone ?_
    cases h with
    | past _ h => grind [Fragment.Far]
    | skipped => exact .inl rfl
    | queued => grind [Fragment.Far, Dtls1State.setIncoming]

lemma foldFragments_overflow : ∀ (frags : List Fragment) (acc : FragmentAcc),
    acc.d1.handshakeReadOverflow = true → foldFragments ssl number frags acc = (acc, none)
  | [], _, _ => rfl
  | f :: fs, acc, h => by
    simp only [foldFragments, processFragment_overflow h, Option.isSome_none, Bool.false_eq_true,
      if_false]
    exact foldFragments_overflow fs acc h

lemma foldFragments_append (ssl : SslContext) (number : RecordNumber) (gs : List Fragment) :
    ∀ (fs : List Fragment) (acc : FragmentAcc), foldFragments ssl number (fs ++ gs) acc =
      if (foldFragments ssl number fs acc).2.isSome then foldFragments ssl number fs acc
      else foldFragments ssl number gs (foldFragments ssl number fs acc).1
  | [], acc => by simp [foldFragments]
  | f :: fs, acc => by
    simp only [cons_append, foldFragments]
    split_ifs <;> simp_all [foldFragments_append ssl number gs fs]

/-- With no fragment exactly at the end of the window, those past it are ignored. -/
lemma foldFragments_filter : ∀ (frags : List Fragment) (acc acc' : FragmentAcc),
    Admits acc.d1 number → acc.d1 = acc'.d1 → acc.d1.handshakeReadSeq = d0.handshakeReadSeq →
    (∀ f ∈ frags, f.hdr.msgLen ≤ ssl.maxHandshakeMessageLen) →
    (∀ f ∈ frags, f.hdr.seq ≠ d0.handshakeReadSeq + sslMaxHandshakeFlight) →
    (foldFragments ssl number frags acc).2
        = (foldFragments ssl number (frags.filter fun f => ¬ f.Far d0) acc').2
      ∧ (foldFragments ssl number frags acc).1.d1
        = (foldFragments ssl number (frags.filter fun f => ¬ f.Far d0) acc').1.d1
  | [], acc, acc', _, h, _, _, _ => ⟨rfl, h⟩
  | f :: fs, acc, acc', ha, h, hseq, hl, hne => by
    have hf := processFragment_handles ha (hl f mem_cons_self)
    have ih := fun acc' h => foldFragments_filter fs _ acc' (hf.admits ha) h
      (hf.readSeq.trans hseq) (fun g hg => hl g (mem_cons_of_mem _ hg))
      fun g hg => hne g (mem_cons_of_mem _ hg)
    by_cases hfar : f.Far d0
    · obtain ⟨hok, hd1⟩ := hf.outside (fun hin => hin.2 (by rwa [Fragment.Far, hseq]))
        (by rw [hseq]; exact hne f mem_cons_self)
      rw [filter_cons_of_neg (by simpa using hfar)]
      simp only [foldFragments, hok, Option.isSome_none, Bool.false_eq_true, if_false]
      exact ih acc' (hd1.trans h)
    · obtain ⟨hd, he⟩ := processFragment_flags ssl number f.hdr f.body h
      rw [filter_cons_of_pos (by simpa using hfar)]
      simp only [foldFragments, ← he]
      split_ifs
      · exact ⟨he, hd⟩
      · exact ih _ hd

lemma consistentFragments_cons : ConsistentFragments d1 (f :: fs) ↔
    (d1.handshakeReadSeq ≤ f.hdr.seq → ¬ f.Far d1 →
      (∀ m ∈ d1.incomingMessages (msgSlot f.hdr.seq), m.kind = f.kind)
        ∧ ∀ g ∈ fs, g.hdr.seq = f.hdr.seq → g.kind = f.kind) ∧ ConsistentFragments d1 fs := by
  simp only [ConsistentFragments, forall_mem_cons, Fragment.Far]
  grind

lemma consistentFragments_setIncoming {m : DtlsIncomingMessage}
    (hle : d1.handshakeReadSeq ≤ f.hdr.seq) (hnear : ¬ f.Far d1) (hm : m.kind = f.kind)
    (hq : ∀ m ∈ d1.incomingMessages (msgSlot f.hdr.seq), m.kind = f.kind) :
    ConsistentFragments (d1.setIncoming (msgSlot f.hdr.seq) (some m)) fs ↔
      (∀ g ∈ fs, g.hdr.seq = f.hdr.seq → g.kind = f.kind) ∧ ConsistentFragments d1 fs := by
  have hslot : ∀ g : Fragment, d1.handshakeReadSeq ≤ g.hdr.seq → ¬ g.Far d1 →
      (d1.setIncoming (msgSlot f.hdr.seq) (some m)).incomingMessages (msgSlot g.hdr.seq)
        = if g.hdr.seq = f.hdr.seq then some m else d1.incomingMessages (msgSlot g.hdr.seq) := by
    intro g hg hgfar
    split_ifs with heq
    · rw [heq]
      exact Function.update_self ..
    · exact Function.update_of_ne (msgSlot_ne hg (not_le.mp hgfar) hle (not_le.mp hnear) heq) _ _
  constructor
  · intro h
    have hsame : ∀ g ∈ fs, g.hdr.seq = f.hdr.seq → g.kind = f.kind := by
      intro g hg heq
      have hgle : d1.handshakeReadSeq ≤ g.hdr.seq := heq ▸ hle
      have hgfar : ¬ g.Far d1 := by rwa [Fragment.Far, heq]
      have hkind := (h g hg hgle hgfar).1
      rw [hslot g hgle hgfar, if_pos heq] at hkind
      exact (hkind m rfl).symm.trans hm
    refine ⟨hsame, fun g hg hgle hgfar => ?_⟩
    obtain ⟨hkind, hagree⟩ := h g hg hgle hgfar
    rw [hslot g hgle hgfar] at hkind
    refine ⟨?_, hagree⟩
    split_ifs at hkind with heq
    · rwa [heq, hsame g hg heq]
    · exact hkind
  · rintro ⟨hsame, h⟩ g hg hgle hgfar
    obtain ⟨hkind, hagree⟩ := h g hg hgle hgfar
    refine ⟨?_, hagree⟩
    rw [hslot g hgle hgfar]
    split_ifs with heq
    · simp [hm, hsame g hg heq]
    · exact hkind

/-- Fragments none of which is at the edge are let through if they are consistent. -/
lemma HandlesAll.eq_none_iff (h : HandlesAll frags acc r) :
    (∀ f ∈ frags, f.hdr.seq ≠ acc.d1.handshakeReadSeq + sslMaxHandshakeFlight) →
    (r.2 = none ↔ ConsistentFragments acc.d1 frags) := by
  induction h with
  | nil => simp [ConsistentFragments]
  | fail h =>
    refine fun hne => iff_of_false (by simp) fun hcons => ?_
    cases h with
    | edge _ h => exact hne _ mem_cons_self h
    | mismatch _ hle hnear m hm hkind => exact hkind ((hcons _ mem_cons_self hle hnear).1 m hm)
  | step h _ ih =>
    intro hne
    rw [consistentFragments_cons,
      ih fun g hg => by rw [h.readSeq]; exact hne g (mem_cons_of_mem _ hg)]
    cases h with
    | past _ h => exact (and_iff_right fun hle => absurd h (not_lt.mpr hle)).symm
    | skipped _ h => exact (and_iff_right fun _ hnear => absurd h.le hnear).symm
    | queued _ hle hnear hq m hm =>
      rw [consistentFragments_setIncoming hle hnear hm hq]
      exact and_congr_left fun _ => ⟨fun h _ _ => ⟨hq, h⟩, fun h => (h hle hnear).2⟩

lemma process_fields (ssl : SslContext) (number : RecordNumber) (frags : List Fragment)
    (d1 : Dtls1State) {r : FragmentAcc × Option SslError}
    (hr : foldFragments ssl number frags ⟨d1, false, false⟩ = r) :
    (dtls1ProcessHandshakeFragments ssl number (encodeRecord frags) d1).2 = r.2
      ∧ (dtls1ProcessHandshakeFragments ssl number (encodeRecord frags) d1).1.incomingMessages
        = r.1.d1.incomingMessages
      ∧ (dtls1ProcessHandshakeFragments ssl number (encodeRecord frags) d1).1.recordsToAck
        = if r.2.isSome ∨ r.1.skippedFragments then r.1.d1.recordsToAck
          else mruPushBack r.1.d1.recordsToAck number := by
  rw [dtls1Process_encodeRecord, hr]
  rcases r with ⟨acc, _ | e⟩
  · refine ⟨rfl, (finishFragments_fields ssl number acc).2.2.2.1, ?_⟩
    simp only [Option.isSome_none, Bool.false_eq_true, if_false, false_or]
    unfold finishFragments
    simp only []
    split_ifs <;> rfl
  · exact ⟨rfl, rfl, rfl⟩

lemma mem_mruPushBack {α : Type*} (queue : List α) (t : α) : t ∈ mruPushBack queue t := by
  unfold mruPushBack
  split_ifs <;> simp

section Window

lemma ignoresFuture_overflow (ho : d1.handshakeReadOverflow = true)
    (hfresh : number ∉ d1.recordsToAck) :
    IgnoresFuture ssl number frags d1 ↔ ∀ f ∈ frags, ¬ f.Far d1 := by
  obtain ⟨h1, h2, h3⟩ := process_fields ssl number frags d1 (foldFragments_overflow _ _ ho)
  obtain ⟨h4, h5, -⟩ := process_fields ssl number (frags.filter fun f => ¬ f.Far d1) d1
    (foldFragments_overflow _ _ ho)
  rw [IgnoresFuture]
  simp only [h1, h2, h3, h4, h5, Option.isSome_none, Bool.false_eq_true, or_self, if_false,
    true_and]
  constructor
  · intro h f hf hfar
    have hm := mem_mruPushBack d1.recordsToAck number
    rw [h ⟨f, hf, hfar⟩] at hm
    exact hfresh hm
  · rintro h ⟨f, hf, hfar⟩
    exact absurd hfar (h f hf)

lemma ignoresFuture_of_ne (ha : Admits d1 number)
    (hl : ∀ f ∈ frags, f.hdr.msgLen ≤ ssl.maxHandshakeMessageLen)
    (hne : ∀ f ∈ frags, f.hdr.seq ≠ d1.handshakeReadSeq + sslMaxHandshakeFlight) :
    IgnoresFuture ssl number frags d1 := by
  have hall := foldFragments_handles frags ⟨d1, false, false⟩ ha hl
  obtain ⟨q, hq⟩ := hall.frame
  obtain ⟨herr, hd1⟩ := foldFragments_filter frags ⟨d1, false, false⟩
    ⟨d1, false, false⟩ ha rfl rfl hl hne
  obtain ⟨h1, h2, h3⟩ := process_fields ssl number frags d1 rfl
  obtain ⟨h4, h5, -⟩ := process_fields ssl number (frags.filter fun f => ¬ f.Far d1) d1 rfl
  refine ⟨by rw [h1, h4, herr], by rw [h2, h5, hd1], fun hfar => ?_⟩
  rw [h3, if_pos, hq]
  rcases he : (foldFragments ssl number frags ⟨d1, false, false⟩).2 with _ | e
  · exact .inr (hall.skipped he (.inr hfar))
  · exact .inl rfl

/-- A record with a fragment at the edge: all turns on whether what comes before it is refused. -/
lemma ignoresFuture_edge (ha : Admits d1 number) {pre post : List Fragment} {f : Fragment}
    (hl : ∀ g ∈ pre ++ f :: post, g.hdr.msgLen ≤ ssl.maxHandshakeMessageLen)
    (hpre : ∀ g ∈ pre, g.hdr.seq ≠ d1.handshakeReadSeq + sslMaxHandshakeFlight)
    (hf : f.hdr.seq = d1.handshakeReadSeq + sslMaxHandshakeFlight) :
    IgnoresFuture ssl number (pre ++ f :: post) d1 ↔ ¬ ConsistentFragments d1 pre := by
  have hlp : ∀ g ∈ pre, g.hdr.msgLen ≤ ssl.maxHandshakeMessageLen :=
    fun g hg => hl g (mem_append_left _ hg)
  have hall := foldFragments_handles pre ⟨d1, false, false⟩ ha hlp
  obtain ⟨q, hq⟩ := hall.frame
  have happ := foldFragments_append ssl number (f :: post) pre ⟨d1, false, false⟩
  obtain ⟨h1, h2, h3⟩ := process_fields ssl number (pre ++ f :: post) d1 rfl
  obtain ⟨h4, h5, -⟩ := process_fields ssl number ((pre ++ f :: post).filter fun f => ¬ f.Far d1) d1
    rfl
  rw [← hall.eq_none_iff hpre]
  rcases he : (foldFragments ssl number pre ⟨d1, false, false⟩).2 with _ | e
  · simp only [not_true_eq_false, iff_false]
    intro hi
    -- the fragment at the edge fails, which those in the window never do in this way
    have hbad : (foldFragments ssl number (pre ++ f :: post) ⟨d1, false, false⟩).2
        = some ⟨.internalError, none⟩ := by
      have hadm : Admits (foldFragments ssl number pre ⟨d1, false, false⟩).1.d1 number := by
        rw [hq]
        exact ⟨ha.epoch, ha.noNext, ha.noOverflow⟩
      have hedge := (processFragment_handles hadm (hl f (by simp))).at_edge (by rw [hq]; exact hf)
      rw [happ, he]
      simp only [foldFragments, hedge, Option.isSome_none, Option.isSome_some, Bool.false_eq_true,
        if_false, if_true]
    refine (foldFragments_handles ((pre ++ f :: post).filter fun f => ¬ f.Far d1)
      ⟨d1, false, false⟩ ha fun g hg => hl g (mem_of_mem_filter hg)).near (fun g hg => ?_)
      (by rw [← h4, ← hi.1, h1, hbad])
    simpa using (mem_filter.mp hg).2
  · simp only [reduceCtorEq, not_false_eq_true, iff_true]
    obtain ⟨herr, hd1⟩ := foldFragments_filter pre ⟨d1, false, false⟩
      ⟨d1, false, false⟩ ha rfl rfl hlp hpre
    have happ' := foldFragments_append ssl number ((f :: post).filter fun f => ¬ f.Far d1)
      (pre.filter fun f => ¬ f.Far d1) ⟨d1, false, false⟩
    rw [← filter_append, ← herr, he] at happ'
    rw [he] at happ
    simp only [Option.isSome_some, if_true] at happ happ'
    refine ⟨by rw [h1, h4, happ, happ', herr], by rw [h2, h5, happ, happ', hd1], fun _ => ?_⟩
    rw [h3, happ, he, if_pos (.inl rfl), hq]

/-- Exactly when fragments of the future are ignored. -/
theorem ignoresFuture_iff (hepoch : number.epoch = d1.readEpoch) (hnext : d1.nextReadEpoch = none)
    (hfresh : number ∉ d1.recordsToAck)
    (hl : ∀ f ∈ frags, f.hdr.msgLen ≤ ssl.maxHandshakeMessageLen) :
    IgnoresFuture ssl number frags d1 ↔
      (d1.handshakeReadOverflow = true → ∀ f ∈ frags, ¬ f.Far d1)
      ∧ (d1.handshakeReadOverflow = false →
        (∀ f ∈ frags, f.hdr.seq ≠ d1.handshakeReadSeq + sslMaxHandshakeFlight)
        ∨ ¬ ConsistentFragments d1 (frags.takeWhile fun f =>
          f.hdr.seq ≠ d1.handshakeReadSeq + sslMaxHandshakeFlight)) := by
  rcases ho : d1.handshakeReadOverflow with _ | _
  · simp only [Bool.false_eq_true, false_imp_iff, true_imp_iff, true_and]
    have ha : Admits d1 number := ⟨hepoch, hnext, ho⟩
    by_cases hall : ∀ f ∈ frags, f.hdr.seq ≠ d1.handshakeReadSeq + sslMaxHandshakeFlight
    · exact ⟨fun _ => Or.inl hall, fun _ => ignoresFuture_of_ne ha hl hall⟩
    · rw [or_iff_right hall]
      -- Split the record at its first fragment at the edge.
      have hsplit := takeWhile_append_dropWhile (l := frags)
        (p := fun f => f.hdr.seq ≠ d1.handshakeReadSeq + sslMaxHandshakeFlight)
      have hpre : ∀ g ∈ frags.takeWhile fun f =>
          f.hdr.seq ≠ d1.handshakeReadSeq + sslMaxHandshakeFlight,
          g.hdr.seq ≠ d1.handshakeReadSeq + sslMaxHandshakeFlight := fun g hg => by
        simpa using mem_takeWhile_imp hg
      rcases hd : frags.dropWhile fun f =>
          f.hdr.seq ≠ d1.handshakeReadSeq + sslMaxHandshakeFlight with _ | ⟨f, post⟩
      · grind
      · have hf : f.hdr.seq = d1.handshakeReadSeq + sslMaxHandshakeFlight := by
          have := head_dropWhile_not (fun f : Fragment =>
            decide (f.hdr.seq ≠ d1.handshakeReadSeq + sslMaxHandshakeFlight)) (l := frags)
            (by rw [hd]; simp)
          simp only [hd, head_cons] at this
          simpa using this
        rw [hd] at hsplit
        have hedge := ignoresFuture_edge ha (by rwa [hsplit]) hpre hf
        rwa [hsplit] at hedge
  · simp only [Bool.true_eq_false, false_imp_iff, true_imp_iff, and_true]
    exact ignoresFuture_overflow ho hfresh

/-- A fragment of message 8, before any of message 0, is ignored. -/
theorem ignoresFuture_eight_ahead :
    IgnoresFuture ⟨true, true, false, 0, none, false, 0, 0, 0⟩ ⟨0, 0⟩
      [⟨⟨1, 1, 8, 0, 1⟩, [7], by decide, by decide, by decide, by decide⟩] .new :=
  (ignoresFuture_iff rfl rfl (by decide) (by decide)).mpr
    ⟨fun h => absurd h (by decide), fun _ => Or.inl (by decide)⟩

/-- A fragment of message 7, before any of message 0, fails the record it is in. -/
theorem process_seven_ahead :
    (dtls1ProcessHandshakeFragments ⟨true, true, false, 0, none, false, 0, 0, 0⟩ ⟨0, 0⟩
        (encodeRecord [⟨⟨1, 1, 7, 0, 1⟩, [7], by decide, by decide, by decide, by decide⟩])
        .new).2 = some ⟨.internalError, none⟩
      ∧ (dtls1ProcessHandshakeFragments ⟨true, true, false, 0, none, false, 0, 0, 0⟩ ⟨0, 0⟩
        (encodeRecord []) .new).2 = none := by
  decide

end Window

end BoringSSL
