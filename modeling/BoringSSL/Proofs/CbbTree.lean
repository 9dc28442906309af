import BoringSSL.Proofs.CbbFlush

/-!
# CBB against the tree serialiser

`Writes.track` follows a run on what the CBB holds: the bytes that are settled and the children
still open.  Each call moves `Stands` along it or sets `error` (`exec_stands`), so `CBB_finish`
returns what `Writes.spec` says when a discarded child leaves its identifier octets behind
(`finish_exec`).  The calls as they are documented leave nothing behind.
-/

namespace BoringSSL

open ByteLib List

variable {data : Bytes} {n v k lim m : ℕ} {p : LenPrefix} {w next : Writes} {fs : List Frame}
  {cbb : Cbb}

/-- The CBB at depth `oc.length` has written up to `front` and has `fs` open below it; `oc` are the
open children down to it. -/
structure Stands (cbb : Cbb) (lim : ℕ) (oc : List CbbChild) (front : Bytes) (fs : List Frame) :
    Prop where
  holds : Holds cbb.base lim (layout front fs)
  chain : cbb.children = oc ++ chainOf front.length fs

/-- The open elements fit, each and together. -/
def Flushes (lim : ℕ) (front : Bytes) (fs : List Frame) : Prop :=
  FramesFit fs ∧ (front ++ frameBytes fs).length ≤ lim

section Calls

variable {cbb : Cbb} {lim : ℕ} {oc : List CbbChild} {front : Bytes} {fs : List Frame}

section

variable (h : Stands cbb lim oc front fs)

include h

lemma Stands.length_le : front.length ≤ lim :=
  (length_le_layout front fs).trans h.holds.length_le

lemma Stands.take : cbb.children.take oc.length = oc := by
  rw [h.chain, take_left]

lemma Stands.drop : cbb.children.drop oc.length = chainOf front.length fs := by
  rw [h.chain, drop_left]

lemma Stands.flush :
    (Flushes lim front fs → ∃ c', cbbFlush cbb oc.length = (true, c')
        ∧ Stands c' lim oc (front ++ frameBytes fs) [])
      ∧ (¬ Flushes lim front fs → (cbbFlush cbb oc.length).1 = false
        ∧ (cbbFlush cbb oc.length).2.base.error = true) := by
  obtain ⟨hok, hbad⟩ := h.holds.flushChain
  simp only [cbbFlush, h.drop, h.take, h.holds.noError]
  refine ⟨fun hf => ?_, fun hf => hbad hf⟩
  obtain ⟨b', hb', hh⟩ := hok hf
  rw [hb']
  exact ⟨_, rfl, by simpa [layout] using hh, by simp [chainOf]⟩

end

lemma Stands.finish (h : Stands cbb lim [] front fs) (hf : Flushes lim front fs) :
    cbbFinish cbb = some (front ++ frameBytes fs) := by
  obtain ⟨c', hc', hs⟩ := h.flush.1 hf
  have hcont := hs.holds.content
  simp only [layout] at hcont
  rw [length_nil] at hc'
  simp [cbbFinish, hc', hcont]

lemma cbbFlushChain_error {b : CbbBuffer} (h : b.error = true) (cs : List CbbChild) :
    cbbFlushChain b cs = (false, b) := by
  cases cs <;> simp [cbbFlushChain, h]

lemma cbbFlush_error (h : cbb.base.error = true) (d : ℕ) : cbbFlush cbb d = (false, cbb) := by
  simp [cbbFlush, cbbFlushChain_error h, h]

/-- A call that flushes what is open and then writes `data`, or fails. -/
def Appends (op : Cbb → ℕ → Bool × Cbb) (data : Bytes) : Prop :=
  ∀ ⦃cbb : Cbb⦄ ⦃lim : ℕ⦄ ⦃oc : List CbbChild⦄ ⦃front : Bytes⦄ ⦃fs : List Frame⦄,
    Stands cbb lim oc front fs →
    (FramesFit fs ∧ (front ++ frameBytes fs ++ data).length ≤ lim → (op cbb oc.length).1 = true
        ∧ Stands (op cbb oc.length).2 lim oc (front ++ frameBytes fs ++ data) [])
      ∧ (¬ (FramesFit fs ∧ (front ++ frameBytes fs ++ data).length ≤ lim) →
        (op cbb oc.length).1 = false ∧ (op cbb oc.length).2.base.error = true)

lemma Flushes.of_append (h : FramesFit fs)
    (hl : (front ++ frameBytes fs ++ data).length ≤ lim) : Flushes lim front fs := by
  refine ⟨h, le_trans ?_ hl⟩
  simp

lemma Stands.addSpace (h : Stands cbb lim oc front fs) (hn : n < sizeMod) :
    (FramesFit fs ∧ (front ++ frameBytes fs).length + n ≤ lim → ∃ (b : CbbBuffer) (junk : Bytes),
        cbbAddSpace cbb oc.length n = (true, ⟨b, oc⟩, (front ++ frameBytes fs).length)
        ∧ junk.length = n ∧ Holds b lim (front ++ frameBytes fs ++ junk ++ []))
      ∧ (¬ (FramesFit fs ∧ (front ++ frameBytes fs).length + n ≤ lim) →
        (cbbAddSpace cbb oc.length n).1 = false
        ∧ (cbbAddSpace cbb oc.length n).2.1.base.error = true) := by
  obtain ⟨hok, hbad⟩ := h.flush
  by_cases hf : Flushes lim front fs
  · obtain ⟨c', hc', h'⟩ := hok hf
    have hlen := h'.holds.len
    have hchain := h'.chain
    simp only [layout, chainOf, List.append_nil] at hlen hchain
    refine ⟨fun hl => ?_, fun hl => ?_⟩
    · obtain ⟨b, hb, -, junk, hjunk, hh⟩ := h'.holds.add hl.2
      refine ⟨b, junk, ?_, hjunk, by simpa [layout] using hh⟩
      simp [cbbAddSpace, hc', hb, hlen, hchain]
    · obtain ⟨h1, h2⟩ := h'.holds.add_fail hn (Nat.lt_of_not_le fun hle => hl ⟨hf.1, hle⟩)
      simp [cbbAddSpace, hc', h1, h2]
  · refine ⟨fun hl => absurd ⟨hl.1, Nat.le_of_add_right_le hl.2⟩ hf, fun _ => ?_⟩
    obtain ⟨h1, h2⟩ := hbad hf
    simp [cbbAddSpace, h1, h2]

lemma appends_addBytes (hd : data.length < sizeMod) :
    Appends (fun cbb d => cbbAddBytes cbb d data) data := by
  intro cbb lim oc front fs h
  obtain ⟨hok, hbad⟩ := h.addSpace hd
  rw [← length_append] at hok hbad
  refine ⟨fun hl => ?_, fun hl => ?_⟩
  · obtain ⟨b, junk, hspace, hjunk, hh⟩ := hok hl
    have hstore := hh.store (d := data) hjunk.symm
    simp only [cbbAddBytes, hspace]
    exact ⟨rfl, by simpa [layout] using hstore, by simp [chainOf]⟩
  · obtain ⟨h1, h2⟩ := hbad hl
    simp [cbbAddBytes, h1, h2]

lemma appends_addU (hk : k < sizeMod) (hv : v < 256 ^ k) :
    Appends (fun cbb d => cbbAddU cbb d v k) (beBytes k v) := by
  intro cbb lim oc front fs h
  obtain ⟨hok, hbad⟩ := h.addSpace hk
  have hlen : (front ++ frameBytes fs ++ beBytes k v).length
      = (front ++ frameBytes fs).length + k := by
    rw [length_append, beBytes_length]
  rw [hlen]
  refine ⟨fun hl => ?_, fun hl => ?_⟩
  · obtain ⟨b, junk, hspace, rfl, hh⟩ := hok hl
    obtain ⟨b', hb', hh'⟩ := hh.storeLen (Nat.div_eq_of_lt hv)
    simp only [cbbAddU, hspace, hb']
    exact ⟨rfl, by simpa [layout] using hh', by simp [chainOf]⟩
  · obtain ⟨h1, h2⟩ := hbad hl
    simp [cbbAddU, h1, h2]

lemma addU_fail (hk : k < sizeMod) (hv : 256 ^ k ≤ v)
    (h : Stands cbb lim oc front fs) : (cbbAddU cbb oc.length v k).2.base.error = true := by
  obtain ⟨hok, hbad⟩ := h.addSpace hk
  by_cases hl : FramesFit fs ∧ (front ++ frameBytes fs).length + k ≤ lim
  · obtain ⟨b, junk, hspace, rfl, hh⟩ := hok hl
    obtain ⟨-, h2⟩ := hh.storeLen_fail (Nat.ne_of_gt (Nat.div_pos hv (by positivity)))
    simpa [cbbAddU, hspace] using h2
  · obtain ⟨h1, h2⟩ := hbad hl
    simp [cbbAddU, h1, h2]

lemma Appends.andThen {op₁ op₂ : Cbb → ℕ → Bool × Cbb} {d₁ d₂ : Bytes} (h₁ : Appends op₁ d₁)
    (h₂ : Appends op₂ d₂) :
    Appends (fun cbb d => if !(op₁ cbb d).1 then op₁ cbb d else op₂ (op₁ cbb d).2 d)
      (d₁ ++ d₂) := by
  intro cbb lim oc front fs h
  obtain ⟨hok, hbad⟩ := h₁ h
  by_cases hc : FramesFit fs ∧ (front ++ frameBytes fs ++ d₁).length ≤ lim
  · obtain ⟨h1, hs⟩ := hok hc
    obtain ⟨hok', hbad'⟩ := h₂ hs
    simp only [h1, Bool.not_true, Bool.false_eq_true, if_false]
    refine ⟨fun hc' => ?_, fun hc' => hbad' fun hn => hc' ⟨hc.1, ?_⟩⟩
    · have := hok' ⟨trivial, by simpa [frameBytes] using hc'.2⟩
      simpa [frameBytes] using this
    · simpa [frameBytes] using hn.2
  · grind

lemma appends_addU8 (value : UInt8) : Appends (fun cbb d => cbbAddU8 cbb d value) [value] := by
  have h := appends_addU (v := value.toNat) (k := 1) (by norm_num [sizeMod])
    (by have := value.toNat_lt; omega)
  have hb : beBytes 1 value.toNat = [value] := by simp [beBytes]
  rw [hb] at h
  exact h

lemma appends_base128Groups (v : ℕ) : ∀ k : ℕ, 0 < k →
    Appends (addBase128Groups v k) ((range k).reverse.map (base128Byte v))
  | 0, h => absurd h (lt_irrefl 0)
  | 1, _ => by
    have h := appends_addU8 (base128Byte v 0)
    intro cbb lim oc front fs hs
    have heq : addBase128Groups v 1 cbb oc.length = cbbAddU8 cbb oc.length (base128Byte v 0) := by
      simp only [addBase128Groups, base128Byte, ne_eq, not_true_eq_false, if_false]
      rcases cbbAddU8 cbb oc.length (UInt8.ofNat (v >>> (7 * 0)) &&& 0x7f) with ⟨_ | _, c⟩ <;> rfl
    rw [heq]
    exact h hs
  | k + 2, _ => by
    have ih := appends_base128Groups v (k + 1) (by omega)
    have h := (appends_addU8 (base128Byte v (k + 1))).andThen ih
    have hl : (range (k + 2)).reverse.map (base128Byte v)
        = [base128Byte v (k + 1)] ++ (range (k + 1)).reverse.map (base128Byte v) := by
      rw [range_succ, reverse_append]
      rfl
    rw [hl]
    exact h

lemma appends_identifier (tag : UInt32) : Appends (fun cbb d =>
      if tag &&& asn1TagNumberMask ≥ 0x1f then
        let r := cbbAddU8 cbb d (((tag >>> asn1TagShift).toUInt8 &&& 0xe0) ||| 0x1f)
        if !r.1 then r else addBase128Integer r.2 d (tag &&& asn1TagNumberMask).toNat
      else cbbAddU8 cbb d
        (((tag >>> asn1TagShift).toUInt8 &&& 0xe0) ||| (tag &&& asn1TagNumberMask).toUInt8))
    (identifierOctets tag) := by
  have hnum := tagNumber_toNat tag
  have hge : tag &&& asn1TagNumberMask ≥ 0x1f ↔ 31 ≤ tag.toNat % 2 ^ 29 := by
    rw [ge_iff_le, UInt32.le_iff_toNat_le, hnum]
    rfl
  simp only [hge, identifierOctets]
  by_cases hlow : tag.toNat % 2 ^ 29 < 31
  · have hbyte : ((tag >>> asn1TagShift).toUInt8 &&& 0xe0) ||| (tag &&& asn1TagNumberMask).toUInt8
        = UInt8.ofNat (tag.toNat / 2 ^ 29 * 32 + tag.toNat % 2 ^ 29) := by
      have hto : (tag &&& asn1TagNumberMask).toUInt8 = UInt8.ofNat (tag.toNat % 2 ^ 29) := by
        apply UInt8.toNat_inj.mp
        rw [UInt32.toNat_toUInt8, hnum, UInt8.toNat_ofNat']
      rw [tagBits_eq, hto, tagBits_or (tagBits_lt tag) (by omega)]
    simp only [if_neg (not_le.mpr hlow), if_pos hlow, hbyte]
    exact appends_addU8 _
  · have hbyte : ((tag >>> asn1TagShift).toUInt8 &&& 0xe0) ||| 0x1f
        = UInt8.ofNat (tag.toNat / 2 ^ 29 * 32 + 31) := by
      rw [tagBits_eq, ← tagBits_or (tagBits_lt tag) (by omega)]
      rfl
    simp only [if_pos (Nat.le_of_not_lt hlow), if_neg hlow, hbyte]
    have hgroups := appends_base128Groups (tag.toNat % 2 ^ 29)
      ((Nat.digits 128 (tag.toNat % 2 ^ 29 / 128)).length + 1) (Nat.succ_pos _)
    rw [base128Groups_eq (v := tag.toNat % 2 ^ 29) rfl] at hgroups
    have h := (appends_addU8 (UInt8.ofNat (tag.toNat / 2 ^ 29 * 32 + 31))).andThen hgroups
    intro cbb lim oc front fs hs
    have hint : ∀ c d, addBase128Integer c d (tag &&& asn1TagNumberMask).toNat
        = addBase128Groups (tag.toNat % 2 ^ 29)
          ((Nat.digits 128 (tag.toNat % 2 ^ 29 / 128)).length + 1) c d := by
      intro c d
      rw [addBase128Integer, hnum, base128LenLen_or_one (by omega)]
    simp only [hint]
    exact h hs

/-- What opening a child gives. -/
def Opens (p : LenPrefix) (lim : ℕ) (oc : List CbbChild) (front : Bytes) (fs : List Frame)
    (r : Bool × Cbb) : Prop :=
  (FramesFit fs ∧ (front ++ frameBytes fs ++ p.lead).length + p.reserved ≤ lim → r.1 = true
      ∧ Stands r.2 lim (oc ++ [p.child (front ++ frameBytes fs ++ p.lead).length])
        (front ++ frameBytes fs ++ p.lead ++ replicate p.reserved 0) [])
    ∧ (¬ (FramesFit fs ∧ (front ++ frameBytes fs ++ p.lead).length + p.reserved ≤ lim) →
      r.1 = false ∧ r.2.base.error = true)

lemma Stands.addChild (h : Stands cbb lim oc front []) (p : LenPrefix) :
    (front.length + p.reserved ≤ lim →
        (cbbAddChild cbb oc.length p.reserved p.isAsn1).1 = true
        ∧ Stands (cbbAddChild cbb oc.length p.reserved p.isAsn1).2 lim
          (oc ++ [p.child front.length]) (front ++ replicate p.reserved 0) [])
      ∧ (lim < front.length + p.reserved →
        (cbbAddChild cbb oc.length p.reserved p.isAsn1).1 = false
        ∧ (cbbAddChild cbb oc.length p.reserved p.isAsn1).2.base.error = true) := by
  have hlen := h.holds.len
  simp only [layout] at hlen
  refine ⟨fun hl => ?_, fun hl => ?_⟩
  · obtain ⟨b', hb', hh⟩ := h.holds.append (replicate p.reserved 0) (by
      simpa [layout] using hl)
    rw [length_replicate] at hb'
    simp only [cbbAddChild, hb', hlen, h.take, Bool.not_true, Bool.false_eq_true, if_false]
    exact ⟨trivial, by simpa [layout] using hh, by simp [chainOf, LenPrefix.child]⟩
  · have hsmall : p.reserved < sizeMod := by cases p <;> norm_num [LenPrefix.reserved, sizeMod]
    obtain ⟨h1, h2⟩ := h.holds.add_fail hsmall (by simpa [layout] using hl)
    simp [cbbAddChild, h1, h2]

lemma Stands.addLengthPrefixed (h : Stands cbb lim oc front fs) (hp : p.isAsn1 = false) :
    Opens p lim oc front fs (cbbAddLengthPrefixed cbb oc.length p.reserved) := by
  have hlead : p.lead = [] := by cases p <;> simp_all [LenPrefix.lead, LenPrefix.isAsn1]
  obtain ⟨hok, hbad⟩ := h.flush
  rw [Opens, hlead, List.append_nil]
  by_cases hf : Flushes lim front fs
  · obtain ⟨c', hc', h'⟩ := hok hf
    obtain ⟨hok', hbad'⟩ := h'.addChild p
    have heq : cbbAddLengthPrefixed cbb oc.length p.reserved
        = cbbAddChild c' oc.length p.reserved p.isAsn1 := by
      simp [cbbAddLengthPrefixed, hc', hp]
    rw [heq]
    exact ⟨fun hc => hok' hc.2, fun hc => hbad' (by
      by_contra hn
      exact hc ⟨hf.1, by omega⟩)⟩
  · obtain ⟨h1, h2⟩ := hbad hf
    refine ⟨fun hc => absurd ⟨hc.1, by omega⟩ hf, fun _ => ?_⟩
    simp [cbbAddLengthPrefixed, h1, h2]

lemma Stands.addAsn1 (h : Stands cbb lim oc front fs) (tag : UInt32) :
    Opens (.asn1 tag) lim oc front fs (cbbAddAsn1 cbb oc.length tag) := by
  obtain ⟨hok, hbad⟩ := h.flush
  by_cases hf : Flushes lim front fs
  · obtain ⟨c', hc', h'⟩ := hok hf
    obtain ⟨hokI, hbadI⟩ := appends_identifier tag h'
    simp only [frameBytes, List.append_nil] at hokI hbadI
    simp only [Opens, cbbAddAsn1, hc', Bool.not_true, Bool.false_eq_true, if_false]
    by_cases hl : (front ++ frameBytes fs ++ identifierOctets tag).length ≤ lim
    · obtain ⟨h1, hs⟩ := hokI ⟨trivial, hl⟩
      obtain ⟨hok', hbad'⟩ := hs.addChild (.asn1 tag)
      rw [h1]
      exact ⟨fun hc => hok' hc.2, fun hc => hbad' (by
        by_contra hn
        exact hc ⟨hf.1, by simpa [LenPrefix.lead] using Nat.le_of_not_lt hn⟩)⟩
    · obtain ⟨h1, h2⟩ := hbadI fun hc => hl hc.2
      rw [h1]
      refine ⟨fun hc => absurd (le_trans ?_ hc.2) hl, fun _ => ⟨h1, h2⟩⟩
      simp [LenPrefix.lead]
  · obtain ⟨h1, h2⟩ := hbad hf
    refine ⟨fun hc => absurd (Flushes.of_append hc.1 (Nat.le_of_add_right_le hc.2)) hf, fun _ => ?_⟩
    simp [cbbAddAsn1, h1, h2]

lemma Stands.add (h : Stands cbb lim oc front fs) :
    ∀ p : LenPrefix, Opens p lim oc front fs (p.add cbb oc.length)
  | .u8 => h.addLengthPrefixed rfl
  | .u16 => h.addLengthPrefixed rfl
  | .u24 => h.addLengthPrefixed rfl
  | .asn1 tag => h.addAsn1 tag

lemma Stands.parent {body : Bytes}
    (h : Stands cbb lim (oc ++ [p.child front.length]) (front ++ replicate p.reserved 0 ++ body)
      fs) : Stands cbb lim oc front ((p, body) :: fs) := by
  refine ⟨by simpa [layout] using h.holds, ?_⟩
  have hch := h.chain
  simpa [chainOf, add_assoc] using hch

lemma Stands.discardChild (h : Stands cbb lim oc front fs) :
    Stands (cbbDiscardChild cbb oc.length) lim oc front [] := by
  have hdrop := h.drop
  rcases fs with _ | ⟨⟨p, body⟩, fs⟩
  · simpa [cbbDiscardChild, hdrop, chainOf] using h
  · simp only [cbbDiscardChild, hdrop, chainOf, h.take, LenPrefix.child]
    have hpre := prefix_layout front ((p, body) :: fs)
    have hle := hpre.length_le
    have hlen := h.holds.len
    have hcap := h.holds.le_cap
    refine ⟨⟨h.holds.size, h.holds.cap_lt, rfl, by simp only []; omega, ?_, h.holds.limit,
      h.holds.noError⟩, by simp [chainOf]⟩
    have hcut : cbb.base.buf.take front.length
        = (layout front ((p, body) :: fs)).take front.length := by
      rw [← h.holds.content, take_take, min_eq_left (by omega)]
    simp only [layout, hcut]
    obtain ⟨t, ht⟩ := hpre
    simp only [layout] at ht
    rw [← ht, take_left]

end Calls

/-! ## A run -/

namespace Writes

/-- The bytes a run settles, after what was settled before it, and the children it leaves open,
when `fs` were open before it. -/
def track : Writes → List Frame → Bytes × List Frame
  | done, fs => ([], fs)
  | addBytes data next, fs => (frameBytes fs ++ data.1 ++ (next.track []).1, (next.track []).2)
  | addWord word next, fs =>
    (frameBytes fs ++ beBytes word.width word.val ++ (next.track []).1, (next.track []).2)
  | addChild pre body next, fs =>
    let opened := (pre, (body.track []).1) :: (body.track []).2
    (frameBytes fs ++ pre.lead ++ (next.track opened).1, (next.track opened).2)
  | discardChild next, _ => next.track []

lemma closes_of_closes (h : w.closes false = true) : w.closes true = true := by
  cases w <;> simp_all

lemma track_bytes : ∀ (w : Writes) (fs : List Frame), (w.track fs).1 ++ frameBytes (w.track fs).2
      = (if w.closes true then frameBytes fs else []) ++ w.serialise LenPrefix.lead
  | done, fs => by simp [track, serialise]
  | addBytes data next, fs => by
    have ih := track_bytes next []
    simp only [frameBytes, ite_self, nil_append] at ih
    simp [track, serialise, ih]
  | addWord word next, fs => by
    have ih := track_bytes next []
    simp only [frameBytes, ite_self, nil_append] at ih
    simp [track, serialise, ih]
  | addChild pre body next, fs => by
    have ihb := track_bytes body []
    have ihn := track_bytes next ((pre, (body.track []).1) :: (body.track []).2)
    simp only [frameBytes, ihb] at ihn
    simp only [track, closes_addChild, serialise, if_true, append_assoc, ihn]
    split_ifs <;> simp [LenPrefix.encode]
  | discardChild next, fs => by
    have ih := track_bytes next []
    simp only [frameBytes, ite_self, nil_append] at ih
    simp [track, serialise, ih]

lemma track_bytes_nil (w : Writes) :
    (w.track []).1 ++ frameBytes (w.track []).2 = w.serialise LenPrefix.lead := by
  rw [track_bytes, frameBytes]
  simp

/-- A run that is flushed at its end fails where it fails unflushed, or where the flush does. -/
lemma fails_true_iff : ∀ (w : Writes) (fs : List Frame),
    (w.Fails LenPrefix.lead true ∨ (w.closes true = true ∧ ¬ FramesFit fs))
      ↔ (w.Fails LenPrefix.lead false ∨ (w.closes false = true ∧ ¬ FramesFit fs)
        ∨ ¬ FramesFit (w.track fs).2)
  | done, fs => by simp [track, Fails]
  | addBytes data next, fs => by
    have ih := fails_true_iff next []
    tauto
  | addWord word next, fs => by
    have ih := fails_true_iff next []
    simp only [track, closes_addWord, Fails, true_and]
    tauto
  | addChild pre body next, fs => by
    have ihb := fails_true_iff body []
    simp only [FramesFit, not_true_eq_false, and_false, or_false, false_or] at ihb
    have ihn := fails_true_iff next ((pre, (body.track []).1) :: (body.track []).2)
    simp only [FramesFit, track_bytes_nil, not_and_or, not_le] at ihn
    have hmono := @closes_of_closes next
    simp only [track, closes_addChild, Fails, true_and]
    rcases ht : next.closes true with _ | _ <;> rcases hf : next.closes false with _ | _ <;>
      simp only [ht, hf, true_and, Bool.false_eq_true, false_and, false_or, or_false] at ihn hmono ⊢
    · grind
    · exact absurd (hmono trivial) id
    · grind
    · grind
  | discardChild next, fs => by
    have ih := fails_true_iff next []
    simp only [FramesFit, not_true_eq_false, and_false, or_false, false_or] at ih
    simpa [track, Fails] using ih

lemma le_peak (left : LenPrefix → Bytes) : ∀ (w : Writes) (atEnd : Bool) (n : ℕ),
    n ≤ w.peak left atEnd n
  | done, _, _ => le_rfl
  | addBytes _ next, atEnd, _ => (Nat.le_add_right _ _).trans (le_peak left next atEnd _)
  | addWord _ next, atEnd, _ => (Nat.le_add_right _ _).trans (le_peak left next atEnd _)
  | addChild _ _ next, atEnd, _ =>
    ((Nat.le_add_right _ _).trans (le_peak left next atEnd _)).trans (le_max_right _ _)
  | discardChild next, atEnd, n => le_peak left next atEnd n

lemma frameBytes_length (p : LenPrefix) (body : Bytes) (fs : List Frame) :
    p.lead.length + (frameBytes ((p, body) :: fs)).length
      = (p.encode (body ++ frameBytes fs)).length := by
  simp only [frameBytes, LenPrefix.encode, length_append]
  omega

lemma peak_true_eq : ∀ (w : Writes) (fs : List Frame) (n : ℕ),
    w.peak LenPrefix.lead true (n + if w.closes true then (frameBytes fs).length else 0)
      = max (w.peak LenPrefix.lead false (n + if w.closes false then (frameBytes fs).length else 0))
        (n + ((w.track fs).1 ++ frameBytes (w.track fs).2).length)
  | done, fs, n => by simp [track, peak]
  | addBytes data next, fs, n => by
    have ih := peak_true_eq next [] (n + (frameBytes fs).length + data.1.length)
    simp only [frameBytes, length_nil, ite_self, add_zero] at ih
    simp only [track, closes_addBytes, peak, if_true, ih, length_append]
    omega
  | addWord word next, fs, n => by
    have ih := peak_true_eq next [] (n + (frameBytes fs).length + word.width)
    simp only [frameBytes, length_nil, ite_self, add_zero] at ih
    simp only [track, closes_addWord, peak, if_true, ih, length_append, beBytes_length]
    omega
  | addChild pre body next, fs, n => by
    set n' := n + (frameBytes fs).length with hn'
    have ihb := peak_true_eq body [] (n' + pre.lead.length + pre.reserved)
    simp only [frameBytes, length_nil, ite_self, add_zero, track_bytes_nil] at ihb
    set opened := (pre, (body.track []).1) :: (body.track []).2 with hopened
    have ihn := peak_true_eq next opened (n' + pre.lead.length)
    have henc := frameBytes_length pre (body.track []).1 (body.track []).2
    rw [track_bytes_nil, ← hopened] at henc
    have hres := pre.reserved_le_lenOctets (body.serialise LenPrefix.lead).length
    have hencl := pre.encode_length (body.serialise LenPrefix.lead)
    have hge := le_peak LenPrefix.lead next true
      (n' + (pre.encode (body.serialise LenPrefix.lead)).length)
    have hmono := @closes_of_closes next
    simp only [track, closes_addChild, peak, if_true, ← hn', ← hopened, length_append] at ihn ⊢
    rcases ht : next.closes true with _ | _ <;> rcases hf : next.closes false with _ | _ <;>
      simp only [ht, hf, Bool.false_eq_true, if_false, if_true, add_zero] at ihn hmono ⊢
    · omega
    · exact absurd (hmono trivial) id
    all_goals
      rw [add_assoc, henc] at ihn
      omega
  | discardChild next, fs, n => by
    have ih := peak_true_eq next [] n
    simp only [frameBytes, length_nil, ite_self, add_zero] at ih
    simpa [track, peak] using ih

end Writes

/-! ## The calls of a run -/

lemma Word.add_eq : ∀ (word : Word) (cbb : Cbb) (d : ℕ),
    word.add cbb d = cbbAddU cbb d word.val word.width
  | .u8 _, _, _ | .u16 _, _, _ | .u24 _, _, _ | .u32 _, _, _ | .u64 _, _, _ => rfl

lemma Word.width_lt (word : Word) : word.width < sizeMod := by
  cases word <;> norm_num [Word.width, sizeMod]

section Errors

variable {cbb : Cbb} (h : cbb.base.error = true) (d : ℕ)
include h

lemma cbbAddBytes_error (data : Bytes) : cbbAddBytes cbb d data = (false, cbb) := by
  simp [cbbAddBytes, cbbAddSpace, cbbFlush_error h]

lemma Word.add_error (word : Word) : word.add cbb d = (false, cbb) := by
  simp [Word.add_eq, cbbAddU, cbbAddSpace, cbbFlush_error h]

lemma LenPrefix.add_error (p : LenPrefix) : p.add cbb d = (false, cbb) := by
  cases p <;> simp [LenPrefix.add, cbbAddU8LengthPrefixed, cbbAddU16LengthPrefixed,
    cbbAddU24LengthPrefixed, cbbAddLengthPrefixed, cbbAddAsn1, cbbFlush_error h]

lemma cbbDiscardChild_error : (cbbDiscardChild cbb d).base.error = true := by
  unfold cbbDiscardChild
  split <;> simp [h]

end Errors

namespace Writes

lemma exec_error : ∀ (w : Writes) {cbb : Cbb} (d : ℕ), cbb.base.error = true →
    (w.exec cbb d).base.error = true
  | done, _, _, h => h
  | addBytes data next, cbb, d, h => by
    rw [exec, cbbAddBytes_error h]
    exact exec_error next d h
  | addWord word next, cbb, d, h => by
    rw [exec, Word.add_error h]
    exact exec_error next d h
  | addChild pre body next, cbb, d, h => by
    simp only [exec, LenPrefix.add_error h, Bool.false_eq_true, if_false]
    exact exec_error next d h
  | discardChild next, cbb, d, h => by
    exact exec_error next d (cbbDiscardChild_error h d)

/-- The run neither fails by itself nor in flushing what was open before it. -/
def Runs (w : Writes) (lim n : ℕ) (fs : List Frame) : Prop :=
  (w.closes false = true → FramesFit fs) ∧ ¬ w.Fails LenPrefix.lead false
    ∧ w.peak LenPrefix.lead false (n + if w.closes false then (frameBytes fs).length else 0) ≤ lim

lemma runs_nil :
    w.Runs lim n [] ↔ ¬ w.Fails LenPrefix.lead false ∧ w.peak LenPrefix.lead false n ≤ lim := by
  simp [Runs, FramesFit, frameBytes]

lemma runs_addChild {pre : LenPrefix} {body : Writes} : (addChild pre body next).Runs lim n fs ↔
      FramesFit fs
      ∧ body.Runs lim (n + (frameBytes fs).length + pre.lead.length + pre.reserved) []
      ∧ next.Runs lim (n + (frameBytes fs).length + pre.lead.length)
        ((pre, (body.track []).1) :: (body.track []).2) := by
  set n' := n + (frameBytes fs).length with hn'
  have hfail := fails_true_iff body []
  have hpeak := peak_true_eq body [] (n' + pre.lead.length + pre.reserved)
  simp only [FramesFit, not_true_eq_false, and_false, or_false, false_or] at hfail
  simp only [frameBytes, length_nil, ite_self, add_zero, track_bytes_nil] at hpeak
  have henc := frameBytes_length pre (body.track []).1 (body.track []).2
  rw [track_bytes_nil] at henc
  have hres := pre.reserved_le_lenOctets (body.serialise LenPrefix.lead).length
  have hencl := pre.encode_length (body.serialise LenPrefix.lead)
  rw [runs_nil]
  simp only [Runs, closes_addChild, if_true, ← hn', Fails, peak, FramesFit, track_bytes_nil,
    max_le_iff, not_or, not_and, not_lt, forall_const]
  rcases hc : next.closes false with _ | _
  · grind
  · have hge := le_peak LenPrefix.lead next false
      (n' + (pre.encode (body.serialise LenPrefix.lead)).length)
    constructor
    · grind
    · grind

/-- The run moves the CBB along `track`, or sets `error`. -/
def Follows (w : Writes) (lim : ℕ) (cbb : Cbb) (oc : List CbbChild) (front : Bytes)
    (fs : List Frame) : Prop :=
  (w.Runs lim front.length fs →
      Stands (w.exec cbb oc.length) lim oc (front ++ (w.track fs).1) (w.track fs).2)
    ∧ (¬ w.Runs lim front.length fs → (w.exec cbb oc.length).base.error = true)

lemma follows_append {op : Cbb → ℕ → Bool × Cbb} {oc : List CbbChild} {front : Bytes}
    (hop : Appends op data) (h : Stands cbb lim oc front fs)
    (hexec : w.exec cbb oc.length = next.exec (op cbb oc.length).2 oc.length)
    (htrack : w.track fs = (frameBytes fs ++ data ++ (next.track []).1, (next.track []).2))
    (hruns : w.Runs lim front.length fs
      ↔ FramesFit fs ∧ next.Runs lim (front ++ frameBytes fs ++ data).length [])
    (hnext : ∀ {cbb front}, Stands cbb lim oc front [] → next.Follows lim cbb oc front []) :
    w.Follows lim cbb oc front fs := by
  obtain ⟨hok, hbad⟩ := hop h
  rw [Follows, hexec, htrack, hruns]
  by_cases hc : FramesFit fs ∧ (front ++ frameBytes fs ++ data).length ≤ lim
  · obtain ⟨hok', hbad'⟩ := hnext (hok hc).2
    exact ⟨fun hr => by simpa using hok' hr.2, fun hr => hbad' fun hn => hr ⟨hc.1, hn⟩⟩
  · refine ⟨fun hr => absurd ⟨hr.1, ?_⟩ hc, fun _ => exec_error next _ (hbad hc).2⟩
    exact (le_peak _ next _ _).trans (runs_nil.mp hr.2).2

lemma exec_stands : ∀ (w : Writes) {cbb : Cbb} {oc : List CbbChild} {front : Bytes}
    {fs : List Frame}, Stands cbb lim oc front fs → w.Follows lim cbb oc front fs
  | done, cbb, oc, front, fs, h => by
    refine ⟨fun _ => by simpa [exec, track] using h, fun hr => absurd ?_ hr⟩
    simpa [Runs, Fails, peak] using h.length_le
  | addBytes data next, cbb, oc, front, fs, h => by
    refine follows_append (appends_addBytes data.2) h rfl rfl ?_ (exec_stands next)
    rw [runs_nil]
    simp [Runs, Fails, peak, add_assoc]
  | addWord word next, cbb, oc, front, fs, h => by
    by_cases hfit : word.Fits
    · refine follows_append (appends_addU word.width_lt hfit) h ?_ rfl ?_ (exec_stands next)
      · rw [exec, Word.add_eq]
      · rw [runs_nil]
        simp [Runs, Fails, peak, hfit, add_assoc]
    · refine ⟨fun hr => absurd (Or.inl hfit) hr.2.1, fun _ => ?_⟩
      rw [exec, Word.add_eq]
      exact exec_error next _ (addU_fail word.width_lt (Nat.le_of_not_lt hfit) h)
  | addChild pre body next, cbb, oc, front, fs, h => by
    obtain ⟨hok, hbad⟩ := h.add pre
    have hlen : (front ++ frameBytes fs ++ pre.lead).length
        = front.length + (frameBytes fs).length + pre.lead.length := by
      simp [add_assoc]
    rw [Follows, runs_addChild]
    simp only [exec]
    by_cases hc : FramesFit fs ∧ (front ++ frameBytes fs ++ pre.lead).length + pre.reserved ≤ lim
    · obtain ⟨h1, hs⟩ := hok hc
      simp only [h1, if_true]
      obtain ⟨hokb, hbadb⟩ := exec_stands body hs
      have hdepth : (oc ++ [pre.child (front ++ frameBytes fs ++ pre.lead).length]).length
          = oc.length + 1 := by simp
      have hstart : (front ++ frameBytes fs ++ pre.lead ++ replicate pre.reserved 0).length
          = front.length + (frameBytes fs).length + pre.lead.length + pre.reserved := by
        simp [add_assoc]
      rw [hdepth, hstart] at hokb hbadb
      by_cases hb : body.Runs lim
          (front.length + (frameBytes fs).length + pre.lead.length + pre.reserved) []
      · have hsb := hokb hb
        obtain ⟨hokn, hbadn⟩ := exec_stands next hsb.parent
        rw [hlen] at hokn hbadn
        exact ⟨fun hr => by simpa [track] using hokn hr.2.2,
          fun hr => hbadn fun hn => hr ⟨hc.1, hb, hn⟩⟩
      · exact ⟨fun hr => absurd hr.2.1 hb, fun _ => exec_error next _ (hbadb hb)⟩
    · obtain ⟨h1, h2⟩ := hbad hc
      simp only [h1, Bool.false_eq_true, if_false]
      refine ⟨fun hr => absurd ⟨hr.1, ?_⟩ hc, fun _ => exec_error next _ h2⟩
      rw [hlen]
      exact (le_peak _ body _ _).trans (runs_nil.mp hr.2.1).2
  | discardChild next, cbb, oc, front, fs, h => by
    obtain ⟨hok, hbad⟩ := exec_stands next h.discardChild
    have hiff : (discardChild next).Runs lim front.length fs ↔ next.Runs lim front.length [] := by
      rw [runs_nil]
      simp [Runs, Fails, peak]
    rw [Follows, hiff]
    exact ⟨fun hr => by simpa [exec, track] using hok hr, hbad⟩

/-- `CBB_finish` after a run on a fresh CBB: the tree serialiser, with the identifier octets of
discarded ASN.1 children left in. -/
lemma finish_exec (h : Stands cbb lim [] [] []) (w : Writes) :
    cbbFinish (w.exec cbb 0) = w.spec LenPrefix.lead lim := by
  obtain ⟨hok, hbad⟩ := exec_stands w h
  have hfail := fails_true_iff w []
  have hpeak := peak_true_eq w [] 0
  simp only [FramesFit, not_true_eq_false, and_false, or_false, false_or] at hfail
  simp only [frameBytes, length_nil, ite_self, add_zero, zero_add] at hpeak
  rw [runs_nil] at hok hbad
  simp only [length_nil, nil_append] at hok hbad
  by_cases hr : ¬ w.Fails LenPrefix.lead false ∧ w.peak LenPrefix.lead false 0 ≤ lim
  · have hnf := (hok hr).flush.2
    simp only [length_nil] at hnf
    by_cases hf : Flushes lim (w.track []).1 (w.track []).2
    · rw [spec, if_neg, (hok hr).finish hf, track_bytes_nil]
      · rw [hfail, hpeak, not_or, not_lt, max_le_iff]
        exact ⟨fun hn => hn.elim hr.1 fun hn => hn hf.1, hr.2, hf.2⟩
    · rw [spec, if_pos, cbbFinish, (hnf hf).1]
      · simp
      · rw [hfail, hpeak]
        by_contra hn
        rw [not_or, not_lt, max_le_iff, not_or, not_not] at hn
        exact hf ⟨hn.1.2, hn.2.2⟩
  · rw [spec, if_pos, cbbFinish, cbbFlush_error (hbad hr)]
    · simp
    · grind

end Writes

lemma CbbRoot.stands : ∀ root : CbbRoot, Stands root.cbb root.limit [] [] []
  | growable cap fill => ⟨⟨by simp [cbb, cbbInit], cap.2, rfl, Nat.zero_le _, by simp [cbb, cbbInit,
      layout], rfl, rfl⟩, rfl⟩
  | fixed buf => ⟨⟨rfl, buf.2, rfl, Nat.zero_le _, by simp [cbb, cbbInitFixed, layout], rfl, rfl⟩,
      rfl⟩

/-! ## What discarding leaves behind -/

lemma lengthOctets_length_mono (h : m ≤ n) : (lengthOctets m).length ≤ (lengthOctets n).length := by
  have hd := Nat.le_length_digits_le 256 m n h
  unfold lengthOctets
  split_ifs <;> simp <;> omega

lemma LenPrefix.lenOctets_length_mono (p : LenPrefix) (h : m ≤ n) :
    (p.lenOctets m).length ≤ (p.lenOctets n).length := by
  cases p
  case asn1 => exact lengthOctets_length_mono h
  all_goals simp [lenOctets]

lemma LenPrefix.encode_length_mono (p : LenPrefix) {b₁ b₂ : Bytes} (h : b₁.length ≤ b₂.length) :
    (p.encode b₁).length ≤ (p.encode b₂).length := by
  have := p.lenOctets_length_mono h
  simp only [encode_length]
  omega

namespace Writes

lemma serialise_length_le : ∀ w : Writes,
    (w.serialise leavesNothing).length ≤ (w.serialise LenPrefix.lead).length
  | done => le_rfl
  | addBytes data next => by simpa [serialise] using serialise_length_le next
  | addWord word next => by simpa [serialise] using serialise_length_le next
  | addChild pre body next => by
    have hb := pre.encode_length_mono (serialise_length_le body)
    have hn := serialise_length_le next
    simp only [serialise, length_append]
    split_ifs
    · omega
    · simp only [leavesNothing, length_nil]
      omega
  | discardChild next => serialise_length_le next

lemma fails_of_leavesNothing : ∀ (w : Writes) (atEnd : Bool), w.Fails leavesNothing atEnd →
    w.Fails LenPrefix.lead atEnd
  | done, _, h => h
  | addBytes _ next, atEnd, h => fails_of_leavesNothing next atEnd h
  | addWord _ next, atEnd, h => h.imp_right (fails_of_leavesNothing next atEnd)
  | addChild _ body next, atEnd, h =>
    h.imp (fails_of_leavesNothing body _) (Or.imp
      (And.imp_right fun hl => hl.trans_le (serialise_length_le body))
      (fails_of_leavesNothing next atEnd))
  | discardChild next, atEnd, h => fails_of_leavesNothing next atEnd h

lemma peak_le_peak : ∀ (w : Writes) (atEnd : Bool) {n m : ℕ}, n ≤ m →
    w.peak leavesNothing atEnd n ≤ w.peak LenPrefix.lead atEnd m
  | done, _, _, _, h => h
  | addBytes _ next, atEnd, _, _, h => peak_le_peak next atEnd (Nat.add_le_add_right h _)
  | addWord _ next, atEnd, _, _, h => peak_le_peak next atEnd (Nat.add_le_add_right h _)
  | addChild pre body next, atEnd, n, m, h => by
    refine max_le_max (peak_le_peak body _ (by omega)) (peak_le_peak next atEnd ?_)
    have hb := pre.encode_length_mono (serialise_length_le body)
    split_ifs
    · omega
    · simp only [leavesNothing, length_nil]
      omega
  | discardChild next, atEnd, _, _, h => peak_le_peak next atEnd h

lemma spec_lead_eq_none (h : w.spec leavesNothing lim = none) :
    w.spec LenPrefix.lead lim = none := by
  simp only [spec, ite_eq_left_iff, reduceCtorEq, imp_false, not_not] at h ⊢
  exact h.imp (fails_of_leavesNothing w true)
    fun hp => hp.trans_le (peak_le_peak w true le_rfl)

lemma serialise_eq_of_not_discards : ∀ w : Writes, ¬ w.DiscardsAsn1 →
    w.serialise LenPrefix.lead = w.serialise leavesNothing
  | done, _ => rfl
  | addBytes data next, h => by
    rw [serialise, serialise, serialise_eq_of_not_discards next h]
  | addWord word next, h => by
    rw [serialise, serialise, serialise_eq_of_not_discards next h]
  | addChild pre body next, h => by
    simp only [DiscardsAsn1, not_or] at h
    rw [serialise, serialise, serialise_eq_of_not_discards next h.2]
    split_ifs at h ⊢
    · rw [serialise_eq_of_not_discards body h.1]
    · have hlead : pre.lead = [] := by
        cases pre
        case asn1 tag => exact absurd ⟨tag, rfl⟩ h.1
        all_goals rfl
      rw [hlead, leavesNothing]
  | discardChild next, h => serialise_eq_of_not_discards next h

lemma identifierOctets_length_pos (tag : UInt32) : 0 < (identifierOctets tag).length := by
  unfold identifierOctets
  simp only []
  split_ifs <;> simp

lemma serialise_length_lt : ∀ w : Writes, w.DiscardsAsn1 →
    (w.serialise leavesNothing).length < (w.serialise LenPrefix.lead).length
  | done, h => h.elim
  | addBytes data next, h => by simpa [serialise] using serialise_length_lt next h
  | addWord word next, h => by simpa [serialise] using serialise_length_lt next h
  | addChild pre body next, h => by
    have hb := pre.lenOctets_length_mono (serialise_length_le body)
    have hbl := serialise_length_le body
    have hnl := serialise_length_le next
    simp only [DiscardsAsn1] at h
    simp only [serialise, length_append]
    split_ifs at h ⊢
    · simp only [LenPrefix.encode_length]
      rcases h with h | h
      · have := serialise_length_lt body h
        omega
      · have := serialise_length_lt next h
        omega
    · simp only [leavesNothing, length_nil]
      rcases h with ⟨tag, rfl⟩ | h
      · have := identifierOctets_length_pos tag
        simp only [LenPrefix.lead]
        omega
      · have := serialise_length_lt next h
        omega
  | discardChild next, h => serialise_length_lt next h

/-- The run does what its calls are documented to do exactly where the documented run fails, or
where no ASN.1 child is discarded and the octets left inside discarded children make no length
overflow. -/
theorem finish_exec_iff (root : CbbRoot) (w : Writes) :
    cbbFinish (w.exec root.cbb 0) = w.spec leavesNothing root.limit
      ↔ w.spec leavesNothing root.limit = none
        ∨ (w.spec LenPrefix.lead root.limit ≠ none ∧ ¬ w.DiscardsAsn1) := by
  rw [finish_exec root.stands w]
  rcases hs : w.spec leavesNothing root.limit with _ | out
  · simpa using spec_lead_eq_none hs
  · have hout : w.serialise leavesNothing = out := by
      simp only [spec, Option.ite_none_left_eq_some, Option.some.injEq] at hs
      exact hs.2
    simp only [reduceCtorEq, false_or]
    constructor
    · intro h
      refine ⟨by simp [h], fun hd => ?_⟩
      have hlt := serialise_length_lt w hd
      simp only [spec, Option.ite_none_left_eq_some, Option.some.injEq] at h
      rw [h.2, hout] at hlt
      exact lt_irrefl _ hlt
    · rintro ⟨hne, hd⟩
      rw [spec] at hne ⊢
      rw [ne_eq, ite_eq_left_iff, Classical.not_imp] at hne
      rw [if_neg hne.1, serialise_eq_of_not_discards w hd, hout]

/-- Opening an ASN.1 SEQUENCE and discarding it leaves its identifier octet in the output. -/
theorem finish_discarded_sequence :
    cbbFinish ((addChild (.asn1 0x20000010) done (discardChild done)).exec
        (CbbRoot.fixed ⟨[0, 0], by decide⟩).cbb 0) = some [0x30]
      ∧ (addChild (.asn1 0x20000010) done (discardChild done)).spec leavesNothing
        (CbbRoot.fixed ⟨[0, 0], by decide⟩).limit = some [] := by
  decide

end Writes

end BoringSSL
