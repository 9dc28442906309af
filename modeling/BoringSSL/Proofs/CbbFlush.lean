import BoringSSL.Proofs.Der

/-!
# Flushing a chain of open children

With a chain of children open a buffer holds a hole for each of their lengths (`layout`).  Flushing
fills the holes from the innermost child out, moving a body along when its ASN.1 length needs more
than the hole, and leaves the nested encoding (`Holds.flushChain`), or fails if something overflows.
-/

namespace BoringSSL

open ByteLib List

variable {v : ℕ} {p : LenPrefix} {tag : UInt32}

/-- The most bytes a buffer can come to hold: what it has if it is fixed, `SIZE_MAX` if it grows. -/
def CbbBuffer.limit (b : CbbBuffer) : ℕ := if b.canResize then sizeMod - 1 else b.cap

/-- The buffer is in order, has not failed, and holds `bytes`. -/
structure Holds (b : CbbBuffer) (lim : ℕ) (bytes : Bytes) : Prop where
  size : b.buf.length = b.cap
  cap_lt : b.cap < sizeMod
  len : b.len = bytes.length
  le_cap : b.len ≤ b.cap
  content : b.buf.take b.len = bytes
  limit : b.limit = lim
  noError : b.error = false

namespace Holds

variable {b : CbbBuffer} {lim : ℕ} {bytes : Bytes} {a m c : Bytes} {n : ℕ}

section

variable (h : Holds b lim bytes)

include h

lemma cap_le_limit : b.cap ≤ lim := by
  have := h.cap_lt
  rw [← h.limit, CbbBuffer.limit]
  split_ifs <;> omega

lemma limit_lt : lim < sizeMod := by
  have := h.cap_lt
  rw [← h.limit, CbbBuffer.limit]
  split_ifs <;> omega

lemma length_le : bytes.length ≤ lim := by
  have := h.cap_le_limit
  have := h.le_cap
  have := h.len
  omega

lemma fixed (hr : b.canResize = false) : lim = b.cap := by
  rw [← h.limit, CbbBuffer.limit, hr]
  rfl

lemma replace {buf : Bytes} (hlen : buf.length = b.buf.length) {bytes' : Bytes}
    (hb : buf.take b.len = bytes') (hl : bytes'.length = bytes.length) :
    Holds { b with buf := buf } lim bytes' where
  size := by rw [← h.size, ← hlen]
  cap_lt := h.cap_lt
  len := by rw [hl]; exact h.len
  le_cap := h.le_cap
  content := hb
  limit := h.limit
  noError := h.noError

end

lemma store {d : Bytes} (h : Holds b lim (a ++ m ++ c)) (hd : d.length = m.length) :
    Holds { b with buf := overwrite b.buf a.length d } lim (a ++ d ++ c) := by
  have hlen := h.len
  have hle := h.le_cap
  have hsize := h.size
  simp only [length_append] at hlen
  refine h.replace (overwrite_length (by omega)) ?_ (by simp [hd])
  have hsplit : b.buf = (a ++ m ++ c) ++ b.buf.drop b.len := by
    rw [← h.content, take_append_drop]
  have hmid : overwrite b.buf a.length d = a ++ d ++ (c ++ b.buf.drop b.len) := by
    conv_lhs => rw [hsplit]
    rw [append_assoc (a ++ m), overwrite_mid _ _ _ _ hd]
  rw [hmid, ← append_assoc]
  have : b.len = (a ++ d ++ c).length := by
    simp only [length_append]
    omega
  rw [this, take_left]

section

variable (h : Holds b lim bytes)

include h

lemma realloc (hr : b.canResize = true) (hlo : b.len ≤ n) (hhi : n < sizeMod) :
    Holds (opensslRealloc b n) lim bytes where
  size := by
    simp only [opensslRealloc, length_append, length_take, length_replicate]
    omega
  cap_lt := hhi
  len := h.len
  le_cap := hlo
  content := by
    have hsize := h.size
    have hle := h.le_cap
    simp only [opensslRealloc]
    rw [take_append_of_le_length (by rw [length_take]; omega), take_take,
      min_eq_left hlo, h.content]
  limit := by
    have := h.limit
    simp only [CbbBuffer.limit, opensslRealloc, hr, if_true] at this ⊢
    exact this
  noError := h.noError

lemma reserve_ok (hn : bytes.length + n ≤ lim) :
    ∃ b', cbbBufferReserve b n = (true, b') ∧ b'.len = b.len ∧ b.len + n ≤ b'.cap
      ∧ Holds b' lim bytes := by
  have hlim := h.limit_lt
  have hlen := h.len
  have hmod : (b.len + n) % sizeMod = b.len + n := Nat.mod_eq_of_lt (by omega)
  unfold cbbBufferReserve
  simp only [hmod]
  rw [if_neg (by omega)]
  split_ifs with hgt hr hnew
  · have := h.fixed (by simpa using hr)
    omega
  · exact ⟨_, rfl, rfl, le_rfl, h.realloc (by simpa using hr) (by omega) (by omega)⟩
  · have hlt : b.cap * 2 % sizeMod < sizeMod := Nat.mod_lt _ (by norm_num [sizeMod])
    exact ⟨_, rfl, rfl, by simp only [opensslRealloc]; omega,
      h.realloc (by simpa using hr) (by omega) hlt⟩
  · exact ⟨b, rfl, rfl, by omega, h⟩

lemma reserve_fail (hn : n < sizeMod) (hlim : lim < bytes.length + n) :
    (cbbBufferReserve b n).1 = false ∧ (cbbBufferReserve b n).2.error = true := by
  have hlen := h.len
  have hcap := h.cap_lt
  have hle := h.le_cap
  unfold cbbBufferReserve
  by_cases hover : b.len + n < sizeMod
  · have hr : b.canResize = false := by
      by_contra hr
      have hc : lim = sizeMod - 1 := by simp [← h.limit, CbbBuffer.limit, hr]
      omega
    have hc := h.fixed hr
    simp only [Nat.mod_eq_of_lt hover]
    rw [if_neg (by omega), if_pos (by omega)]
    simp [CbbBuffer.onError, hr]
  · have hmod : (b.len + n) % sizeMod = b.len + n - sizeMod := by
      rw [Nat.mod_eq_sub_mod (by omega), Nat.mod_eq_of_lt (by omega)]
    simp only [hmod]
    rw [if_pos (by omega)]
    simp [CbbBuffer.onError]

lemma add (hn : bytes.length + n ≤ lim) :
    ∃ b', cbbBufferAdd b n = (true, b') ∧ b'.len = b.len + n ∧
      ∃ junk : Bytes, junk.length = n ∧ Holds b' lim (bytes ++ junk) := by
  obtain ⟨b₁, hr, hl, hroom, h₁⟩ := h.reserve_ok hn
  have hlen := h₁.len
  have hsize := h₁.size
  refine ⟨{ b₁ with len := b₁.len + n }, by simp [cbbBufferAdd, hr], by simp [hl],
    (b₁.buf.drop b₁.len).take n, ?_, ?_⟩
  · simp only [length_take, length_drop]
    omega
  · refine ⟨h₁.size, h₁.cap_lt, ?_, by simp only []; omega, ?_, h₁.limit, h₁.noError⟩
    · simp only [length_append, length_take, length_drop]
      omega
    · rw [take_add, h₁.content]

lemma add_fail (hn : n < sizeMod) (hlim : lim < bytes.length + n) :
    (cbbBufferAdd b n).1 = false ∧ (cbbBufferAdd b n).2.error = true := by
  obtain ⟨h1, h2⟩ := h.reserve_fail hn hlim
  simp [cbbBufferAdd, h1, h2]

lemma append (data : Bytes) (hn : bytes.length + data.length ≤ lim) :
    ∃ b', cbbBufferAdd b data.length = (true, b')
      ∧ Holds { b' with buf := overwrite b'.buf bytes.length data } lim (bytes ++ data) := by
  obtain ⟨b', hadd, -, junk, hjunk, h'⟩ := h.add hn
  refine ⟨b', hadd, ?_⟩
  have h'' : Holds b' lim (bytes ++ junk ++ []) := by simpa using h'
  simpa using h''.store (d := data) hjunk.symm

end

lemma storeLen (h : Holds b lim (a ++ m ++ c)) (hv : v / 256 ^ m.length = 0) :
    ∃ b', cbbStoreLen b a.length m.length v = (true, b')
      ∧ Holds b' lim (a ++ beBytes m.length v ++ c) := by
  have hle := h.le_cap
  have hlen := h.len
  have hsize := h.size
  simp only [length_append] at hlen
  refine ⟨{ b with buf := overwrite b.buf a.length (beBytes m.length v) }, ?_,
    h.store (beBytes_length _ _)⟩
  rw [cbbStoreLen, storeBE_eq _ _ _ _ (by omega)]
  simp [hv]

lemma storeLen_fail (h : Holds b lim (a ++ m ++ c)) (hv : v / 256 ^ m.length ≠ 0) :
    (cbbStoreLen b a.length m.length v).1 = false
      ∧ (cbbStoreLen b a.length m.length v).2.error = true := by
  have hle := h.le_cap
  have hlen := h.len
  have hsize := h.size
  simp only [length_append] at hlen
  rw [cbbStoreLen, storeBE_eq _ _ _ _ (by omega)]
  simp [hv, CbbBuffer.onError]

lemma slice (h : Holds b lim (a ++ m ++ c)) : (b.buf.drop a.length).take m.length = m := by
  have hsplit : b.buf = a ++ (m ++ (c ++ b.buf.drop b.len)) := by
    rw [← append_assoc, ← append_assoc, ← h.content, take_append_drop]
  rw [hsplit, drop_left, take_left]

end Holds

namespace LenPrefix

def isAsn1 : LenPrefix → Bool
  | asn1 _ => true
  | _ => false

def child (p : LenPrefix) (offset : ℕ) : CbbChild := ⟨offset, p.reserved, p.isAsn1⟩

lemma lenOctets_length (hp : p.isAsn1 = false) (n : ℕ) : (p.lenOctets n).length = p.reserved := by
  cases p <;> simp_all [lenOctets, reserved, isAsn1]

lemma encode_length (p : LenPrefix) (body : Bytes) :
    (p.encode body).length
      = p.lead.length + (p.lenOctets body.length).length + body.length := by
  simp only [encode, length_append]

lemma reserved_le_lenOctets (p : LenPrefix) (n : ℕ) : p.reserved ≤ (p.lenOctets n).length := by
  cases p <;> simp only [reserved, lenOctets, beBytes_length, le_refl]
  exact lengthOctets_length_pos n

end LenPrefix

namespace Holds

variable {b : CbbBuffer} {lim : ℕ} {front inner : Bytes}

lemma flushChild_fixed (hp : p.isAsn1 = false)
    (h : Holds b lim (front ++ replicate p.reserved 0 ++ inner)) :
    (inner.length ≤ p.maxLen → ∃ b', cbbFlushChild b (p.child front.length) = (true, b')
        ∧ Holds b' lim (front ++ p.lenOctets inner.length ++ inner))
      ∧ (p.maxLen < inner.length → (cbbFlushChild b (p.child front.length)).1 = false
        ∧ (cbbFlushChild b (p.child front.length)).2.error = true) := by
  have hlen := h.len
  simp only [length_append, length_replicate] at hlen
  have hsub : b.len - (front.length + p.reserved) = inner.length := by omega
  have hflush : cbbFlushChild b (p.child front.length)
      = cbbStoreLen b front.length (replicate p.reserved (0 : UInt8)).length inner.length := by
    simp [cbbFlushChild, LenPrefix.child, hp, hsub]
  rw [hflush]
  refine ⟨fun hfit => ?_, fun hbig => ?_⟩
  · have hz : inner.length / 256 ^ (replicate p.reserved (0 : UInt8)).length = 0 := by
      cases p <;> simp_all [LenPrefix.maxLen, LenPrefix.reserved, LenPrefix.isAsn1] <;> omega
    obtain ⟨b', hb', hh⟩ := h.storeLen hz
    cases p <;> simp_all [LenPrefix.lenOctets, LenPrefix.reserved, LenPrefix.isAsn1]
  · apply h.storeLen_fail
    apply Nat.ne_of_gt
    cases p <;> simp_all [LenPrefix.maxLen, LenPrefix.reserved, LenPrefix.isAsn1] <;> omega

lemma flushChild_asn1 (h : Holds b lim (front ++ [0] ++ inner)) (hfit : inner.length ≤ 0xfffffffe)
    (hroom : front.length + (lengthOctets inner.length).length + inner.length ≤ lim) :
    ∃ b', cbbFlushChild b ((LenPrefix.asn1 tag).child front.length) = (true, b')
      ∧ Holds b' lim (front ++ lengthOctets inner.length ++ inner) := by
  have hlen := h.len
  simp only [length_append, length_singleton] at hlen
  have hsub : b.len - (front.length + 1) = inner.length := by omega
  obtain ⟨hoct, hzero, hrest, hform⟩ := asn1LenForm_octets hfit
  unfold cbbFlushChild
  simp only [LenPrefix.child, LenPrefix.reserved, LenPrefix.isAsn1, hsub, if_true]
  rw [if_neg (by omega)]
  rcases hf : asn1LenForm inner.length with ⟨lenLen, initial, rest⟩
  rw [hf] at hoct hzero hrest hform
  by_cases h1 : lenLen = 1
  · subst h1
    have hset : b.buf.set front.length initial = overwrite b.buf front.length [initial] :=
      set_eq_overwrite _ _ (by have := h.size; have := h.le_cap; omega)
    have hs := h.store (d := [initial]) rfl
    have hs' : Holds { b with buf := overwrite b.buf front.length [initial] } lim
        ((front ++ [initial]) ++ [] ++ inner) := by simpa using hs
    obtain ⟨b', hb', hh⟩ := hs'.storeLen (v := rest) (by simpa using hzero)
    refine ⟨b', ?_, ?_⟩
    · simpa [hset] using hb'
    · simpa [beBytes, ← hoct] using hh
  · have hrest : rest = inner.length := by tauto
    subst hrest
    have hpos := lengthOctets_length_pos inner.length
    obtain ⟨k, rfl⟩ : ∃ k, lenLen = k + 1 := ⟨lenLen - 1, by omega⟩
    simp only [Nat.add_sub_cancel] at hoct hzero ⊢
    obtain ⟨b₁, hadd, hl₁, junk, hjunk, h₁⟩ := h.add (n := k) (by simp; omega)
    simp only [hadd, ne_eq, h1, not_false_eq_true, if_true, Bool.not_true, Bool.false_eq_true,
      if_false]
    -- `moved`: the last `inner.length` bytes are the body, the ones between are free.
    set gap := (inner ++ junk).take k with hgap
    set old := (inner ++ junk).drop k with hold
    have hgl : gap.length = k := by simp [hgap, hjunk]
    have hol : inner.length = old.length := by simp [hold, hjunk]
    have hcut : front ++ [0] ++ inner ++ junk = (front ++ [0] ++ gap) ++ old ++ [] := by
      simp [hgap, hold]
    have hslice : (b₁.buf.drop (front.length + 1)).take inner.length = inner := by
      have := h₁.slice
      simpa using this
    have h₂ : Holds (b₁.memmove (front.length + 1 + k) (front.length + 1) inner.length) lim
        (front ++ [0] ++ (gap ++ inner)) := by
      rw [hcut] at h₁
      have := h₁.store (d := inner) hol
      simpa [CbbBuffer.memmove, hslice, hgl, add_assoc, add_comm 1 k] using this
    set moved := b₁.memmove (front.length + 1 + k) (front.length + 1) inner.length
    have hset : moved.buf.set front.length initial
        = overwrite moved.buf front.length [initial] := by
      apply set_eq_overwrite
      have := h₂.size
      have := h₂.le_cap
      have := h₂.len
      simp only [length_append, length_singleton] at this
      omega
    have h₃ := h₂.store (d := [initial]) rfl
    have h₃' : Holds { moved with buf := overwrite moved.buf front.length [initial] } lim
        ((front ++ [initial]) ++ gap ++ inner) := by simpa using h₃
    obtain ⟨b', hb', hh⟩ := h₃'.storeLen (v := inner.length) (by rw [hgl]; exact hzero)
    refine ⟨b', ?_, ?_⟩
    · simpa [hset, hgl] using hb'
    · simpa [hgl, ← hoct] using hh

lemma flushChild_asn1_fail (h : Holds b lim (front ++ [0] ++ inner))
    (hbad : 0xfffffffe < inner.length
      ∨ lim < front.length + (lengthOctets inner.length).length + inner.length) :
    (cbbFlushChild b ((LenPrefix.asn1 tag).child front.length)).1 = false
      ∧ (cbbFlushChild b ((LenPrefix.asn1 tag).child front.length)).2.error = true := by
  have hlen := h.len
  have hle := h.length_le
  simp only [length_append, length_singleton] at hlen hle
  have hsub : b.len - (front.length + 1) = inner.length := by omega
  unfold cbbFlushChild
  simp only [LenPrefix.child, LenPrefix.reserved, LenPrefix.isAsn1, hsub, if_true]
  by_cases hfit : inner.length ≤ 0xfffffffe
  · obtain ⟨-, -, -, hform⟩ := asn1LenForm_octets hfit
    have hsmall : (asn1LenForm inner.length).1 ≤ 5 := by
      unfold asn1LenForm
      split_ifs <;> simp
    rw [if_neg (by omega)]
    have hadd := h.add_fail (n := (asn1LenForm inner.length).1 - 1)
      (by have : 5 < sizeMod := by norm_num [sizeMod]
          omega)
      (by simp; omega)
    have h1 : (asn1LenForm inner.length).1 ≠ 1 := by omega
    simp [h1, hadd.1, CbbBuffer.onError]
  · rw [if_pos (by omega)]
    simp [CbbBuffer.onError]

lemma flushChild (h : Holds b lim (front ++ replicate p.reserved 0 ++ inner)) :
    (inner.length ≤ p.maxLen ∧ (front ++ p.lenOctets inner.length ++ inner).length ≤ lim →
        ∃ b', cbbFlushChild b (p.child front.length) = (true, b')
          ∧ Holds b' lim (front ++ p.lenOctets inner.length ++ inner))
      ∧ (¬ (inner.length ≤ p.maxLen ∧ (front ++ p.lenOctets inner.length ++ inner).length ≤ lim) →
        (cbbFlushChild b (p.child front.length)).1 = false
          ∧ (cbbFlushChild b (p.child front.length)).2.error = true) := by
  rcases hp : p.isAsn1 with _ | _
  · obtain ⟨hok, hbad⟩ := flushChild_fixed hp h
    have hle := h.length_le
    have hroom : (front ++ p.lenOctets inner.length ++ inner).length ≤ lim := by
      simp only [length_append, length_replicate, LenPrefix.lenOctets_length hp] at hle ⊢
      exact hle
    exact ⟨fun hc => hok hc.1, fun hc => hbad (by by_contra hn; exact hc ⟨by omega, hroom⟩)⟩
  · obtain ⟨tag, rfl⟩ : ∃ tag, p = .asn1 tag := by
      cases p <;> simp_all [LenPrefix.isAsn1]
    simp only [LenPrefix.reserved, replicate_one, LenPrefix.lenOctets, LenPrefix.maxLen,
      length_append] at h ⊢
    refine ⟨fun hc => flushChild_asn1 h hc.1 (by omega), fun hc => flushChild_asn1_fail h ?_⟩
    by_contra hn
    exact hc ⟨by omega, by omega⟩

end Holds

/-- An open child: its prefix, and what was written to it before its own open child. -/
abbrev Frame := LenPrefix × Bytes

/-- What the buffer holds with these children open over `front`. -/
def layout (front : Bytes) : List Frame → Bytes
  | [] => front
  | (p, body) :: fs => layout (front ++ replicate p.reserved 0 ++ body) fs

def chainOf (n : ℕ) : List Frame → List CbbChild
  | [] => []
  | (p, body) :: fs => p.child n :: chainOf (n + p.reserved + body.length) fs

/-- The bytes of the open elements once flushed. -/
def frameBytes : List Frame → Bytes
  | [] => []
  | (p, body) :: fs => p.lenOctets (body ++ frameBytes fs).length ++ (body ++ frameBytes fs)

/-- Each length fits its prefix. -/
def FramesFit : List Frame → Prop
  | [] => True
  | (p, body) :: fs => (body ++ frameBytes fs).length ≤ p.maxLen ∧ FramesFit fs

lemma length_le_layout : ∀ (front : Bytes) (fs : List Frame),
    front.length ≤ (layout front fs).length
  | front, [] => by simp [layout]
  | front, (p, body) :: fs => by
    have ih := length_le_layout (front ++ replicate p.reserved 0 ++ body) fs
    simp only [layout, length_append] at ih ⊢
    omega

lemma prefix_layout : ∀ (front : Bytes) (fs : List Frame), front <+: layout front fs
  | front, [] => prefix_rfl
  | front, (p, body) :: fs => by
    rw [layout, append_assoc]
    exact (prefix_append _ _).trans (prefix_layout _ fs)

namespace Holds

lemma flushChain {lim : ℕ} : ∀ (fs : List Frame) {b : CbbBuffer} {front : Bytes},
    Holds b lim (layout front fs) →
    (FramesFit fs ∧ (front ++ frameBytes fs).length ≤ lim →
        ∃ b', cbbFlushChain b (chainOf front.length fs) = (true, b')
          ∧ Holds b' lim (front ++ frameBytes fs))
      ∧ (¬ (FramesFit fs ∧ (front ++ frameBytes fs).length ≤ lim) →
        (cbbFlushChain b (chainOf front.length fs)).1 = false
          ∧ (cbbFlushChain b (chainOf front.length fs)).2.error = true)
  | [], b, front, h => by
    have hle := h.length_le
    simp only [layout] at h hle
    refine ⟨fun _ => ⟨b, by simp [chainOf, cbbFlushChain, h.noError],
      by simpa [frameBytes] using h⟩,
      fun hc => ?_⟩
    exact absurd ⟨trivial, by simpa [frameBytes] using hle⟩ hc
  | (p, body) :: fs, b, front, h => by
    simp only [layout] at h
    obtain ⟨hok, hbad⟩ := flushChain fs h
    have hfl : (front ++ replicate p.reserved 0 ++ body).length
        = front.length + p.reserved + body.length := by
      simp only [length_append, length_replicate]
    rw [hfl] at hok hbad
    set inner := body ++ frameBytes fs with hinner
    have hlen := h.limit_lt
    have hlay := h.length_le
    have hge := length_le_layout (front ++ replicate p.reserved 0 ++ body) fs
    have hstart : (front.length + p.reserved) % sizeMod = front.length + p.reserved :=
      Nat.mod_eq_of_lt (by omega)
    have hr := p.reserved_le_lenOctets inner.length
    have hfront : (front ++ replicate p.reserved 0 ++ body ++ frameBytes fs).length
        ≤ (front ++ frameBytes ((p, body) :: fs)).length := by
      simp only [frameBytes, ← hinner, length_append, length_replicate] at hr ⊢
      have : inner.length = body.length + (frameBytes fs).length := by simp [hinner]
      omega
    by_cases hin : FramesFit fs
        ∧ (front ++ replicate p.reserved 0 ++ body ++ frameBytes fs).length ≤ lim
    · obtain ⟨b₁, hb₁, h₁⟩ := hok hin
      have h₁' : Holds b₁ lim (front ++ replicate p.reserved 0 ++ inner) := by
        simpa [hinner] using h₁
      have hl₁ := h₁'.len
      simp only [length_append, length_replicate] at hl₁
      have hstep : cbbFlushChain b (chainOf front.length ((p, body) :: fs))
          = cbbFlushChild b₁ (p.child front.length) := by
        simp only [chainOf, cbbFlushChain, h.noError, hb₁, LenPrefix.child, hstart]
        rw [if_neg (by simp), if_neg]
        simp only [Bool.not_true, Bool.false_or, Bool.or_eq_true, decide_eq_true_eq, not_or]
        omega
      rw [hstep]
      obtain ⟨hok', hbad'⟩ := h₁'.flushChild
      have hbytes : front ++ frameBytes ((p, body) :: fs)
          = front ++ p.lenOctets inner.length ++ inner := by simp [frameBytes, hinner]
      rw [hbytes]
      exact ⟨fun hc => hok' ⟨hc.1.1, hc.2⟩, fun hc => hbad' fun hn => hc ⟨⟨hn.1, hin.1⟩, hn.2⟩⟩
    · obtain ⟨h1, -⟩ := hbad hin
      refine ⟨fun hc => absurd ⟨hc.1.2, hfront.trans hc.2⟩ hin, fun _ => ?_⟩
      simp [chainOf, cbbFlushChain, h.noError, h1, CbbBuffer.onError]

end Holds

end BoringSSL
