import BoringSSL.SslBuffer

/-!
# `SSLBuffer` as a queue

`data() + cap()` stays inside the memory in every run (`bufRun_safe`): moving `offset_` up takes as
much from `cap_`, and when `offset_` wraps around it only gets smaller.  The bytes at `offset_` are
those of the queue as long as it does not wrap before the buffer is empty (`bufRun_queue`).
-/

namespace BoringSSL

open ByteLib

variable {n : ℕ} {data : Bytes}

namespace SslBuffer

/-- The span lies in the buffer. -/
structure Safe (b : SslBuffer) : Prop where
  inlineBuf : b.inlineBuf.length = ssl3RtHeaderLength
  inBounds : b.InBounds
  size_le : b.size.toNat ≤ b.cap.toNat

variable {b b' : SslBuffer}

lemma toNat_ofNat16 (h : n ≤ 0xffff) : (UInt16.ofNat n).toNat = n := by
  rw [UInt16.toNat_ofNat']
  omega

lemma Safe.span_length (h : b.Safe) : b.span.length = b.size.toNat := by
  have hin := h.inBounds
  have hle := h.size_le
  rw [InBounds] at hin
  rw [span, List.length_take, List.length_drop]
  omega

lemma safe_new (fill : UInt8) : (new fill).Safe :=
  ⟨List.length_replicate, Nat.le_refl 0, Nat.le_refl 0⟩

lemma Safe.clear (h : b.Safe) : b.clear.Safe := ⟨h.inlineBuf, Nat.le_refl 0, Nat.le_refl 0⟩

lemma newOffset_le (headerLen addr : UInt64) :
    ((0 - headerLen - addr) &&& UInt64.ofNat (ssl3AlignPayload - 1)).toNat ≤ 7 := by
  exact Nat.and_le_right

lemma newOffset_toUInt16 (headerLen addr : UInt64) :
    ((0 - headerLen - addr) &&& UInt64.ofNat (ssl3AlignPayload - 1)).toUInt16.toNat
      = ((0 - headerLen - addr) &&& UInt64.ofNat (ssl3AlignPayload - 1)).toNat := by
  have := newOffset_le headerLen addr
  rw [UInt64.toNat_toUInt16]
  omega

lemma Safe.ensureCap (h : b.Safe) (headerLen : UInt64) (newCap : ℕ) (malloc : Option UInt64)
    (fill : UInt8) : (b.ensureCap headerLen newCap malloc fill).2.Safe
      ∧ (b.ensureCap headerLen newCap malloc fill).2.span = b.span := by
  have hspan := h.span_length
  have hsize := h.size_le
  unfold SslBuffer.ensureCap
  split_ifs with hbig hcap hshort
  · exact ⟨h, rfl⟩
  · exact ⟨h, rfl⟩
  · have hnew : (UInt16.ofNat newCap).toNat = newCap := toNat_ofNat16 (by omega)
    have hfit : 0 + b.span.length ≤ b.inlineBuf.length := by
      rw [h.inlineBuf, hspan]
      omega
    refine ⟨⟨(overwrite_length hfit).trans h.inlineBuf, ?_, ?_⟩, ?_⟩
    · simp only [InBounds, memory, hnew]
      rw [overwrite_length hfit, h.inlineBuf]
      simpa using hshort
    · simp only [hnew]
      omega
    · rw [span, ← hspan]
      exact slice_overwrite hfit
  · rcases malloc with _ | addr
    · exact ⟨h, rfl⟩
    have hnew : (UInt16.ofNat newCap).toNat = newCap := toNat_ofNat16 (by omega)
    have hoff := newOffset_le headerLen addr
    have hoff16 := newOffset_toUInt16 headerLen addr
    simp only []
    generalize (0 - headerLen - addr) &&& UInt64.ofNat (ssl3AlignPayload - 1)
      = newOffset at hoff hoff16
    have hlen : (List.replicate (newCap + ssl3AlignPayload - 1) fill).length = newCap + 7 := by
      rw [List.length_replicate]
      rfl
    have hfit : newOffset.toNat + b.span.length
        ≤ (List.replicate (newCap + ssl3AlignPayload - 1) fill).length := by
      omega
    refine ⟨⟨h.inlineBuf, ?_, ?_⟩, ?_⟩
    · simp only [InBounds, memory, hnew, hoff16]
      rw [overwrite_length hfit, hlen]
      omega
    · simp only [hnew]
      omega
    · rw [span, ← hspan]
      simp only [memory, hoff16]
      exact slice_overwrite hfit

lemma ensureCap_cap {headerLen : UInt64} {newCap : ℕ} {malloc : Option UInt64} {fill : UInt8}
    (h : (b.ensureCap headerLen newCap malloc fill).1 = true) :
    newCap ≤ (b.ensureCap headerLen newCap malloc fill).2.cap.toNat := by
  unfold SslBuffer.ensureCap at h ⊢
  split_ifs at h ⊢ with hbig hcap hshort
  · exact hcap
  · exact (toNat_ofNat16 (Nat.le_of_not_lt hbig)).ge
  · rcases malloc with _ | addr
    · exact absurd h Bool.false_ne_true
    · exact (toNat_ofNat16 (Nat.le_of_not_lt hbig)).ge

lemma store_size (b : SslBuffer) (data : Bytes) : (b.store data).size = b.size := by
  unfold store
  rcases b.buf <;> rfl

lemma store_offset (b : SslBuffer) (data : Bytes) : (b.store data).offset = b.offset := by
  unfold store
  rcases b.buf <;> rfl

lemma store_cap (b : SslBuffer) (data : Bytes) : (b.store data).cap = b.cap := by
  unfold store
  rcases b.buf <;> rfl

lemma store_memory (b : SslBuffer)
    (h : b.offset.toNat + b.size.toNat + data.length ≤ b.memory.length) :
    (b.store data).memory = overwrite b.memory (b.offset.toNat + b.size.toNat) data := by
  obtain ⟨buf, offset, size, cap, inlineBuf⟩ := b
  cases buf with
  | null =>
    have hnil : data = [] := by
      simp only [memory, List.length_nil] at h
      exact List.length_eq_zero_iff.mp (by omega)
    simp [store, memory, hnil]
  | inlineBuf => rfl
  | heap bytes => rfl

lemma Safe.write (h : b.Safe) (hw : (b.store data).didWrite data.length = some b') :
    b'.Safe ∧ b'.span = b.span ++ data := by
  have hin := h.inBounds
  have hle := h.size_le
  have hcap := b.cap.toNat_lt
  rw [InBounds] at hin
  rw [didWrite] at hw
  split_ifs at hw with hroom
  rw [store_cap, store_size] at hroom
  cases hw
  have hfit : b.offset.toNat + b.size.toNat + data.length ≤ b.memory.length := by omega
  have hmem := store_memory b hfit
  have hsize : ((b.store data).size + UInt16.ofNat data.length).toNat
      = b.size.toNat + data.length := by
    rw [UInt16.toNat_add, toNat_ofNat16 (by omega), store_size]
    omega
  refine ⟨⟨?_, ?_, ?_⟩, ?_⟩
  · change (b.store data).inlineBuf.length = _
    obtain ⟨buf, offset, size, cap, inlineBuf⟩ := b
    cases buf with
    | null => exact h.inlineBuf
    | inlineBuf => exact (overwrite_length hfit).trans h.inlineBuf
    | heap bytes => exact h.inlineBuf
  · change (b.store data).offset.toNat + (b.store data).cap.toNat ≤ (b.store data).memory.length
    rw [hmem, overwrite_length hfit, store_offset, store_cap]
    exact hin
  · simp only [store_cap, hsize]
    omega
  · change ((b.store data).memory.drop (b.store data).offset.toNat).take
      ((b.store data).size + UInt16.ofNat data.length).toNat = _
    rw [hmem, hsize, store_offset, List.take_drop, ← Nat.add_assoc, take_overwrite_end (by omega),
      List.drop_append_of_le_length (by rw [List.length_take]; omega), span, List.take_drop]

lemma exists_write (hroom : data.length ≤ b.cap.toNat - b.size.toNat) :
    ∃ b', (b.store data).didWrite data.length = some b' := by
  refine ⟨_, if_neg ?_⟩
  rw [store_cap, store_size]
  exact Nat.not_lt.mpr hroom

lemma Safe.consume (h : b.Safe) {len : ℕ} (hc : b.consume len = some b') :
    b'.Safe ∧ (b.KeepsOffset len → b'.span = b.span.drop len) := by
  have hin := h.inBounds
  have hle := h.size_le
  have hcap := b.cap.toNat_lt
  rw [InBounds] at hin
  rw [SslBuffer.consume] at hc
  split_ifs at hc with hroom
  cases hc
  have hlen : (UInt16.ofNat len).toNat = len := toNat_ofNat16 (by omega)
  have hsub : ∀ n : UInt16, len ≤ n.toNat → (n - UInt16.ofNat len).toNat = n.toNat - len := by
    intro n hn
    rw [UInt16.toNat_sub_of_le _ _ (UInt16.le_iff_toNat_le.mpr (by rw [hlen]; exact hn)), hlen]
  have hoff : (b.offset + UInt16.ofNat len).toNat = (b.offset.toNat + len) % 2 ^ 16 := by
    rw [UInt16.toNat_add, hlen]
  refine ⟨⟨h.inlineBuf, ?_, ?_⟩, fun hk => ?_⟩
  · change (b.offset + UInt16.ofNat len).toNat + (b.cap - UInt16.ofNat len).toNat ≤ b.memory.length
    rw [hoff, hsub b.cap (by omega)]
    omega
  · simp only [hsub b.cap (by omega), hsub b.size (by omega)]
    omega
  · change (b.memory.drop (b.offset + UInt16.ofNat len).toNat).take
      (b.size - UInt16.ofNat len).toNat = _
    rw [hsub b.size (by omega), hoff, span, List.drop_take, List.drop_drop]
    rcases hk with hk | rfl
    · rw [Nat.mod_eq_of_lt (by omega)]
    · simp

lemma Safe.discardConsumed (h : b.Safe) :
    b.discardConsumed.Safe ∧ b.discardConsumed.span = b.span := by
  unfold SslBuffer.discardConsumed
  split_ifs with hz
  · refine ⟨h.clear, ?_⟩
    rw [span, span, hz]
    rfl
  · exact ⟨h, rfl⟩

end SslBuffer

open SslBuffer

variable {may : SslBuffer → ℕ → Prop} {b : SslBuffer} {queue : Bytes}

lemma bufRun_safe (h : BufRun may b queue) : b.Safe := by
  induction h with
  | start fill => exact safe_new fill
  | ensureCap headerLen newCap malloc fill _ ih =>
    exact (ih.ensureCap headerLen newCap malloc fill).1
  | write data _ hw ih => exact (ih.write hw).1
  | consume len _ _ hc ih => exact (ih.consume hc).1
  | discardConsumed _ ih => exact ih.discardConsumed.1
  | clear _ ih => exact ih.clear

/-- In every run in which nothing is consumed that takes `offset_` past its 16 bits, unless it is
everything, the buffer is the queue of the bytes written and not yet consumed. -/
theorem bufRun_queue (h : BufRun KeepsOffset b queue) : b.span = queue ∧ b.InBounds := by
  refine ⟨?_, (bufRun_safe h).inBounds⟩
  induction h with
  | start fill => rfl
  | ensureCap headerLen newCap malloc fill hrun ih =>
    rw [((bufRun_safe hrun).ensureCap headerLen newCap malloc fill).2, ih]
  | write data hrun hw ih => rw [((bufRun_safe hrun).write hw).2, ih]
  | consume len hrun hk hc ih => rw [((bufRun_safe hrun).consume hc).2 hk, ih]
  | discardConsumed hrun ih => rw [(bufRun_safe hrun).discardConsumed.2, ih]
  | clear hrun ih => rfl

theorem bufRun_queue_short : ∃ b, BufRun KeepsOffset b [2, 3] ∧ b.span = [2, 3] ∧ b.InBounds := by
  have hrun : BufRun KeepsOffset _ ([1, 2, 3].drop 1) :=
    .consume 1 (.write [1, 2, 3] (.ensureCap 5 20 (some 4096) 0 (.start 0)) rfl)
      (.inl (by decide)) rfl
  exact ⟨_, hrun, bufRun_queue hrun⟩

lemma write_full (hn : n = 0xffff) (hlen : data.length = n) (fill : UInt8) :
    ∃ b, (((new fill).ensureCap 1 n (some 0) fill).2.store data).didWrite data.length = some b
      ∧ b.offset = 7 ∧ b.size.toNat = n ∧ b.memory.take 6 = List.replicate 6 fill := by
  have hspan : (new fill).span = [] := rfl
  have hzero : (new fill).cap.toNat = 0 := rfl
  have hb : ((new fill).ensureCap 1 n (some 0) fill).2 = ⟨.heap (List.replicate (n + 7) fill), 7, 0,
      UInt16.ofNat n, List.replicate 5 fill⟩ := by
    rw [ensureCap, if_neg (by omega), if_neg (by omega), if_neg (by rw [ssl3RtHeaderLength]; omega)]
    rfl
  have hstore : (SslBuffer.mk (.heap (List.replicate (n + 7) fill)) 7 0 (UInt16.ofNat n)
      (List.replicate 5 fill)).store data
        = ⟨.heap (overwrite (List.replicate (n + 7) fill) 7 data), 7,
        0, UInt16.ofNat n, List.replicate 5 fill⟩ := rfl
  have hcap : (UInt16.ofNat n).toNat = n := toNat_ofNat16 (by omega)
  rw [hb, hstore, hlen, didWrite, if_neg (by simp [hcap])]
  refine ⟨_, rfl, rfl, ?_, ?_⟩
  · simp [hcap]
  · change (overwrite (List.replicate (n + 7) fill) 7 data).take 6 = _
    rw [take_overwrite_of_le (by omega) (by rw [List.length_replicate]; omega), List.take_replicate,
      min_eq_left (by omega)]

/-- When all but the last six bytes of it are consumed, the offset wraps around to zero, where there
are bytes that were never written. -/
lemma exists_wraps (hn : n = 0xffff) :
    ∃ b queue, BufRun (fun _ _ => True) b queue ∧ b.span ≠ queue := by
  obtain ⟨b, hw, hoff, hsize, hmem⟩ := write_full hn (List.length_replicate (a := (1 : UInt8))) 0
  have hfull := BufRun.write (List.replicate n 1)
    (.ensureCap 1 n (some 0) 0 (BufRun.start 0 : BufRun (fun _ _ => True) _ _)) hw
  have hsize16 : b.size = 0xffff := UInt16.toNat_inj.mp (hsize.trans hn)
  have hc : b.consume 0xfff9 = some { b with
      offset := b.offset + UInt16.ofNat 0xfff9
      size := b.size - UInt16.ofNat 0xfff9
      cap := b.cap - UInt16.ofNat 0xfff9 } := by
    rw [consume, if_neg (by omega)]
  refine ⟨_, _, .consume 0xfff9 hfull trivial hc, ?_⟩
  have hspan : (span { b with
      offset := b.offset + UInt16.ofNat 0xfff9
      size := b.size - UInt16.ofNat 0xfff9
      cap := b.cap - UInt16.ofNat 0xfff9 }) = List.replicate 6 0 := by
    have ho : ((7 : UInt16) + UInt16.ofNat 0xfff9).toNat = 0 := by decide
    have hs : ((0xffff : UInt16) - UInt16.ofNat 0xfff9).toNat = 6 := by decide
    simp only [span, memory, hoff, hsize16, ho, hs, List.drop_zero]
    exact hmem
  have hsix : n - 0xfff9 = 6 := by omega
  rw [hspan, List.nil_append, List.drop_replicate, hsix]
  decide

theorem bufRun_wraps : ∃ b queue, BufRun (fun _ _ => True) b queue ∧ b.span ≠ queue :=
  exists_wraps rfl

end BoringSSL
