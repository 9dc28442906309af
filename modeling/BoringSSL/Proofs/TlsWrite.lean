import BoringSSL.TlsWrite
import BoringSSL.Proofs.SslBuffer
import BoringSSL.Proofs.TlsSeal

/-!
# What writing over TLS keeps

Whatever the transport accepts at each call, what it has accepted, the write buffer and the rest of
the flight are together the records sealed so far (`WriteInv.bytes`).  Application data is only in
the write buffer, and when there is some that the transport has not accepted, its record is the last
there (`WriteInv.waiting`).
-/

namespace BoringSSL

open ByteLib Prog SslBuffer List Option

variable {flight out : Bytes}

def TlsSealed.len (r : TlsSealed) : ℕ := r.bytes.length

/-- `done` bytes of the stream are in records that were complete before the pending write, and `p`
more have been sealed. -/
structure WriteInv (stream : Bytes) (done p : ℕ) (s : TlsWriteState) : Prop where
  safe : s.writeBuffer.Safe
  offset_le : s.pendingFlightOffset ≤ (s.pendingFlight.getD []).length
  bytes : s.offsetWrapped = false →
    sealedBytes s.records = s.wire ++ s.writeBuffer.span ++ s.flightRest
  length : totalLen TlsSealed.len s.records
    = s.wire.length + s.writeBuffer.size.toNat + s.flightRest.length
  ordered : s.records.Pairwise TlsSealed.Before
  before : ∀ r ∈ s.records,
    r.epoch < s.writeEpoch ∨ r.epoch = s.writeEpoch ∧ r.seq < s.writeSequence
  app : appData s.records = stream.take (done + p)
  le : done + p ≤ stream.length
  all : appData (complete TlsSealed.len (s.wire.length + s.writeBuffer.size.toNat) s.records)
    = stream.take (done + p)
  waiting : ∀ n, s.wire.length ≤ n → n < s.wire.length + s.writeBuffer.size.toNat →
    appData (complete TlsSealed.len n s.records) = stream.take done

variable {stream data : Bytes} {done p n : ℕ} {s s' : TlsWriteState} {env : WriteEnv} {type : UInt8}

lemma writeInv_new (stream : Bytes) (fill : UInt8) : WriteInv stream 0 0 (.new fill) where
  safe := safe_new fill
  offset_le := Nat.le_refl 0
  bytes _ := rfl
  length := rfl
  ordered := List.Pairwise.nil
  before _ hr := absurd hr (not_mem_nil)
  app := rfl
  le := Nat.zero_le _
  all := rfl
  waiting _ _ hlt := absurd hlt (by simp [TlsWriteState.new, SslBuffer.new])

namespace WriteInv

variable {seq : UInt64} {buf : SslBuffer}

lemma all_of_le (h : WriteInv stream done p s)
    (hn : s.wire.length + s.writeBuffer.size.toNat ≤ n) :
    appData (complete TlsSealed.len n s.records) = stream.take (done + p) :=
  (flatMap_complete_of_le (h.all.trans h.app.symm) hn).trans h.app

lemma done_of_le (h : WriteInv stream done 0 s) (hn : s.wire.length ≤ n) :
    appData (complete TlsSealed.len n s.records) = stream.take done := by
  by_cases hlt : n < s.wire.length + s.writeBuffer.size.toNat
  · exact h.waiting n hn hlt
  · exact h.all_of_le (Nat.le_of_not_lt hlt)

section

variable (h : WriteInv stream done p s)

include h

lemma finish (hsize : s.writeBuffer.size = 0) : WriteInv stream (done + p) 0 s :=
  { h with
    waiting := fun n hle hlt => absurd hlt (by rw [hsize]; exact not_lt.mpr hle) }

lemma writeSequence (hseq : s.writeSequence ≤ seq) :
    WriteInv stream done p { s with writeSequence := seq } :=
  { h with
    before := fun r hr => by
      rcases h.before r hr with hlt | ⟨heq, hlt⟩
      · exact .inl hlt
      · exact .inr ⟨heq, UInt64.lt_of_lt_of_le hlt hseq⟩ }

lemma ordered_concat (out : Bytes) :
    List.Pairwise TlsSealed.Before
      (s.records ++ [⟨s.writeEpoch, s.writeSequence, type, data, out⟩]) := by
  refine pairwise_append.mpr ⟨h.ordered, pairwise_singleton _ _, fun r hr q hq => ?_⟩
  obtain rfl := mem_singleton.mp hq
  exact h.before r hr

lemma before_concat (hseq : s.writeSequence < seq) (out : Bytes) :
    ∀ r ∈ s.records ++ [⟨s.writeEpoch, s.writeSequence, type, data, out⟩],
      r.epoch < s.writeEpoch ∨ r.epoch = s.writeEpoch ∧ r.seq < seq := by
  intro r hr
  rcases mem_append.mp hr with hr | hr
  · exact (h.before r hr).imp_right fun hlt => ⟨hlt.1, UInt64.lt_trans hlt.2 hseq⟩
  · obtain rfl := mem_singleton.mp hr
    exact .inr ⟨rfl, hseq⟩

lemma setWriteState :
    WriteInv stream done p { s with writeSequence := 0, writeEpoch := s.writeEpoch + 1 } :=
  { h with
    before := fun r hr => .inl (by
      change r.epoch < s.writeEpoch + 1
      rcases h.before r hr with hlt | ⟨heq, _⟩ <;> omega) }

lemma sealFlight (htype : type ≠ ssl3RtApplicationData) (hseq : s.writeSequence < seq)
    (hflight : s.pendingFlight.getD [] = flight) :
    WriteInv stream done p { s with
      writeSequence := seq
      records := s.records ++ [⟨s.writeEpoch, s.writeSequence, type, data, out⟩]
      pendingFlight := some (flight ++ out) } := by
  have hnone : (TlsSealed.mk s.writeEpoch s.writeSequence type data out).appData = [] :=
    if_neg htype
  have hoff := h.offset_le
  rw [hflight] at hoff
  have hrest : (flight ++ out).drop s.pendingFlightOffset = s.flightRest ++ out := by
    rw [drop_append_of_le_length hoff, TlsWriteState.flightRest, hflight]
  refine { h with
    offset_le := ?_
    bytes := fun hw => ?_
    length := ?_
    ordered := h.ordered_concat out
    before := h.before_concat hseq out
    app := ?_
    all := ?_
    waiting := fun n hle hlt => ?_ }
  · simp only [getD_some, length_append]
    omega
  · change _ = s.wire ++ s.writeBuffer.span ++ (flight ++ out).drop s.pendingFlightOffset
    rw [sealedBytes, flatMap_append, ← sealedBytes, h.bytes hw, hrest]
    simp
  · change _ = s.wire.length + s.writeBuffer.size.toNat
      + ((flight ++ out).drop s.pendingFlightOffset).length
    rw [totalLen_concat, h.length, hrest, length_append]
    simp only [TlsSealed.len]
    omega
  · rw [appData, flatMap_append, ← appData, h.app]
    simp [hnone]
  · rw [appData, flatMap_complete_concat hnone]
    exact h.all
  · rw [appData, flatMap_complete_concat hnone]
    exact h.waiting n hle hlt

lemma acceptBuffer (hn : n ≤ s.writeBuffer.size.toNat) (hc : s.writeBuffer.consume n = some buf) :
    WriteInv stream done p { s with
      writeBuffer := buf
      wire := s.wire ++ s.writeBuffer.span.take n
      offsetWrapped := s.offsetWrapped || !decide (s.writeBuffer.KeepsOffset n) }
      ∧ buf.size.toNat = s.writeBuffer.size.toNat - n := by
  have hspan := h.safe.span_length
  obtain ⟨hsafe, hkeep⟩ := h.safe.consume hc
  have hsize : buf.size.toNat = s.writeBuffer.size.toNat - n := by
    rw [consume, if_neg (not_lt.mpr hn)] at hc
    cases hc
    have hlt := s.writeBuffer.size.toNat_lt
    have hn16 : (UInt16.ofNat n).toNat = n := toNat_ofNat16 (by omega)
    change (s.writeBuffer.size - UInt16.ofNat n).toNat = _
    rw [UInt16.toNat_sub_of_le _ _ (UInt16.le_iff_toNat_le.mpr (by omega)), hn16]
  have hwire : (s.wire ++ s.writeBuffer.span.take n).length = s.wire.length + n := by
    rw [length_append, length_take]
    omega
  refine ⟨{ h with
    safe := hsafe
    bytes := fun hw => ?_
    length := ?_
    all := ?_
    waiting := fun m hle hlt => ?_ }, hsize⟩
  · simp only [Bool.or_eq_false_iff, Bool.not_eq_false', decide_eq_true_eq] at hw
    simp only [hkeep hw.2, append_assoc, TlsWriteState.flightRest]
    rw [← append_assoc (List.take _ _), take_append_drop, ← append_assoc]
    exact h.bytes hw.1
  · simp only [hwire, hsize, h.length, TlsWriteState.flightRest]
    omega
  · simp only [hwire, hsize]
    rw [show s.wire.length + n + (s.writeBuffer.size.toNat - n)
      = s.wire.length + s.writeBuffer.size.toNat by omega]
    exact h.all
  · simp only [hwire, hsize] at hle hlt
    exact h.waiting m (by omega) (by omega)

lemma replaceBuffer (hsafe : buf.Safe) (hspan : buf.span = s.writeBuffer.span) :
    WriteInv stream done p { s with writeBuffer := buf } := by
  have hsize : buf.size.toNat = s.writeBuffer.size.toNat := by
    rw [← hsafe.span_length, hspan, h.safe.span_length]
  refine { h with
    safe := hsafe
    bytes := fun hw => ?_
    length := ?_
    all := ?_
    waiting := fun n hle hlt => ?_ }
  · change _ = s.wire ++ buf.span ++ s.flightRest
    rw [hspan]
    exact h.bytes hw
  · change _ = s.wire.length + buf.size.toNat + s.flightRest.length
    rw [hsize]
    exact h.length
  · rw [hsize]
    exact h.all
  · rw [hsize] at hlt
    exact h.waiting n hle hlt

lemma span_eq_nil (hsize : s.writeBuffer.size = 0) : s.writeBuffer.span = [] := by
  rw [← length_eq_zero_iff, h.safe.span_length, hsize]
  rfl

lemma acceptFlight (hsize : s.writeBuffer.size = 0) (hflight : s.pendingFlight = some flight)
    (hn : n ≤ flight.length - s.pendingFlightOffset) :
    WriteInv stream done p { s with
      pendingFlightOffset := s.pendingFlightOffset + n
      wire := s.wire ++ (flight.drop s.pendingFlightOffset).take n } := by
  have hoff := h.offset_le
  have hlength := h.length
  have hbytes := h.bytes
  simp only [TlsWriteState.flightRest, hflight, getD_some] at hoff hlength hbytes
  have hspan := h.span_eq_nil hsize
  have hwire : (s.wire ++ (flight.drop s.pendingFlightOffset).take n).length
      = s.wire.length + n := by
    rw [length_append, length_take, length_drop]
    omega
  refine { h with
    offset_le := ?_
    bytes := fun hw => ?_
    length := ?_
    all := ?_
    waiting := fun m hle hlt => ?_ }
  · simp only [hflight, getD_some]
    omega
  · rw [hbytes hw]
    simp only [TlsWriteState.flightRest, hflight, getD_some, hspan, List.append_nil,
      append_assoc, ← drop_drop, take_append_drop]
  · simp only [TlsWriteState.flightRest, hflight, getD_some, hwire, hlength, length_drop]
    omega
  · refine h.all_of_le ?_
    simp only [hwire]
    omega
  · rw [hsize] at hlt
    exact absurd hlt (not_lt.mpr hle)

lemma dropFlight (hrest : s.flightRest = []) :
    WriteInv stream done p { s with pendingFlight := none, pendingFlightOffset := 0 } := by
  have hbytes := h.bytes
  have hlength := h.length
  rw [hrest] at hbytes hlength
  exact { h with
    offset_le := Nat.le_refl 0
    bytes := hbytes
    length := hlength }

end

lemma moveFlight (h : WriteInv stream done 0 s) (hsafe : buf.Safe)
    (hspan : buf.span = s.writeBuffer.span ++ s.flightRest) : WriteInv stream done 0 { s with
      pendingFlight := none
      pendingFlightOffset := 0
      writeBuffer := buf } := by
  have hsize : buf.size.toNat = s.writeBuffer.size.toNat + s.flightRest.length := by
    rw [← hsafe.span_length, hspan, length_append, h.safe.span_length]
  refine { h with
    safe := hsafe
    offset_le := Nat.le_refl 0
    bytes := fun hw => ?_
    length := ?_
    all := h.done_of_le (Nat.le_add_right _ _)
    waiting := fun n hle _ => h.done_of_le hle }
  · rw [h.bytes hw, hspan]
    simp [TlsWriteState.flightRest]
  · rw [h.length, hsize]
    simp only [TlsWriteState.flightRest, getD_none, drop_nil, length_nil]
    omega

lemma sealBuffer (h : WriteInv stream done 0 s) (hrest : s.flightRest = [])
    (hdata : type = ssl3RtApplicationData → data <+: stream.drop done)
    (hseq : s.writeSequence < seq) (hsafe : buf.Safe)
    (hspan : buf.span = s.writeBuffer.span ++ out) :
    WriteInv stream done (if type = ssl3RtApplicationData then data.length else 0) { s with
      writeSequence := seq
      records := s.records ++ [⟨s.writeEpoch, s.writeSequence, type, data, out⟩]
      writeBuffer := buf } := by
  have hsize : buf.size.toNat = s.writeBuffer.size.toNat + out.length := by
    rw [← hsafe.span_length, hspan, length_append, h.safe.span_length]
  have htotal : totalLen TlsSealed.len
      (s.records ++ [⟨s.writeEpoch, s.writeSequence, type, data, out⟩])
        = s.wire.length + buf.size.toNat := by
    rw [totalLen_concat, h.length, hrest, hsize]
    simp only [TlsSealed.len, length_nil]
    omega
  have hle : done ≤ stream.length := h.le
  have happ : appData (s.records ++ [⟨s.writeEpoch, s.writeSequence, type, data, out⟩])
      = stream.take (done + if type = ssl3RtApplicationData then data.length else 0) := by
    rw [appData, flatMap_append, ← appData, h.app]
    simp only [flatMap_cons, flatMap_nil, List.append_nil, TlsSealed.appData]
    split_ifs with htype
    · obtain ⟨rest, hrest⟩ := hdata htype
      rw [add_zero, take_add, ← hrest, take_left]
    · rw [List.append_nil]
  refine { h with
    safe := hsafe
    bytes := fun hw => ?_
    length := ?_
    ordered := h.ordered_concat out
    before := h.before_concat hseq out
    app := happ
    le := ?_
    all := ?_
    waiting := fun n hn hlt => ?_ }
  · change _ = s.wire ++ buf.span ++ s.flightRest
    rw [sealedBytes, flatMap_append, ← sealedBytes, h.bytes hw, hspan, hrest]
    simp
  · change _ = s.wire.length + buf.size.toNat + s.flightRest.length
    rw [htotal, hrest, length_nil, add_zero]
  · grind
  · rw [complete_eq_self _ (le_of_eq htotal)]
    exact happ
  · rw [complete_concat, if_neg (by rw [htotal]; exact not_le.mpr hlt)]
    exact h.done_of_le hn

end WriteInv

end BoringSSL
