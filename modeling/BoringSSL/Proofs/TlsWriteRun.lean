import BoringSSL.Proofs.TlsWrite

/-!
# Runs of a TLS writer

Each call keeps `WriteInv`, also when the transport, the allocator or the cipher fails in the middle
of it.  So in every run what the transport has accepted is a prefix of the records sealed, and no
application byte is sealed twice or left out (`writeRun_integrity`).
-/

namespace BoringSSL

open ByteLib Prog SslBuffer List

variable {s s₁ : TlsWriteState} {flight : Bytes} {early : Option UInt32}
  {s' : TlsWriteState} {reported : ℕ}

def TlsWriteState.callerView (s : TlsWriteState) : PendingWrite × UInt8 × ℕ :=
  (s.pendingWrite, s.pendingWriteType, s.unreportedBytesWritten)

lemma pendingAppLen_congr (h : s'.callerView = s.callerView) : s'.pendingAppLen = s.pendingAppLen :=
  congrArg (fun v : PendingWrite × UInt8 × ℕ =>
    if v.2.1 = ssl3RtApplicationData then v.1.len else 0) h

variable {stream data : Bytes} {done p : ℕ} {s : TlsWriteState} {env : WriteEnv} {type : UInt8}

/-- A step that keeps the invariant and what the caller sees. -/
abbrev Keeps (stream : Bytes) (done p : ℕ) (s s' : TlsWriteState) : Prop :=
  WriteInv stream done p s' ∧ s'.callerView = s.callerView

lemma Keeps.trans {q : ℕ} {s₂ : TlsWriteState} (h : Keeps stream done q s s₁)
    (h' : Keeps stream done p s₁ s₂) : Keeps stream done p s s₂ :=
  ⟨h'.1, h'.2.trans h.2⟩

/-- The buffer is sent, or what is left of it stays. -/
def FlushPost (stream : Bytes) (done p : ℕ) (s : TlsWriteState) :
    Except WriteError Unit → TlsWriteState → Prop :=
  post (fun _ s' => Keeps stream done p s s' ∧ s'.pendingFlight = s.pendingFlight
    ∧ s'.writeBuffer.size = 0) (Keeps stream done p s)

/-! ## Flushing -/

lemma bioWrite_spec (env : WriteEnv) (size : ℕ) (hsize : size ≠ 0) (s : TlsWriteState) :
    Ends (bioWrite env size) s (post (fun n s' => s' = s ∧ n ≤ size ∧ n ≠ 0) fun s' => s' = s) := by
  refine ends_get_bind.mpr ?_
  rcases env.bioWrite s with _ | n
  · exact ends_throw.mpr rfl
  · refine ends_pure.mpr ?_
    refine ⟨rfl, min_le_right _ _, ?_⟩
    omega

lemma tlsWriteBufferFlush_spec : ∀ (fuel : ℕ) {s : TlsWriteState}, WriteInv stream done p s →
    s.writeBuffer.size.toNat < fuel →
    Ends (tlsWriteBufferFlush env fuel) s (FlushPost stream done p s)
  | 0, _, _, hfuel => absurd hfuel (Nat.not_lt_zero _)
  | fuel + 1, s, h, hfuel => by
    refine ends_get_bind.mpr ?_
    split_ifs with hsize
    · refine ends_set.mpr ?_
      have hspan : s.writeBuffer.clear.span = s.writeBuffer.span := (h.span_eq_nil hsize).symm
      exact ⟨⟨h.replaceBuffer h.safe.clear hspan, rfl⟩, rfl, rfl⟩
    · have hne : s.writeBuffer.size.toNat ≠ 0 := fun h0 => hsize (UInt16.toNat_inj.mp h0)
      refine (bioWrite_spec env _ hne s).bind ?_ ?_
      · rintro n s' ⟨rfl, hn, hpos⟩
        rcases hcons : s'.writeBuffer.consume n with _ | buf
        · rw [SslBuffer.consume, if_neg (not_lt.mpr hn)] at hcons
          exact absurd hcons (Option.some_ne_none _)
        · obtain ⟨hinv, hsize'⟩ := h.acceptBuffer hn hcons
          refine tlsWriteBufferFlush_spec fuel hinv ?_
          change buf.size.toNat < fuel
          omega
      · rintro e s' rfl
        exact ⟨h, rfl⟩

lemma sslWriteBufferFlush_spec (h : WriteInv stream done p s) :
    Ends (sslWriteBufferFlush env) s (FlushPost stream done p s) := by
  unfold sslWriteBufferFlush
  split_ifs with hbio
  · exact ends_throw.mpr ⟨h, rfl⟩
  · exact ends_get_bind.mpr (tlsWriteBufferFlush_spec _ h (Nat.lt_succ_self _))

/-! ## The flight -/

/-- A step that may add to the flight and leaves the buffer. -/
structure Queues (stream : Bytes) (done p : ℕ) (s s' : TlsWriteState) : Prop where
  inv : WriteInv stream done p s'
  same : s'.callerView = s.callerView
  writeBuffer : s'.writeBuffer = s.writeBuffer

lemma Queues.trans {s₂ : TlsWriteState} (h : Queues stream done p s s₁)
    (h' : Queues stream done p s₁ s₂) : Queues stream done p s s₂ :=
  ⟨h'.inv, h'.same.trans h.same, h'.writeBuffer.trans h.writeBuffer⟩

lemma Queues.keeps (h : Queues stream done p s s') : Keeps stream done p s s' := ⟨h.inv, h.same⟩

lemma ensureFlight_spec (h : WriteInv stream done p s) : Ends (ensureFlight env) s (post
    (fun flight s' => Queues stream done p s s' ∧ s'.pendingFlight = some flight
      ∧ s'.pendingHsData = s.pendingHsData)
    fun s' => s' = s) := by
  refine ends_get_bind.mpr ?_
  rcases hflight : s.pendingFlight with _ | flight
  · split_ifs
    · refine ends_set_bind.mpr (ends_pure.mpr ?_)
      have hoff := h.offset_le
      have hbytes := h.bytes
      have hlength := h.length
      simp only [TlsWriteState.flightRest, hflight, Option.getD_none] at hoff hbytes hlength
      exact ⟨⟨{ h with offset_le := hoff, bytes := hbytes, length := hlength }, rfl, rfl⟩, rfl, rfl⟩
    · exact ends_throw.mpr rfl
  · exact ends_pure.mpr ⟨⟨h, rfl, rfl⟩, hflight, rfl⟩

lemma addRecordToFlight_spec (h : WriteInv stream done p s) (htype : type ≠ ssl3RtApplicationData) :
    Ends (addRecordToFlight env type data) s (post
      (fun _ s' => Queues stream done p s s' ∧ s'.pendingHsData = s.pendingHsData)
      (Queues stream done p s)) := by
  refine (ensureFlight_spec h).bind ?_ ?_
  · rintro flight s₁ ⟨hq, hflight, hdata⟩
    rcases addSize data.length env.aead.sslMaxSealOverhead with _ | maxOut
    · exact ends_throw.mpr hq
    rcases hcap : addSize flight.length maxOut with _ | newCap
    · simp only [hcap]
      exact ends_throw.mpr hq
    simp only [hcap]
    refine ends_get_bind.mpr ?_
    split_ifs
    · exact ends_throw.mpr hq
    refine (tlsSealRecord_spec env maxOut type data s₁).bind ?_ ?_
    · rintro out s₂ ⟨_, seq, hseq, rfl⟩
      refine ends_modify.mpr ?_
      refine ⟨⟨hq.inv.sealFlight htype hseq ?_, hq.same, hq.writeBuffer⟩, hdata⟩
      rw [hflight]
      rfl
    · rintro e s₂ ⟨seq, hseq, rfl⟩
      exact ⟨hq.inv.writeSequence hseq, hq.same, hq.writeBuffer⟩
  · rintro e s₁ rfl
    exact ⟨h, rfl, rfl⟩

lemma handshake_ne_app : ssl3RtHandshake ≠ ssl3RtApplicationData := by decide

lemma tlsFlushPendingHsData_spec (h : WriteInv stream done p s) :
    Ends (tlsFlushPendingHsData env) s (post
      (fun _ s' => Queues stream done p s s' ∧ s'.pendingHsData.getD [] = [])
      (Queues stream done p s)) := by
  have hrefl : Queues stream done p s s := ⟨h, rfl, rfl⟩
  refine ends_get_bind.mpr ?_
  rcases hhs : s.pendingHsData with _ | data
  · exact ends_pure.mpr ⟨hrefl, by rw [hhs]; rfl⟩
  simp only []
  split_ifs with hempty
  · refine ends_pure.mpr ⟨hrefl, ?_⟩
    rw [hhs]
    exact List.isEmpty_iff.mp hempty
  · have hset : WriteInv stream done p { s with pendingHsData := none } := { h with }
    refine ends_set_bind.mpr ((addRecordToFlight_spec hset handshake_ne_app).mono ?_)
    rintro (e | u) s' hs'
    · exact ⟨hs'.inv, hs'.same, hs'.writeBuffer⟩
    · exact ⟨⟨hs'.1.inv, hs'.1.same, hs'.1.writeBuffer⟩, congrArg (Option.getD · []) hs'.2⟩

lemma addMessageRecords_spec : ∀ (fuel : ℕ) (rest : Bytes) {s : TlsWriteState},
    WriteInv stream done p s → rest.length < fuel →
    Ends (addMessageRecords env fuel rest) s fun _ s' => Queues stream done p s s'
  | 0, _, _, _, hfuel => absurd hfuel (Nat.not_lt_zero _)
  | fuel + 1, rest, s, h, hfuel => by
    unfold addMessageRecords
    split_ifs with hempty
    · exact ends_pure.mpr ⟨h, rfl, rfl⟩
    have hpos : rest.length ≠ 0 := fun h0 =>
      hempty (List.isEmpty_iff.mpr (length_eq_zero_iff.mp h0))
    refine (addRecordToFlight_spec h handshake_ne_app).bind ?_ fun e s' hq => hq
    rintro u s₁ ⟨hq, _⟩
    refine (addMessageRecords_spec fuel _ hq.inv ?_).mono fun r s' hq' => hq.trans hq'
    have := env.maxSendFragment.2.1
    rw [length_drop]
    omega

lemma flushFullHsData_spec (h : WriteInv stream done p s) : Ends (flushFullHsData env) s (post
    (fun _ s' => Queues stream done p s s'
      ∧ (s'.pendingHsData.getD []).length < env.maxSendFragment)
    (Queues stream done p s)) := by
  have hmax := env.maxSendFragment.2.1
  refine ends_get_bind.mpr ?_
  split_ifs with hfull
  · refine (tlsFlushPendingHsData_spec h).mono ?_
    rintro (e | u) s' hs'
    · exact hs'
    · refine ⟨hs'.1, ?_⟩
      rw [hs'.2, length_nil]
      omega
  · exact ends_pure.mpr ⟨⟨h, rfl, rfl⟩, Nat.lt_of_not_le hfull⟩

lemma appendHsData_spec (chunk : Bytes) (h : WriteInv stream done p s) :
    Ends (appendHsData env chunk) s fun _ s' => Queues stream done p s s' := by
  have hset : ∀ data, Queues stream done p s { s with pendingHsData := data } :=
    fun data => ⟨{ h with }, rfl, rfl⟩
  refine ends_get_bind.mpr ?_
  split_ifs
  · exact ends_throw.mpr ⟨h, rfl, rfl⟩
  · exact ends_set_bind.mpr (ends_throw.mpr (hset _))
  · exact ends_set.mpr (hset _)

lemma addMessagePacked_spec : ∀ (fuel : ℕ) (rest : Bytes) {s : TlsWriteState},
    WriteInv stream done p s → rest.length < fuel →
    Ends (addMessagePacked env fuel rest) s fun _ s' => Queues stream done p s s'
  | 0, _, _, _, hfuel => absurd hfuel (Nat.not_lt_zero _)
  | fuel + 1, rest, s, h, hfuel => by
    unfold addMessagePacked
    split_ifs with hempty
    · exact ends_pure.mpr ⟨h, rfl, rfl⟩
    have hpos : rest.length ≠ 0 := fun h0 =>
      hempty (List.isEmpty_iff.mpr (length_eq_zero_iff.mp h0))
    refine (flushFullHsData_spec h).bind ?_ fun e s' hq => hq
    rintro u s₁ ⟨hq, hroom⟩
    refine ends_get_bind.mpr ((appendHsData_spec _ hq.inv).bind ?_ fun e s' hq' => hq.trans hq')
    intro u s₂ hq'
    refine (addMessagePacked_spec fuel _ hq'.inv ?_).mono fun r s' hq'' => (hq.trans hq').trans hq''
    rw [length_drop]
    omega

lemma tlsAddMessage_spec (msg : Bytes) (h : WriteInv stream done p s) :
    Ends (tlsAddMessage env msg) s fun _ s' => Queues stream done p s s' := by
  unfold tlsAddMessage
  split_ifs
  · exact addMessageRecords_spec _ msg h (Nat.lt_succ_self _)
  · exact addMessagePacked_spec _ msg h (Nat.lt_succ_self _)

lemma tlsAddChangeCipherSpec_spec (h : WriteInv stream done p s) :
    Ends (tlsAddChangeCipherSpec env) s fun _ s' => Queues stream done p s s' := by
  refine (tlsFlushPendingHsData_spec h).bind ?_ fun e s' hq => hq
  rintro u s₁ ⟨hq, _⟩
  refine (addRecordToFlight_spec hq.inv (by decide)).mono ?_
  rintro (e | u) s₂ hs₂
  · exact hq.trans hs₂
  · exact hq.trans hs₂.1

lemma tlsSetWriteState_spec (h : WriteInv stream done p s) :
    Ends (tlsSetWriteState env) s fun _ s' => Queues stream done p s s' := by
  refine (tlsFlushPendingHsData_spec h).bind ?_ fun e s' hq => hq
  rintro u s₁ ⟨hq, _⟩
  exact ends_modify.mpr ⟨hq.inv.setWriteState, hq.same, hq.writeBuffer⟩

lemma writeFlight_spec : ∀ (fuel : ℕ) {s : TlsWriteState},
    WriteInv stream done p s → s.writeBuffer.size = 0 → s.pendingFlight = some flight →
    flight.length - s.pendingFlightOffset < fuel → Ends (writeFlight env flight fuel) s (post
      (fun _ s' => Keeps stream done p s s' ∧ s'.flightRest = []) (Keeps stream done p s))
  | 0, _, _, _, _, hfuel => absurd hfuel (Nat.not_lt_zero _)
  | fuel + 1, s, h, hsize, hflight, hfuel => by
    refine ends_get_bind.mpr ?_
    split_ifs with hoff
    · refine (bioWrite_spec env _ (by omega) s).bind ?_ ?_
      · rintro n s' ⟨rfl, hn, hpos⟩
        refine ends_set_bind.mpr
          (writeFlight_spec fuel (h.acceptFlight hsize hflight hn) hsize hflight ?_)
        simp only []
        omega
      · rintro e s' rfl
        exact ⟨h, rfl⟩
    · refine ends_pure.mpr ⟨⟨h, rfl⟩, ?_⟩
      rw [TlsWriteState.flightRest, hflight]
      exact drop_eq_nil_of_le (Nat.le_of_not_lt hoff)

lemma flushBeforeFlight_spec (h : WriteInv stream done p s) :
    Ends (flushBeforeFlight env) s (FlushPost stream done p s) := by
  refine ends_get_bind.mpr ?_
  split_ifs with hsize
  · exact sslWriteBufferFlush_spec h
  · exact ends_pure.mpr ⟨⟨h, rfl⟩, rfl, not_not.mp hsize⟩

lemma tlsFlush_spec (h : WriteInv stream done p s) :
    Ends (tlsFlush env) s fun _ => Keeps stream done p s := by
  refine (tlsFlushPendingHsData_spec h).bind ?_ fun e s' hq => hq.keeps
  rintro u s₁ ⟨hq, _⟩
  have h₁ := hq.keeps
  refine ends_get_bind.mpr ?_
  rcases hflight : s₁.pendingFlight with _ | flight
  · exact ends_pure.mpr h₁
  simp only []
  split_ifs
  · exact ends_throw.mpr h₁
  · exact ends_throw.mpr h₁
  · refine (flushBeforeFlight_spec hq.inv).bind ?_ fun e s' h₂ => h₁.trans h₂
    rintro u s₂ ⟨h₂, _, _⟩
    exact ends_throw.mpr (h₁.trans h₂)
  all_goals
    refine (flushBeforeFlight_spec hq.inv).bind ?_ fun e s' h₂ => h₁.trans h₂
    rintro u s₂ ⟨h₂, hflight₂, hsize⟩
    have h₁₂ := h₁.trans h₂
    refine (writeFlight_spec _ h₂.1 hsize (hflight₂.trans hflight) (by omega)).bind ?_
      fun e s' h₃ => h₁₂.trans h₃
    rintro u s₃ ⟨h₃, hrest⟩
  · exact ends_throw.mpr (h₁₂.trans h₃)
  · exact ends_modify.mpr ⟨h₃.1.dropFlight hrest, (h₁₂.trans h₃).2⟩

/-! ## Application data and alerts -/

lemma writeToBuffer_spec (s : TlsWriteState) (hsafe : s.writeBuffer.Safe)
    (hroom : data.length ≤ s.writeBuffer.cap.toNat - s.writeBuffer.size.toNat) :
    Ends (writeToBuffer data) s fun r s' => r = .ok () ∧ ∃ buf : SslBuffer, buf.Safe
      ∧ buf.span = s.writeBuffer.span ++ data ∧ s' = { s with writeBuffer := buf } := by
  obtain ⟨buf, hbuf⟩ := exists_write hroom
  refine ends_get_bind.mpr ((ends_orAbort_bind hbuf).mpr (ends_set.mpr ?_))
  exact ⟨rfl, buf, (hsafe.write hbuf).1, (hsafe.write hbuf).2, rfl⟩

lemma copyFlight_spec (h : WriteInv stream done 0 s) (hflight : s.flightRest = flight)
    (hroom : flight.length ≤ s.writeBuffer.cap.toNat - s.writeBuffer.size.toNat) :
    Ends (copyFlight flight) s fun r s' => r = .ok () ∧ s'.flightRest = []
      ∧ Keeps stream done 0 s s' := by
  unfold copyFlight
  split_ifs with hempty
  · exact ends_pure.mpr ⟨rfl, hflight.trans (List.isEmpty_iff.mp hempty), h, rfl⟩
  · refine Ends.mono (writeToBuffer_spec _ ?_ ?_) ?_
    · exact h.safe
    · exact hroom
    rintro r s' ⟨rfl, buf, hsafe, hspan, rfl⟩
    exact ⟨rfl, rfl, h.moveFlight hsafe (by rw [hflight]; exact hspan), rfl⟩

def appLen (type : UInt8) (n : ℕ) : ℕ := if type = ssl3RtApplicationData then n else 0

@[simp] lemma appLen_zero (type : UInt8) : appLen type 0 = 0 := ite_self 0

lemma sealToBuffer_spec (h : WriteInv stream done 0 s) (hrest : s.flightRest = [])
    (hdata : type = ssl3RtApplicationData → data <+: stream.drop done) :
    Ends (sealToBuffer env type data) s (post
      (fun _ => Keeps stream done (appLen type data.length) s) (Keeps stream done 0 s)) := by
  unfold sealToBuffer
  split_ifs with hempty
  · rw [List.isEmpty_iff.mp hempty, length_nil, appLen_zero]
    exact ends_pure.mpr ⟨h, rfl⟩
  · refine ends_get_bind.mpr ((tlsSealRecord_spec env _ type data s).bind ?_ ?_)
    · rintro out s₁ ⟨hroom, seq, hseq, rfl⟩
      refine Ends.mono (writeToBuffer_spec _ ?_ ?_) ?_
      · exact h.safe
      · exact hroom
      rintro r s' ⟨rfl, buf, hsafe, hspan, rfl⟩
      exact ⟨h.sealBuffer hrest hdata hseq hsafe hspan, rfl⟩
    · rintro e s₁ ⟨seq, hseq, rfl⟩
      exact ⟨h.writeSequence hseq, rfl⟩

lemma length_le_of_maxOutLen {aead : WriteAead} {flightLen inLen maxOut : ℕ}
    (h : maxOutLen aead flightLen inLen = some maxOut) : flightLen + inLen ≤ maxOut := by
  unfold maxOutLen at h
  split_ifs at h with hzero
  · exact le_of_eq (by rw [hzero]; exact Option.some.inj h)
  · obtain ⟨m, hm, hmax⟩ := Option.bind_eq_some_iff.mp h
    rw [addSize_eq hmax, addSize_eq hm]
    omega

/-- What `do_tls_write` leaves: what it counts is done, and what it sealed without counting it is
the pending write. -/
def WritePost (stream : Bytes) (done : ℕ) (s : TlsWriteState) (type : UInt8) (data : Bytes) :
    Except WriteError ℕ → TlsWriteState → Prop :=
  post
    (fun n s' => WriteInv stream (done + appLen type n) s'.pendingAppLen s'
      ∧ s'.unreportedBytesWritten = s.unreportedBytesWritten ∧ n ≤ data.length
      ∧ (data ≠ [] → n ≠ 0))
    fun s' => WriteInv stream done s'.pendingAppLen s'
      ∧ s'.unreportedBytesWritten = s.unreportedBytesWritten

lemma WriteInv.pending (h : WriteInv stream done 0 s₁)
    (hlen : s₁.pendingWrite.len = 0) : WriteInv stream done s₁.pendingAppLen s₁ := by
  rw [TlsWriteState.pendingAppLen, hlen, ite_self]
  exact h

lemma unreported_congr (h : s'.callerView = s.callerView) :
    s'.unreportedBytesWritten = s.unreportedBytesWritten := congrArg (·.2.2) h

lemma pendingLen_congr (h : s'.callerView = s.callerView) :
    s'.pendingWrite.len = s.pendingWrite.len := congrArg (·.1.len) h

variable (addr : ℕ)

lemma flushRecord_spec (h : WriteInv stream done (appLen type data.length) s)
    (hlen : s.pendingWrite.len = 0) :
    Ends (onError (sslWriteBufferFlush env) fun s =>
        if data.isEmpty then s
        else { s with pendingWrite := ⟨addr, data.length⟩, pendingWriteType := type })
      s (post
        (fun _ s' => WriteInv stream (done + appLen type data.length) s'.pendingAppLen s'
          ∧ s'.unreportedBytesWritten = s.unreportedBytesWritten)
        fun s' => WriteInv stream done s'.pendingAppLen s'
          ∧ s'.unreportedBytesWritten = s.unreportedBytesWritten) := by
  refine Ends.onError (sslWriteBufferFlush_spec h) ?_ ?_
  · rintro u s' ⟨⟨h', hv⟩, _, hsize⟩
    exact ⟨(h'.finish hsize).pending ((pendingLen_congr hv).trans hlen), unreported_congr hv⟩
  · rintro e s' ⟨h', hv⟩
    have hu := unreported_congr hv
    split_ifs with hempty
    · rw [List.isEmpty_iff.mp hempty, length_nil, appLen_zero] at h'
      exact ⟨h'.pending ((pendingLen_congr hv).trans hlen), hu⟩
    · exact ⟨{ h' with }, hu⟩

lemma writeRecord_spec (h : WriteInv stream done 0 s) (hsize : s.writeBuffer.size = 0)
    (hlen : s.pendingWrite.len = 0)
    (hdata : type = ssl3RtApplicationData → data <+: stream.drop done) :
    Ends (writeRecord env type addr data) s (WritePost stream done s type data) := by
  have hsame : WriteInv stream done s.pendingAppLen s
      ∧ s.unreportedBytesWritten = s.unreportedBytesWritten := ⟨h.pending hlen, rfl⟩
  refine ends_get_bind.mpr ?_
  simp only []
  rcases hmax : maxOutLen env.aead s.flightRest.length data.length with _ | maxOut
  · exact ends_throw.mpr hsame
  have hle := length_le_of_maxOutLen hmax
  simp only []
  by_cases hzero : maxOut = 0
  · rw [if_pos hzero]
    have hnil : data = [] := length_eq_zero_iff.mp (by omega)
    refine ends_pure.mpr ⟨?_, rfl, Nat.zero_le _, fun hne => absurd hnil hne⟩
    rw [appLen_zero]
    exact hsame.1
  rw [if_neg hzero]
  generalize hcap : s.writeBuffer.ensureCap
    (UInt64.ofNat (s.flightRest.length + env.aead.tlsSealAlignPrefixLen)) maxOut
      (env.malloc s) env.fill = r
  by_cases hok : (!r.1) = true
  · rw [if_pos hok]
    exact ends_throw.mpr hsame
  rw [if_neg hok]
  have hcap' : maxOut ≤ r.2.cap.toNat := by
    rw [← hcap]
    exact ensureCap_cap (by rw [hcap]; simpa using hok)
  have hbuf :=
    h.safe.ensureCap (UInt64.ofNat (s.flightRest.length + env.aead.tlsSealAlignPrefixLen))
    maxOut (env.malloc s) env.fill
  rw [hcap] at hbuf
  have hempty : r.2.size.toNat = 0 := by
    rw [← hbuf.1.span_length, hbuf.2, h.span_eq_nil hsize, length_nil]
  refine ends_set_bind.mpr ((copyFlight_spec (h.replaceBuffer hbuf.1 hbuf.2) rfl ?_).bind ?_ ?_)
  · change s.flightRest.length ≤ r.2.cap.toNat - r.2.size.toNat
    omega
  · rintro u s₁ ⟨_, hrest, h₁, hv₁⟩
    refine (sealToBuffer_spec h₁ hrest hdata).bind ?_ ?_
    · rintro u s₂ ⟨h₂, hv₂⟩
      have hv : s₂.callerView = s.callerView := hv₂.trans hv₁
      have hkey : WriteInv stream done (appLen type data.length)
          { s₂ with keyUpdatePending := false } :=
        { h₂ with }
      refine (flushRecord_spec addr hkey ((pendingLen_congr hv).trans hlen)).bind ?_ ?_
      · rintro u s₃ ⟨h₃, hu⟩
        refine ends_pure.mpr ⟨h₃, hu.trans (unreported_congr hv), Nat.le_refl _, fun hne h0 => ?_⟩
        exact hne (length_eq_zero_iff.mp h0)
      · rintro e s₃ ⟨h₃, hu⟩
        exact ⟨h₃, hu.trans (unreported_congr hv)⟩
    · rintro e s₂ ⟨h₂, hv₂⟩
      have hv : s₂.callerView = s.callerView := hv₂.trans hv₁
      exact ⟨h₂.pending ((pendingLen_congr hv).trans hlen), unreported_congr hv⟩
  · rintro e s₁ ⟨habs, _⟩
    exact nomatch habs

lemma doTlsWrite_spec (h : WriteInv stream done s.pendingAppLen s)
    (hdata : type = ssl3RtApplicationData → data <+: stream.drop done) :
    Ends (doTlsWrite env type addr data) s (WritePost stream done s type data) := by
  refine ends_get_bind.mpr ?_
  split_ifs with hretry
  · exact ends_throw.mpr ⟨h, rfl⟩
  refine (sslWriteBufferFlush_spec h).bind ?_ ?_
  · rintro u s₁ ⟨⟨h₁, hv₁⟩, _, hsize⟩
    refine ends_get_bind.mpr ?_
    split_ifs with hpending hlarge
    · have hlen := pendingLen_congr hv₁
      have hu := unreported_congr hv₁
      have hconsistent : ¬ data.length < s.pendingWrite.len ∧ s.pendingWriteType = type := by
        grind
      refine ends_set_bind.mpr (ends_pure.mpr ?_)
      refine ⟨?_, hu, by omega, fun _ => hpending⟩
      have happ : appLen type s₁.pendingWrite.len = s.pendingAppLen := by
        rw [appLen, TlsWriteState.pendingAppLen, hconsistent.2, hlen]
      rw [happ]
      exact WriteInv.pending { h₁.finish hsize with } rfl
    · exact ends_throw.mpr ⟨(pendingAppLen_congr hv₁) ▸ h₁, unreported_congr hv₁⟩
    · have hzero : s₁.pendingAppLen = 0 := by
        rw [TlsWriteState.pendingAppLen, not_not.mp hpending, ite_self]
      rw [← pendingAppLen_congr hv₁, hzero] at h₁
      refine (tlsFlushPendingHsData_spec h₁).bind ?_ ?_
      · rintro u s₂ ⟨hq, _⟩
        have hlen₂ := (pendingLen_congr hq.same).trans (not_not.mp hpending)
        have hempty : s₂.writeBuffer.size = 0 := by rw [hq.writeBuffer, hsize]
        refine (writeRecord_spec addr hq.inv hempty hlen₂ hdata).mono ?_
        have hu := unreported_congr (hq.same.trans hv₁)
        rintro (e | n) s₃ h₃
        · exact ⟨h₃.1, h₃.2.trans hu⟩
        · exact ⟨h₃.1, h₃.2.1.trans hu, h₃.2.2⟩
      · intro e s₂ hq
        exact ⟨hq.inv.pending ((pendingLen_congr hq.same).trans (not_not.mp hpending)),
          unreported_congr (hq.same.trans hv₁)⟩
  · rintro e s₁ ⟨h₁, hv₁⟩
    exact ⟨(pendingAppLen_congr hv₁) ▸ h₁, unreported_congr hv₁⟩

lemma fragmentLimit_pos (env : WriteEnv) (h : earlyDataFull early s = false) :
    0 < fragmentLimit env early s := by
  have hmax := env.maxSendFragment.2.1
  unfold fragmentLimit
  rcases early with _ | limit
  · simp only []
    omega
  · simp only [earlyDataFull, decide_eq_false_iff_not, UInt32.not_le] at h
    have hlt := UInt32.lt_iff_toNat_lt.mp h
    simp only [Nat.lt_min, UInt32.toNat_sub_of_le _ _ (UInt32.le_of_lt h)]
    omega

/-- The loop counts what was sealed, and whether it ends well or not the count is kept. -/
lemma writeAppData_spec {addr : ℕ} :
    ∀ (fuel total : ℕ) (data : Bytes) {s : TlsWriteState},
    WriteInv stream (reported + total) s.pendingAppLen s → data <+: stream.drop (reported + total) →
    data.length < fuel → Ends (writeAppData env early addr fuel total data) s (post
      (fun n s' => WriteInv stream (reported + n) s'.pendingAppLen s'
        ∧ s'.unreportedBytesWritten = 0)
      fun s' => WriteInv stream (reported + s'.unreportedBytesWritten) s'.pendingAppLen s')
  | 0, _, _, _, _, _, hfuel => absurd hfuel (Nat.not_lt_zero _)
  | fuel + 1, total, data, s, h, hdata, hfuel => by
    refine ends_get_bind.mpr ?_
    by_cases hfull : earlyDataFull early s = true
    · rw [if_pos hfull]
      exact ends_set_bind.mpr (ends_throw.mpr { h with })
    rw [if_neg hfull]
    have hlimit := fragmentLimit_pos env (Bool.eq_false_iff.mpr hfull)
    have htake := take_prefix (fragmentLimit env early s) data
    refine (Ends.onError (Q := post
      (fun n s' => WriteInv stream (reported + (total + n)) s'.pendingAppLen s' ∧ n ≤ data.length
        ∧ (data ≠ [] → n ≠ 0))
      fun s' => WriteInv stream (reported + s'.unreportedBytesWritten) s'.pendingAppLen s')
      (doTlsWrite_spec (addr + total) h fun _ => htake.trans hdata) ?_ ?_).bind ?_ ?_
    · rintro n s' ⟨h', _, hle, hpos⟩
      rw [length_take] at hle
      refine ⟨?_, by omega, fun hne => hpos fun hnil => ?_⟩
      · rw [← add_assoc]
        exact h'
      · grind
    · rintro e s' ⟨h', _⟩
      exact { h' with }
    · rintro n s' ⟨h', hle, hpos⟩
      have hearly : ∀ w, WriteInv stream (reported + (total + n)) s'.pendingAppLen
          { s' with earlyDataWritten := w } := fun w => { h' with }
      by_cases hend : ((data.drop n).isEmpty || env.partialWrite) = true
      · rw [if_pos hend]
        exact ends_modify_bind.mpr (ends_pure.mpr ⟨{ h' with }, rfl⟩)
      · rw [if_neg hend]
        have hrest : data.drop n <+: stream.drop (reported + (total + n)) := by
          rw [← add_assoc, ← drop_drop]
          exact hdata.drop n
        have hne : data ≠ [] := by
          rintro rfl
          simp at hend
        have hpos' := hpos hne
        refine writeAppData_spec fuel (total + n) _ (hearly _) hrest ?_
        rw [length_drop]
        omega
    · intro e s' h'
      exact h'

/-- The invariant between calls, with `reported` bytes reported so far. -/
def RunInv (stream : Bytes) (reported : ℕ) (s : TlsWriteState) : Prop :=
  WriteInv stream (reported + s.unreportedBytesWritten) s.pendingAppLen s

lemma tlsWriteAppData_spec (env : WriteEnv) (addr : ℕ) (h : RunInv stream reported s)
    (hdata : data <+: stream.drop reported) : Ends (tlsWriteAppData env addr data) s
      fun r s' => RunInv stream (reported + reportedBytes r) s' := by
  refine ends_get_bind.mpr ?_
  by_cases hshut : s.writeShutdown ≠ .none
  · rw [if_pos hshut]
    exact ends_throw.mpr h
  rw [if_neg hshut]
  by_cases hshort : data.length < s.unreportedBytesWritten
  · rw [if_pos hshort]
    exact ends_throw.mpr h
  · rw [if_neg hshort]
    have hrest : data.drop s.unreportedBytesWritten
        <+: stream.drop (reported + s.unreportedBytesWritten) := by
      rw [← drop_drop]
      exact hdata.drop _
    refine (writeAppData_spec _ _ _ h hrest (Nat.lt_succ_self _)).mono ?_
    rintro (e | n) s' hs'
    · exact hs'
    · rw [RunInv, hs'.2]
      exact hs'.1

lemma tlsDispatchAlert_spec (h : RunInv stream reported s) :
    Ends (tlsDispatchAlert env addr) s fun _ s' => RunInv stream reported s' := by
  have halert : ssl3RtAlert ≠ ssl3RtApplicationData := by decide
  refine ends_get_bind.mpr ((doTlsWrite_spec addr h fun htype => absurd htype halert).bind ?_ ?_)
  · rintro n s' ⟨h', hu, _⟩
    rw [appLen, if_neg halert, add_zero, ← hu] at h'
    exact ends_modify.mpr { h' with }
  · rintro e s' ⟨h', hu⟩
    rw [← hu] at h'
    exact h'

lemma sslSendAlert_spec (level desc : UInt8) (h : RunInv stream reported s) :
    Ends (sslSendAlert env addr level desc) s fun _ s' => RunInv stream reported s' := by
  refine ends_get_bind.mpr ?_
  by_cases hshut : s.writeShutdown ≠ .none
  · rw [if_pos hshut]
    exact ends_throw.mpr h
  rw [if_neg hshut]
  refine ends_set_bind.mpr ?_
  by_cases hsize : s.writeBuffer.size = 0
  · rw [if_pos hsize]
    exact tlsDispatchAlert_spec addr { h with }
  · rw [if_neg hsize]
    exact ends_throw.mpr { h with }

lemma RunInv.of_keeps
    (h : Keeps stream (reported + s.unreportedBytesWritten) s.pendingAppLen s s') :
    RunInv stream reported s' := by
  rw [RunInv, unreported_congr h.2, pendingAppLen_congr h.2]
  exact h.1

lemma writeCall_spec (env : WriteEnv) (c : WriteCall) (h : RunInv stream reported s) :
    Ends (c.prog env) s fun _ s' => RunInv stream reported s' := by
  cases c with
  | addMessage msg => exact (tlsAddMessage_spec msg h).mono fun r s' hq => .of_keeps hq.keeps
  | addChangeCipherSpec =>
    exact (tlsAddChangeCipherSpec_spec h).mono fun r s' hq => .of_keeps hq.keeps
  | setWriteState => exact (tlsSetWriteState_spec h).mono fun r s' hq => .of_keeps hq.keeps
  | flush => exact (tlsFlush_spec h).mono fun r s' hk => .of_keeps hk
  | sendAlert addr level desc => exact sslSendAlert_spec addr level desc h
  | dispatchAlert addr => exact tlsDispatchAlert_spec addr h

lemma writeRun_inv (h : WriteRun stream s reported) : RunInv stream reported s := by
  induction h with
  | start fill => exact writeInv_new stream fill
  | write env addr data r _ hdata hrun ih =>
    exact (tlsWriteAppData_spec env addr ih hdata).of_run hrun
  | call env c r _ hrun ih => exact (writeCall_spec env c ih).of_run hrun

/-- In every run: as long as `offset_` of the write buffer has not wrapped around, what the
transport accepted is a prefix of the records in the order of their sequence numbers; the
application data in them is what the caller has to write, up to the bytes reported, unreported and
pending; and of that the records accepted as a whole hold all that is reported or unreported, and
the pending write once the write buffer is empty. -/
theorem writeRun_integrity {reported : ℕ} (h : WriteRun stream s reported) :
    (s.offsetWrapped = false → s.wire <+: sealedBytes s.records)
      ∧ s.records.Pairwise TlsSealed.Before
      ∧ (appData s.records = stream.take (reported + s.unreportedBytesWritten + s.pendingAppLen)
        ∧ reported + s.unreportedBytesWritten + s.pendingAppLen ≤ stream.length)
      ∧ (appData s.accepted).length = reported + s.unreportedBytesWritten
        + if s.writeBuffer.size = 0 then s.pendingAppLen else 0 := by
  have hinv := writeRun_inv h
  have hle := hinv.le
  refine ⟨fun hw => ?_, hinv.ordered, ⟨hinv.app, hle⟩, ?_⟩
  · rw [hinv.bytes hw, append_assoc]
    exact prefix_append _ _
  · change (appData (complete TlsSealed.len s.wire.length s.records)).length = _
    split_ifs with hsize
    · have hall := hinv.all
      rw [hsize] at hall
      rw [show s.wire.length = s.wire.length + UInt16.toNat 0 from rfl, hall, length_take]
      omega
    · have hpos : 0 < s.writeBuffer.size.toNat :=
        Nat.pos_of_ne_zero fun h0 => hsize (UInt16.toNat_inj.mp h0)
      rw [hinv.waiting _ (Nat.le_refl _) (by omega), length_take]
      omega

def oneByteAead : WriteAead where
  isNullCipher := false
  isTls13 := false
  explicitNonceLen := 0
  maxOverhead := 1
  suffixLen _ _ := some 1
  needsRecordSplitting := false
  recordSplitLen := 0
  sealScatter _ _ data _ := some (data ++ [0])
  length_sealScatter h hn := by
    cases h
    cases hn
    rw [length_append, zero_add]
    rfl
  recordSplitting h := nomatch h

def writeEnv (accepts : Option ℕ) : WriteEnv where
  aead := oneByteAead
  recordVersion := 0x0303
  partialWrite := false
  movingWriteBuffer := false
  maxSendFragment := ⟨16384, by decide⟩
  ticketMaxEarlyData := none
  hasWbio := true
  bioWrite _ := accepts
  bioFlush := true
  malloc _ := some 0
  fill := 0
  bufMemNew _ := true
  bufMemReserve _ _ := true
  bufMemAppend _ := true

/-- The transport accepts a record in pieces of four bytes. -/
theorem writeRun_integrity_pieces : ∃ s, WriteRun [7, 8] s 2 ∧ s.wire <+: sealedBytes s.records
    ∧ (appData s.accepted).length = 2 := by
  have h : WriteRun [7, 8] _ 2 := .write (writeEnv (some 3)) 0 [7, 8] (.ok 2) (.start 0)
    prefix_rfl (run_eq_after (by decide +kernel))
  have hall := writeRun_integrity h
  refine ⟨_, h, hall.1 (by decide +kernel), ?_⟩
  decide +kernel

/-- A write that is pending goes out with the next handshake message, and the caller has not been
told of it then. -/
theorem writeRun_unreported : ∃ s, WriteRun [7] s 0 ∧ (appData s.accepted).length = 1 := by
  have h₁ : WriteRun [7] _ 0 := .write (writeEnv none) 0 [7] (.error .bio) (.start 0) prefix_rfl
    (run_eq_after (by decide +kernel))
  have h₂ := WriteRun.call (writeEnv none) (.addMessage [24, 0, 0, 1, 0]) (.ok ()) h₁
    (run_eq_after (by decide +kernel))
  have h₃ := WriteRun.call (writeEnv (some 2)) .flush (.ok ()) h₂ (run_eq_after (by decide +kernel))
  exact ⟨_, h₃, by decide +kernel⟩

end BoringSSL
