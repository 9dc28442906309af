import BoringSSL.TlsSeal

/-!
# `tls_seal_record`

A call that succeeds moves `write_sequence` up and writes as many bytes as it was found to have room
for.  One that fails leaves all but `write_sequence` as it was.
-/

namespace BoringSSL

open ByteLib Prog

lemma lt_add_one_of_ne {seq : UInt64} (h : seq + 1 ≠ 0) : seq < seq + 1 := by
  grind

lemma addSize_eq {a b n : ℕ} (h : addSize a b = some n) : n = a + b := by
  unfold addSize at h
  split_ifs at h
  exact (Option.some.inj h).symm

lemma length_recordHeader (env : WriteEnv) (type : UInt8) (n : ℕ) :
    (recordHeader env type n).length = ssl3RtHeaderLength := by
  simp [recordHeader, ssl3RtHeaderLength]

variable {env : WriteEnv} {s : TlsWriteState}

/-- The length of the record `do_seal_record` makes of so much data, with a suffix of `n`. -/
def sealedLen (aead : WriteAead) (inLen n : ℕ) : ℕ :=
  ssl3RtHeaderLength + aead.explicitNonceLen + inLen + n

lemma doSealRecord_spec (env : WriteEnv) (type : UInt8) (data : Bytes) (s : TlsWriteState) :
    Ends (doSealRecord env type data) s (post
      (fun out s' => s.writeSequence < s.writeSequence + 1
        ∧ s' = { s with writeSequence := s.writeSequence + 1 }
        ∧ ∃ n, env.aead.suffixLen data.length (if env.aead.hidesType then 1 else 0) = some n
          ∧ out.length = sealedLen env.aead data.length n)
      fun s' => s' = s) := by
  have hextra : (if env.aead.hidesType then [type] else []).length
      = if env.aead.hidesType then 1 else 0 := by
    split_ifs <;> rfl
  unfold doSealRecord
  simp only []
  rcases hlen : env.aead.ciphertextLen data.length
    (if env.aead.hidesType then [type] else []).length with _ | len
  · exact ends_throw.mpr rfl
  simp only [ends_get_bind]
  by_cases hseq : s.writeSequence + 1 = 0
  · rw [if_pos hseq]
    exact ends_throw.mpr rfl
  rw [if_neg hseq]
  rcases hout : env.aead.sealScatter s.writeSequence (recordHeader env type len) data
      (if env.aead.hidesType then [type] else []) with _ | out
  · exact ends_throw.mpr rfl
  obtain ⟨n, hn, _⟩ := Option.bind_eq_some_iff.mp hlen
  refine ends_set_bind.mpr (ends_pure.mpr ?_)
  refine ⟨lt_add_one_of_ne hseq, rfl, n, hextra ▸ hn, ?_⟩
  rw [List.length_append, length_recordHeader, env.aead.length_sealScatter hout hn, sealedLen]
  omega

lemma tlsSealScatterRecord_spec (env : WriteEnv) (type : UInt8) (data : Bytes) (s : TlsWriteState) :
    Ends (tlsSealScatterRecord env type data) s (post
      (fun out s' => ∃ seq, s.writeSequence < seq ∧ s' = { s with writeSequence := seq }
        ∧ ∃ n, env.aead.tlsSealScatterSuffixLen type data.length = some n
          ∧ out.length = data.length + env.aead.tlsSealScatterPrefixLen type data.length + n)
      fun s' => ∃ seq, s.writeSequence ≤ seq ∧ s' = { s with writeSequence := seq }) := by
  unfold tlsSealScatterRecord WriteAead.tlsSealScatterSuffixLen WriteAead.tlsSealScatterPrefixLen
  by_cases hsplit : env.aead.splits type data.length = true
  · have hlong : 1 < data.length ∧ env.aead.needsRecordSplitting = true := by
      simp only [WriteAead.splits, Bool.and_eq_true, decide_eq_true_eq] at hsplit
      exact ⟨hsplit.1.2, hsplit.2⟩
    obtain ⟨hversion, hnonce, hsplitLen⟩ := env.aead.recordSplitting hlong.2
    have hhides : env.aead.hidesType = false := by simp [WriteAead.hidesType, hversion]
    simp only [if_pos hsplit]
    refine (doSealRecord_spec env type _ s).bind ?_ ?_
    · rintro first s₁ ⟨hlt₁, rfl, n₁, hn₁, hfirst⟩
      refine (doSealRecord_spec env type _ _).bind ?_ ?_
      · rintro rest s₂ ⟨hlt₂, rfl, n₂, hn₂, hrest⟩
        refine ends_pure.mpr ⟨_, UInt64.lt_trans hlt₁ hlt₂, rfl, n₂, ?_, ?_⟩
        · rw [← List.length_drop, hn₂]
        · have htake : (data.take 1).length = 1 := by rw [List.length_take]; omega
          rw [htake, hhides] at hn₁
          have := hsplitLen n₁ hn₁
          rw [List.length_drop] at hrest
          simp only [List.length_append, hfirst, hrest, sealedLen, hnonce, ssl3RtHeaderLength]
          omega
      · rintro e s₂ rfl
        exact ⟨_, UInt64.le_of_lt hlt₁, rfl⟩
    · rintro e s₁ rfl
      exact ⟨s₁.writeSequence, UInt64.le_refl _, rfl⟩
  · simp only [if_neg hsplit]
    refine (doSealRecord_spec env type data s).mono ?_
    rintro (e | out) s' h
    · exact ⟨s.writeSequence, UInt64.le_refl _, h⟩
    · obtain ⟨hlt, rfl, n, hn, hout⟩ := h
      refine ⟨_, hlt, rfl, n, hn, ?_⟩
      rw [hout, sealedLen]
      omega

lemma tlsSealRecord_spec (env : WriteEnv) (maxOut : ℕ) (type : UInt8) (data : Bytes)
    (s : TlsWriteState) : Ends (tlsSealRecord env maxOut type data) s (post
      (fun out s' => out.length ≤ maxOut ∧ ∃ seq, s.writeSequence < seq ∧ s' = { s with
        writeSequence := seq
        records := s.records ++ [⟨s.writeEpoch, s.writeSequence, type, data, out⟩] })
      fun s' => ∃ seq, s.writeSequence ≤ seq ∧ s' = { s with writeSequence := seq }) := by
  have hsame : ∃ seq, s.writeSequence ≤ seq ∧ s = { s with writeSequence := seq } :=
    ⟨s.writeSequence, UInt64.le_refl _, rfl⟩
  unfold tlsSealRecord
  rcases hsuffix : env.aead.tlsSealScatterSuffixLen type data.length with _ | suffixLen
  · exact ends_throw.mpr hsame
  simp only []
  rcases hsum : (addSize data.length (env.aead.tlsSealScatterPrefixLen type data.length)).bind
      fun len => addSize len suffixLen with _ | len
  · exact ends_throw.mpr hsame
  simp only []
  split_ifs with hroom
  · exact ends_throw.mpr hsame
  obtain ⟨m, hm, hlen⟩ := Option.bind_eq_some_iff.mp hsum
  refine ends_get_bind.mpr ((tlsSealScatterRecord_spec env type data s).bind ?_ fun e s' h => h)
  rintro out s' ⟨seq, hlt, rfl, n, hn, hout⟩
  obtain rfl : n = suffixLen := Option.some.inj (hn.symm.trans hsuffix)
  refine ends_modify_bind.mpr (ends_pure.mpr ?_)
  refine ⟨?_, seq, hlt, rfl⟩
  rw [addSize_eq hlen, addSize_eq hm] at hroom
  omega

end BoringSSL
