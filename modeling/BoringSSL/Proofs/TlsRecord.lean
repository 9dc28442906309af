import BoringSSL.TlsRecord
import Mathlib

/-!
# Sealed records open

`SealScatter` and `Open` put the nonce and the additional data together on their own.  They agree
for each of the layouts `Create` sets up (`aeadOpen_sealScatter`), and so the records of
`tls_seal_record` open to what was sealed.
-/

namespace BoringSSL

open ByteLib List

variable {version : Option TlsVersion} {nonce data out : Bytes} {n : ℕ}
  {cipher : SslCipher} {v : TlsVersion} {body : Bytes}

namespace TlsRecord

variable {σ ρ τ : Type}

def SslAeadCtx.withCtx {τ' : Type} (c : SslAeadCtx τ) (ctx : τ') : SslAeadCtx τ' where
  cipher := c.cipher
  aead := c.aead
  fixedNonce := c.fixedNonce
  variableNonceLen := c.variableNonceLen
  variableNonceIncludedInRecord := c.variableNonceIncludedInRecord
  randomVariableNonce := c.randomVariableNonce
  xorFixedNonce := c.xorFixedNonce
  omitLengthInAd := c.omitLengthInAd
  adIsHeader := c.adIsHeader
  ctx := ctx

/-- A sealing and an opening context with the same keys, and what holds for them: opening inverts
sealing, and both move on to such contexts. -/
structure EvpImpl.Correct (impl : EvpImpl σ ρ) (aead : EvpAead) (Same : σ → ρ → Prop) : Prop where
  open_seal : ∀ {s : σ} {r : ρ} {nonce data extra ad out tag : Bytes} {s' : σ}, Same s r →
    impl.sealScatter s nonce data extra ad = (some (out, tag), s') →
    out.length = data.length ∧ tag.length = aead.tagLen data.length extra.length
      ∧ ∃ r', impl.aeadOpen r nonce (out ++ tag) ad = (some (data ++ extra), r') ∧ Same s' r'

/-! ## The layouts of `Create` -/

/-- The null cipher, or what `Create` makes for a version and a cipher it supports. -/
def SslAeadCtx.Created (c : SslAeadCtx τ) (version : Option TlsVersion) : Prop :=
  (∃ ctx, c = .createNullCipher ctx) ∨
  ∃ v cipher macKey fixedIv ctx, version = some v ∧ SslCipher.supports cipher v = true
    ∧ create v cipher macKey fixedIv ctx = some c

/-- What the ciphers have in common. -/
structure SslAeadCtx.Layout (c : SslAeadCtx τ) (version : Option TlsVersion) : Prop where
  fixed_of_included : c.variableNonceIncludedInRecord = true → c.xorFixedNonce = false
  included_of_random : c.randomVariableNonce = true → c.variableNonceIncludedInRecord = true
  sequence_of_not_random : c.randomVariableNonce = false → c.variableNonceLen = 8
  tagLen_eq : c.omitLengthInAd = false → ∀ n x, c.aead.tagLen n x = x + c.aead.maxOverhead
  tagLen_le : ∀ n x, c.aead.tagLen n x ≤ x + c.aead.maxOverhead
  maxOverhead_le : c.maxOverhead ≤ 64
  header_of_tls13 : version = some .tls13 → c.adIsHeader = true
  split : version = some .tls1 → c.cipher.any (·.isBlockCipher) = true → c.explicitNonceLen = 0
    ∧ (c.cipher.map (·.recordSplitLen)).getD 0 = 1 + c.suffixLen 1 0

/-- An AEAD: a tag of a fixed length, and a nonce of a fixed IV and eight bytes or an IV alone. -/
lemma sslCipherGetEvpAead_aead (h : (sslCipherGetEvpAead cipher v).2.1 = 0) :
    cipher.isBlockCipher = false ∧ (sslCipherGetEvpAead cipher v).1 = ⟨12, 16, none⟩
      ∧ (cipher ≠ .chacha20Poly1305 → v ≠ .tls13 → (sslCipherGetEvpAead cipher v).2.2 = 4) := by
  cases cipher <;> cases v <;> revert h <;> decide

lemma sslCipherGetEvpAead_cbc (h : (sslCipherGetEvpAead cipher v).2.1 ≠ 0) :
    ∃ b m, (sslCipherGetEvpAead cipher v).1.cbc = some (b, m)
      ∧ (sslCipherGetEvpAead cipher v).1.maxOverhead = b + m
      ∧ (sslCipherGetEvpAead cipher v).1.nonceLen ≤ 16 ∧ b + m ≤ 48
      ∧ (cipher.supports v = true → v ≠ .tls13)
      ∧ (cipher.supports v = true → v = .tls1 → (sslCipherGetEvpAead cipher v).1.nonceLen = 0
        ∧ cipher.recordSplitLen = 1 + (sslCipherGetEvpAead cipher v).1.tagLen 1 0) := by
  cases cipher <;> cases v <;> first | exact absurd rfl h | exact ⟨_, _, rfl, rfl, by decide⟩

lemma SslAeadCtx.Created.layout {c : SslAeadCtx τ}
    (h : c.Created version) (hnull : c.isNullCipher = false) : c.Layout version := by
  obtain ⟨ctx, rfl⟩ | ⟨v, cipher, macKey, fixedIv, ctx, rfl, hsup, hc⟩ := h
  · simp [isNullCipher, createNullCipher] at hnull
  simp only [create] at hc
  by_cases hlen : (sslCipherGetEvpAead cipher v).2.2 ≠ fixedIv.length
      ∨ (sslCipherGetEvpAead cipher v).2.1 ≠ macKey.length
  · simp [hlen] at hc
  rw [if_neg hlen] at hc
  simp only [not_or, not_not] at hlen
  by_cases hmac : macKey = []
  -- An AEAD: the fixed nonce is XORed, or it is followed by the sequence number.
  · subst hmac
    cases hc
    obtain ⟨hblock, haead, hiv⟩ := sslCipherGetEvpAead_aead hlen.2
    have hvar : ¬ (v = .tls13 ∨ cipher = .chacha20Poly1305) → 12 - fixedIv.length = 8 := by
      intro hxor
      rw [not_or] at hxor
      rw [← hlen.1, hiv hxor.2 hxor.1]
    refine ⟨?_, ?_, ?_, ?_, ?_, ?_, ?_, ?_⟩
    · simp
    · simp
    · simp only [haead]
      split_ifs with hxor <;> simp [hvar, hxor]
    · simp [haead, EvpAead.tagLen]
    · simp [haead, EvpAead.tagLen]
    · simp only [maxOverhead, explicitNonceLen, isNullCipher, haead]
      split_ifs with h1 h2 <;> simp_all
    · simp
    · simp [hblock]
  · rw [if_neg hmac] at hc
    cases hc
    have hpos : (sslCipherGetEvpAead cipher v).2.1 ≠ 0 := by
      rw [hlen.2]
      simpa using hmac
    obtain ⟨b, m, hcbc, hover, hnonce, hle, htls13, hsplit⟩ := sslCipherGetEvpAead_cbc hpos
    refine ⟨?_, ?_, ?_, ?_, ?_, ?_, ?_, ?_⟩
    · simp
    · simp
    · simp
    · simp
    · simp only [EvpAead.tagLen, hcbc, hover]
      omega
    · simp only [maxOverhead, explicitNonceLen, isNullCipher, hover]
      simp
      omega
    · intro hv
      exact absurd (Option.some.inj hv) (htls13 hsup)
    · intro hv _
      obtain ⟨hnonce0, hlen1⟩ := hsplit hsup (Option.some.inj hv)
      simpa [explicitNonceLen, suffixLen, isNullCipher, hnonce0] using hlen1

/-! ## One body -/

section Body

variable {impl : EvpImpl σ ρ} {Same : σ → ρ → Prop} {rand : RandBytes} {version : Option TlsVersion}
  {seqnum : UInt64} {type : UInt8} {recordVersion : UInt16} {header : Bytes}

lemma SslAeadCtx.Layout.length_variableNonce {c : SslAeadCtx τ} (hl : c.Layout version)
    (h : c.variableNonce rand seqnum = some nonce) : nonce.length = c.variableNonceLen := by
  unfold SslAeadCtx.variableNonce at h
  split_ifs at h with hrandom
  · obtain ⟨⟨bytes, hbytes⟩, -, rfl⟩ := Option.map_eq_some_iff.mp h
    exact hbytes
  · cases h
    rw [beBytes_length, hl.sequence_of_not_random (by simpa using hrandom)]

lemma sealScatter_eq_some {c c' : SslAeadCtx σ} {extra outPrefix outSuffix : Bytes}
    (hl : c.Layout version) (hnull : c.isNullCipher = false)
    (hseal : c.sealScatter impl rand type recordVersion seqnum header data extra
      = (some (outPrefix, out, outSuffix), c')) :
    ∃ nonce x', c.variableNonce rand seqnum = some nonce
      ∧ outPrefix = (if c.variableNonceIncludedInRecord then nonce else [])
      ∧ impl.sealScatter c.ctx (c.xorNonce (c.nonceStart ++ nonce)) data extra
          (c.getAdditionalData type recordVersion seqnum data.length header)
        = (some (out, outSuffix), x')
      ∧ c' = c.withCtx x' := by
  simp only [SslAeadCtx.sealScatter, hnull, Bool.false_eq_true, if_false] at hseal
  cases hnonce : c.variableNonce rand seqnum with
  | none => simp [hnonce] at hseal
  | some nonce =>
    have hlen := hl.length_variableNonce hnonce
    simp only [hnonce] at hseal
    obtain ⟨⟨r, x'⟩, hcall⟩ : ∃ p, impl.sealScatter c.ctx (c.xorNonce (c.nonceStart ++ nonce)) data
        extra (c.getAdditionalData type recordVersion seqnum data.length header) = p := ⟨_, rfl⟩
    rw [hcall] at hseal
    cases r with
    | none => simp at hseal
    | some r =>
      obtain ⟨⟨rfl, rfl, rfl⟩, rfl⟩ := hseal
      refine ⟨nonce, x', rfl, ?_, hcall, rfl⟩
      split_ifs with hincl
      · have hstart : c.nonceStart = c.fixedNonce := by
          simp [SslAeadCtx.nonceStart, hl.fixed_of_included hincl]
        rw [hstart, drop_left, ← hlen, take_length]
      · rfl

lemma aeadOpen_eq {d : SslAeadCtx ρ} {plain : Option Bytes} {y' : ρ}
    (hnull : d.isNullCipher = false)
    (hnonce : d.variableNonceIncludedInRecord = true → nonce.length = d.variableNonceLen)
    (hseq : d.variableNonceIncludedInRecord = false → nonce = beBytes 8 seqnum.toNat)
    (hover : d.omitLengthInAd = false → d.aead.maxOverhead ≤ body.length)
    (hcall : impl.aeadOpen d.ctx (d.xorNonce (d.nonceStart ++ nonce)) body
        (d.getAdditionalData type recordVersion seqnum
          (if d.omitLengthInAd then 0 else body.length - d.aead.maxOverhead) header)
      = (plain, y')) :
    d.aeadOpen impl type recordVersion seqnum header
        ((if d.variableNonceIncludedInRecord then nonce else []) ++ body)
      = (plain, d.withCtx y') := by
  obtain ⟨input, hinput⟩ : ∃ input,
      (if d.variableNonceIncludedInRecord then nonce else []) ++ body = input := ⟨_, rfl⟩
  have hlen : input.length = d.explicitNonceLen + body.length := by
    rw [← hinput, SslAeadCtx.explicitNonceLen]
    split_ifs with h
    · rw [length_append, hnonce h]
    · simp
  have hmax : d.maxOverhead = d.explicitNonceLen + d.aead.maxOverhead := by
    simp [SslAeadCtx.maxOverhead, hnull]
  have hvar : (if d.variableNonceIncludedInRecord then input.take d.variableNonceLen
      else beBytes 8 seqnum.toNat) = nonce := by
    grind
  have hbody : (if d.variableNonceIncludedInRecord then input.drop d.variableNonceLen else input)
      = body := by
    grind
  rw [hinput, SslAeadCtx.aeadOpen, if_neg (by simp [hnull]), if_neg, if_neg]
  · simp only [hlen, hmax, Nat.add_sub_add_left, hvar, hbody, hcall]
    rfl
  · grind
  · rintro ⟨homit, hlt⟩
    have := hover (by simpa using homit)
    omega

lemma create_isNullCipher {macKey fixedIv : Bytes} {ctx : τ} {c : SslAeadCtx τ}
    (h : SslAeadCtx.create v cipher macKey fixedIv ctx = some c) : c.isNullCipher = false := by
  simp only [SslAeadCtx.create] at h
  split_ifs at h
  all_goals
    cases h
    rfl

/-- What `SealScatter` writes opens to what it was given, and the contexts move on together. -/
lemma aeadOpen_sealScatter {c c' : SslAeadCtx σ} {y : ρ}
    {extra outPrefix outSuffix : Bytes} (hcreated : c.Created version)
    (himpl : impl.Correct c.aead Same) (hsame : Same c.ctx y)
    (hextra : c.isNullCipher = false → extra ≠ [] → version = some .tls13)
    (hseal : c.sealScatter impl rand type recordVersion seqnum header data extra
      = (some (outPrefix, out, outSuffix), c')) :
    outPrefix.length = c.explicitNonceLen ∧ out.length = data.length
      ∧ outSuffix.length = c.suffixLen data.length extra.length
      ∧ ∃ x' y', Same x' y' ∧ c' = c.withCtx x'
        ∧ (c.withCtx y).aeadOpen impl type recordVersion seqnum header
          (outPrefix ++ out ++ outSuffix) = (some (data ++ extra), c.withCtx y') := by
  cases hnull : c.isNullCipher with
  | true =>
    obtain ⟨ctx, rfl⟩ | ⟨v, cipher, macKey, fixedIv, ctx, rfl, hsup, hc⟩ := hcreated
    · obtain ⟨⟨rfl, rfl, rfl⟩, rfl⟩ := hseal
      refine ⟨rfl, rfl, ?_, ctx, y, hsame, rfl, ?_⟩
      · simp [SslAeadCtx.suffixLen, hnull]
      · simp [SslAeadCtx.aeadOpen, SslAeadCtx.withCtx, SslAeadCtx.isNullCipher,
          SslAeadCtx.createNullCipher]
    · simp [create_isNullCipher hc] at hnull
  | false =>
    have hl := hcreated.layout hnull
    obtain ⟨nonce, x', hnonce, rfl, hcall, rfl⟩ := sealScatter_eq_some hl hnull hseal
    obtain ⟨hout, htag, y', hopen, hsame'⟩ := himpl.open_seal hsame hcall
    have hnonceLen := hl.length_variableNonce hnonce
    have hbody : (out ++ outSuffix).length
        = data.length + c.aead.tagLen data.length extra.length := by
      rw [length_append, hout, htag]
    refine ⟨?_, hout, ?_, x', y', hsame', rfl, ?_⟩
    · unfold SslAeadCtx.explicitNonceLen
      split_ifs
      · exact hnonceLen
      · rfl
    · simpa [SslAeadCtx.suffixLen, hnull] using htag
    · have hlenEq : c.omitLengthInAd = false → (out ++ outSuffix).length - c.aead.maxOverhead
          = data.length + extra.length := fun homit => by
        rw [hbody, hl.tagLen_eq homit]
        omega
      -- The length is in the additional data only where there is no extra input.
      have had : c.getAdditionalData type recordVersion seqnum
            (if c.omitLengthInAd then 0 else (out ++ outSuffix).length - c.aead.maxOverhead) header
          = c.getAdditionalData type recordVersion seqnum data.length header := by
        unfold SslAeadCtx.getAdditionalData
        cases hheader : c.adIsHeader with
        | true => rfl
        | false =>
          cases homit : c.omitLengthInAd with
          | true => rfl
          | false =>
            have hnil : extra = [] := by
              by_contra hne
              simp [hl.header_of_tls13 (hextra hnull hne)] at hheader
            simp only [Bool.false_eq_true, if_false, hlenEq homit, hnil, length_nil, add_zero]
      rw [append_assoc]
      refine aeadOpen_eq hnull (fun _ => hnonceLen) (fun hincl => ?_) (fun homit => ?_) ?_
      · unfold SslAeadCtx.variableNonce at hnonce
        rw [if_neg] at hnonce
        · exact (Option.some.inj hnonce).symm
        · intro hrandom
          have hno : c.variableNonceIncludedInRecord = false := hincl
          simp [hl.included_of_random hrandom] at hno
      · rw [hbody, hl.tagLen_eq homit]
        exact Nat.le_add_left _ _ |>.trans (Nat.le_add_left _ _)
      · exact (congrArg _ had).trans hopen

end Body

lemma SslAeadCtx.Created.overhead_le {c : SslAeadCtx τ} (h : c.Created version) (n x : ℕ) :
    c.explicitNonceLen + c.suffixLen n x ≤ c.maxOverhead + x ∧ c.maxOverhead ≤ 64 := by
  cases hnull : c.isNullCipher with
  | true =>
    obtain ⟨ctx, rfl⟩ | ⟨v, cipher, macKey, fixedIv, ctx, rfl, hsup, hc⟩ := h
    · simp [explicitNonceLen, suffixLen, SslAeadCtx.maxOverhead, isNullCipher, createNullCipher]
    · simp [create_isNullCipher hc] at hnull
  | false =>
    have hl := h.layout hnull
    refine ⟨?_, hl.maxOverhead_le⟩
    have := hl.tagLen_le n x
    simp only [suffixLen, SslAeadCtx.maxOverhead, hnull, Bool.false_eq_true, if_false]
    omega

lemma SslAeadCtx.Created.withCtx {c : SslAeadCtx τ}
    (h : c.Created version) (ctx : τ) : (c.withCtx ctx).Created version := by
  obtain ⟨_, rfl⟩ | ⟨v, cipher, macKey, fixedIv, ctx', rfl, hsup, hc⟩ := h
  · exact .inl ⟨ctx, rfl⟩
  · refine .inr ⟨v, cipher, macKey, fixedIv, ctx, rfl, hsup, ?_⟩
    simp only [create] at hc ⊢
    split_ifs at hc ⊢ <;> first | rfl | (cases hc; rfl)

/-! ## One record -/

section Record

variable {impl : EvpImpl σ ρ} {Same : σ → ρ → Prop} {rand : RandBytes} {w w' : Writer σ}
  {type : UInt8} {data outPrefix out outSuffix : Bytes} {r : Reader ρ}

/-- The state of a reader that matches that of the writer it reads from. -/
structure Matches (Same : σ → ρ → Prop) (w : Writer σ) (r : Reader ρ) : Prop where
  version : r.version = w.version
  keys : ∃ y, r.aeadReadCtx = w.aeadWriteCtx.withCtx y ∧ Same w.aeadWriteCtx.ctx y
  sequence : r.readSequence = w.writeSequence
  handshake : r.hsBuf.getD [] = []

/-- A header and a body of its length. -/
def IsRecord (bytes : Bytes) : Prop :=
  ∃ type version body, bytes = type :: (beBytes 2 version ++ beBytes 2 body.length ++ body)
    ∧ body.length < 2 ^ 16

def Writer.outType (w : Writer σ) (type : UInt8) : UInt8 :=
  if w.hidesType then ssl3RtApplicationData else type

def Writer.extra (w : Writer σ) (type : UInt8) : Bytes := if w.hidesType then [type] else []

lemma Writer.length_extra (w : Writer σ) (type : UInt8) :
    (w.extra type).length = w.extraInLen := by
  unfold extra extraInLen
  split_ifs <;> rfl

lemma doSealRecord_ok
    (h : doSealRecord impl rand w type data = (.ok (outPrefix, out, outSuffix), w')) :
    ∃ len nonce aead, w.aeadWriteCtx.ciphertextLen data.length w.extraInLen = some len
      ∧ outPrefix = w.header type len ++ nonce ∧ w.writeSequence + 1 ≠ 0
      ∧ w.aeadWriteCtx.sealScatter impl rand (w.outType type) (tlsRecordVersion w.version)
          w.writeSequence (w.header type len) data (w.extra type)
        = (some (nonce, out, outSuffix), aead)
      ∧ w' = { w with aeadWriteCtx := aead, writeSequence := w.writeSequence + 1 } := by
  have hextra : (if w.hidesType then [type] else []).length = w.extraInLen := w.length_extra type
  simp only [doSealRecord, hextra] at h
  cases hlen : w.aeadWriteCtx.ciphertextLen data.length w.extraInLen with
  | none => simp [hlen] at h
  | some len =>
    simp only [hlen] at h
    by_cases hseq : w.writeSequence + 1 = 0
    · simp [hseq] at h
    rw [if_neg hseq] at h
    split at h
    · simp at h
    · next nonce out outSuffix aead hcall =>
      obtain ⟨⟨rfl, rfl, rfl⟩, rfl⟩ : (_ ∧ _ ∧ _) ∧ _ := by simpa using h
      exact ⟨len, nonce, aead, rfl, rfl, hseq, hcall, rfl⟩

lemma beBytes_two (n : ℕ) : beBytes 2 n = [UInt8.ofNat (n / 256), UInt8.ofNat n] := by
  simp [beBytes]

lemma beNat_two (h : n < 2 ^ 16) : beNat [UInt8.ofNat (n / 256), UInt8.ofNat n] = n := by
  rw [← beBytes_two, beNat_beBytes]
  exact Nat.mod_eq_of_lt h

section Body

variable (hcreated : w.aeadWriteCtx.Created w.version)
  (himpl : impl.Correct w.aeadWriteCtx.aead Same)
include hcreated himpl

lemma doSealRecord_body {y : ρ} (hsame : Same w.aeadWriteCtx.ctx y)
    (h : doSealRecord impl rand w type data = (.ok (outPrefix, out, outSuffix), w')) :
    outPrefix.length = ssl3RtHeaderLength + w.aeadWriteCtx.explicitNonceLen
    ∧ out.length = data.length
    ∧ outSuffix.length = w.aeadWriteCtx.suffixLen data.length w.extraInLen
    ∧ w.writeSequence + 1 ≠ 0
    ∧ ∃ body x' y', outPrefix ++ out ++ outSuffix = w.header type body.length ++ body
      ∧ body.length < 0xffff ∧ Same x' y'
      ∧ w' = { w with
          aeadWriteCtx := w.aeadWriteCtx.withCtx x'
          writeSequence := w.writeSequence + 1 }
      ∧ (w.aeadWriteCtx.withCtx y).aeadOpen impl (w.outType type) (tlsRecordVersion w.version)
          w.writeSequence (w.header type body.length) body
        = (some (data ++ w.extra type), w.aeadWriteCtx.withCtx y') := by
  obtain ⟨len, nonce, aead, hlen, rfl, hseq, hcall, rfl⟩ := doSealRecord_ok h
  obtain ⟨hnonce, hout, hsuffix, x', y', hsame', rfl, hopen⟩ := aeadOpen_sealScatter hcreated himpl
    hsame (fun hnull hne => by
      by_contra hv
      simp [Writer.extra, Writer.hidesType, hv] at hne) hcall
  have hheader : (w.header type len).length = ssl3RtHeaderLength := by
    simp [Writer.header, ssl3RtHeaderLength]
  rw [w.length_extra] at hsuffix
  have hbody : (nonce ++ out ++ outSuffix).length = len ∧ len < 0xffff := by
    unfold SslAeadCtx.ciphertextLen at hlen
    simp only at hlen
    split_ifs at hlen with hbig
    have := Option.some.inj hlen
    simp only [length_append, hnonce, hout, hsuffix]
    omega
  refine ⟨by rw [length_append, hheader, hnonce], hout, hsuffix, hseq,
    nonce ++ out ++ outSuffix, x', y', ?_, by omega, hsame', rfl, ?_⟩
  · rw [hbody.1]
    simp only [append_assoc]
  · rw [hbody.1]
    exact hopen

/-- Sealing a record changes nothing of the writer but the state of its AEAD and the number. -/
lemma doSealRecord_next {out : Bytes × Bytes × Bytes} {y : ρ} (hsame : Same w.aeadWriteCtx.ctx y)
    (h : doSealRecord impl rand w type data = (.ok out, w')) :
    w'.aeadWriteCtx.Created w'.version ∧ impl.Correct w'.aeadWriteCtx.aead Same
      ∧ (∃ y', Same w'.aeadWriteCtx.ctx y')
      ∧ w'.hidesType = w.hidesType ∧ w'.writeSequence = w.writeSequence + 1
      ∧ w'.aeadWriteCtx.explicitNonceLen = w.aeadWriteCtx.explicitNonceLen
      ∧ w'.aeadWriteCtx.suffixLen = w.aeadWriteCtx.suffixLen := by
  obtain ⟨-, -, -, -, body, x', y', -, -, hsame', rfl, -⟩ :=
    doSealRecord_body hcreated himpl hsame h
  exact ⟨hcreated.withCtx x', himpl, ⟨y', hsame'⟩, rfl, rfl, rfl, rfl⟩

end Body

lemma Writer.header_eq (w : Writer σ) (type : UInt8) (n : ℕ) :
    w.header type n = [w.outType type, UInt8.ofNat ((tlsRecordVersion w.version).toNat / 256),
      UInt8.ofNat (tlsRecordVersion w.version).toNat, UInt8.ofNat (n / 256), UInt8.ofNat n] := by
  simp [header, outType, beBytes_two]

lemma tlsRecordVersion_major (version : Option TlsVersion) :
    UInt8.ofNat ((tlsRecordVersion version).toNat / 256) = 3 := by
  rcases version with _ | (_ | _ | _ | _) <;> rfl

lemma hsBuf_cases (h : r.hsBuf.getD [] = []) : r.hsBuf = none ∨ r.hsBuf = some [] := by
  cases hbuf : r.hsBuf <;> simp_all

lemma tlsCanAcceptHandshakeData_eq_none (h : r.hsBuf.getD [] = []) :
    r.tlsCanAcceptHandshakeData = none := by
  have hparse : r.parseMessage = .error 4 := by
    rcases hsBuf_cases h with hbuf | hbuf <;> simp [Reader.parseMessage, hbuf]
  simp [Reader.tlsCanAcceptHandshakeData, hparse]

lemma tlsHasUnprocessedHandshakeData_eq_false (h : r.hsBuf.getD [] = []) :
    r.tlsHasUnprocessedHandshakeData = false := by
  rcases hsBuf_cases h with hbuf | hbuf <;> simp [Reader.tlsHasUnprocessedHandshakeData, hbuf]

lemma tlsOpenRecord_eq (hm : Matches Same w r) (hshut : r.readShutdown ≠ .closeNotify)
    {rest : Bytes} (hlen : body.length ≤ ssl3RtMaxEncryptedLength) :
    r.tlsOpenRecord impl (w.header type body.length ++ body ++ rest)
      = ((r.openBody impl (w.outType type) (tlsRecordVersion w.version)
            (w.header type body.length) body).1,
        ssl3RtHeaderLength + body.length,
        (r.openBody impl (w.outType type) (tlsRecordVersion w.version)
            (w.header type body.length) body).2) := by
  have h16 : body.length < 2 ^ 16 := hlen.trans_lt (by decide)
  have hversion : UInt16.ofNat (beNat [UInt8.ofNat ((tlsRecordVersion w.version).toNat / 256),
      UInt8.ofNat (tlsRecordVersion w.version).toNat]) = tlsRecordVersion w.version := by
    rw [beNat_two (tlsRecordVersion w.version).toNat_lt]
    simp
  have hok : (if r.aeadReadCtx.isNullCipher then
        decide (UInt8.ofNat ((tlsRecordVersion w.version).toNat / 256) = 3)
      else decide (tlsRecordVersion w.version = tlsRecordVersion r.version)) = true := by
    rw [hm.version, tlsRecordVersion_major]
    simp
  simp only [Writer.header_eq, cons_append, nil_append]
  unfold Reader.tlsOpenRecord
  rw [if_neg hshut, tlsCanAcceptHandshakeData_eq_none hm.handshake]
  simp only [hversion, beNat_two h16]
  rw [hok, if_neg (by simp), if_neg (by omega), if_neg (by simp), take_left]

lemma stripPadding_concat (h : type ≠ 0) : ∀ data : Bytes,
    Reader.stripPadding (data ++ [type]) = some (type, data)
  | [] => by simp [Reader.stripPadding, h]
  | b :: data => by simp [Reader.stripPadding, stripPadding_concat h data]

/-- What the reader has to be ready for, beside the keys. -/
structure Ready (w : Writer σ) (r : Reader ρ) (type : UInt8) (data : Bytes) : Prop where
  notClosed : r.readShutdown ≠ .closeNotify
  /-- No early data is to be skipped before there are keys. -/
  early : r.skipEarlyData = true → w.aeadWriteCtx.isNullCipher = true →
    type ≠ ssl3RtApplicationData
  /-- There is room for one more empty record. -/
  empty : data = [] → r.emptyRecordCount < Reader.kMaxEmptyRecords
  /-- TLS 1.3 cannot tell a type of zero from padding. -/
  type : w.hidesType = true → type ≠ 0

def Reader.after (r : Reader ρ) (aead : SslAeadCtx ρ) (data : Bytes) : Reader ρ :=
  { r with
    aeadReadCtx := aead
    skipEarlyData := false
    readSequence := r.readSequence + 1
    emptyRecordCount := if data = [] then r.emptyRecordCount + 1 else 0
    warningAlertCount := 0 }

lemma deliver_eq (halert : type ≠ ssl3RtAlert) (hhs : r.hsBuf.getD [] = [])
    (hempty : data = [] → r.emptyRecordCount < Reader.kMaxEmptyRecords) :
    r.deliver type data = (.success type data, { r with
      emptyRecordCount := if data = [] then r.emptyRecordCount + 1 else 0
      warningAlertCount := 0 }) := by
  unfold Reader.deliver
  rw [if_neg, if_neg halert, if_neg]
  · rintro ⟨-, hun⟩
    rw [tlsHasUnprocessedHandshakeData_eq_false] at hun
    · cases hun
    · exact hhs
  · grind

lemma openPlaintext_eq
    (hpadding : (!r.aeadReadCtx.isNullCipher && r.version = some .tls13) = w.hidesType)
    (htype : w.hidesType = true → type ≠ 0) (halert : type ≠ ssl3RtAlert)
    (hlen : data.length ≤ 2 ^ 14) (hhs : r.hsBuf.getD [] = [])
    (hempty : data = [] → r.emptyRecordCount < Reader.kMaxEmptyRecords) :
    r.openPlaintext (w.outType type) (data ++ w.extra type) = (.success type data, { r with
      emptyRecordCount := if data = [] then r.emptyRecordCount + 1 else 0
      warningAlertCount := 0 }) := by
  unfold Reader.openPlaintext Writer.outType Writer.extra
  rw [hpadding]
  cases hhides : w.hidesType with
  | true =>
    simp only [if_true, stripPadding_concat (htype hhides), ne_eq, not_true_eq_false, if_false]
    rw [if_neg (by simp; omega)]
    exact deliver_eq halert hhs hempty
  | false =>
    simp only [Bool.false_eq_true, if_false, List.append_nil]
    rw [if_neg (by omega)]
    exact deliver_eq halert hhs hempty

lemma openBody_eq {y' : ρ} {version : UInt16} {header : Bytes} (hm : Matches Same w r)
    (hready : Ready w r type data) (halert : type ≠ ssl3RtAlert) (hccs : type ≠ 20)
    (hlen : data.length ≤ 2 ^ 14) (hseq : w.writeSequence + 1 ≠ 0)
    (hopen : r.aeadReadCtx.aeadOpen impl (w.outType type) version r.readSequence header body
      = (some (data ++ w.extra type), w.aeadWriteCtx.withCtx y')) :
    r.openBody impl (w.outType type) version header body
      = (.success type data, r.after (w.aeadWriteCtx.withCtx y') data) := by
  have hnull : r.aeadReadCtx.isNullCipher = w.aeadWriteCtx.isNullCipher := by
    obtain ⟨y, hy, -⟩ := hm.keys
    rw [hy]
    rfl
  unfold Reader.openBody
  rw [if_neg, if_neg, if_neg (by rw [hm.sequence]; exact hseq), hopen]
  · have hpadding : (!w.aeadWriteCtx.isNullCipher && decide (r.version = some .tls13))
        = w.hidesType := by
      rw [hm.version]
      rfl
    exact openPlaintext_eq (r := { r with
      aeadReadCtx := w.aeadWriteCtx.withCtx y'
      skipEarlyData := false
      readSequence := r.readSequence + 1 }) hpadding hready.type halert hlen hm.handshake
      hready.empty
  · rintro ⟨hskip, hnull', htype⟩
    rw [hnull] at hnull'
    have houter : w.outType type = type := by
      simp [Writer.outType, Writer.hidesType, hnull']
    rw [houter] at htype
    exact hready.early hskip hnull' htype
  · rintro ⟨-, -, -, htype, -⟩
    unfold Writer.outType at htype
    split_ifs at htype
    · exact absurd htype (by decide)
    · exact hccs htype

/-! ## `tls_seal_record` -/

lemma isRecord_header (w : Writer σ) (type : UInt8) (h : body.length < 0xffff) :
    IsRecord (w.header type body.length ++ body) :=
  ⟨w.outType type, (tlsRecordVersion w.version).toNat, body,
    by simp [Writer.header, Writer.outType], by omega⟩

/-- What sealing comes to: so many records, that open one after the other. -/
structure Opens (impl : EvpImpl σ ρ) (Same : σ → ρ → Prop) (w w' : Writer σ) (r : Reader ρ)
    (n : ℕ) (type : UInt8) (data out rest : Bytes) : Prop where
  records : ∃ pieces : List Bytes, pieces.length = n ∧ (∀ piece ∈ pieces, IsRecord piece)
    ∧ out = pieces.flatten
  opened : ∃ opened r', r.openRecords impl n (out ++ rest) = some (opened, rest, r')
    ∧ (∀ record ∈ opened, record.1 = type) ∧ opened.flatMap (·.2) = data
    ∧ Matches Same w' r' ∧ r'.readSequence = r.readSequence + UInt64.ofNat n
  sequence : w'.writeSequence = w.writeSequence + UInt64.ofNat n

lemma tlsSealRecord_ok {maxOutLen : ℕ}
    (h : tlsSealRecord impl rand w maxOutLen type data = (.ok out, w')) :
    ∃ outPrefix body suffix,
      tlsSealScatterRecord impl rand w type data = (.ok (outPrefix, body, suffix), w')
      ∧ out = (outPrefix ++ body ++ suffix).take (data.length
        + tlsSealScatterPrefixLen w type data.length
        + tlsSealScatterSuffixLen w type data.length) := by
  simp only [tlsSealRecord] at h
  cases hsum : (addSize data.length (tlsSealScatterPrefixLen w type data.length)).bind fun len =>
      addSize len (tlsSealScatterSuffixLen w type data.length) with
  | none => simp [hsum] at h
  | some len =>
    simp only [hsum] at h
    obtain ⟨m, hm, hlen⟩ := Option.bind_eq_some_iff.mp hsum
    unfold addSize at hm hlen
    split_ifs at hm hlen
    split_ifs at h
    · cases h
    obtain ⟨⟨res, w₁⟩, hres⟩ : ∃ p, tlsSealScatterRecord impl rand w type data = p := ⟨_, rfl⟩
    rw [hres] at h
    cases res with
    | error e => simp at h
    | ok res =>
      grind

lemma splits_eq_true (h : w.splits type n = true) :
    1 < n ∧ w.aeadWriteCtx.isNullCipher = false ∧ w.version = some .tls1
      ∧ w.sslNeedsRecordSplitting = true ∧ w.aeadWriteCtx.cipher.any (·.isBlockCipher) = true := by
  simp only [Writer.splits, Bool.and_eq_true, decide_eq_true_eq] at h
  have hneeds := h.2
  simp only [Writer.sslNeedsRecordSplitting, Bool.and_eq_true, decide_eq_true_eq,
    Bool.not_eq_true'] at hneeds
  exact ⟨h.1.2, hneeds.1.1.1, hneeds.1.1.2, h.2, hneeds.2⟩

section Records

variable (rest : Bytes) (hcreated : w.aeadWriteCtx.Created w.version)
  (himpl : impl.Correct w.aeadWriteCtx.aead Same) (hm : Matches Same w r)
  (halert : type ≠ ssl3RtAlert) (hccs : type ≠ 20)
include hcreated himpl hm halert hccs

lemma tlsOpenRecord_doSealRecord (hready : Ready w r type data) (hlen : data.length ≤ 2 ^ 14)
    (h : doSealRecord impl rand w type data = (.ok (outPrefix, out, outSuffix), w')) :
    ∃ r', r.tlsOpenRecord impl (outPrefix ++ out ++ outSuffix ++ rest)
        = (.success type data, (outPrefix ++ out ++ outSuffix).length, r')
      ∧ Matches Same w' r' ∧ r'.readShutdown = r.readShutdown ∧ r'.skipEarlyData = false := by
  obtain ⟨y, hy, hsame⟩ := hm.keys
  obtain ⟨hhead, hout, hsuffix, hseq, body, x', y', hbytes, -, hsame', rfl, hopen⟩ :=
    doSealRecord_body hcreated himpl hsame h
  have hbody : body.length ≤ ssl3RtMaxEncryptedLength := by
    have hsum := congrArg List.length hbytes
    have hover := hcreated.overhead_le data.length w.extraInLen
    have hextra : w.extraInLen ≤ 1 := by
      unfold Writer.extraInLen
      split_ifs <;> omega
    simp only [length_append, hhead, hout, hsuffix, Writer.header, length_cons,
      beBytes_length, ssl3RtHeaderLength] at hsum
    simp only [ssl3RtMaxEncryptedLength, ssl3RtMaxPlainLength]
    omega
  have hopenBody := openBody_eq hm hready halert hccs hlen hseq
    (by rw [hy, hm.sequence]; exact hopen)
  refine ⟨r.after (w.aeadWriteCtx.withCtx y') data, ?_,
    ⟨hm.version, ⟨y', rfl, hsame'⟩, ?_, hm.handshake⟩, rfl, rfl⟩
  · rw [hbytes, tlsOpenRecord_eq hm hready.notClosed hbody, hopenBody, length_append]
    simp [Writer.header, ssl3RtHeaderLength]
  · show r.readSequence + 1 = w.writeSequence + 1
    rw [hm.sequence]

/-- The record that is sealed first, before so many others. -/
lemma opens_cons {w₁ : Writer σ} {more sealed : Bytes} (hready : Ready w r type data)
    (hlen : data.length ≤ 2 ^ 14)
    (h : doSealRecord impl rand w type data = (.ok (outPrefix, out, outSuffix), w₁))
    (hmore : ∀ r₁, Matches Same w₁ r₁ → r₁.readShutdown = r.readShutdown →
      r₁.skipEarlyData = false → Opens impl Same w₁ w' r₁ n type more sealed rest) :
    Opens impl Same w w' r (n + 1) type (data ++ more) (outPrefix ++ out ++ outSuffix ++ sealed)
      rest := by
  obtain ⟨r₁, hopen₁, hm₁, hshut₁, hskip₁⟩ := tlsOpenRecord_doSealRecord (sealed ++ rest) hcreated
    himpl hm halert hccs hready hlen h
  obtain ⟨y, -, hsame⟩ := hm.keys
  obtain ⟨-, -, -, -, body, x', y', hbytes, hbody, -, hw₁, -⟩ :=
    doSealRecord_body hcreated himpl hsame h
  have hnext : w₁.writeSequence = w.writeSequence + 1 := by rw [hw₁]
  have hcount : (1 : UInt64) + UInt64.ofNat n = UInt64.ofNat (n + 1) := by
    rw [UInt64.ofNat_add, UInt64.add_comm]
    rfl
  obtain ⟨⟨pieces, hpieces, hrecord, hout⟩, ⟨opened, r', hopen₂, htype, hdata, hm', hseq⟩, hseq'⟩ :=
    hmore r₁ hm₁ hshut₁ hskip₁
  refine ⟨⟨(outPrefix ++ out ++ outSuffix) :: pieces, by simp [hpieces], ?_,
    by rw [flatten_cons, hout]⟩, ⟨(type, data) :: opened, r', ?_,
    forall_mem_cons.mpr ⟨rfl, htype⟩, by simp [hdata], hm', ?_⟩, ?_⟩
  · refine forall_mem_cons.mpr ⟨?_, hrecord⟩
    rw [hbytes]
    exact isRecord_header w type hbody
  · rw [append_assoc, Reader.openRecords, hopen₁]
    simp only [drop_left, hopen₂, Option.map_some]
  · rw [hseq, hm₁.sequence, hm.sequence, hnext, UInt64.add_assoc, hcount]
  · rw [hseq', hnext, UInt64.add_assoc, hcount]

lemma opens_one (hready : Ready w r type data) (hlen : data.length ≤ 2 ^ 14)
    (h : doSealRecord impl rand w type data = (.ok (outPrefix, out, outSuffix), w')) :
    Opens impl Same w w' r 1 type data (outPrefix ++ out ++ outSuffix) rest := by
  have hdone : ∀ r₁, Matches Same w' r₁ → Opens impl Same w' w' r₁ 0 type [] [] rest :=
    fun r₁ hm₁ => ⟨⟨[], rfl, by simp, rfl⟩, ⟨[], r₁, rfl, by simp, rfl, hm₁, by simp⟩, by simp⟩
  simpa using opens_cons rest hcreated himpl hm halert hccs hready hlen h
    fun r₁ hm₁ _ _ => hdone r₁ hm₁

end Records

end Record

/-- Sealing makes one record, or two where they are split, of at most so many bytes; and a reader in
the matching state gets the type and the data out of them, and is in the matching state again. -/
theorem tlsSealRecord_opens (impl : EvpImpl σ ρ) (Same : σ → ρ → Prop) (rand : RandBytes)
    (w w' : Writer σ) (r : Reader ρ) (maxOutLen : ℕ) (type : UInt8) (data out rest : Bytes)
    (hcreated : w.aeadWriteCtx.Created w.version) (himpl : impl.Correct w.aeadWriteCtx.aead Same)
    (halert : type ≠ ssl3RtAlert) (hccs : type ≠ 20) (hlen : data.length ≤ 2 ^ 14)
    (hm : Matches Same w r) (hready : Ready w r type data)
    (h : tlsSealRecord impl rand w maxOutLen type data = (.ok out, w')) :
    Opens impl Same w w' r (if w.splits type data.length then 2 else 1) type data out rest
      ∧ out.length ≤ data.length + w.sslMaxSealOverhead := by
  obtain ⟨outPrefix, body, suffix, hscatter, hout⟩ := tlsSealRecord_ok h
  obtain ⟨y, -, hsame⟩ := hm.keys
  simp only [tlsSealScatterRecord] at hscatter
  cases hsplit : w.splits type data.length with
  | false =>
    rw [hsplit, if_neg (by decide)] at hscatter
    obtain ⟨hp, ho, hs, -⟩ := doSealRecord_body hcreated himpl hsame hscatter
    have hall : out = outPrefix ++ body ++ suffix := by
      rw [hout]
      refine take_of_length_le ?_
      simp only [length_append, hp, ho, hs, tlsSealScatterPrefixLen, tlsSealScatterSuffixLen,
        hsplit, Bool.false_eq_true, if_false]
      omega
    rw [hall]
    refine ⟨opens_one rest hcreated himpl hm halert hccs hready hlen hscatter, ?_⟩
    have hover := (hcreated.overhead_le data.length w.extraInLen).1
    simp only [length_append, hp, ho, hs, Writer.sslMaxSealOverhead]
    split_ifs <;> omega
  | true =>
    -- Only TLS 1.0 splits records: there is no explicit nonce, and the type is not hidden.
    obtain ⟨hlong, hnull, hversion, hneeds, hblock⟩ := splits_eq_true hsplit
    obtain ⟨hnonce, hsplitLen⟩ := (hcreated.layout hnull).split hversion hblock
    have hextra : w.extraInLen = 0 := by simp [Writer.extraInLen, Writer.hidesType, hversion]
    rw [hsplit, if_pos rfl] at hscatter
    obtain ⟨⟨res₁, w₁⟩, h₁⟩ : ∃ p, doSealRecord impl rand w type (data.take 1) = p := ⟨_, rfl⟩
    rw [h₁] at hscatter
    rcases res₁ with e | ⟨p₁, o₁, s₁⟩
    · simp at hscatter
    obtain ⟨⟨res₂, w₂⟩, h₂⟩ : ∃ p, doSealRecord impl rand w₁ type (data.drop 1) = p := ⟨_, rfl⟩
    simp only [h₂] at hscatter
    rcases res₂ with e | ⟨p₂, o₂, s₂⟩
    · simp at hscatter
    simp only [Prod.mk.injEq, Except.ok.injEq] at hscatter
    obtain ⟨⟨rfl, rfl, rfl⟩, rfl⟩ := hscatter
    obtain ⟨hp₁, ho₁, hs₁, -⟩ := doSealRecord_body hcreated himpl hsame h₁
    obtain ⟨hcreated₁, himpl₁, ⟨y₁, hsame₁⟩, hhides, -, hnonce₁, hsuffix₁⟩ :=
      doSealRecord_next hcreated himpl hsame h₁
    obtain ⟨hp₂, ho₂, hs₂, -⟩ := doSealRecord_body hcreated₁ himpl₁ hsame₁ h₂
    have hextra₁ : w₁.extraInLen = 0 := by
      rw [← hextra, Writer.extraInLen, hhides, Writer.extraInLen]
    have htake : (data.take 1).length = 1 := by
      rw [length_take]
      omega
    rw [htake] at ho₁ hs₁
    rw [hextra] at hs₁
    rw [hnonce₁, hnonce] at hp₂
    rw [length_drop] at ho₂ hs₂
    rw [hsuffix₁, hextra₁] at hs₂
    -- The header of the second record is put together again.
    have hheader : p₂.take (ssl3RtHeaderLength - 1)
        ++ ((p₂.drop (ssl3RtHeaderLength - 1)).take 1 ++ (o₂ ++ s₂)) = p₂ ++ (o₂ ++ s₂) := by
      have hfive : (p₂.drop (ssl3RtHeaderLength - 1)).length ≤ 1 := by
        rw [length_drop, hp₂]
        decide
      rw [take_of_length_le hfive, ← append_assoc, take_append_drop]
    have hsum : ((p₁ ++ o₁ ++ s₁) ++ (p₂ ++ o₂ ++ s₂)).length
        = data.length + 2 * ssl3RtHeaderLength + w.aeadWriteCtx.suffixLen 1 0
          + w.aeadWriteCtx.suffixLen (data.length - 1) 0 := by
      simp only [length_append, hp₁, ho₁, hs₁, hp₂, ho₂, hs₂]
      omega
    have hall : out = (p₁ ++ o₁ ++ s₁) ++ (p₂ ++ o₂ ++ s₂) := by
      have happend : p₁ ++ o₁ ++ s₁ ++ p₂.take (ssl3RtHeaderLength - 1)
          ++ ((p₂.drop (ssl3RtHeaderLength - 1)).take 1 ++ o₂) ++ s₂
          = (p₁ ++ o₁ ++ s₁) ++ (p₂ ++ o₂ ++ s₂) := by
        simp only [append_assoc, hheader]
      rw [hout, happend, take_of_length_le]
      rw [hsum, tlsSealScatterPrefixLen, tlsSealScatterSuffixLen, if_pos hsplit, if_pos hsplit,
        hsplitLen, hextra]
      omega
    refine ⟨?_, ?_⟩
    · rw [hall, if_pos rfl]
      have hready₁ : Ready w r type (data.take 1) :=
        ⟨hready.notClosed, hready.early, fun hnil => by simp [hnil] at htake, hready.type⟩
      have hopens := opens_cons rest hcreated himpl hm halert hccs hready₁ (by omega) h₁
        fun r₁ hm₁ hshut₁ hskip₁ => opens_one rest hcreated₁ himpl₁ hm₁ halert hccs
          ⟨by rw [hshut₁]; exact hready.notClosed, fun hskip => by simp [hskip₁] at hskip,
            fun hnil => ?_, by rw [hhides]; exact hready.type⟩ ?_ h₂
      · rwa [take_append_drop] at hopens
      · rw [drop_eq_nil_iff] at hnil
        omega
      · rw [length_drop]
        omega
    · have hover₁ := (hcreated.overhead_le 1 0).1
      have hover₂ := (hcreated.overhead_le (data.length - 1) 0).1
      rw [hall, hsum, Writer.sslMaxSealOverhead, if_pos hneeds, hextra]
      omega

/-! A cipher that hides nothing: the tag ends with its length. -/

def plainTag (aead : EvpAead) (inLen : ℕ) (extra : Bytes) : Bytes :=
  extra ++ replicate (aead.tagLen inLen extra.length - extra.length - 1) 0
    ++ [UInt8.ofNat (aead.tagLen inLen extra.length - extra.length)]

/-- An AEAD that does not encrypt. -/
def plainImpl (aead : EvpAead) : EvpImpl Unit Unit where
  sealScatter _ _ data extra _ :=
    if aead.cbc.isSome ∧ extra ≠ [] then (none, ())
    else (some (data, plainTag aead data.length extra), ())
  aeadOpen _ _ input _ :=
    (some (input.take (input.length - (input.getLast?.getD 0).toNat)), ())

lemma plainImpl_correct {aead : EvpAead} (hpos : 0 < aead.maxOverhead)
    (hsmall : aead.maxOverhead < 256)
    (hcbc : ∀ b m, aead.cbc = some (b, m) → 0 < m ∧ aead.maxOverhead = b + m) :
    (plainImpl aead).Correct aead fun _ _ => True where
  open_seal := by
    rintro s r nonce data extra ad out tag s' - h
    simp only [plainImpl] at h
    split_ifs at h with hno
    · cases h
    obtain ⟨rfl, rfl⟩ := h
    have htag : 0 < aead.tagLen data.length extra.length - extra.length
        ∧ aead.tagLen data.length extra.length - extra.length < 256 := by
      unfold EvpAead.tagLen
      cases hc : aead.cbc with
      | none =>
        simp only
        omega
      | some bm =>
        grind
    refine ⟨rfl, ?_, (), ?_, trivial⟩
    · simp only [plainTag, length_append, length_replicate, length_singleton]
      omega
    · have hlast : (data ++ plainTag aead data.length extra).getLast?
          = some (UInt8.ofNat (aead.tagLen data.length extra.length - extra.length)) := by
        simp [plainTag, ← append_assoc]
      have hlen : (data ++ plainTag aead data.length extra).length
          - (aead.tagLen data.length extra.length - extra.length) = (data ++ extra).length := by
        simp only [plainTag, length_append, length_replicate, length_singleton]
        omega
      simp only [plainImpl, hlast, Option.getD_some, UInt8.toNat_ofNat', Nat.reducePow,
        Nat.mod_eq_of_lt htag.2, hlen]
      simp only [plainTag, ← append_assoc]
      rw [append_assoc, take_left]

def plainReader (w : Writer Unit) (n : UInt8) : Reader Unit where
  version := w.version
  hasFinalVersion := true
  inInit := false
  maxHandshakeMessageLen := 16384
  readShutdown := .none
  hsBuf := none
  hasMessage := false
  aeadReadCtx := w.aeadWriteCtx
  readSequence := w.writeSequence
  emptyRecordCount := n
  warningAlertCount := 0
  skipEarlyData := false
  earlyDataSkipped := 0

lemma matches_plainReader (w : Writer Unit) (n : UInt8) :
    Matches (fun _ _ => True) w (plainReader w n) :=
  ⟨rfl, ⟨(), rfl, trivial⟩, rfl, rfl⟩

def cbcWriter : Writer Unit where
  version := some .tls1
  cbcRecordSplitting := true
  aeadWriteCtx :=
    ⟨some .aesCbcSha1, ⟨0, 36, some (16, 20)⟩, [], 0, true, true, false, true, false, ()⟩
  writeSequence := 7

def gcmWriter : Writer Unit where
  version := some .tls13
  cbcRecordSplitting := false
  aeadWriteCtx := ⟨some .aesGcm, ⟨12, 16, none⟩, replicate 12 0, 8, false, false, true, false,
    true, ()⟩
  writeSequence := 7

lemma created_cbcWriter : cbcWriter.aeadWriteCtx.Created cbcWriter.version :=
  .inr ⟨.tls1, .aesCbcSha1, replicate 20 0, replicate 16 0, (), rfl, rfl, rfl⟩

lemma correct_cbcWriter : (plainImpl cbcWriter.aeadWriteCtx.aead).Correct
    cbcWriter.aeadWriteCtx.aead fun _ _ => True :=
  plainImpl_correct (by decide) (by decide) fun b m h => by
    obtain ⟨rfl, rfl⟩ : 16 = b ∧ 20 = m := by simpa [cbcWriter] using h
    decide

def splitRecords : Bytes :=
  [23, 3, 1, 0, 32, 1] ++ replicate 30 0 ++ [31]
    ++ [23, 3, 1, 0, 32, 2, 3] ++ replicate 29 0 ++ [30]

theorem tlsSealRecord_opens_split :
    tlsSealRecord (plainImpl cbcWriter.aeadWriteCtx.aead) (fun _ n => some ⟨replicate n 0,
        length_replicate⟩) cbcWriter 1000 ssl3RtApplicationData [1, 2, 3]
      = (.ok splitRecords, { cbcWriter with writeSequence := 9 })
    ∧ Opens (plainImpl cbcWriter.aeadWriteCtx.aead) (fun _ _ => True) cbcWriter
        { cbcWriter with writeSequence := 9 } (plainReader cbcWriter 0) 2 ssl3RtApplicationData
        [1, 2, 3] splitRecords [9]
    ∧ splitRecords.length ≤ 3 + cbcWriter.sslMaxSealOverhead := by
  have hseal : tlsSealRecord (plainImpl cbcWriter.aeadWriteCtx.aead) (fun _ n =>
      some ⟨replicate n 0, length_replicate⟩) cbcWriter 1000 ssl3RtApplicationData
      [1, 2, 3] = (.ok splitRecords, { cbcWriter with writeSequence := 9 }) := by
    decide +kernel
  exact ⟨hseal, tlsSealRecord_opens _ _ _ cbcWriter _ (plainReader cbcWriter 0) 1000
    ssl3RtApplicationData [1, 2, 3] _ [9] created_cbcWriter correct_cbcWriter
    (by decide) (by decide)
    (by decide) (matches_plainReader _ _)
    ⟨by decide, fun h => absurd h (by decide), fun h => absurd h (by decide),
      fun h => absurd h (by decide)⟩ hseal⟩

def nullWriter : Writer Unit := ⟨none, false, .createNullCipher (), 7⟩

/-- Four readers in a state that matches and that do not get what was sealed: one that has read 32
empty records, one that has been closed, one that skips early data, and one to which a type of zero
looks like padding. -/
theorem tlsOpenRecord_misses :
    (Matches (fun _ _ => True) nullWriter (plainReader nullWriter 32)
      ∧ (tlsSealRecord (plainImpl ⟨12, 16, none⟩) (fun _ _ => none) nullWriter 1000 22 []).1
        = .ok [22, 3, 1, 0, 0]
      ∧ ((plainReader nullWriter 32).tlsOpenRecord (plainImpl ⟨12, 16, none⟩) [22, 3, 1, 0, 0]).1
        = .error .tooManyEmptyFragments 10) ∧
    (Matches (fun _ _ => True) nullWriter
        { plainReader nullWriter 0 with readShutdown := .closeNotify }
      ∧ Matches (fun _ _ => True) nullWriter { plainReader nullWriter 0 with skipEarlyData := true }
      ∧ (tlsSealRecord (plainImpl ⟨12, 16, none⟩) (fun _ _ => none) nullWriter 1000 23 [5]).1
        = .ok [23, 3, 1, 0, 1, 5]
      ∧ ({ plainReader nullWriter 0 with readShutdown := .closeNotify }.tlsOpenRecord
          (plainImpl ⟨12, 16, none⟩) [23, 3, 1, 0, 1, 5]).1 = .closeNotify
      ∧ ({ plainReader nullWriter 0 with skipEarlyData := true }.tlsOpenRecord
          (plainImpl ⟨12, 16, none⟩) [23, 3, 1, 0, 1, 5]).1 = .discard) ∧
    (Matches (fun _ _ => True) gcmWriter (plainReader gcmWriter 0)
      ∧ (tlsSealRecord (plainImpl ⟨12, 16, none⟩) (fun _ _ => none) gcmWriter 1000 0 [5]).1
        = .ok ([23, 3, 3, 0, 18] ++ [5, 0] ++ replicate 15 0 ++ [16])
      ∧ ((plainReader gcmWriter 0).tlsOpenRecord (plainImpl ⟨12, 16, none⟩)
          ([23, 3, 3, 0, 18] ++ [5, 0] ++ replicate 15 0 ++ [16])).1 = .success 5 []) := by
  refine ⟨⟨matches_plainReader _ _, ?_⟩,
    ⟨⟨rfl, ⟨(), rfl, trivial⟩, rfl, rfl⟩, ⟨rfl, ⟨(), rfl, trivial⟩, rfl, rfl⟩, ?_⟩,
    ⟨matches_plainReader _ _, ?_⟩⟩
  all_goals decide +kernel

end TlsRecord

end BoringSSL
