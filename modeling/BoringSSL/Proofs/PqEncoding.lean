import BoringSSL.Proofs.MlDsaEncoding
import BoringSSL.Proofs.MlKemPacking

/-!
# The post-quantum encodings are canonical

The keys of ML-KEM, and the statement for all the formats of both schemes at their parameters.
-/

namespace BoringSSL.MlKem

open ByteLib
open ByteLib.Checked

variable (matrixExpand : Bytes → Matrix) (hashH : Bytes → Bytes) (rank : ℕ)

/-- The key caches its matrix and the hash of its encoding. -/
structure ValidPublicKey (pub : PublicKey) : Prop where
  t : ValidVector rank pub.t
  rho : pub.rho.length = 32
  publicKeyHash : ∃ bs, mlkemMarshalPublicKey pub = .ok bs ∧ pub.publicKeyHash = hashH bs
  m : pub.m = matrixExpand pub.rho

lemma encodedVectorSize_eq : encodedVectorSize rank = rank * 384 := by
  simp only [encodedVectorSize, log2Prime, degree]
  omega

lemma parsePublicKeyNoHash_eq {hash input : Bytes} (hlen : rank * 384 + 32 ≤ input.length) :
    mlkemParsePublicKeyNoHash matrixExpand rank hash input
      = (vectorDecode rank (input.take (rank * 384)) log2Prime).map fun t =>
        (⟨t, (input.drop (rank * 384)).take 32, hash,
            matrixExpand ((input.drop (rank * 384)).take 32)⟩,
          (input.drop (rank * 384)).drop 32) := by
  have hle : rank * 384 ≤ input.length := (Nat.le_add_right _ 32).trans hlen
  rw [mlkemParsePublicKeyNoHash, encodedVectorSize_eq, getBytes_bind hle]
  dsimp only
  cases vectorDecode rank (input.take (rank * 384)) log2Prime with
  | error e => rfl
  | ok t =>
    rw [ok_bind, getBytes_bind (by rw [List.length_drop]; omega)]
    rfl

lemma publicKey_canonical :
    Canonical (rank * 384 + 32) mlkemMarshalPublicKey (mlkemParsePublicKey matrixExpand hashH rank)
      (ValidPublicKey matrixExpand hashH rank)
      fun bs => VectorOutOfRange rank (bs.take (rank * 384)) := by
  refine ((vector_canonical rank).prod (Canonical.raw 32)).cached
    (fun x bs => ⟨x.1, x.2, hashH bs, matrixExpand x.2⟩) (fun x bs => rfl) ?_ ?_ ?_
  · intro bs hbs
    have hrest : (bs.drop (rank * 384)).length = 32 := by
      rw [List.length_drop]
      omega
    rw [mlkemParsePublicKey, parsePublicKeyNoHash_eq matrixExpand rank hbs.ge]
    cases vectorDecode rank (bs.take (rank * 384)) log2Prime with
    | error e => rfl
    | ok t =>
      rw [Except.map, ok_bind, List.take_of_length_le hrest.le, List.drop_of_length_le hrest.le]
      rfl
  · intro bs _
    rw [or_false]
  · intro pub
    constructor
    · rintro ⟨ht, hrho, ⟨bs, hbs, hhash⟩, hm⟩
      exact ⟨(pub.t, pub.rho), bs, ⟨ht, hrho⟩, hbs, by rw [← hhash, ← hm]⟩
    · rintro ⟨x, bs, ⟨ht, hrho⟩, hbs, rfl⟩
      exact ⟨ht, hrho, ⟨bs, hbs, rfl⟩, rfl⟩

/-- A private key in range. -/
structure ValidPrivateKey (priv : PrivateKey) : Prop where
  s : ValidVector rank priv.s
  t : ValidVector rank priv.pub.t
  rho : priv.pub.rho.length = 32
  publicKeyHash : priv.pub.publicKeyHash.length = 32
  m : priv.pub.m = matrixExpand priv.pub.rho
  foFailureSecret : priv.foFailureSecret.length = 32

/-- A coefficient is not reduced. -/
def PrivateKeyMalformed (bs : Bytes) : Prop :=
  VectorOutOfRange rank (bs.take (rank * 384)) ∨
    VectorOutOfRange rank ((bs.drop (rank * 384)).take (rank * 384))

lemma privateKey_canonical :
    Canonical (rank * 384 + (rank * 384 + (32 + (32 + 32)))) mlkemMarshalPrivateKey
      (mlkemParsePrivateKey matrixExpand rank) (ValidPrivateKey matrixExpand rank)
      (PrivateKeyMalformed rank) := by
  have h := (vector_canonical rank).prod ((vector_canonical rank).prod ((Canonical.raw 32).prod
    ((Canonical.raw 32).prod (Canonical.raw 32))))
  refine h.map (fun x => ⟨⟨x.2.1, x.2.2.1, x.2.2.2.1, matrixExpand x.2.2.1⟩, x.1, x.2.2.2.2⟩)
    ?_ ?_ ?_ ?_
  · rintro ⟨s, t, rho, hash, z⟩
    simp only [mlkemMarshalPrivateKey, mlkemMarshalPublicKey, ok_bind]
    cases vectorEncode s log2Prime with
    | error e => rfl
    | ok s =>
      cases vectorEncode t log2Prime with
      | error e => rfl
      | ok t => simp
  · intro bs hbs
    rw [mlkemParsePrivateKey, encodedVectorSize_eq, getBytes_bind (by omega)]
    dsimp only
    cases vectorDecode rank (bs.take (rank * 384)) log2Prime with
    | error e => rfl
    | ok s =>
      rw [ok_bind, parsePublicKeyNoHash_eq matrixExpand rank (by rw [List.length_drop]; omega)]
      generalize hcbs : bs.drop (rank * 384) = cbs
      have hlen : cbs.length = rank * 384 + 96 := by
        rw [← hcbs, List.length_drop]
        omega
      cases vectorDecode rank (cbs.take (rank * 384)) log2Prime with
      | error e => rfl
      | ok t =>
        have hlast : (((cbs.drop (rank * 384)).drop 32).drop 32).length = 32 := by
          simp only [List.length_drop]
          omega
        rw [Except.map, ok_bind]
        rw [getBytes_bind (by simp only [List.length_drop]; omega)]
        rw [getBytes_bind hlast.ge]
        rw [List.take_of_length_le hlast.le, List.drop_of_length_le hlast.le]
        rfl
  · intro bs _
    simp only [PrivateKeyMalformed, or_false]
  · intro priv
    constructor
    · rintro ⟨hs, ht, hrho, hhash, hm, hz⟩
      exact ⟨(priv.s, priv.pub.t, priv.pub.rho, priv.pub.publicKeyHash, priv.foFailureSecret),
        ⟨hs, ht, hrho, hhash, hz⟩, by rw [← hm]⟩
    · rintro ⟨⟨s, t, rho, hash, z⟩, ⟨hs, ht, hrho, hhash, hz⟩, rfl⟩
      exact ⟨hs, ht, hrho, hhash, rfl, hz⟩

end BoringSSL.MlKem

namespace BoringSSL

open ByteLib

/-- Keys and signatures have one encoding each, and every input of the right length is that of a
valid value or has a coefficient out of range or a malformed hint. -/
theorem pqEncodings_canonical (shake256 : Bytes → Bytes) (matrixExpand : Bytes → MlKem.Matrix)
    (hashH : Bytes → Bytes) :
    (Canonical 1952 MlDsa.mldsaMarshalPublicKey (MlDsa.mldsaParsePublicKey shake256 MlDsa.mldsa65)
        (MlDsa.ValidPublicKey shake256 MlDsa.mldsa65) (fun _ => False) ∧
      Canonical 4032 (MlDsa.mldsaMarshalPrivateKey MlDsa.mldsa65)
        (MlDsa.bcmParsePrivateKey MlDsa.mldsa65) (MlDsa.ValidPrivateKey MlDsa.mldsa65)
        (fun bs => MlDsa.VectorOutOfRange 4 9 11 (bs.drop 128)) ∧
      Canonical 3309 (MlDsa.mldsaMarshalSignature MlDsa.mldsa65)
        (MlDsa.mldsaParseSignature MlDsa.mldsa65) (MlDsa.ValidSignature MlDsa.mldsa65)
        (fun bs => MlDsa.HintMalformed (bs.drop 3248) MlDsa.mldsa65)) ∧
    (Canonical 2592 MlDsa.mldsaMarshalPublicKey (MlDsa.mldsaParsePublicKey shake256 MlDsa.mldsa87)
        (MlDsa.ValidPublicKey shake256 MlDsa.mldsa87) (fun _ => False) ∧
      Canonical 4896 (MlDsa.mldsaMarshalPrivateKey MlDsa.mldsa87)
        (MlDsa.bcmParsePrivateKey MlDsa.mldsa87) (MlDsa.ValidPrivateKey MlDsa.mldsa87)
        (fun bs => MlDsa.VectorOutOfRange 3 5 15 (bs.drop 128)) ∧
      Canonical 4627 (MlDsa.mldsaMarshalSignature MlDsa.mldsa87)
        (MlDsa.mldsaParseSignature MlDsa.mldsa87) (MlDsa.ValidSignature MlDsa.mldsa87)
        (fun bs => MlDsa.HintMalformed (bs.drop 4544) MlDsa.mldsa87)) ∧
    (Canonical 1184 MlKem.mlkemMarshalPublicKey
        (MlKem.mlkemParsePublicKey matrixExpand hashH MlKem.rank768)
        (MlKem.ValidPublicKey matrixExpand hashH MlKem.rank768)
        (fun bs => MlKem.VectorOutOfRange 3 (bs.take 1152)) ∧
      Canonical 2400 MlKem.mlkemMarshalPrivateKey
        (MlKem.mlkemParsePrivateKey matrixExpand MlKem.rank768)
        (MlKem.ValidPrivateKey matrixExpand MlKem.rank768)
        (fun bs => MlKem.VectorOutOfRange 3 (bs.take 1152) ∨
          MlKem.VectorOutOfRange 3 ((bs.drop 1152).take 1152))) ∧
    (Canonical 1568 MlKem.mlkemMarshalPublicKey
        (MlKem.mlkemParsePublicKey matrixExpand hashH MlKem.rank1024)
        (MlKem.ValidPublicKey matrixExpand hashH MlKem.rank1024)
        (fun bs => MlKem.VectorOutOfRange 4 (bs.take 1536)) ∧
      Canonical 3168 MlKem.mlkemMarshalPrivateKey
        (MlKem.mlkemParsePrivateKey matrixExpand MlKem.rank1024)
        (MlKem.ValidPrivateKey matrixExpand MlKem.rank1024)
        (fun bs => MlKem.VectorOutOfRange 4 (bs.take 1536) ∨
          MlKem.VectorOutOfRange 4 ((bs.drop 1536).take 1536))) ∧
    ∀ p n, (p, n) = (MlDsa.mldsa65, 3309) ∨ (p, n) = (MlDsa.mldsa87, 4627) →
      ∀ (a b : Bytes) sign, a.length = n → b.length = n →
        MlDsa.mldsaParseSignature p a = .ok sign → MlDsa.mldsaParseSignature p b = .ok sign →
          a = b := by
  have h65 := MlDsa.signature_canonical MlDsa.mldsa65 (by decide)
  have h87 := MlDsa.signature_canonical MlDsa.mldsa87 (by decide)
  refine ⟨⟨MlDsa.publicKey_canonical shake256 MlDsa.mldsa65,
      MlDsa.privateKey_canonical MlDsa.mldsa65 MlDsa.signedFormat44, h65⟩,
    ⟨MlDsa.publicKey_canonical shake256 MlDsa.mldsa87,
      MlDsa.privateKey_canonical MlDsa.mldsa87 MlDsa.signedFormat32, h87⟩,
    ⟨MlKem.publicKey_canonical matrixExpand hashH 3, MlKem.privateKey_canonical matrixExpand 3⟩,
    ⟨MlKem.publicKey_canonical matrixExpand hashH 4, MlKem.privateKey_canonical matrixExpand 4⟩, ?_⟩
  intro p n hp a b sign ha hb hpa hpb
  rcases hp with hp | hp
  · cases hp
    exact h65.injective ha hb hpa hpb
  · cases hp
    exact h87.injective ha hb hpa hpb

/-- Three hints in each row. -/
def hintedSignature : MlDsa.Signature :=
  ⟨List.replicate 48 7, List.replicate 5 (List.replicate 256 11),
    List.replicate 6 (List.replicate 3 1 ++ List.replicate 253 0)⟩

lemma hintedSignature_valid : MlDsa.ValidSignature MlDsa.mldsa65 hintedSignature := by
  refine ⟨rfl, ⟨rfl, fun s hs => ?_⟩, ⟨rfl, fun s hs => ?_⟩, by decide +kernel⟩
  · obtain rfl := List.eq_of_mem_replicate hs
    refine ⟨List.length_replicate, fun c hc => ?_⟩
    rw [List.eq_of_mem_replicate hc]
    exact .inl (by decide)
  · obtain rfl := List.eq_of_mem_replicate hs
    exact ⟨by decide +kernel, by decide +kernel⟩

theorem pqEncodings_canonical_hintedSignature : ∃ bs : Bytes, bs.length = 3309 ∧
    MlDsa.mldsaMarshalSignature MlDsa.mldsa65 hintedSignature = .ok bs ∧
    MlDsa.mldsaParseSignature MlDsa.mldsa65 bs = .ok hintedSignature ∧
    ∀ bs' : Bytes, bs'.length = 3309 →
      MlDsa.mldsaParseSignature MlDsa.mldsa65 bs' = .ok hintedSignature → bs' = bs := by
  have h := pqEncodings_canonical id (fun _ => []) id
  obtain ⟨bs, hmarshal, hlen, hparse⟩ := h.1.2.2.parse_marshal hintedSignature hintedSignature_valid
  exact ⟨bs, hlen, hmarshal, hparse, fun bs' hlen' hparse' =>
    h.2.2.2.2 MlDsa.mldsa65 3309 (.inl rfl) bs' bs hintedSignature hlen' hlen hparse' hparse⟩

end BoringSSL
