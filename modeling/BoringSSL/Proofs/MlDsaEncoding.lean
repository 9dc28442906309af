import BoringSSL.Proofs.Cbs
import BoringSSL.Proofs.MlDsaHint
import BoringSSL.Proofs.MlDsaPacking

/-!
# The keys and signatures of ML-DSA have canonical encodings
-/

namespace BoringSSL.MlDsa

open ByteLib List
open ByteLib.Checked

variable {w : ℕ} {bs : Bytes}

/-- The vector of `count` scalars of `w` bits has a coefficient that is not below `bound`. -/
def VectorOutOfRange (w bound count : ℕ) (bs : Bytes) : Prop :=
  ∃ i < count, OutOfRange w bound (Canonical.part (32 * w) bs i)

lemma not_outOfRange : ¬ OutOfRange w (2 ^ w) bs := by
  rintro ⟨ds, hds, d, hd, hle⟩
  exact absurd (hds.lt d hd) (by omega)

/-- A vector of `count` scalars from `-lo` to `max`. -/
def SignedVector (lo max count : ℕ) (v : List Scalar) : Prop :=
  v.length = count ∧ ∀ s ∈ v, s.length = degree ∧ ∀ c ∈ s, InSigned lo max c

/-- `scalar_encode_signed` with `bits` and `max` is a format of the values from `-lo` to `max`. -/
def SignedFormat (bits lo max : ℕ) : Prop :=
  Canonical (32 * bits) (fun s => scalarEncodeSigned s bits max)
    (fun bs => scalarDecodeSigned bs bits max)
    (fun s => s.length = degree ∧ ∀ c ∈ s, InSigned lo max c) (OutOfRange bits (max + lo + 1))

lemma signedFormat32 : SignedFormat 3 2 2 := scalarSigned32_canonical

lemma signedFormat44 : SignedFormat 4 4 4 := scalarSigned44_canonical

lemma signedFormat1312 : SignedFormat 13 (2 ^ 12 - 1) (2 ^ 12) := scalarSigned1312_canonical

lemma signedFormat2019 : SignedFormat 20 (2 ^ 19 - 1) (2 ^ 19) := scalarSigned2019_canonical

lemma SignedFormat.vector {bits lo max : ℕ} (h : SignedFormat bits lo max) (count : ℕ) :
    Canonical (count * (32 * bits)) (fun v => vectorEncodeSigned v bits max)
      (fun bs => vectorDecodeSigned count bs bits max) (SignedVector lo max count)
      (VectorOutOfRange bits (max + lo + 1) count) :=
  vectorSigned_canonical h count

lemma vectorOutOfRange_add {bound a b : ℕ} (bs : Bytes) :
    VectorOutOfRange w bound (a + b) bs ↔
      VectorOutOfRange w bound a (bs.take (a * (32 * w))) ∨
        VectorOutOfRange w bound b ((bs.drop (a * (32 * w))).take (b * (32 * w))) := by
  constructor
  · rintro ⟨i, hi, hbad⟩
    by_cases hia : i < a
    · exact .inl ⟨i, hia, by rwa [Canonical.part_take hia]⟩
    · refine .inr ⟨i - a, by omega, ?_⟩
      rwa [Canonical.part_take (by omega), Canonical.part_drop, Nat.add_sub_of_le (by omega)]
  · rintro (⟨i, hi, hbad⟩ | ⟨i, hi, hbad⟩)
    · rw [Canonical.part_take hi] at hbad
      exact ⟨i, by omega, hbad⟩
    · rw [Canonical.part_take hi, Canonical.part_drop] at hbad
      exact ⟨a + i, by omega, hbad⟩

lemma not_vectorOutOfRange {count : ℕ} : ¬ VectorOutOfRange w (2 ^ w) count bs :=
  fun ⟨_, _, hbad⟩ => not_outOfRange hbad

section PublicKey

variable (shake256 : Bytes → Bytes) (p : Params)

/-- A public key that marshals and parses back. -/
structure ValidPublicKey (pub : PublicKey) : Prop where
  rho : pub.rho.length = rhoBytes
  t1 : pub.t1.length = p.k ∧ ∀ s ∈ pub.t1, s.length = degree ∧ ∀ c ∈ s, c < 2 ^ 10
  publicKeyHash : ∃ bs, mldsaMarshalPublicKey pub = .ok bs ∧ pub.publicKeyHash = shake256 bs

lemma publicKey_canonical :
    Canonical (rhoBytes + p.k * 320) mldsaMarshalPublicKey (mldsaParsePublicKey shake256 p)
      (ValidPublicKey shake256 p) fun _ => False := by
  refine ((Canonical.raw rhoBytes).prod (vector10_canonical p.k)).cached
    (fun x bs => ⟨x.1, x.2, shake256 bs⟩) (fun x bs => rfl) ?_ ?_ ?_
  · intro bs hbs
    have hrest : (bs.drop rhoBytes).length = 320 * p.k := by
      rw [length_drop]
      omega
    rw [mldsaParsePublicKey, getBytes_bind (by omega)]
    dsimp only
    rw [getBytes_bind hrest.ge, take_of_length_le hrest.le, drop_of_length_le hrest.le]
    rfl
  · intro bs _
    refine Iff.intro False.elim ?_
    rintro (hfalse | ⟨i, -, hbad⟩)
    · exact hfalse
    · exact not_outOfRange hbad
  · intro pub
    constructor
    · rintro ⟨hrho, ht1, bs, hbs, hhash⟩
      exact ⟨(pub.rho, pub.t1), bs, ⟨hrho, ht1⟩, hbs, by rw [← hhash]⟩
    · rintro ⟨x, bs, ⟨hrho, ht1⟩, hbs, rfl⟩
      exact ⟨hrho, ht1, bs, hbs, rfl⟩

end PublicKey

section PrivateKey

variable (p : Params)

/-- A private key in range. -/
structure ValidPrivateKey (priv : PrivateKey) : Prop where
  rho : priv.rho.length = rhoBytes
  k : priv.k.length = kBytes
  publicKeyHash : priv.publicKeyHash.length = trBytes
  s1 : SignedVector p.eta p.eta p.l priv.s1
  s2 : SignedVector p.eta p.eta p.k priv.s2
  t0 : SignedVector (2 ^ 12 - 1) (2 ^ 12) p.k priv.t0

/-- A coefficient of `s1` or of `s2` is out of range. -/
def PrivateKeyMalformed (bs : Bytes) : Prop :=
  VectorOutOfRange p.plusMinusEtaBitlen (2 * p.eta + 1) (p.l + p.k)
    (bs.drop (rhoBytes + kBytes + trBytes))

lemma privateKey_canonical (heta : SignedFormat p.plusMinusEtaBitlen p.eta p.eta) :
    Canonical (rhoBytes + (kBytes + (trBytes + (p.l * (32 * p.plusMinusEtaBitlen) +
        (p.k * (32 * p.plusMinusEtaBitlen) + p.k * (32 * 13))))))
      (mldsaMarshalPrivateKey p) (bcmParsePrivateKey p) (ValidPrivateKey p)
      (PrivateKeyMalformed p) := by
  have h := (Canonical.raw rhoBytes).prod ((Canonical.raw kBytes).prod ((Canonical.raw trBytes).prod
    ((heta.vector p.l).prod ((heta.vector p.k).prod (signedFormat1312.vector p.k)))))
  refine h.map (fun x => ⟨x.1, x.2.1, x.2.2.1, x.2.2.2.1, x.2.2.2.2.1, x.2.2.2.2.2⟩) ?_ ?_ ?_ ?_
  · rintro ⟨rho, k, publicKeyHash, s1, s2, t0⟩
    simp only [mldsaMarshalPrivateKey, ok_bind]
    cases vectorEncodeSigned s1 p.plusMinusEtaBitlen p.eta with
    | error e => rfl
    | ok s1 =>
      simp
  · intro bs hbs
    have hscalar : p.scalarBytes = 32 * p.plusMinusEtaBitlen := by
      rw [Params.scalarBytes, degree]
      omega
    rw [bcmParsePrivateKey, mldsaParsePrivateKey, getBytes_bind (by omega)]
    dsimp only
    rw [getBytes_bind (by rw [length_drop]; omega)]
    rw [getBytes_bind (by simp only [length_drop]; omega)]
    dsimp only
    generalize hcbs : ((bs.drop rhoBytes).drop kBytes).drop trBytes = cbs
    have hlen : cbs.length = p.l * (32 * p.plusMinusEtaBitlen) +
        (p.k * (32 * p.plusMinusEtaBitlen) + p.k * (32 * 13)) := by
      rw [← hcbs]
      simp only [length_drop]
      omega
    rw [hscalar, mul_comm _ p.l, getBytes_bind (by omega)]
    cases vectorDecodeSigned p.l (cbs.take (p.l * (32 * p.plusMinusEtaBitlen)))
      p.plusMinusEtaBitlen p.eta with
    | error e => rfl
    | ok s1 =>
      simp only [ok_bind, mul_comm _ p.k]
      rw [getBytes_bind (by rw [length_drop]; omega)]
      cases vectorDecodeSigned p.k ((cbs.drop (p.l * (32 * p.plusMinusEtaBitlen))).take
        (p.k * (32 * p.plusMinusEtaBitlen))) p.plusMinusEtaBitlen p.eta with
      | error e => rfl
      | ok s2 =>
        have hrest : ((cbs.drop (p.l * (32 * p.plusMinusEtaBitlen))).drop
            (p.k * (32 * p.plusMinusEtaBitlen))).length = p.k * 416 := by
          simp only [length_drop]
          omega
        rw [ok_bind, getBytes_bind hrest.ge]
        rw [take_of_length_le hrest.le, drop_of_length_le hrest.le]
        cases vectorDecodeSigned p.k _ 13 (2 ^ 12) <;> rfl
  · intro bs _
    have ht0 {bs : Bytes} : ¬ VectorOutOfRange 13 (2 ^ 12 + (2 ^ 12 - 1) + 1) p.k bs :=
      not_vectorOutOfRange
    rw [PrivateKeyMalformed, vectorOutOfRange_add, two_mul, ← drop_drop, ← drop_drop]
    simp only [ht0, false_or, or_false]
  · intro priv
    constructor
    · rintro ⟨hrho, hk, htr, hs1, hs2, ht0⟩
      exact ⟨(priv.rho, priv.k, priv.publicKeyHash, priv.s1, priv.s2, priv.t0),
        ⟨hrho, hk, htr, hs1, hs2, ht0⟩, rfl⟩
    · rintro ⟨⟨rho, k, publicKeyHash, s1, s2, t0⟩, ⟨hrho, hk, htr, hs1, hs2, ht0⟩, rfl⟩
      exact ⟨hrho, hk, htr, hs1, hs2, ht0⟩

end PrivateKey

section Signature

variable (p : Params)

/-- A signature in range. -/
structure ValidSignature (sign : Signature) : Prop where
  cTilde : sign.cTilde.length = 2 * p.lambdaBytes
  z : SignedVector (2 ^ 19 - 1) (2 ^ 19) p.l sign.z
  h : sign.h.length = p.k ∧ ∀ s ∈ sign.h, s.length = degree ∧ ∀ c ∈ s, c ≤ 1
  weight : hintWeight sign.h ≤ p.omega

lemma signature_canonical (homega : p.omega < 256) :
    Canonical (2 * p.lambdaBytes + (p.l * (32 * 20) + (p.omega + p.k))) (mldsaMarshalSignature p)
      (mldsaParseSignature p) (ValidSignature p)
      fun bs => HintMalformed (bs.drop (2 * p.lambdaBytes + p.l * 640)) p := by
  have h := (Canonical.raw (2 * p.lambdaBytes)).prod
    ((signedFormat2019.vector p.l).prod (hint_canonical homega))
  refine h.map (fun x => ⟨x.1, x.2.1, x.2.2⟩) ?_ ?_ ?_ ?_
  · rintro ⟨cTilde, z, h⟩
    simp only [mldsaMarshalSignature, ok_bind]
    cases vectorEncodeSigned z 20 (2 ^ 19) with
    | error e => rfl
    | ok z =>
      cases hintBitPack p h with
      | error e => rfl
      | ok h => simp
  · intro bs hbs
    rw [mldsaParseSignature, getBytes_bind (by omega)]
    dsimp only
    rw [mul_comm 640, getBytes_bind (by rw [length_drop]; omega)]
    cases vectorDecodeSigned p.l ((bs.drop (2 * p.lambdaBytes)).take (p.l * 640)) 20 (2 ^ 19) with
    | error e => rfl
    | ok z =>
      have hrest : ((bs.drop (2 * p.lambdaBytes)).drop (p.l * 640)).length = p.omega + p.k := by
        simp only [length_drop]
        omega
      rw [ok_bind, getBytes_bind hrest.ge]
      rw [take_of_length_le hrest.le]
      cases hintBitUnpack p _ <;> rfl
  · intro bs _
    have hz {bs : Bytes} : ¬ VectorOutOfRange 20 (2 ^ 19 + (2 ^ 19 - 1) + 1) p.l bs :=
      not_vectorOutOfRange
    rw [← drop_drop]
    simp only [hz, false_or]
  · intro sign
    constructor
    · rintro ⟨hc, hz, hh, hweight⟩
      exact ⟨(sign.cTilde, sign.z, sign.h), ⟨hc, hz, hh, hweight⟩, rfl⟩
    · rintro ⟨⟨cTilde, z, h⟩, ⟨hc, hz, hh, hweight⟩, rfl⟩
      exact ⟨hc, hz, hh, hweight⟩

end Signature

end BoringSSL.MlDsa
