import BoringSSL.Proofs.X509Verify
import BoringSSL.X509Crl

/-!
# The scope of a CRL

`crl_crldp_check` says that it skips the distribution points with reasons or a CRL issuer; the test
it makes skips those that lack one of the two (`crlCrldpCheck_iff`).  So, where the CRL names a
distribution point, it agrees with the rule only if points of both kinds match or none of either.
-/

namespace BoringSSL

open ByteLib

variable {x : CrldpCert} {chain : List X509} {errorDepth : ℕ} {issuer : X509} {crl : X509Crl}

/-- The flags admit the certificate. -/
def FlagsAdmit (x : CrldpCert) (crl : X509Crl) : Prop :=
  ¬ crl.idpFlags.onlyattr ∧ ¬ (x.cert.exCa ∧ crl.idpFlags.onlyuser)
    ∧ ¬ (¬ x.cert.exCa ∧ crl.idpFlags.onlyCa)

instance (x : CrldpCert) (crl : X509Crl) : Decidable (FlagsAdmit x crl) := by
  unfold FlagsAdmit
  infer_instance

/-- The name of the CRL's distribution point, if it names one. -/
def X509Crl.distpoint (crl : X509Crl) : Option DistPointName := crl.idp.bind (·.distpoint)

/-- The rule: some distribution point without reasons and without a CRL issuer matches. -/
def InScope (x : CrldpCert) (crl : X509Crl) : Prop :=
  FlagsAdmit x crl ∧ (crl.distpoint = none ∨ ∃ dp ∈ x.crldp, dp.reasons = none
    ∧ dp.crlIssuer = none ∧ idpCheckDp dp.distpoint crl.distpoint = true)

instance (x : CrldpCert) (crl : X509Crl) : Decidable (InScope x crl) := by
  unfold InScope
  infer_instance

/-- If the flags admit the certificate and the CRL names a distribution point, then some point with
both fields matches it exactly if some point with neither does. -/
def PointsAgree (x : CrldpCert) (crl : X509Crl) : Prop :=
  FlagsAdmit x crl → crl.distpoint ≠ none →
    ((∃ dp ∈ x.crldp, dp.reasons.isSome = true ∧ dp.crlIssuer.isSome = true
        ∧ idpCheckDp dp.distpoint crl.distpoint = true)
      ↔ ∃ dp ∈ x.crldp, dp.reasons = none ∧ dp.crlIssuer = none
        ∧ idpCheckDp dp.distpoint crl.distpoint = true)

instance (x : CrldpCert) (crl : X509Crl) : Decidable (PointsAgree x crl) := by
  unfold PointsAgree
  infer_instance

lemma idpCheckDp_none (a : Option DistPointName) : idpCheckDp a none = true := by
  cases a <;> rfl

lemma crldpMatches_iff {dp : DistPoint} : crldpMatches crl dp = true ↔
    dp.reasons.isSome = true ∧ dp.crlIssuer.isSome = true
      ∧ idpCheckDp dp.distpoint crl.distpoint = true := by
  rw [crldpMatches, X509Crl.distpoint]
  cases crl.idp with
  | none => simp [idpCheckDp_none]
  | some idp => simp [and_assoc]

lemma crlCrldpCheck_iff : crlCrldpCheck x crl = true ↔
    FlagsAdmit x crl ∧ (crl.distpoint = none ∨ ∃ dp ∈ x.crldp, dp.reasons.isSome = true
      ∧ dp.crlIssuer.isSome = true ∧ idpCheckDp dp.distpoint crl.distpoint = true) := by
  have hany : x.crldp.any (crldpMatches crl) = true ↔ ∃ dp ∈ x.crldp, dp.reasons.isSome = true
      ∧ dp.crlIssuer.isSome = true ∧ idpCheckDp dp.distpoint crl.distpoint = true := by
    simp only [List.any_eq_true, crldpMatches_iff]
  rw [← hany, crlCrldpCheck]
  by_cases hattr : crl.idpFlags.onlyattr = true
  · simp [FlagsAdmit, hattr]
  by_cases huser : (x.cert.exCa && crl.idpFlags.onlyuser) = true
  · simp only [Bool.and_eq_true] at huser
    simp [FlagsAdmit, huser]
  by_cases hca : (!x.cert.exCa && crl.idpFlags.onlyCa) = true
  · simp only [Bool.and_eq_true, Bool.not_eq_true'] at hca
    simp [FlagsAdmit, hca]
  have hadm : FlagsAdmit x crl := by
    simp only [Bool.and_eq_true, Bool.not_eq_true'] at huser hca
    exact ⟨hattr, huser, by simpa using hca⟩
  split_ifs with hdp
  · simp [hadm, hdp]
  · rw [or_iff_left hdp, X509Crl.distpoint]
    cases crl.idp <;> simp [hadm]

namespace StoreCtx

lemma crlAkidCheck_score {akid : ℕ}
    (h : crlAkidCheck chain errorDepth crl = .ok (some (akid, issuer))) :
    akid = crlScoreAkid ||| crlScoreIssuerCert ∨ akid = crlScoreAkid ||| crlScoreSamePath := by
  unfold crlAkidCheck at h
  simp only at h
  generalize (if errorDepth ≠ chain.length - 1 then errorDepth + 1 else errorDepth) = cidx at h
  split at h
  · cases h
  · split_ifs at h
    · grind
    · simp only [Except.ok.injEq, Option.map_eq_some_iff, Prod.mk.injEq] at h
      obtain ⟨-, -, h, -⟩ := h
      exact .inr h.symm

/-- A CRL that is not rejected straight away gets the bit of the scope from `crl_crldp_check`. -/
lemma getCrlScore_scope {ctx : StoreCtx} {score : ℕ}
    (h : ctx.getCrlScore chain errorDepth crl x = .ok (score, some issuer)) :
    score &&& crlScoreScope ≠ 0 ↔ crlCrldpCheck x crl = true := by
  unfold getCrlScore at h
  split at h
  · simp at h
  split at h
  · simp at h
  split at h
  · simp at h
  obtain ⟨time, -, h⟩ := bind_eq_ok.mp h
  obtain ⟨found, hakid, h⟩ := bind_eq_ok.mp h
  cases found with
  | none => cases h
  | some found =>
    obtain ⟨akid, issuer'⟩ := found
    obtain ⟨hscore, -⟩ := Prod.mk.inj (Except.ok.inj h)
    rw [← hscore]
    -- no other part of the score has this bit
    rcases crlAkidCheck_score hakid with rfl | rfl <;> cases crlCrldpCheck x crl <;> cases time <;>
      cases crl.critical <;> decide

/-- The scope is that of the rule exactly where the points agree. -/
theorem crlCrldpCheck_inScope (x : CrldpCert) (crl : X509Crl) :
    ((crlCrldpCheck x crl = true ↔ InScope x crl) ↔ PointsAgree x crl)
      ∧ ∀ (ctx : StoreCtx) (chain : List X509) (errorDepth score : ℕ) (issuer : X509),
        ctx.getCrlScore chain errorDepth crl x = .ok (score, some issuer) →
        ((score &&& crlScoreScope ≠ 0 ↔ InScope x crl) ↔ PointsAgree x crl) := by
  have hiff : (crlCrldpCheck x crl = true ↔ InScope x crl) ↔ PointsAgree x crl := by
    rw [crlCrldpCheck_iff, InScope, PointsAgree]
    by_cases hflags : FlagsAdmit x crl
    · by_cases hnone : crl.distpoint = none
      · simp [hnone]
      · simp [hflags, hnone]
    · simp [hflags]
  refine ⟨hiff, fun ctx chain errorDepth score issuer hscore => ?_⟩
  rw [getCrlScore_scope hscore]
  exact hiff

def pointCrl : X509Crl :=
  ⟨⟨[], [2]⟩, ⟨false, []⟩, none, false, none,
    some ⟨some (.fullname [.uri [117]]), false, false, none, false, false⟩⟩

def pointCert (reasons : Option Bytes) (crlIssuer : Option (List GeneralName)) : CrldpCert :=
  ⟨plainCert 1 2 .absent, [⟨some (.fullname [.uri [117]]), reasons, crlIssuer⟩]⟩

/-- One point has neither field, the other both, and the CRL is in scope. -/
theorem crlCrldpCheck_inScope_twoPoints :
    let x : CrldpCert := ⟨plainCert 1 2 .absent,
      (pointCert none none).crldp ++ (pointCert (some [1]) (some [])).crldp⟩
    let leaf : X509 := ⟨1, x.cert, none⟩
    let root : X509 := ⟨2, plainCert 2 2 plainCa, none⟩
    let ctx : StoreCtx := ⟨[], leaf, [], none, plainParam⟩
    ∃ score, ctx.getCrlScore [leaf, root] 0 pointCrl x = .ok (score, some root)
      ∧ score &&& crlScoreScope ≠ 0 ∧ InScope x pointCrl := by
  intro x leaf root ctx
  have hrun : ctx.getCrlScore [leaf, root] 0 pointCrl x = .ok (0x1bc, some root) := by
    decide +kernel
  have hbit : 0x1bc &&& crlScoreScope ≠ 0 := by decide
  have hagree : PointsAgree x pointCrl := by decide
  exact ⟨0x1bc, hrun, hbit,
    (((crlCrldpCheck_inScope x pointCrl).2 ctx _ _ _ _ hrun).mpr hagree).mp hbit⟩

/-- The CRL is not in scope for a point with neither field, and is for one with both. -/
theorem crlCrldpCheck_swapped :
    (crlCrldpCheck (pointCert none none) pointCrl = false ∧ InScope (pointCert none none) pointCrl)
      ∧ crlCrldpCheck (pointCert (some [1]) (some [])) pointCrl = true
      ∧ ¬ InScope (pointCert (some [1]) (some [])) pointCrl
      ∧ pointCrl.idpFlags.invalid = false ∧ pointCrl.idpFlags.indirect = false
      ∧ pointCrl.idpFlags.reasons = false := by
  decide

end StoreCtx

end BoringSSL
