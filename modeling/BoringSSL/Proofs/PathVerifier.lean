import BoringSSL.PathVerifier
import BoringSSL.Proofs.PkiParser

/-!
# What a chain without errors is

The verifier goes on after errors, so a step is read backwards: where it added no error of high
severity, the certificate has what the step checks (`basicCertificateProcessing_cases`,
`prepareForNextCertificate_prepared`).  `Reached` says what the verifier carries from one
certificate to the next, and `Budget` what its path length counter means.
-/

namespace BoringSSL.Pki

open ByteLib List

variable {e : CertError} {es : List CertError} {errors : CertPathErrors} {g : ValidPolicyGraph}

/-! ## Lists of errors -/

@[simp] lemma containsHigh_nil : containsHigh [] = false := rfl

@[simp] lemma containsHigh_append (as bs : List CertError) :
    containsHigh (as ++ bs) = (containsHigh as || containsHigh bs) := any_append

@[simp] lemma containsHigh_addError (id : CertErrorId) : containsHigh [addError id] = true := rfl

@[simp] lemma containsHigh_errorIf (c : Bool) (id : CertErrorId) :
    containsHigh (errorIf c (addError id)) = c := by
  cases c <;> rfl

@[simp] lemma mem_errorIf {c : Bool} {e' : CertError} : e ∈ errorIf c e' ↔ c = true ∧ e = e' := by
  cases c <;> simp [errorIf]

lemma CertPathErrors.all_addTo (errors : CertPathErrors) (index : ℕ) (new : List CertError) :
    (errors.addTo index new).all.Perm (errors.all ++ new) := by
  have hnew : (new.map (index, ·)).map Prod.snd = new := by simp [Function.comp_def]
  simp only [all, addTo, map_append, hnew, append_assoc]
  exact Perm.append_left _ perm_append_comm

lemma containsHigh_eq_true_iff : containsHigh es = true ↔ ∃ e ∈ es, e.severity = .high := by
  simp [containsHigh]

lemma addError_notMem (h : containsHigh es = false) (id : CertErrorId) :
    addError id ∉ es := fun hmem => by
  rw [containsHigh_eq_true_iff.mpr ⟨_, hmem, rfl⟩] at h
  cases h

lemma containsHigh_perm {as bs : List CertError} (h : as.Perm bs) :
    containsHigh as = containsHigh bs := by
  rw [Bool.eq_iff_iff, containsHigh_eq_true_iff, containsHigh_eq_true_iff]
  simp only [h.mem_iff]

@[simp] lemma containsHigh_addTo (errors : CertPathErrors) (index : ℕ) (new : List CertError) :
    containsHigh (errors.addTo index new).all = (containsHigh errors.all || containsHigh new) := by
  rw [containsHigh_perm (errors.all_addTo index new), containsHigh_append]

@[simp] lemma CertPathErrors.mem_all_addTo {index : ℕ} {new : List CertError} :
    e ∈ (errors.addTo index new).all ↔ e ∈ errors.all ∨ e ∈ new := by
  rw [(errors.all_addTo index new).mem_iff, mem_append]

/-! ## What a certificate is verified for -/

/-- The extension is handled if critical. -/
def Consumed (cert : ParsedCertificate) (allowPrecertificate : Bool) (ext : ParsedExtension) :
    Prop :=
  ext.critical = true → isHandledCriticalExtension ext cert = true
    ∨ (allowPrecertificate = true ∧ ext.oid = kCtPoisonOid)

/-- What an intermediate has, as one that may issue certificates. -/
structure IsIssuer (cert : ParsedCertificate) (allowPrecertificate : Bool) : Prop where
  isCa : ∃ bc ∈ cert.basicConstraints, bc.isCa = true
  keyCertSign : ∀ usage ∈ cert.keyUsage, usage.assertsBit keyUsageBitKeyCertSign = true
  extensions : ∀ ext ∈ cert.extensions, Consumed cert allowPrecertificate ext

/-- The certificates of a chain whose constraints count: the anchor is one if its constraints are
enforced. -/
def constraining (trust : CertificateTrust) (issuers : List ParsedCertificate) :
    List ParsedCertificate :=
  if trust.enforceAnchorConstraints then issuers else issuers.dropLast

section Statements

variable {Key : Type} (env : PathEnv Key) (inputs : PathInputs) (trust : CertificateTrust)

/-- The issuer's key verifies the signature. -/
def SignedBy (cert issuer : ParsedCertificate) : Prop :=
  ∃ algorithm key, cert.signatureAlgorithm = some algorithm
    ∧ env.parsePublicKey issuer.tbs.spkiTlv = some key
    ∧ env.verifySignedData algorithm cert.tbsCertificateTlv cert.signatureValue key = true

/-- A certificate below the certificates `issuers`, of which its own issuer is the first.  With
`isTarget` it is the first of the chain. -/
structure CertVerified (isTarget : Prop) (cert : ParsedCertificate)
    (issuers : List ParsedCertificate) : Prop where
  signed : ∃ issuer ∈ issuers.head?, SignedBy env cert issuer
    ∧ cert.normalizedIssuer = issuer.normalizedSubject
  inTime : cert.tbs.validityNotBefore ≤ inputs.time ∧ inputs.time ≤ cert.tbs.validityNotAfter
  issues : ¬ isTarget → IsIssuer cert env.acceptPreCertificates
  names : isTarget ∨ isSelfIssued cert = false → ∀ issuer ∈ constraining trust issuers,
    ∀ nc ∈ issuer.nameConstraints,
      nc.isPermittedCert cert.normalizedSubject cert.subjectAltNames = none

end Statements

/-- One of the certificates `issuers` whose constraints count has a path length that is smaller
than the number of the certificates after it that are not self-issued. -/
def PathTooLong (trust : CertificateTrust) (issuers : List ParsedCertificate) : Prop :=
  ∃ after holder before, issuers = after ++ holder :: before
    ∧ (before ≠ [] ∨ trust.enforceAnchorConstraints = true)
    ∧ ∃ pathLen ∈ holder.basicConstraints.bind (·.pathLen),
      pathLen.toNat < after.countP (!isSelfIssued ·)

namespace PathVerifier

section

variable {Key : Type} {env : PathEnv Key} {inputs : PathInputs} {trust : CertificateTrust}
  {v v' : PathVerifier Key} {cert : ParsedCertificate} {es : List CertError} {isTarget : Bool}
  {above : List ParsedCertificate} {t : ℕ}

/-! ## The checks, read backwards -/

lemma verifyTimeValidity_sound {time : GeneralizedTime}
    (h : containsHigh (verifyTimeValidity cert time) = false) :
    cert.tbs.validityNotBefore ≤ time ∧ time ≤ cert.tbs.validityNotAfter := by
  simpa [verifyTimeValidity, GeneralizedTime.not_lt] using h

lemma verifyNoUnconsumedCriticalExtensions_sound {allow : Bool}
    (h : containsHigh (verifyNoUnconsumedCriticalExtensions cert allow) = false) :
    ∀ ext ∈ cert.extensions, Consumed cert allow ext := by
  intro ext hext hc
  by_contra hno
  rw [not_or] at hno
  refine addError_notMem h (.unconsumedCriticalExtension ext.oid ext.value)
    (mem_flatMap.mpr ⟨ext, hext, ?_⟩)
  rw [if_neg hno.2]
  simpa [hc] using hno.1

lemma verifyKeyCertSign_sound (h : containsHigh (verifyKeyCertSign cert) = false) :
    ∀ usage ∈ cert.keyUsage, usage.assertsBit keyUsageBitKeyCertSign = true := by
  intro usage hu
  rw [verifyKeyCertSign, containsHigh_errorIf, Option.mem_def.mp hu] at h
  simpa using h

lemma verifyBasicConstraints_sound (h : containsHigh (verifyBasicConstraints cert) = false) :
    ∃ bc ∈ cert.basicConstraints, bc.isCa = true := by
  unfold verifyBasicConstraints at h
  rcases hb : cert.basicConstraints with - | bc
  · simp [hb] at h
  · exact ⟨bc, rfl, by simpa [hb] using h⟩

lemma parseAndCheckPublicKey_fst (spki : Bytes) :
    (parseAndCheckPublicKey env spki).1 = env.parsePublicKey spki := by
  unfold parseAndCheckPublicKey
  rcases env.parsePublicKey spki with - | key <;> rfl

lemma parseAndCheckPublicKey_none {spki : Bytes} (h : env.parsePublicKey spki = none) :
    containsHigh (parseAndCheckPublicKey env spki).2 = true := by
  simp [parseAndCheckPublicKey, h]

lemma verifyNameConstraints_sound (h : containsHigh (v.verifyNameConstraints cert isTarget) = false)
    (hc : isTarget = true ∨ isSelfIssued cert = false) :
    ∀ nc ∈ v.nameConstraintsList,
      nc.isPermittedCert cert.normalizedSubject cert.subjectAltNames = none := by
  intro nc hnc
  by_contra hno
  obtain ⟨error, he⟩ := Option.ne_none_iff_exists'.mp hno
  refine addError_notMem h (.nameConstraints error) ?_
  rw [verifyNameConstraints, if_pos (by rcases hc with hc | hc <;> simp [hc])]
  exact mem_flatMap.mpr ⟨nc, hnc, by simp [he]⟩

/-! ## Signatures -/

/-- The algorithms are not found to differ without an error, so `BSSL_CHECK` holds. -/
lemma verifySignatureAlgorithmsMatch_high (cert : ParsedCertificate)
    (h : (verifySignatureAlgorithmsMatch cert).1 = false) :
    containsHigh (verifySignatureAlgorithmsMatch cert).2 = true := by
  unfold verifySignatureAlgorithmsMatch at h ⊢
  simp only at h ⊢
  split_ifs at h ⊢ with heq
  split at h
  · split_ifs at h ⊢ with heq'
    rfl
  · rfl

/-! ## Errors that are not about the path length -/

/-- No path was too long. -/
def Quiet (es : List CertError) : Prop := addError .maxPathLengthViolated ∉ es

@[simp] lemma quiet_append {as bs : List CertError} : Quiet (as ++ bs) ↔ Quiet as ∧ Quiet bs := by
  simp [Quiet]

@[simp] lemma verifyTimeValidity_quiet (time : GeneralizedTime) :
    Quiet (verifyTimeValidity cert time) := by
  simp [Quiet, verifyTimeValidity, addError]

@[simp] lemma verifyNameConstraints_quiet (isTarget : Bool) :
    Quiet (v.verifyNameConstraints cert isTarget) := by
  unfold verifyNameConstraints
  split_ifs <;> simp [Quiet, addError]

@[simp] lemma verifyKeyCertSign_quiet : Quiet (verifyKeyCertSign cert) := by
  simp [Quiet, verifyKeyCertSign, addError]

@[simp] lemma verifyBasicConstraints_quiet : Quiet (verifyBasicConstraints cert) := by
  unfold verifyBasicConstraints
  split <;> simp [Quiet, addError]

@[simp] lemma verifyNoUnconsumedCriticalExtensions_quiet (allow : Bool) :
    Quiet (verifyNoUnconsumedCriticalExtensions cert allow) := by
  simp only [Quiet, verifyNoUnconsumedCriticalExtensions, mem_flatMap, not_exists, not_and]
  intro ext _
  split_ifs <;> simp [addError]

@[simp] lemma delegateErrors_quiet (errors : List (Severity × ℕ)) :
    Quiet (delegateErrors errors) := by
  simp [Quiet, delegateErrors, addError]

@[simp] lemma parseAndCheckPublicKey_quiet (spki : Bytes) :
    Quiet (parseAndCheckPublicKey env spki).2 := by
  unfold parseAndCheckPublicKey
  split
  · simp [Quiet, addError]
  · simp only [quiet_append, delegateErrors_quiet, true_and]
    simp [Quiet, addError]

@[simp] lemma verifyTargetCertIsNotCa_quiet (purpose : KeyPurpose) :
    Quiet (verifyTargetCertIsNotCa cert purpose) := by
  unfold verifyTargetCertIsNotCa
  split_ifs
  · cases purpose <;> simp [Quiet, addError, addWarning]
  · simp [Quiet]

lemma requiredUsage_quiet {ekus : Option (List Bytes)} {usage : Bytes}
    {strict isTargetIssuer granted : Bool} {lacks lacksButHasAny : CertErrorId}
    (h : lacks ≠ .maxPathLengthViolated) :
    Quiet (requiredUsage ekus usage strict isTarget isTargetIssuer granted lacks
      lacksButHasAny) := by
  simp only [requiredUsage, quiet_append]
  refine ⟨by simp [Quiet, addError, addWarning], ?_⟩
  split_ifs <;> simp [Quiet, addError, h.symm]

@[simp] lemma verifyExtendedKeyUsage_quiet (purpose : KeyPurpose)
    (isTarget isTargetIssuer : Bool) :
    Quiet (verifyExtendedKeyUsage cert purpose isTarget isTargetIssuer) := by
  unfold verifyExtendedKeyUsage
  split_ifs with hany
  · simp [Quiet]
  simp only [quiet_append]
  refine ⟨⟨by simp [Quiet, addError, addWarning], ?_⟩, ?_⟩
  · unfold prohibitedUsages
    split_ifs <;> simp [Quiet, addError, addWarning]
  · split_ifs <;> exact requiredUsage_quiet (by simp)

lemma verifySignatureAlgorithmsMatch_quiet (cert : ParsedCertificate) :
    Quiet (verifySignatureAlgorithmsMatch cert).2 := by
  unfold verifySignatureAlgorithmsMatch
  simp only
  split_ifs
  · simp [Quiet]
  split
  · split_ifs <;> simp [Quiet, addError, addWarning]
  · simp [Quiet, addError]

/-- Either the signature verifies under the working key, or there is an error, or there is no
working key. -/
lemma verifySignature_cases (env : PathEnv Key) (v : PathVerifier Key)
    (cert : ParsedCertificate) :
    ∃ ok es, v.verifySignature env cert = some (ok, es) ∧ Quiet es
      ∧ (ok = true → ∃ algorithm key, cert.signatureAlgorithm = some algorithm
        ∧ v.workingPublicKey = some key
        ∧ env.verifySignedData algorithm cert.tbsCertificateTlv cert.signatureValue key = true)
      ∧ (ok = false → containsHigh es = true ∨ v.workingPublicKey = none) := by
  unfold verifySignature
  obtain ⟨⟨ok, es⟩, hm⟩ : ∃ r, verifySignatureAlgorithmsMatch cert = r := ⟨_, rfl⟩
  have hhigh : ok = false → containsHigh es = true := by
    have := verifySignatureAlgorithmsMatch_high cert
    rwa [hm] at this
  have hquiet : Quiet es := by
    have := verifySignatureAlgorithmsMatch_quiet cert
    rwa [hm] at this
  have hone : ∀ id, id ≠ .maxPathLengthViolated → Quiet [addError id] := by
    intro id hid
    simpa [Quiet, addError] using hid.symm
  rw [hm]
  simp only
  rw [if_neg (by cases ok <;> simp [hhigh])]
  rcases hs : cert.signatureAlgorithm with - | algorithm
  · exact ⟨false, _, rfl, by simp [hquiet, hone], by simp, fun _ => by simp⟩
  simp only
  by_cases hacc : (env.isSignatureAlgorithmAcceptable algorithm).1 = true
  swap
  · rw [if_pos (by simpa using hacc)]
    exact ⟨false, _, rfl, by simp [hquiet, hone], by simp, fun _ => by simp⟩
  rw [if_neg (by simpa using hacc)]
  rcases hk : v.workingPublicKey with - | key
  · exact ⟨false, _, rfl, by simp [hquiet], by simp, fun _ => .inr rfl⟩
  simp only
  by_cases hv : env.verifySignedData algorithm cert.tbsCertificateTlv cert.signatureValue key = true
  · rw [if_neg (by simpa using hv)]
    exact ⟨ok, _, rfl, by simp [hquiet], fun _ => ⟨algorithm, key, rfl, rfl, hv⟩,
      fun h => .inl (by simp [hhigh h])⟩
  · rw [if_pos (by simpa using hv)]
    exact ⟨false, _, rfl, by simp [hquiet, hone], by simp, fun _ => by simp⟩

/-! ## One certificate -/

lemma verifyPolicies_frame (v : PathVerifier Key) (cert : ParsedCertificate) (isTarget : Bool) :
    ∃ g es, v.verifyPolicies cert isTarget = ({ v with validPolicyGraph := g }, es)
      ∧ Quiet es := by
  refine ⟨_, _, rfl, ?_⟩
  simp [Quiet, addError]

lemma verifyAnchorPolicies_frame (v : PathVerifier Key) (cert : ParsedCertificate) :
    ∃ g es, v.verifyAnchorPolicies cert = ({ v with validPolicyGraph := g }, es) ∧ Quiet es := by
  unfold verifyAnchorPolicies
  split_ifs
  · exact verifyPolicies_frame v cert false
  · exact ⟨v.validPolicyGraph, [], rfl, by simp [Quiet]⟩

lemma verifyPolicyMappings_frame (v : PathVerifier Key) (cert : ParsedCertificate) :
    ∃ g es, v.verifyPolicyMappings cert = ({ v with validPolicyGraph := g }, es) ∧ Quiet es := by
  unfold verifyPolicyMappings
  rcases cert.policyMappings with - | mappings
  · exact ⟨_, _, rfl, by simp [Quiet]⟩
  · simp only
    split_ifs <;> exact ⟨_, _, rfl, by simp [Quiet, addError]⟩

/-- What is checked of a certificate against the verifier before it is used as an issuer. -/
structure Basic (env : PathEnv Key) (inputs : PathInputs) (v : PathVerifier Key) (isTarget : Bool)
    (cert : ParsedCertificate) : Prop where
  signed : ∃ algorithm key, cert.signatureAlgorithm = some algorithm
    ∧ v.workingPublicKey = some key
    ∧ env.verifySignedData algorithm cert.tbsCertificateTlv cert.signatureValue key = true
  issuer : cert.normalizedIssuer = v.workingNormalizedIssuerName
  inTime : cert.tbs.validityNotBefore ≤ inputs.time ∧ inputs.time ≤ cert.tbs.validityNotAfter
  names : isTarget = true ∨ isSelfIssued cert = false → ∀ nc ∈ v.nameConstraintsList,
    nc.isPermittedCert cert.normalizedSubject cert.subjectAltNames = none

lemma basicCertificateProcessing_cases (env : PathEnv Key) (v : PathVerifier Key)
    (inputs : PathInputs) (cert : ParsedCertificate) (isTarget isTargetIssuer : Bool) :
    ∃ v' es ok, v.basicCertificateProcessing env inputs cert isTarget isTargetIssuer
        = some (v', es, ok) ∧ Quiet es
      ∧ (ok = false → containsHigh es = true ∨ v.workingPublicKey = none)
      ∧ (ok = true → (∃ g, v' = { v with validPolicyGraph := g })
        ∧ (containsHigh es = false → Basic env inputs v isTarget cert)) := by
  obtain ⟨ok, es, hs, hquiet, hgood, hbad⟩ := verifySignature_cases env v cert
  unfold basicCertificateProcessing
  rw [hs]
  cases ok with
  | false => exact ⟨v, es, false, rfl, hquiet, hbad, by simp⟩
  | true =>
    obtain ⟨g, pes, hp, hpq⟩ := verifyPolicies_frame v cert isTarget
    simp only [hp]
    refine ⟨_, _, true, rfl, ?_, by simp, fun _ => ⟨⟨g, rfl⟩, fun hno => ?_⟩⟩
    · simp [hquiet, hpq]
      simp [Quiet, addError]
    · simp only [containsHigh_append, Bool.or_eq_false_iff, containsHigh_errorIf,
        decide_eq_false_iff_not, not_not] at hno
      obtain ⟨⟨⟨⟨⟨-, htime⟩, hissuer⟩, hnames⟩, -⟩, -⟩ := hno
      exact ⟨hgood rfl, hissuer, verifyTimeValidity_sound htime,
        fun hc => verifyNameConstraints_sound hnames hc⟩

lemma pushNameConstraints_eq (v : PathVerifier Key) (cert : ParsedCertificate) :
    v.pushNameConstraints cert
      = { v with nameConstraintsList := v.nameConstraintsList ++ cert.nameConstraints.toList } := by
  unfold pushNameConstraints
  rcases cert.nameConstraints with - | nc <;> simp

/-- The state for the next certificate. -/
structure Prepared (env : PathEnv Key) (v : PathVerifier Key) (cert : ParsedCertificate)
    (v' : PathVerifier Key) (es : List CertError) : Prop where
  key : v'.workingPublicKey = env.parsePublicKey cert.tbs.spkiTlv
  name : v'.workingNormalizedIssuerName = cert.normalizedSubject
  nameConstraints : v'.nameConstraintsList = v.nameConstraintsList ++ cert.nameConstraints.toList
  pathLength : v'.maxPathLength
    = lowerTo (if isSelfIssued cert then v.maxPathLength else v.maxPathLength - 1)
      (cert.basicConstraints.bind (·.pathLen))
  violated : addError .maxPathLengthViolated ∈ es ↔ isSelfIssued cert = false ∧ v.maxPathLength = 0
  noKey : env.parsePublicKey cert.tbs.spkiTlv = none → containsHigh es = true
  issues : containsHigh es = false → IsIssuer cert env.acceptPreCertificates

lemma prepareForNextCertificate_prepared (env : PathEnv Key) (v : PathVerifier Key)
    (cert : ParsedCertificate) :
    Prepared env v cert (v.prepareForNextCertificate env cert).1
      (v.prepareForNextCertificate env cert).2 := by
  obtain ⟨g, mes, hm, hmq⟩ := verifyPolicyMappings_frame v cert
  unfold prepareForNextCertificate
  simp only [hm, pushNameConstraints_eq, parseAndCheckPublicKey_fst]
  constructor
  iterate 3 · cases isSelfIssued cert <;> rfl
  · cases hself : isSelfIssued cert <;>
      simp [verifyMaxPathLength, applyPolicyConstraints, decrementCounters, hself]
  · have hk : Quiet (parseAndCheckPublicKey env cert.tbs.spkiTlv).2 := by simp
    have hb : Quiet (verifyBasicConstraints cert) := by simp
    have hs : Quiet (verifyKeyCertSign cert) := by simp
    have he : Quiet (verifyNoUnconsumedCriticalExtensions cert env.acceptPreCertificates) := by simp
    unfold Quiet at hmq hk hb hs he
    cases hself : isSelfIssued cert <;>
      simp [hmq, hk, hb, hs, he, verifyMaxPathLength, applyPolicyConstraints, decrementCounters,
        hself]
  · intro hk
    simp [parseAndCheckPublicKey_none hk]
  · intro hno
    simp only [containsHigh_append, Bool.or_eq_false_iff] at hno
    obtain ⟨⟨⟨⟨⟨-, -⟩, hb⟩, -⟩, hs⟩, he⟩ := hno
    exact ⟨verifyBasicConstraints_sound hb, verifyKeyCertSign_sound hs,
      verifyNoUnconsumedCriticalExtensions_sound he⟩

lemma wrapUp_quiet (env : PathEnv Key) (v : PathVerifier Key) (inputs : PathInputs)
    (cert : ParsedCertificate) : Quiet (v.wrapUp env inputs cert).2 := by
  simp only [wrapUp, quiet_append, verifyNoUnconsumedCriticalExtensions_quiet,
    verifyTargetCertIsNotCa_quiet, parseAndCheckPublicKey_quiet, and_true, true_and]
  simp [Quiet, addError]

/-! ## The loop -/

/-- One turn of the loop: it is cut short, with an error, or goes on below the certificate. -/
lemma runLoop_cons {certs : List ParsedCertificate} {r : RunResult}
    (h : runLoop env inputs (cert :: certs) v errors = some r) :
    (r.userConstrainedPolicySet = none ∧ containsHigh r.errors.all = true)
      ∨ ∃ g es v' es', Quiet es
        ∧ (containsHigh es = false → Basic env inputs v (certs.length = 0) cert)
        ∧ finishCertificate env { v with validPolicyGraph := g } inputs cert (certs.length = 0)
          = (v', es')
        ∧ runLoop env inputs certs v' (errors.addTo certs.length (es ++ es')) = some r := by
  obtain ⟨v₁, es, ok, hb, hquiet, hbad, hgood⟩ := basicCertificateProcessing_cases env v inputs cert
    (certs.length = 0) (certs.length = 1)
  rw [runLoop, hb] at h
  cases ok with
  | false =>
    grind
  | true =>
    grind

lemma runLoop_mono : ∀ (certs : List ParsedCertificate) {v : PathVerifier Key}
    {errors : CertPathErrors} {r : RunResult}, runLoop env inputs certs v errors = some r →
      containsHigh errors.all = true → containsHigh r.errors.all = true
  | [], v, errors, r, h, hhigh => by
    cases h
    exact hhigh
  | cert :: certs, v, errors, r, h, hhigh => by
    obtain ⟨-, hr⟩ | ⟨g, es, v', es', -, -, -, hrest⟩ := runLoop_cons h
    · exact hr
    · exact runLoop_mono certs hrest (by simp [hhigh])

lemma finishCertificate_prepared
    (h : v.finishCertificate env inputs cert false = (v', es)) : Prepared env v cert v' es := by
  have hp := prepareForNextCertificate_prepared env v cert
  rwa [show v.prepareForNextCertificate env cert = (v', es) from h] at hp

lemma finishCertificate_noKey (env : PathEnv Key) (inputs : PathInputs) (v : PathVerifier Key)
    (cert : ParsedCertificate)
    (hk : (v.finishCertificate env inputs cert false).1.workingPublicKey = none) :
    containsHigh (v.finishCertificate env inputs cert false).2 = true := by
  have hp := prepareForNextCertificate_prepared env v cert
  exact hp.noKey (hp.key.symm.trans hk)

/-- No `BSSL_CHECK` fails: the verification is not cut short without an error. -/
lemma runLoop_ne_none (env : PathEnv Key) (inputs : PathInputs) :
    ∀ (certs : List ParsedCertificate) (v : PathVerifier Key) (errors : CertPathErrors),
      (v.workingPublicKey = none → containsHigh errors.all = true) →
      ∃ r, runLoop env inputs certs v errors = some r
  | [], v, errors, _ => ⟨_, rfl⟩
  | cert :: certs, v, errors, hkey => by
    obtain ⟨v₁, es, ok, hb, -, hbad, hgood⟩ := basicCertificateProcessing_cases env v inputs cert
      (certs.length = 0) (certs.length = 1)
    rw [runLoop, hb]
    cases ok with
    | false =>
      have : containsHigh (errors.addTo certs.length es).all = true := by
        rcases hbad rfl with h | h
        · simp [h]
        · simp [hkey h]
      simp only [this, if_true]
      exact ⟨_, rfl⟩
    | true =>
      simp only
      cases certs with
      | nil => exact ⟨_, rfl⟩
      | cons next certs =>
        have ht : decide ((next :: certs).length = 0) = false := by simp
        refine runLoop_ne_none env inputs (next :: certs) _ _ fun hk => ?_
        rw [ht] at hk ⊢
        rw [containsHigh_addTo, containsHigh_append, finishCertificate_noKey env inputs v₁ cert hk]
        simp

/-! ## What the verifier carries -/

lemma constraining_cons {trust : CertificateTrust} {cert : ParsedCertificate} (h : above ≠ []) :
    constraining trust (cert :: above) = cert :: constraining trust above := by
  unfold constraining
  split_ifs
  · rfl
  · exact dropLast_cons_of_ne_nil h

/-- The verifier after the certificates `above`, of which the last verified stands first. -/
structure Reached (env : PathEnv Key) (trust : CertificateTrust) (above : List ParsedCertificate)
    (v : PathVerifier Key) : Prop where
  key : ∀ issuer ∈ above.head?, v.workingPublicKey = env.parsePublicKey issuer.tbs.spkiTlv
  name : ∀ issuer ∈ above.head?, v.workingNormalizedIssuerName = issuer.normalizedSubject
  names : ∀ issuer ∈ constraining trust above, ∀ nc ∈ issuer.nameConstraints,
    nc ∈ v.nameConstraintsList

lemma Reached.prepared (h : Reached env trust above v) (habove : above ≠ [])
    (hp : Prepared env { v with validPolicyGraph := g } cert v' es) :
    Reached env trust (cert :: above) v' := by
  refine ⟨by simpa using hp.key, by simpa using hp.name, ?_⟩
  rw [constraining_cons habove, hp.nameConstraints]
  intro issuer hi nc hnc
  rcases mem_cons.mp hi with rfl | hi
  · exact mem_append_right _ (by simpa using hnc)
  · exact mem_append_left _ (h.names issuer hi nc hnc)

lemma Reached.certVerified (h : Reached env trust above v) (habove : above ≠ [])
    (hb : Basic env inputs v isTarget cert)
    (hissues : isTarget = false → IsIssuer cert env.acceptPreCertificates) :
    CertVerified env inputs trust (isTarget = true) cert above := by
  obtain ⟨issuer, rest, rfl⟩ := exists_cons_of_ne_nil habove
  obtain ⟨algorithm, key, halg, hkey, hv⟩ := hb.signed
  refine ⟨⟨issuer, rfl, ⟨algorithm, key, halg, ?_, hv⟩, ?_⟩, hb.inTime, ?_, ?_⟩
  · rw [← h.key issuer rfl, hkey]
  · rw [hb.issuer, h.name issuer rfl]
  · exact fun hn => hissues (by simpa using hn)
  · exact fun hc i hi nc hnc => hb.names hc nc (h.names i hi nc hnc)

/-- The certificates below the verifier, if there is no error: each is verified below those above
it in the whole chain. -/
lemma runLoop_verified : ∀ (below above : List ParsedCertificate) (v : PathVerifier Key)
    (errors : CertPathErrors) (r : RunResult), above ≠ [] → Reached env trust above v →
      runLoop env inputs below v errors = some r → containsHigh r.errors.all = false →
      ∀ (pre : List ParsedCertificate) (cert : ParsedCertificate)
        (issuers : List ParsedCertificate),
          below.reverse ++ above = pre ++ cert :: issuers → pre.length < below.length →
          CertVerified env inputs trust (pre = []) cert issuers
  | [], _, _, _, _, _, _, _, _, _, _, _, _, hlt => by simp at hlt
  | c :: below, above, v, errors, r, habove, hreach, hrun, hno, pre, cert, issuers, heq, hlt => by
    obtain ⟨-, hhigh⟩ | ⟨g, es, v', es', -, hbasic, hfinish, hrest⟩ := runLoop_cons hrun
    · simp [hno] at hhigh
    have hclean : containsHigh es = false ∧ containsHigh es' = false := by
      have h : ¬ containsHigh (errors.addTo below.length (es ++ es')).all = true :=
        fun h => by simpa [hno] using runLoop_mono below hrest h
      simp only [containsHigh_addTo, containsHigh_append, Bool.not_eq_true,
        Bool.or_eq_false_iff] at h
      exact h.2
    rw [reverse_cons, append_assoc, singleton_append] at heq
    by_cases hlast : pre.length = below.length
    · obtain ⟨hpre, hrest'⟩ := append_inj heq (by simp [hlast])
      cases hrest'
      have hiff : (pre = []) = (decide (below.length = 0) = true) := by
        rw [← hpre]
        simp
      rw [hiff]
      refine hreach.certVerified habove (hbasic hclean.1) fun ht => ?_
      exact (finishCertificate_prepared (ht ▸ hfinish)).issues hclean.2
    · have hlt' : pre.length < below.length := by
        simp only [length_cons] at hlt
        omega
      have ht : decide (below.length = 0) = false := by
        simp only [decide_eq_false_iff_not]
        omega
      have hp := finishCertificate_prepared (ht ▸ hfinish)
      exact runLoop_verified below (c :: above) v' _ r (by simp) (hreach.prepared habove hp) hrest
        hno pre cert issuers heq hlt'

/-! ## The path length -/

/-- `t` more certificates that are not self-issued are within every path length above. -/
def Allows (trust : CertificateTrust) (above : List ParsedCertificate) (t : ℕ) : Prop :=
  ∀ after holder before, above = after ++ holder :: before →
    (before ≠ [] ∨ trust.enforceAnchorConstraints = true) →
    ∀ pathLen ∈ holder.basicConstraints.bind (·.pathLen),
      after.countP (!isSelfIssued ·) + t ≤ pathLen.toNat

lemma not_pathTooLong_iff : ¬ PathTooLong trust above ↔ Allows trust above 0 := by
  unfold PathTooLong Allows
  push Not
  simp only [add_zero]

/-- A certificate that is added has a path length of its own, and counts if it is not
self-issued. -/
lemma allows_cons (habove : above ≠ []) :
    Allows trust (cert :: above) t
      ↔ Allows trust above (t + if isSelfIssued cert then 0 else 1)
        ∧ ∀ pathLen ∈ cert.basicConstraints.bind (·.pathLen), t ≤ pathLen.toNat := by
  have hcount : ∀ after : List ParsedCertificate, (cert :: after).countP (!isSelfIssued ·) + t
        = after.countP (!isSelfIssued ·) + (t + if isSelfIssued cert then 0 else 1) := by
    grind
  constructor
  · intro h
    refine ⟨fun after holder before heq hc pathLen hp => ?_, fun pathLen hp => ?_⟩
    · rw [← hcount]
      exact h (cert :: after) holder before (by rw [heq, cons_append]) hc pathLen hp
    · simpa using h [] cert above rfl (.inl habove) pathLen hp
  · rintro ⟨h, hown⟩ after holder before heq hc pathLen hp
    cases after with
    | nil =>
      cases heq
      simpa using hown pathLen hp
    | cons a after =>
      obtain ⟨rfl, habove'⟩ := List.cons.inj heq
      rw [hcount]
      exact h after holder before habove' hc pathLen hp

lemma allows_singleton {root : ParsedCertificate} :
    Allows trust [root] t ↔ (trust.enforceAnchorConstraints = true →
      ∀ pathLen ∈ root.basicConstraints.bind (·.pathLen), t ≤ pathLen.toNat) := by
  constructor
  · intro h henforce pathLen hp
    simpa using h [] root [] rfl (.inr henforce) pathLen hp
  · intro h after holder before heq hc pathLen hp
    obtain ⟨rfl, hroot⟩ | ⟨-, hnil⟩ := append_eq_singleton_iff.mp heq.symm
    · grind
    · cases hnil

lemma Allows.mono {t' : ℕ} (h : Allows trust above t) (hle : t' ≤ t) : Allows trust above t' :=
  fun after holder before heq hc pathLen hp =>
    (Nat.add_le_add_left hle _).trans (h after holder before heq hc pathLen hp)

/-- The counter is the smallest of all the budgets that are left, as far as they matter to the
`remaining` certificates, and an error was added if one was exceeded. -/
structure Budget (trust : CertificateTrust) (above : List ParsedCertificate) (remaining : ℕ)
    (v : PathVerifier Key) (errors : List CertError) : Prop where
  counter : Allows trust above 0 → ∀ t ≤ remaining, t ≤ v.maxPathLength ↔ Allows trust above t
  reported : addError .maxPathLengthViolated ∈ errors ↔ ¬ Allows trust above 0

lemma le_lowerTo_iff {counter : ℕ} {value : Option UInt8} :
    t ≤ lowerTo counter value ↔ t ≤ counter ∧ ∀ k ∈ value, t ≤ k.toNat := by
  unfold lowerTo
  rcases value with - | k
  · simp
  · simp only [Option.mem_some_iff, forall_eq']
    split_ifs <;> omega

lemma Budget.prepared {remaining : ℕ} {errors : List CertError}
    (h : Budget trust above (remaining + 1) v errors) (habove : above ≠ [])
    (hp : Prepared env { v with validPolicyGraph := g } cert v' es) {errors' : List CertError}
    (herrors : addError .maxPathLengthViolated ∈ errors'
      ↔ addError .maxPathLengthViolated ∈ errors ∨ addError .maxPathLengthViolated ∈ es) :
    Budget trust (cert :: above) remaining v' errors' := by
  have hzero : ∀ pathLen ∈ cert.basicConstraints.bind (·.pathLen), 0 ≤ pathLen.toNat :=
    fun _ _ => Nat.zero_le _
  by_cases hself : isSelfIssued cert = true
  · have hquiet : addError .maxPathLengthViolated ∉ es := by simp [hp.violated, hself]
    have hlen : v'.maxPathLength = lowerTo v.maxPathLength
        (cert.basicConstraints.bind (·.pathLen)) := by simpa [hself] using hp.pathLength
    constructor
    · intro hall t ht
      rw [allows_cons habove, hself] at hall
      rw [allows_cons habove, hself, hlen, le_lowerTo_iff, h.counter hall.1 t (by omega)]
      simp
    · rw [herrors, h.reported, allows_cons habove]
      simp [hquiet, hself]
  · have hlen : v'.maxPathLength = lowerTo (v.maxPathLength - 1)
        (cert.basicConstraints.bind (·.pathLen)) := by simpa [hself] using hp.pathLength
    have hviolated : addError .maxPathLengthViolated ∈ es ↔ v.maxPathLength = 0 := by
      simp [hp.violated, hself]
    have hcons : ∀ t, Allows trust (cert :: above) t ↔ Allows trust above (t + 1)
        ∧ ∀ pathLen ∈ cert.basicConstraints.bind (·.pathLen), t ≤ pathLen.toNat := by
      intro t
      rw [allows_cons habove, if_neg hself]
    have hone : Allows trust above 1 → 1 ≤ v.maxPathLength :=
      fun hall => (h.counter (hall.mono (by omega)) 1 (by omega)).mpr hall
    constructor
    · intro hall t ht
      rw [hcons] at hall
      have hpos := hone hall.1
      have hnext := h.counter (hall.1.mono (by omega)) (t + 1) (by omega)
      rw [hcons, hlen, le_lowerTo_iff, ← hnext, show t ≤ v.maxPathLength - 1
        ↔ t + 1 ≤ v.maxPathLength by omega]
    · rw [herrors, h.reported, hviolated, hcons, and_iff_left hzero]
      constructor
      · rintro (hno | hz) hall
        · exact hno (hall.mono (by omega))
        · have := hone hall
          omega
      · intro hno
        by_cases h0 : Allows trust above 0
        · have := (h.counter h0 1 (by omega)).not.mpr hno
          exact .inr (by omega)
        · exact .inl h0

lemma finishCertificate_target_quiet
    (h : v.finishCertificate env inputs cert true = (v', es)) : Quiet es := by
  have hq := wrapUp_quiet env v inputs cert
  rwa [show v.wrapUp env inputs cert = (v', es) from h] at hq

/-- At the end of a verification that is not cut short, the path length was found to be violated
exactly if it is. -/
lemma runLoop_budget : ∀ (below above : List ParsedCertificate) (v : PathVerifier Key)
    (errors : CertPathErrors) (r : RunResult), below ≠ [] → above ≠ [] →
      Budget trust above below.length v errors.all → runLoop env inputs below v errors = some r →
      r.userConstrainedPolicySet ≠ none →
        (addError .maxPathLengthViolated ∈ r.errors.all
          ↔ PathTooLong trust (below.reverse ++ above).tail)
  | [], _, _, _, _, hne, _, _, _, _ => absurd rfl hne
  | [cert], above, v, errors, r, _, _, hb, hrun, hr => by
    obtain ⟨hcut, -⟩ | ⟨g, es, v', es', hq, -, hfinish, hrest⟩ := runLoop_cons hrun
    · exact absurd hcut hr
    have hq' : Quiet es' := finishCertificate_target_quiet hfinish
    cases hrest
    unfold Quiet at hq hq'
    simp [hq, hq', hb.reported, ← not_pathTooLong_iff]
  | cert :: next :: below, above, v, errors, r, _, habove, hb, hrun, hr => by
    obtain ⟨hcut, -⟩ | ⟨g, es, v', es', hq, -, hfinish, hrest⟩ := runLoop_cons hrun
    · exact absurd hcut hr
    have hp : Prepared env { v with validPolicyGraph := g } cert v' es' :=
      finishCertificate_prepared hfinish
    have hb' : Budget trust (cert :: above) (next :: below).length v'
        (errors.addTo (next :: below).length (es ++ es')).all := by
      unfold Quiet at hq
      exact hb.prepared habove hp (by simp [hq])
    rw [reverse_cons, append_assoc, singleton_append]
    exact runLoop_budget (next :: below) (cert :: above) v' _ r (by simp) (by simp) hb' hrest hr

/-! ## The root -/

lemma enforceAnchorConstraints_spec (v : PathVerifier Key) (inputs : PathInputs)
    (cert : ParsedCertificate) (trust : CertificateTrust)
    (hr : v.enforceAnchorConstraints inputs cert trust = (v', es)) :
    Quiet es
      ∧ v'.nameConstraintsList = v.nameConstraintsList
        ++ (if trust.enforceAnchorConstraints then cert.nameConstraints.toList else [])
      ∧ v'.maxPathLength = (if trust.enforceAnchorConstraints then
        ((cert.basicConstraints.bind (·.pathLen)).map UInt8.toNat).getD v.maxPathLength
        else v.maxPathLength) := by
  unfold enforceAnchorConstraints at hr
  split_ifs at hr ⊢ with henforce
  · obtain ⟨g, pes, hp, hpq⟩ := verifyAnchorPolicies_frame v cert
    obtain ⟨g', mes, hm, hmq⟩ := verifyPolicyMappings_frame { v with validPolicyGraph := g } cert
    simp only [applyTrustAnchorConstraints, hp, hm, Prod.mk.injEq] at hr
    obtain ⟨rfl, rfl⟩ := hr
    refine ⟨?_, ?_, ?_⟩
    · simp only [quiet_append, hpq, hmq, verifyKeyCertSign_quiet, verifyExtendedKeyUsage_quiet,
        verifyNoUnconsumedCriticalExtensions_quiet, true_and, and_true]
      simp [Quiet, addError]
    · rw [pushNameConstraints_eq]
      unfold setAnchorPathLength
      split <;> rfl
    · rw [pushNameConstraints_eq]
      unfold setAnchorPathLength
      split
      · rename_i hnone
        simp [hnone, applyPolicyConstraints]
      · rename_i pathLen hsome
        simp [hsome]
  · cases hr
    simp [Quiet]

lemma processRootCertificate_cases (env : PathEnv Key) (inputs : PathInputs)
    (root : ParsedCertificate) (trust : CertificateTrust) (n : ℕ) :
    ∃ v' es ok, (start inputs n).processRootCertificate env inputs root trust = (v', es, ok)
      ∧ (ok = false → containsHigh es = true)
      ∧ (ok = true → (trust.type = .trustedAnchor ∨ trust.type = .trustedAnchorOrLeaf)
        ∧ Reached env trust [root] v' ∧ Budget trust [root] n v' es
        ∧ (v'.workingPublicKey = none → containsHigh es = true)) := by
  unfold processRootCertificate
  rcases htrust : anchorTrustErrors trust.type with - | ⟨error, errors⟩
  · have htype : trust.type = .trustedAnchor ∨ trust.type = .trustedAnchorOrLeaf := by
      cases ht : trust.type <;> simp [ht, anchorTrustErrors] at htrust ⊢
    obtain ⟨⟨v₁, ces⟩, hc⟩ :
        ∃ r, (start inputs n : PathVerifier Key).enforceAnchorConstraints inputs root trust = r :=
      ⟨_, rfl⟩
    obtain ⟨hq, hnames, hlen⟩ := enforceAnchorConstraints_spec _ inputs root trust hc
    have hexpiry : Quiet (if trust.enforceAnchorExpiry then verifyTimeValidity root inputs.time
        else []) := by
      split_ifs
      · simp
      · simp [Quiet]
    simp only [hc, parseAndCheckPublicKey_fst]
    refine ⟨_, _, true, rfl, by simp, fun _ => ⟨htype, ⟨by simp, by simp, ?_⟩, ?_, ?_⟩⟩
    · intro issuer hi nc hnc
      unfold constraining at hi
      split_ifs at hi with henforce
      · obtain rfl := mem_singleton.mp hi
        rw [hnames, if_pos henforce]
        exact mem_append_right _ (by simpa using hnc)
      · simp at hi
    · refine ⟨fun _ t ht => ?_, ?_⟩
      · rw [allows_singleton, hlen]
        split_ifs with henforce
        · rcases root.basicConstraints.bind (·.pathLen) with - | pathLen
          · simpa [start] using ht
          · simp [henforce]
        · simpa [henforce, start] using ht
      · have hkey : Quiet (parseAndCheckPublicKey env root.tbs.spkiTlv).2 := by simp
        unfold Quiet at hq hexpiry hkey
        simp [hq, hexpiry, hkey, allows_singleton]
    · intro hk
      simp [parseAndCheckPublicKey_none hk]
  · rw [← htrust]
    cases ht : trust.type <;> simp [ht, anchorTrustErrors] at htrust ⊢

/-! ## The whole chain -/

lemma run_eq_runFromRoot {root : ParsedCertificate} {below : List ParsedCertificate}
    (hbelow : below ≠ []) :
    run env inputs trust (below.reverse ++ [root]) = runFromRoot env inputs trust root below := by
  obtain ⟨a, b, rest, hcerts⟩ : ∃ a b rest, below.reverse ++ [root] = a :: b :: rest := by
    obtain ⟨a, as, ha⟩ := exists_cons_of_ne_nil
      (reverse_ne_nil_iff.mpr hbelow)
    obtain ⟨b, bs, hb⟩ := exists_cons_of_ne_nil (show as ++ [root] ≠ [] by simp)
    exact ⟨a, b, bs, by rw [ha, cons_append, hb]⟩
  have hrev : (a :: b :: rest).reverse = root :: below := by rw [← hcerts]; simp
  rw [hcerts]
  simp only [run, hrev]

/-- No check of `Run` fails.  A chain without an error of high severity ends in a trust anchor, and
every certificate below is verified.  If the verification is not cut short, the path length is
reported to be violated exactly if it is. -/
theorem run_verified (env : PathEnv Key) (inputs : PathInputs) (trust : CertificateTrust)
    (certs : List ParsedCertificate) (hcerts : 2 ≤ certs.length) :
    ∃ result, run env inputs trust certs = some result
      ∧ (containsHigh result.errors.all = false →
        (trust.type = .trustedAnchor ∨ trust.type = .trustedAnchorOrLeaf)
          ∧ ∀ below cert issuers, certs = below ++ cert :: issuers → issuers ≠ [] →
            CertVerified env inputs trust (below = []) cert issuers)
      ∧ (result.userConstrainedPolicySet ≠ none →
        (addError .maxPathLengthViolated ∈ result.errors.all ↔ PathTooLong trust certs.tail)) := by
  obtain ⟨root, below, rfl, hbelow⟩ :
      ∃ root below, certs = below.reverse ++ [root] ∧ below ≠ [] := by
    have hne : certs ≠ [] := by
      rintro rfl
      simp at hcerts
    refine ⟨certs.getLast hne, certs.dropLast.reverse, ?_, ?_⟩
    · rw [reverse_reverse, dropLast_append_getLast]
    · rw [reverse_ne_nil_iff, ← length_pos_iff, length_dropLast]
      omega
  rw [run_eq_runFromRoot hbelow, runFromRoot]
  obtain ⟨v, es, ok, hroot, hbad, hgood⟩ :=
    processRootCertificate_cases env inputs root trust below.length
  rw [hroot]
  cases ok with
  | false =>
    simp only [hbad rfl, if_true]
    exact ⟨_, rfl, by simp [hbad rfl], by simp⟩
  | true =>
    obtain ⟨htype, hreach, hbudget, hkey⟩ := hgood rfl
    obtain ⟨r, hr⟩ := runLoop_ne_none env inputs below v
      (CertPathErrors.empty.addTo below.length es) fun h => by simp [hkey h]
    refine ⟨r, hr, fun hno => ⟨htype, fun pre cert issuers heq hissuers => ?_⟩, fun hcut => ?_⟩
    · refine runLoop_verified below [root] v _ r (by simp) hreach hr hno pre cert issuers heq ?_
      have hlen := congrArg List.length heq
      have hpos := length_pos_iff.mpr hissuers
      simp only [length_append, length_reverse, length_cons, length_nil] at hlen
      omega
    · refine runLoop_budget below [root] v _ r hbelow (by simp) ⟨hbudget.counter, ?_⟩ hr hcut
      rw [CertPathErrors.mem_all_addTo, ← hbudget.reported]
      simp [CertPathErrors.empty, CertPathErrors.all]

end

namespace Sample

/-- All signatures verify. -/
def env : PathEnv Unit where
  parsePublicKey _ := some ()
  verifySignedData _ _ _ _ := true
  isSignatureAlgorithmAcceptable _ := (true, [])
  isPublicKeyAcceptable _ := (true, [])
  acceptPreCertificates := false

def inputs : PathInputs := ⟨default, .anyEku, false, {kAnyPolicyOid}, false, false⟩

def trust : CertificateTrust := ⟨.trustedAnchor, false, true, false, false⟩

def leaf : ParsedCertificate :=
  { (default : ParsedCertificate) with
    signatureAlgorithm := some .ecdsaSha256, normalizedSubject := [2], normalizedIssuer := [1] }

def intermediate : ParsedCertificate :=
  { (default : ParsedCertificate) with
    signatureAlgorithm := some .ecdsaSha256, normalizedSubject := [1]
    basicConstraints := some ⟨true, some 0⟩ }

def root : ParsedCertificate :=
  { (default : ParsedCertificate) with basicConstraints := some ⟨true, some 1⟩ }

end Sample

theorem run_verified_three :
    2 ≤ [Sample.leaf, Sample.intermediate, Sample.root].length
      ∧ ∃ result, run Sample.env Sample.inputs Sample.trust
          [Sample.leaf, Sample.intermediate, Sample.root] = some result
        ∧ containsHigh result.errors.all = false ∧ result.userConstrainedPolicySet ≠ none
        ∧ CertVerified Sample.env Sample.inputs Sample.trust ([Sample.leaf] = [])
          Sample.intermediate [Sample.root]
        ∧ ¬ PathTooLong Sample.trust [Sample.intermediate, Sample.root] := by
  obtain ⟨r, hr, hgood, hpath⟩ := run_verified Sample.env Sample.inputs Sample.trust
    [Sample.leaf, Sample.intermediate, Sample.root] (by decide)
  have hrun : (run Sample.env Sample.inputs Sample.trust
      [Sample.leaf, Sample.intermediate, Sample.root]).map (fun r =>
        (r.errors.all, r.userConstrainedPolicySet.isSome)) = some ([], true) := by decide +kernel
  rw [hr, Option.map_some, Option.some.injEq, Prod.mk.injEq] at hrun
  have hset : r.userConstrainedPolicySet ≠ none := by simpa [Option.isSome_iff_ne_none] using hrun.2
  refine ⟨by decide, r, hr, by rw [hrun.1]; rfl, hset, ?_, ?_⟩
  · exact (hgood (by rw [hrun.1]; rfl)).2 [Sample.leaf] Sample.intermediate [Sample.root] rfl
      (by simp)
  · grind

end PathVerifier

end BoringSSL.Pki
