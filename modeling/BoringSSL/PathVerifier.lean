import BoringSSL.NameConstraints
import BoringSSL.PolicyGraph

/-!
# The verification of a certificate chain

`PathVerifier` of `pki/verify_certificate_chain.cc`.  A method returns the verifier it leaves and
the errors it adds; errors do not stop the verification, unless it is cut short.  Signatures, the
parsing of keys and the delegate are given by `PathEnv`.
-/

namespace BoringSSL.Pki

open ByteLib

/-- How bad an error is. -/
inductive Severity where
  | high | warning
  deriving DecidableEq, Repr

/-- The errors of the verifier, with their parameters, and those that the delegate adds. -/
inductive CertErrorId where
  | chainIsEmpty
  | certIsNotTrustAnchor
  | distrustedByTrustStore
  | internalError
  | unconsumedCriticalExtension (oid value : Bytes)
  | validityFailedNotBefore
  | validityFailedNotAfter
  | unacceptableSignatureAlgorithm
  | signatureAlgorithmsDifferentEncoding (algorithm signature : Bytes)
  | signatureAlgorithmMismatch (algorithm signature : Bytes)
  | verifySignedDataFailed
  | subjectDoesNotMatchIssuer
  | nameConstraints (error : NameConstraints.Error)
  | noValidPolicy
  | policyMappingAnyPolicy
  | missingBasicConstraints
  | basicConstraintsIndicatesNotCa
  | maxPathLengthViolated
  | keyCertSignBitNotSet
  | targetCertShouldNotBeCa
  | failedParsingSpki
  | unacceptablePublicKey
  | ekuNotPresent
  | ekuHasProhibitedCodeSigning
  | ekuHasProhibitedOcspSigning
  | ekuHasProhibitedTimeStamping
  | ekuLacksServerAuth
  | ekuLacksServerAuthButHasAnyEku
  | ekuLacksClientAuth
  | ekuLacksClientAuthButHasAnyEku
  | delegate (id : ℕ)
  deriving DecidableEq, Repr

/-- An error with its severity. -/
structure CertError where
  severity : Severity
  id : CertErrorId
  deriving DecidableEq, Repr

def addError (id : CertErrorId) : CertError := ⟨.high, id⟩

def addWarning (id : CertErrorId) : CertError := ⟨.warning, id⟩

def errorIf (condition : Bool) (error : CertError) : List CertError :=
  if condition then [error] else []

def containsHigh (errors : List CertError) : Bool := errors.any (·.severity = .high)

/-- Which errors are about which certificate, and those about none. -/
structure CertPathErrors where
  certErrors : List (ℕ × CertError)
  otherErrors : List CertError
  deriving DecidableEq, Repr

namespace CertPathErrors

def empty : CertPathErrors := ⟨[], []⟩

def addTo (errors : CertPathErrors) (index : ℕ) (new : List CertError) : CertPathErrors :=
  { errors with certErrors := errors.certErrors ++ new.map (index, ·) }

def all (errors : CertPathErrors) : List CertError :=
  errors.certErrors.map (·.2) ++ errors.otherErrors

end CertPathErrors

/-- What a certificate is trusted as. -/
inductive CertificateTrustType where
  | distrusted | unspecified | trustedAnchor | trustedAnchorOrLeaf | trustedLeaf
  deriving DecidableEq, Repr

/-- The trust in a certificate and its limits. -/
structure CertificateTrust where
  type : CertificateTrustType
  enforceAnchorExpiry : Bool
  enforceAnchorConstraints : Bool
  requireAnchorBasicConstraints : Bool
  requireLeafSelfsigned : Bool
  deriving DecidableEq, Repr

/-- What a chain is verified for. -/
inductive KeyPurpose where
  | anyEku | serverAuth | clientAuth | serverAuthStrict | serverAuthStrictLeaf | clientAuthStrict
  | clientAuthStrictLeaf
  deriving DecidableEq, Repr

/-- Keys, signatures and the delegate.  The delegate may add errors of its own. -/
structure PathEnv (Key : Type) where
  parsePublicKey : Bytes → Option Key
  verifySignedData : SignatureAlgorithm → Bytes → BitString → Key → Bool
  isSignatureAlgorithmAcceptable : SignatureAlgorithm → Bool × List (Severity × ℕ)
  isPublicKeyAcceptable : Key → Bool × List (Severity × ℕ)
  acceptPreCertificates : Bool

def delegateErrors (errors : List (Severity × ℕ)) : List CertError :=
  errors.map fun error => ⟨error.1, .delegate error.2⟩

/-- The arguments of `VerifyCertificateChain` beside the chain and its trust. -/
structure PathInputs where
  time : GeneralizedTime
  requiredKeyPurpose : KeyPurpose
  initialExplicitPolicy : Bool
  userInitialPolicySet : Finset Bytes
  initialPolicyMappingInhibit : Bool
  initialAnyPolicyInhibit : Bool

def kBasicConstraintsOid : Bytes := [0x55, 0x1d, 0x13]
def kKeyUsageOid : Bytes := [0x55, 0x1d, 0x0f]
def kExtKeyUsageOid : Bytes := [0x55, 0x1d, 0x25]
def kNameConstraintsOid : Bytes := [0x55, 0x1d, 0x1e]
def kSubjectAltNameOid : Bytes := [0x55, 0x1d, 0x11]
def kCertificatePoliciesOid : Bytes := [0x55, 0x1d, 0x20]
def kPolicyMappingsOid : Bytes := [0x55, 0x1d, 0x21]
def kPolicyConstraintsOid : Bytes := [0x55, 0x1d, 0x24]
def kInhibitAnyPolicyOid : Bytes := [0x55, 0x1d, 0x36]
def kMsApplicationPoliciesOid : Bytes := [0x2b, 0x06, 0x01, 0x04, 0x01, 0x82, 0x37, 0x15, 0x0a]
def kCtPoisonOid : Bytes := [0x2b, 0x06, 0x01, 0x04, 0x01, 0xd6, 0x79, 0x02, 0x04, 0x03]

def isHandledCriticalExtension (extension : ParsedExtension) (cert : ParsedCertificate) : Bool :=
  if extension.oid ∈ [kBasicConstraintsOid, kKeyUsageOid, kExtKeyUsageOid, kNameConstraintsOid,
      kSubjectAltNameOid] then true
  else if extension.oid = kCertificatePoliciesOid then
    (parseCertificatePoliciesExtensionOids extension.value true).isSome
  else if extension.oid ∈ [kPolicyMappingsOid, kPolicyConstraintsOid, kInhibitAnyPolicyOid] then
    true
  else if extension.oid = kMsApplicationPoliciesOid then cert.extendedKeyUsage.isSome
  else false

variable (cert : ParsedCertificate)

def verifyNoUnconsumedCriticalExtensions (allowPrecertificate : Bool) : List CertError :=
  cert.extensions.flatMap fun extension =>
    if allowPrecertificate ∧ extension.oid = kCtPoisonOid then []
    else errorIf (extension.critical && !isHandledCriticalExtension extension cert)
      (addError (.unconsumedCriticalExtension extension.oid extension.value))

def isSelfIssued : Bool :=
  cert.normalizedSubject = cert.normalizedIssuer

def verifyTimeValidity (time : GeneralizedTime) : List CertError :=
  errorIf (time < cert.tbs.validityNotBefore) (addError .validityFailedNotBefore)
    ++ errorIf (cert.tbs.validityNotAfter < time) (addError .validityFailedNotAfter)

def verifySignatureAlgorithmsMatch : Bool × List CertError :=
  let alg1Tlv := cert.signatureAlgorithmTlv
  let alg2Tlv := cert.tbs.signatureAlgorithmTlv
  if alg1Tlv = alg2Tlv then (true, [])
  else
    match parseSignatureAlgorithm alg1Tlv, parseSignatureAlgorithm alg2Tlv with
    | some alg1, some alg2 =>
      if alg1 = alg2 then
        (true, [addWarning (.signatureAlgorithmsDifferentEncoding alg1Tlv alg2Tlv)])
      else (false, [addError (.signatureAlgorithmMismatch alg1Tlv alg2Tlv)])
    | _, _ => (false, [addError .unacceptableSignatureAlgorithm])

variable (requiredKeyPurpose : KeyPurpose)

/-- A strict purpose that is only asked of the leaf. -/
def purposeFor (isTargetCert : Bool) : KeyPurpose :=
  match requiredKeyPurpose with
  | .clientAuthStrictLeaf => if isTargetCert then .clientAuthStrict else .clientAuth
  | .serverAuthStrictLeaf => if isTargetCert then .serverAuthStrict else .serverAuth
  | purpose => purpose

/-- Usages that a certificate for TLS has no need of. -/
def prohibitedUsages (ekus : List Bytes) (strict isTargetCert isTargetCertIssuer : Bool) :
    List CertError :=
  let errorIfStrict := if strict then addError else addWarning
  if isTargetCert then
    errorIf (kCodeSigning ∈ ekus) (errorIfStrict .ekuHasProhibitedCodeSigning)
      ++ errorIf (kOcspSigning ∈ ekus) (errorIfStrict .ekuHasProhibitedOcspSigning)
      ++ errorIf (kTimeStamping ∈ ekus) (errorIfStrict .ekuHasProhibitedTimeStamping)
  else if isTargetCertIssuer then
    errorIf (kCodeSigning ∈ ekus) (errorIfStrict .ekuHasProhibitedCodeSigning)
      ++ errorIf (kTimeStamping ∈ ekus) (errorIfStrict .ekuHasProhibitedTimeStamping)
  else []

/-- What is asked of a server's and of a client's certificate: `usage` is among the usages, or
`anyExtendedKeyUsage` stands for it above the issuer of the target, or it is `granted`. -/
def requiredUsage (extendedKeyUsage : Option (List Bytes)) (usage : Bytes)
    (strict isTargetCert isTargetCertIssuer granted : Bool) (lacks lacksButHasAny : CertErrorId) :
    List CertError :=
  let ekus := extendedKeyUsage.getD []
  let hasAny : Bool := kAnyEku ∈ ekus
  let has : Bool := usage ∈ ekus
  let onlyAny := hasAny && !has
  let hasNow := has || (onlyAny && !(isTargetCert || isTargetCertIssuer)) || granted
  errorIf (onlyAny && (isTargetCert || isTargetCertIssuer)) (addWarning lacksButHasAny)
    ++ if strict then errorIf (!hasNow) (addError lacks)
      else errorIf (extendedKeyUsage.isSome && !hasNow && !hasAny) (addError lacks)

def verifyExtendedKeyUsage (isTargetCert isTargetCertIssuer : Bool) : List CertError :=
  if requiredKeyPurpose = .anyEku then []
  else
    let purpose := purposeFor requiredKeyPurpose isTargetCert
    let strict : Bool := purpose = .serverAuthStrict || purpose = .clientAuthStrict
    errorIf (isTargetCert && cert.extendedKeyUsage.isNone) (addWarning .ekuNotPresent)
      ++ prohibitedUsages (cert.extendedKeyUsage.getD []) strict isTargetCert isTargetCertIssuer
      ++
        if purpose = .serverAuth ∨ purpose = .serverAuthStrict then
          requiredUsage cert.extendedKeyUsage kServerAuth strict isTargetCert isTargetCertIssuer
            (isTargetCertIssuer && cert.extendedKeyUsage.isNone) .ekuLacksServerAuth
            .ekuLacksServerAuthButHasAnyEku
        else
          requiredUsage cert.extendedKeyUsage kClientAuth strict isTargetCert isTargetCertIssuer
            false .ekuLacksClientAuth .ekuLacksClientAuthButHasAnyEku

def verifyTargetCertIsNotCa : List CertError :=
  if cert.basicConstraints.any (·.isCa) then
    match requiredKeyPurpose with
    | .anyEku => []
    | .serverAuth | .clientAuth => [addWarning .targetCertShouldNotBeCa]
    | .serverAuthStrict | .clientAuthStrict | .clientAuthStrictLeaf | .serverAuthStrictLeaf =>
      [addError .targetCertShouldNotBeCa]
  else []

def verifyKeyCertSign : List CertError :=
  errorIf (cert.keyUsage.any (!·.assertsBit keyUsageBitKeyCertSign))
    (addError .keyCertSignBitNotSet)

section

variable {Key : Type} (env : PathEnv Key)

def parseAndCheckPublicKey (spki : Bytes) : Option Key × List CertError :=
  match env.parsePublicKey spki with
  | none => (none, [addError .failedParsingSpki])
  | some pkey =>
    let (acceptable, errors) := env.isPublicKeyAcceptable pkey
    (some pkey, delegateErrors errors ++ errorIf (!acceptable) (addError .unacceptablePublicKey))

/-- `VerifySignedData` with a key that is not parsed. -/
def verifySignedDataSpki (algorithm : SignatureAlgorithm) (data : Bytes) (signature : BitString)
    (spki : Bytes) : Bool :=
  match env.parsePublicKey spki with
  | none => false
  | some key => env.verifySignedData algorithm data signature key

def verifyCertificateIsSelfSigned (cert : ParsedCertificate) : Bool × List CertError :=
  if cert.normalizedSubject ≠ cert.normalizedIssuer then
    (false, [addError .subjectDoesNotMatchIssuer])
  else
    match cert.signatureAlgorithm with
    | none => (false, [addError .unacceptableSignatureAlgorithm])
    | some algorithm =>
      if !verifySignedDataSpki env algorithm cert.tbsCertificateTlv cert.signatureValue
          cert.tbs.spkiTlv then (false, [addError .verifySignedDataFailed])
      else (true, [])

end

/-! ## `PathVerifier` -/

/-- The state along the path. -/
structure PathVerifier (Key : Type) where
  validPolicyGraph : ValidPolicyGraph
  userConstrainedPolicySet : Finset Bytes
  nameConstraintsList : List NameConstraints
  explicitPolicy : ℕ
  inhibitAnyPolicy : ℕ
  policyMapping : ℕ
  workingPublicKey : Option Key
  workingNormalizedIssuerName : Bytes
  maxPathLength : ℕ

namespace PathVerifier

variable {Key : Type}

/-- The loop over the policies of a certificate: the graph, what is left of the level before, and
whether `anyPolicy` was among them. -/
def addPolicies :
    List Bytes → ValidPolicyGraph → LevelDetails → Bool → ValidPolicyGraph × LevelDetails × Bool
  | [], g, previousLevel, certHasAnyPolicy => (g, previousLevel, certHasAnyPolicy)
  | pOid :: policies, g, previousLevel, certHasAnyPolicy =>
    if pOid = kAnyPolicyOid then addPolicies policies g previousLevel true
    else
      match previousLevel.expectedPolicyMap.lookup pOid with
      | some parentPolicies =>
        addPolicies policies (g.addNode pOid parentPolicies)
          { previousLevel with expectedPolicyMap := previousLevel.expectedPolicyMap.erase pOid }
          certHasAnyPolicy
      | none =>
        if previousLevel.hasAnyPolicy then
          addPolicies policies (g.addNodeWithParentAnyPolicy pOid) previousLevel certHasAnyPolicy
        else addPolicies policies g previousLevel certHasAnyPolicy

variable (g : ValidPolicyGraph)

/-- What `anyPolicy` in a certificate adds. -/
def addExpectedPolicies (previousLevel : LevelDetails) : ValidPolicyGraph :=
  let g := previousLevel.expectedPolicyMap.entries.foldl
    (fun g entry => g.addNode entry.1 entry.2) g
  if previousLevel.hasAnyPolicy then g.addAnyPolicyNode else g

/-- The graph after the policies of a certificate. -/
def updatePolicies (policyOids : List Bytes) (anyPolicyAllowed : Bool) : ValidPolicyGraph :=
  let (previousLevel, g) := g.startLevel
  let (g, previousLevel, certHasAnyPolicy) := addPolicies policyOids g previousLevel false
  if certHasAnyPolicy && anyPolicyAllowed then addExpectedPolicies g previousLevel else g

variable (v : PathVerifier Key)

def verifyPolicies (cert : ParsedCertificate) (isTargetCert : Bool) :
    PathVerifier Key × List CertError :=
  let g := match cert.policyOids with
    | none => v.validPolicyGraph.setNull
    | some policyOids =>
      if v.validPolicyGraph.isNull then v.validPolicyGraph
      else updatePolicies v.validPolicyGraph policyOids
        (v.inhibitAnyPolicy > 0 || (!isTargetCert && isSelfIssued cert))
  ({ v with validPolicyGraph := g },
    errorIf (!(v.explicitPolicy > 0 || !g.isNull)) (addError .noValidPolicy))

def addMapping (mapping : ParsedPolicyMapping) : ValidPolicyGraph :=
  g.addPolicyMapping mapping.issuerDomainPolicy mapping.subjectDomainPolicy

def deleteMapped (mapping : ParsedPolicyMapping) : ValidPolicyGraph :=
  g.deleteNode mapping.issuerDomainPolicy

def verifyPolicyMappings (cert : ParsedCertificate) : PathVerifier Key × List CertError :=
  match cert.policyMappings with
  | none => (v, [])
  | some policyMappings =>
    if policyMappings.any fun mapping => mapping.issuerDomainPolicy = kAnyPolicyOid
        || mapping.subjectDomainPolicy = kAnyPolicyOid then
      ({ v with validPolicyGraph := v.validPolicyGraph.setNull },
        [addError .policyMappingAnyPolicy])
    else if v.policyMapping > 0 then
      ({ v with validPolicyGraph := policyMappings.foldl addMapping v.validPolicyGraph }, [])
    else
      ({ v with validPolicyGraph := policyMappings.foldl deleteMapped v.validPolicyGraph }, [])

def lowerTo (counter : ℕ) : Option UInt8 → ℕ
  | none => counter
  | some value => if value.toNat < counter then value.toNat else counter

def applyPolicyConstraints (cert : ParsedCertificate) : PathVerifier Key :=
  { v with
    explicitPolicy := lowerTo v.explicitPolicy
      (cert.policyConstraints.bind (·.requireExplicitPolicy))
    policyMapping := lowerTo v.policyMapping
      (cert.policyConstraints.bind (·.inhibitPolicyMapping))
    inhibitAnyPolicy := lowerTo v.inhibitAnyPolicy cert.inhibitAnyPolicy }

def pushNameConstraints (cert : ParsedCertificate) : PathVerifier Key :=
  match cert.nameConstraints with
  | none => v
  | some nc => { v with nameConstraintsList := v.nameConstraintsList ++ [nc] }

def verifyNameConstraints (cert : ParsedCertificate) (isTargetCert : Bool) : List CertError :=
  if !isSelfIssued cert || isTargetCert then
    v.nameConstraintsList.flatMap fun nc =>
      (nc.isPermittedCert cert.normalizedSubject cert.subjectAltNames).toList.map
        fun error => addError (.nameConstraints error)
  else []

section

variable (env : PathEnv Key) (v : PathVerifier Key) (cert : ParsedCertificate)

/-- Whether the signature is acceptable and verifies, with the errors.  `none` is a failure of
`BSSL_CHECK`. -/
def verifySignature : Option (Bool × List CertError) :=
  let (algorithmsMatch, errors) := verifySignatureAlgorithmsMatch cert
  if !algorithmsMatch && !containsHigh errors then none
  else
    match cert.signatureAlgorithm with
    | none => some (false, errors ++ [addError .unacceptableSignatureAlgorithm])
    | some algorithm =>
      let (acceptable, more) := env.isSignatureAlgorithmAcceptable algorithm
      let errors := errors ++ delegateErrors more
      if !acceptable then some (false, errors ++ [addError .unacceptableSignatureAlgorithm])
      else
        match v.workingPublicKey with
        | none => some (false, errors)
        | some key =>
          if !env.verifySignedData algorithm cert.tbsCertificateTlv cert.signatureValue key then
            some (false, errors ++ [addError .verifySignedDataFailed])
          else some (algorithmsMatch, errors)

variable (inputs : PathInputs)

/-- `BasicCertificateProcessing`; the last component is false if the verification is cut short. -/
def basicCertificateProcessing (cert : ParsedCertificate) (isTargetCert isTargetCertIssuer : Bool) :
    Option (PathVerifier Key × List CertError × Bool) :=
  match v.verifySignature env cert with
  | none => none
  | some (false, errors) => some (v, errors, false)
  | some (true, errors) =>
    let errors := errors ++ verifyTimeValidity cert inputs.time
      ++ errorIf (cert.normalizedIssuer ≠ v.workingNormalizedIssuerName)
        (addError .subjectDoesNotMatchIssuer)
      ++ v.verifyNameConstraints cert isTargetCert
    let (v, policyErrors) := v.verifyPolicies cert isTargetCert
    some (v, errors ++ policyErrors
      ++ verifyExtendedKeyUsage cert inputs.requiredKeyPurpose isTargetCert isTargetCertIssuer,
      true)

def decrementCounters : PathVerifier Key :=
  { v with
    explicitPolicy := v.explicitPolicy - 1
    policyMapping := v.policyMapping - 1
    inhibitAnyPolicy := v.inhibitAnyPolicy - 1 }

def verifyBasicConstraints : List CertError :=
  match cert.basicConstraints with
  | none => [addError .missingBasicConstraints]
  | some bc => errorIf (!bc.isCa) (addError .basicConstraintsIndicatesNotCa)

/-- The steps of RFC 5280 6.1.4 (l) and (m). -/
def verifyMaxPathLength : PathVerifier Key × List CertError :=
  let violated : Bool := !isSelfIssued cert && v.maxPathLength = 0
  let maxPathLength := if isSelfIssued cert then v.maxPathLength else v.maxPathLength - 1
  ({ v with maxPathLength := lowerTo maxPathLength (cert.basicConstraints.bind (·.pathLen)) },
    errorIf violated (addError .maxPathLengthViolated))

def prepareForNextCertificate : PathVerifier Key × List CertError :=
  let (v, mappingErrors) := v.verifyPolicyMappings cert
  let v := { v with workingNormalizedIssuerName := cert.normalizedSubject }
  let (key, keyErrors) := parseAndCheckPublicKey env cert.tbs.spkiTlv
  let v := { v with workingPublicKey := key }
  let v := v.pushNameConstraints cert
  let v := if isSelfIssued cert then v else v.decrementCounters
  let v := v.applyPolicyConstraints cert
  let (v, pathErrors) := v.verifyMaxPathLength cert
  (v, mappingErrors ++ keyErrors ++ verifyBasicConstraints cert ++ pathErrors
    ++ verifyKeyCertSign cert
    ++ verifyNoUnconsumedCriticalExtensions cert env.acceptPreCertificates)

def wrapUp (cert : ParsedCertificate) : PathVerifier Key × List CertError :=
  let explicitPolicy :=
    if cert.policyConstraints.bind (·.requireExplicitPolicy) = some 0 then 0
    else v.explicitPolicy - 1
  let policySet := v.validPolicyGraph.getUserConstrainedPolicySet inputs.userInitialPolicySet
  ({ v with explicitPolicy := explicitPolicy, userConstrainedPolicySet := policySet },
    verifyNoUnconsumedCriticalExtensions cert env.acceptPreCertificates
      ++ errorIf (explicitPolicy = 0 ∧ policySet = ∅) (addError .noValidPolicy)
      ++ verifyTargetCertIsNotCa cert inputs.requiredKeyPurpose
      ++ (parseAndCheckPublicKey env cert.tbs.spkiTlv).2)

def verifyAnchorPolicies : PathVerifier Key × List CertError :=
  if cert.policyOids.isSome then v.verifyPolicies cert false else (v, [])

/-- The anchor's path length replaces the one the verification starts with. -/
def setAnchorPathLength : PathVerifier Key :=
  match cert.basicConstraints.bind (·.pathLen) with
  | none => v
  | some pathLen => { v with maxPathLength := pathLen.toNat }

def applyTrustAnchorConstraints (cert : ParsedCertificate) : PathVerifier Key × List CertError :=
  let (v, policyErrors) := v.verifyAnchorPolicies cert
  let (v, mappingErrors) := v.verifyPolicyMappings cert
  let v := v.applyPolicyConstraints cert
  let v := v.pushNameConstraints cert
  let v := v.setAnchorPathLength cert
  (v, policyErrors ++ mappingErrors ++ verifyKeyCertSign cert
    ++ verifyExtendedKeyUsage cert inputs.requiredKeyPurpose false false
    ++ errorIf (cert.basicConstraints.any (!·.isCa)) (addError .basicConstraintsIndicatesNotCa)
    ++ verifyNoUnconsumedCriticalExtensions cert false)

def anchorTrustErrors : CertificateTrustType → List CertError
  | .unspecified | .trustedLeaf => [addError .certIsNotTrustAnchor]
  | .distrusted => [addError .distrustedByTrustStore]
  | .trustedAnchor | .trustedAnchorOrLeaf => []

/-- The constraints of an anchor, if they are enforced. -/
def enforceAnchorConstraints (v : PathVerifier Key) (inputs : PathInputs)
    (cert : ParsedCertificate) (trust : CertificateTrust) : PathVerifier Key × List CertError :=
  if trust.enforceAnchorConstraints then
    let (v, errors) := v.applyTrustAnchorConstraints inputs cert
    (v, errorIf (trust.requireAnchorBasicConstraints && cert.basicConstraints.isNone
      && cert.tbs.version = .v3) (addError .missingBasicConstraints) ++ errors)
  else (v, [])

/-- `ProcessRootCertificate`; the last component is false if the verification is cut short. -/
def processRootCertificate (cert : ParsedCertificate) (trust : CertificateTrust) :
    PathVerifier Key × List CertError × Bool :=
  match anchorTrustErrors trust.type with
  | error :: errors => (v, error :: errors, false)
  | [] =>
    let expiryErrors :=
      if trust.enforceAnchorExpiry then verifyTimeValidity cert inputs.time else []
    let (v, constraintErrors) := v.enforceAnchorConstraints inputs cert trust
    let (key, keyErrors) := parseAndCheckPublicKey env cert.tbs.spkiTlv
    ({ v with workingPublicKey := key, workingNormalizedIssuerName := cert.normalizedSubject },
      expiryErrors ++ constraintErrors ++ keyErrors, true)

def leafTrustErrors : CertificateTrustType → List CertError
  | .unspecified | .trustedAnchor => [addError .certIsNotTrustAnchor]
  | .distrusted => [addError .distrustedByTrustStore]
  | .trustedLeaf | .trustedAnchorOrLeaf => []

def leafErrors (cert : ParsedCertificate) : List CertError :=
  verifyTimeValidity cert inputs.time
    ++ verifyExtendedKeyUsage cert inputs.requiredKeyPurpose true false
    ++ verifyNoUnconsumedCriticalExtensions cert false

def processSingleCertChain (cert : ParsedCertificate) (trust : CertificateTrust) : List CertError :=
  match leafTrustErrors trust.type with
  | error :: errors => error :: errors
  | [] =>
    let keyErrors := (parseAndCheckPublicKey env cert.tbs.spkiTlv).2
    if trust.requireLeafSelfsigned then
      let (selfSigned, errors) := verifyCertificateIsSelfSigned env cert
      if !selfSigned then
        keyErrors ++ errors
          ++ errorIf (!containsHigh (keyErrors ++ errors)) (addError .internalError)
      else keyErrors ++ errors ++ leafErrors inputs cert
    else keyErrors ++ leafErrors inputs cert

/-- What `Run` leaves: the errors, and the policies if the verification was not cut short. -/
structure RunResult where
  errors : CertPathErrors
  userConstrainedPolicySet : Option (Finset Bytes)

def finishCertificate (cert : ParsedCertificate) (isTargetCert : Bool) :
    PathVerifier Key × List CertError :=
  if !isTargetCert then v.prepareForNextCertificate env cert else v.wrapUp env inputs cert

/-- The loop of `Run` after the root; the certificates stand in the order in which they are
verified.  `none` is a failure of `BSSL_CHECK`. -/
def runLoop (inputs : PathInputs) :
    List ParsedCertificate → PathVerifier Key → CertPathErrors → Option RunResult
  | [], v, errors => some ⟨errors, some v.userConstrainedPolicySet⟩
  | cert :: certs, v, errors =>
    match v.basicCertificateProcessing env inputs cert (certs.length = 0) (certs.length = 1) with
    | none => none
    | some (_, certErrors, false) =>
      let errors := errors.addTo certs.length certErrors
      if containsHigh errors.all then some ⟨errors, none⟩ else none
    | some (v, certErrors, true) =>
      let (v, moreErrors) := v.finishCertificate env inputs cert (certs.length = 0)
      runLoop inputs certs v (errors.addTo certs.length (certErrors ++ moreErrors))

/-- The verifier at the start, for a chain with `n` certificates below the root. -/
def start (n : ℕ) : PathVerifier Key where
  validPolicyGraph := ValidPolicyGraph.init ⟨[], .empty, false⟩
  userConstrainedPolicySet := ∅
  nameConstraintsList := []
  explicitPolicy := if inputs.initialExplicitPolicy then 0 else n + 1
  inhibitAnyPolicy := if inputs.initialAnyPolicyInhibit then 0 else n + 1
  policyMapping := if inputs.initialPolicyMappingInhibit then 0 else n + 1
  workingPublicKey := none
  workingNormalizedIssuerName := []
  maxPathLength := n

def runFromRoot (trust : CertificateTrust) (root : ParsedCertificate)
    (below : List ParsedCertificate) : Option RunResult :=
  match (start inputs below.length).processRootCertificate env inputs root trust with
  | (_, certErrors, false) =>
    if containsHigh certErrors then
      some ⟨CertPathErrors.empty.addTo below.length certErrors, none⟩
    else none
  | (v, certErrors, true) =>
    runLoop env inputs below v (CertPathErrors.empty.addTo below.length certErrors)

/-- `Run`; the target stands first in the chain. -/
def run (trust : CertificateTrust) (certs : List ParsedCertificate) : Option RunResult :=
  match certs with
  | [] => some ⟨⟨[], [addError .chainIsEmpty]⟩, none⟩
  | [cert] =>
    some ⟨CertPathErrors.empty.addTo 0 (processSingleCertChain env inputs cert trust), none⟩
  | certs =>
    match certs.reverse with
    | [] => none
    | root :: below => runFromRoot env inputs trust root below

end

end PathVerifier

end BoringSSL.Pki
