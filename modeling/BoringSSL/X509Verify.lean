import BoringSSL.X509Names

/-!
# `X509_verify_cert`, `crypto/x509/x509_vfy.cc`

The verify callback is the default one, so an error it is called for ends the verification; the flag
`X509_V_FLAG_CB_ISSUER_CHECK` is not set.  `VerifyEnv` has what is outside the chain.

The loops run on fuel.  `Failure.fuel` is what they end with if there is too little of it, and
`Failure.undefined` if a signed subtraction or addition overflows, which C++ leaves undefined.
-/

namespace BoringSSL

open ByteLib NameCheck

/-- What `X509_verify_cert` calls of other files. -/
structure VerifyEnv where
  certHash : Cert → Bytes
  /-- `X509_verify`: the signature of the certificate verifies under the key. -/
  x509Verify : Cert → Bytes → Bool
  toUtf8 : Asn1String → Option Bytes
  /-- `X509_check_purpose`, for a purpose and a CA or not. -/
  x509CheckPurpose : X509 → ℤ → Bool → Bool
  checkRevocation : List X509 → Bool
  x509PolicyCheck : List X509 → Bool

/-- The `X509_V_FLAG` bits used. -/
structure VerifyFlags where
  unsupportedCrls : Bool
  trustedFirst : Bool
  noAltChains : Bool
  partialChain : Bool
  ignoreCritical : Bool
  checkSsSignature : Bool
  noCheckTime : Bool
  deriving DecidableEq, Repr

/-- `X509_VERIFY_PARAM`. -/
structure VerifyParam where
  /-- `check_time`, or the current time without `X509_V_FLAG_USE_CHECK_TIME`. -/
  time : ℤ
  flags : VerifyFlags
  purpose : ℤ
  trust : ℤ
  depth : ℤ
  hosts : Option (List Bytes)
  hostflags : HostFlags
  email : Option Bytes
  ip : Option Bytes
  poison : Bool
  deriving DecidableEq, Repr

/-- `X509_STORE_CTX`, as its caller sets it up. -/
structure StoreCtx where
  objs : List X509
  cert : X509
  untrusted : List X509
  trustedStack : Option (List X509)
  param : VerifyParam
  deriving DecidableEq, Repr

/-- How verification fails. -/
inductive Failure
  | error (e : X509V)
  | undefined
  | fuel
  deriving DecidableEq, Repr

/-- The verification ends here with an error, if there is one. -/
def failIf (failed : Prop) [Decidable failed] (e : X509V) : Except Failure Unit :=
  if failed then .error (.error e) else .ok ()

/-- `ctx->chain` and `ctx->last_untrusted`. -/
structure Chain where
  certs : List X509
  lastUntrusted : ℕ
  deriving DecidableEq, Repr

namespace StoreCtx

variable (env : VerifyEnv) (ctx : StoreCtx)

def intMax : ℤ := 2 ^ 31 - 1

def maxChain : ℤ := if ctx.param.depth ≥ intMax - 2 then intMax else ctx.param.depth + 2

def x509Eq (a b : X509) : Bool := env.certHash a.cert = env.certHash b.cert

def checkIssued (x issuer : X509) : Bool := issuer.cert.x509CheckIssued x.cert = .ok

def findIssuer (sk : List X509) (x : X509) : Option X509 := sk.find? (checkIssued x)

/-- The certificates of the store with a subject; the store's objects are kept sorted, so they stand
together. -/
def bySubject (name : X509Name) : List X509 := ctx.objs.filter fun x => name.eq x.cert.subject

def get1Issuer (x : X509) : Option X509 :=
  match ctx.bySubject x.cert.issuer with
  | [] => none
  | first :: rest =>
    if checkIssued x first then some first else (first :: rest).find? (checkIssued x)

def getTrustedIssuer (x : X509) : Option X509 :=
  match ctx.trustedStack with
  | some sk => findIssuer sk x
  | none => ctx.get1Issuer x

def lookupCertMatch (x : X509) : Option X509 :=
  (ctx.bySubject x.cert.subject).find? fun xtmp => x509Eq env xtmp x

def certSelfSigned (x : X509) : Except Failure Bool :=
  if !x.cert.x509v3CacheExtensions then .error (.error .invalidExtension) else .ok x.cert.exSs

/-- The loop that adds untrusted certificates.  `num` is the length of the chain, `x` its last
certificate and `sktmp` the untrusted ones not used yet. -/
def addUntrusted : ℕ → List X509 → List X509 → X509 → Except Failure (List X509)
  | 0, _, _, _ => .error .fuel
  | fuel + 1, sktmp, chain, x =>
    if (chain.length : ℤ) ≥ ctx.maxChain then .ok chain
    else do
      let isSelfSigned ← certSelfSigned x
      if isSelfSigned then .ok chain
      else if ctx.param.flags.trustedFirst ∧ (ctx.getTrustedIssuer x).isSome then .ok chain
      else
        match findIssuer sktmp x with
        | some issuer => addUntrusted fuel (sktmp.erase issuer) (chain ++ [issuer]) issuer
        | none => .ok chain

def addTrusted : ℕ → List X509 → X509 → Except Failure (List X509)
  | 0, _, _ => .error .fuel
  | fuel + 1, chain, x =>
    if (chain.length : ℤ) ≥ ctx.maxChain then .ok chain
    else do
      let isSelfSigned ← certSelfSigned x
      if isSelfSigned then .ok chain
      else
        match ctx.getTrustedIssuer x with
        | none => .ok chain
        | some issuer => addTrusted fuel (chain ++ [issuer]) issuer

/-- The loop of `check_trust` over certificates of the store. -/
def trustLoop : List X509 → TrustResult
  | [] => .untrusted
  | x :: rest =>
    match x.x509CheckTrust ctx.param.trust with
    | .trusted => .trusted
    | .rejected => .rejected
    | .untrusted => trustLoop rest

variable (c : Chain)

def checkTrust : TrustResult × Chain :=
  match trustLoop ctx (c.certs.drop c.lastUntrusted) with
  | .trusted => (.trusted, c)
  | .rejected => (.rejected, c)
  | .untrusted =>
    if ctx.param.flags.partialChain then
      if c.lastUntrusted < c.certs.length then (.trusted, c)
      else
        match c.certs with
        | [] => (.untrusted, c)
        | x :: rest =>
          match ctx.lookupCertMatch env x with
          | some mx => (.trusted, ⟨mx :: rest, 0⟩)
          | none => (.untrusted, c)
    else (.untrusted, c)

/-- `while (j-- > 1)`: the number of certificates to keep for an alternative chain. -/
def findAlt (certs : List X509) : ℕ → Option ℕ
  | j + 2 =>
    match certs[j]? with
    | some x => if (ctx.getTrustedIssuer x).isSome then some (j + 1) else findAlt certs (j + 1)
    | none => findAlt certs (j + 1)
  | _ => none

/-- The start of a round: a self-signed certificate at the end is replaced by the store's copy, if
it is all of the chain, or else put aside as `chain_ss`.  Given are the chain, its last certificate
and `chain_ss`. -/
def startRound (certs : List X509) (x : X509) (chainSs : Option X509) :
    Except Failure (Chain × X509 × Option X509) := do
  let isSelfSigned ← certSelfSigned x
  if isSelfSigned then
    if certs.length = 1 then
      match ctx.getTrustedIssuer x with
      | none => .error (.error .depthZeroSelfSignedCert)
      | some issuer =>
        if !x509Eq env x issuer then .error (.error .depthZeroSelfSignedCert)
        else .ok (⟨[issuer], 0⟩, issuer, chainSs)
    else
      .ok (⟨certs.dropLast, certs.dropLast.length⟩, certs.dropLast.getLast?.getD x, some x)
  else .ok (⟨certs, certs.length⟩, x, chainSs)

def untrustedError (chainSs : Option X509) : X509V :=
  let notFound : X509V :=
    if c.lastUntrusted ≥ c.certs.length then .unableToGetIssuerCertLocally
    else .unableToGetIssuerCert
  match chainSs, c.certs.getLast? with
  | some ss, some x => if checkIssued x ss then .selfSignedCertInChain else notFound
  | _, _ => notFound

/-- The `do` loop, on a chain of untrusted certificates.  Its result is a trusted chain. -/
def buildRounds : ℕ → List X509 → Option X509 → Except Failure Chain
  | 0, _, _ => .error .fuel
  | fuel + 1, certs, chainSs =>
    match certs.getLast? with
    | none => .error (.error .unspecified)
    | some x => do
      let (start, x, chainSs) ← ctx.startRound env certs x chainSs
      let certs ← addTrusted ctx (ctx.maxChain.toNat + 1) start.certs x
      match ctx.checkTrust env ⟨certs, start.lastUntrusted⟩ with
      | (.trusted, c) => .ok c
      | (.rejected, _) => .error (.error .certRejected)
      | (.untrusted, c) =>
        let alt :=
          if ctx.param.flags.trustedFirst ∨ ctx.param.flags.noAltChains then none
          else ctx.findAlt c.certs start.certs.length
        match alt with
        | some j => buildRounds fuel (c.certs.take j) chainSs
        | none => .error (.error (untrustedError c chainSs))

def buildChain : Except Failure Chain := do
  let certs ← ctx.addUntrusted (ctx.untrusted.length + 1) ctx.untrusted [ctx.cert] ctx.cert
  ctx.buildRounds env (certs.length + 1) certs none

/-- The check of a path length, of the certificate `i`. -/
def checkPathlen (x : Cert) (i : ℕ) (plen : ℤ) : Except Failure Unit :=
  if i > 1 ∧ !x.exSi ∧ x.exPathlen ≠ -1 then
    if x.exPathlen = Cert.longMax then .error .undefined
    else failIf (plen > x.exPathlen + 1) .pathLengthExceeded
  else .ok ()

/-- The loop of `check_chain_extensions`, from the certificate `i` on. -/
def checkExtensionsLoop : List X509 → ℕ → ℤ → Except Failure Unit
  | [], _, _ => .ok ()
  | x :: rest, i, plen => do
    failIf (!ctx.param.flags.ignoreCritical ∧ x.cert.unsupportedCritical)
      .unhandledCriticalExtension
    let mustBeCa := i > 0
    failIf (mustBeCa ∧ !x.cert.x509CheckCa) .invalidCa
    failIf (ctx.param.purpose > 0 ∧ !env.x509CheckPurpose x ctx.param.purpose mustBeCa)
      .invalidPurpose
    checkPathlen x.cert i plen
    checkExtensionsLoop rest (i + 1) (if x.cert.exSi then plen else plen + 1)

def checkChainExtensions : Except Failure Unit :=
  checkExtensionsLoop env ctx (c.certs.take c.lastUntrusted) 0 0

def checkHosts (hosts : List Bytes) : Bool :=
  hosts.isEmpty
    || hosts.any fun name => x509CheckHost env.toUtf8 ctx.cert.cert name ctx.param.hostflags > 0

def checkId : Except Failure Unit := do
  let x := ctx.cert.cert
  failIf ctx.param.poison .invalidCall
  failIf (ctx.param.hosts.any fun hosts => !checkHosts env ctx hosts) .hostnameMismatch
  failIf (ctx.param.email.any fun email => x509CheckEmail env.toUtf8 x email ⟨false, false⟩ ≤ 0)
    .emailMismatch
  failIf (ctx.param.ip.any fun ip => x509CheckIp env.toUtf8 x ip ⟨false, false⟩ ≤ 0)
    .ipAddressMismatch

/-- `X509_cmp_time_posix(ctm, cmp_time) > 0`; `none` where it returns zero. -/
def cmpTimePosix (ctm : Asn1Time) (cmpTime : ℤ) : Except Failure (Option Bool) :=
  match asn1TimeToPosix ctm with
  | none => .ok none
  | some ctmTime =>
    if ctmTime - cmpTime < int64Min ∨ ctmTime - cmpTime > int64Max then .error .undefined
    else .ok (some (ctmTime - cmpTime > 0))

def checkCertTime (x : Cert) : Except Failure Unit :=
  if ctx.param.flags.noCheckTime then .ok ()
  else do
    let notBefore ← cmpTimePosix x.notBefore ctx.param.time
    failIf (notBefore = none) .errorInCertNotBeforeField
    failIf (notBefore = some true) .certNotYetValid
    let notAfter ← cmpTimePosix x.notAfter ctx.param.time
    failIf (notAfter = none) .errorInCertNotAfterField
    failIf (notAfter = some false) .certHasExpired

/-- The signature check of `internal_verify`, of `xs` with the key of `xi`. -/
def verifySignature (xs xi : X509) : Except Failure Unit :=
  if xs ≠ xi ∨ ctx.param.flags.checkSsSignature then
    match xi.cert.pubkey with
    | none => .error (.error .unableToDecodeIssuerPublicKey)
    | some pkey => failIf (!env.x509Verify xs.cert pkey) .certSignatureFailure
  else .ok ()

/-- The loop of `internal_verify` from the label `check_cert` on; `below` are the certificates under
`xs`, from its subject down to the leaf. -/
def verifyBelow : X509 → List X509 → Except Failure Unit
  | xs, [] => ctx.checkCertTime xs.cert
  | xs, next :: below => do
    ctx.checkCertTime xs.cert
    ctx.verifySignature env next xs
    verifyBelow next below

def internalVerify : Except Failure Unit :=
  match c.certs.reverse with
  | [] => .error (.error .unspecified)
  | xi :: below =>
    if checkIssued xi xi then do
      ctx.verifySignature env xi xi
      ctx.verifyBelow env xi below
    else if ctx.param.flags.partialChain then ctx.verifyBelow env xi below
    else
      match below with
      | [] => .error (.error .unableToVerifyLeafSignature)
      | xs :: below => do
        ctx.verifySignature env xs xi
        ctx.verifyBelow env xs below

def rejectDnsNameInCommonName : List Asn1String → X509V
  | [] => .ok
  | commonName :: rest =>
    match env.toUtf8 commonName with
    | none => .outOfMem
    | some idval =>
      if x509v3LooksLikeDnsName idval then .nameConstraintsWithoutSans
      else rejectDnsNameInCommonName rest

/-- A certificate is checked against the constraints of those above it, from the last on. -/
def checkConstraints (x : Cert) : List X509 → Except Failure Unit
  | [] => .ok ()
  | above :: rest =>
    match above.cert.nc.get with
    | none => checkConstraints x rest
    | some nc => do
      failIf (nameConstraintsCheck x nc ≠ .ok) (nameConstraintsCheck x nc)
      checkConstraints x rest

/-- The loop of `check_name_constraints` down to the leaf: `x` and the certificates below it, which
`above` are above, the last one first. -/
def checkNamesBelow : List X509 → List X509 → Except Failure Unit
  | _, [] => .ok ()
  | above, x :: below => do
    if below ≠ [] ∧ x.cert.exSi then .ok () else checkConstraints x.cert above
    checkNamesBelow (above ++ [x]) below

/-- `has_name_constraints`.  The leaf is never skipped, so it has been checked against each
constraint above it. -/
def hasNameConstraints : Bool :=
  c.certs.tail.any fun x => x.cert.nc.get.isSome

def checkNameConstraints : Except Failure Unit := do
  checkNamesBelow [] c.certs.reverse
  match c.certs with
  | [] => .ok ()
  | leaf :: _ =>
    if hasNameConstraints c ∧ leaf.cert.altname.get.isNone then
      let rv := rejectDnsNameInCommonName env (leaf.cert.subject.byNid nidCommonName)
      failIf (rv ≠ .ok) rv
    else .ok ()

/-- `X509_verify_cert`, of a context that has not been used: the chain if it returns one. -/
def x509VerifyCert : Except Failure Chain := do
  failIf ctx.param.flags.unsupportedCrls .invalidCall
  let c ← ctx.buildChain env
  ctx.checkChainExtensions env c
  ctx.checkId env
  failIf (!env.checkRevocation c.certs) .certRevoked
  ctx.internalVerify env c
  checkNameConstraints env c
  failIf (!env.x509PolicyCheck c.certs) .invalidPolicy
  return c

end StoreCtx

end BoringSSL
