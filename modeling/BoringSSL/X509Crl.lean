import BoringSSL.X509Verify

/-!
# How a CRL is scored, `crypto/x509/x509_vfy.cc`

`get_crl_score` with the checks it makes of the issuer, the times and the scope of a CRL.  The names
of distribution points are as `DIST_POINT_set_dpname` left them: a name relative to the issuer comes
with the whole name, `dpname`.
-/

namespace BoringSSL

open ByteLib

/-- `DIST_POINT_NAME`. -/
inductive DistPointName
  | fullname (gens : List GeneralName)
  | relativename (dpname : Option X509Name)
  deriving DecidableEq, Repr

/-- `DIST_POINT`. -/
structure DistPoint where
  distpoint : Option DistPointName
  reasons : Option Bytes
  crlIssuer : Option (List GeneralName)
  deriving DecidableEq, Repr

/-- `ISSUING_DIST_POINT`. -/
structure IssuingDistPoint where
  distpoint : Option DistPointName
  onlyuser : Bool
  onlyCa : Bool
  onlysomereasons : Option Bytes
  indirectCrl : Bool
  onlyattr : Bool
  deriving DecidableEq, Repr

/-- The bits of `idp_flags`. -/
structure IdpFlags where
  present : Bool
  invalid : Bool
  onlyuser : Bool
  onlyCa : Bool
  onlyattr : Bool
  indirect : Bool
  reasons : Bool
  deriving DecidableEq, Repr

def setupIdp (idp : IssuingDistPoint) : IdpFlags where
  present := true
  invalid := idp.onlyuser.toNat + idp.onlyCa.toNat + idp.onlyattr.toNat > 1
  onlyuser := idp.onlyuser
  onlyCa := idp.onlyCa
  onlyattr := idp.onlyattr
  indirect := idp.indirectCrl
  reasons := idp.onlysomereasons.isSome

/-- `X509_CRL`, what is read of it here; `critical` is `EXFLAG_CRITICAL`. -/
structure X509Crl where
  issuer : X509Name
  lastUpdate : Asn1Time
  nextUpdate : Option Asn1Time
  critical : Bool
  akid : Option AuthorityKeyid
  idp : Option IssuingDistPoint
  deriving DecidableEq, Repr

def X509Crl.idpFlags (crl : X509Crl) : IdpFlags :=
  (crl.idp.map setupIdp).getD ⟨false, false, false, false, false, false, false⟩

/-- A certificate with its CRL distribution points, `x->crldp`. -/
structure CrldpCert where
  cert : Cert
  crldp : List DistPoint
  deriving DecidableEq, Repr

def generalNameEq : GeneralName → GeneralName → Bool
  | .dirname a, .dirname b => a.eq b
  | a, b => a = b

/-- The loop of `idp_check_dp` over the full names, for the whole name of the other point. -/
def hasDirname (nm : X509Name) (gens : List GeneralName) : Bool :=
  gens.any fun gen => match gen with
    | .dirname directoryName => nm.eq directoryName
    | _ => false

def idpCheckDp (a b : Option DistPointName) : Bool :=
  match a, b with
  | none, _ | _, none => true
  | some (.relativename none), some _ => false
  | some _, some (.relativename none) => false
  | some (.relativename (some nma)), some (.relativename (some nmb)) => nma.eq nmb
  | some (.relativename (some nm)), some (.fullname gens) => hasDirname nm gens
  | some (.fullname gens), some (.relativename (some nm)) => hasDirname nm gens
  | some (.fullname gensa), some (.fullname gensb) =>
    gensa.any fun gena => gensb.any fun genb => generalNameEq gena genb

/-- The test of one distribution point in the loop of `crl_crldp_check`. -/
def crldpMatches (crl : X509Crl) (dp : DistPoint) : Bool :=
  dp.reasons.isSome && dp.crlIssuer.isSome
    && match crl.idp with
      | none => true
      | some idp => idpCheckDp dp.distpoint idp.distpoint

def crlCrldpCheck (x : CrldpCert) (crl : X509Crl) : Bool :=
  if crl.idpFlags.onlyattr then false
  else if x.cert.exCa && crl.idpFlags.onlyuser then false
  else if !x.cert.exCa && crl.idpFlags.onlyCa then false
  else if x.crldp.any (crldpMatches crl) then true
  else
    match crl.idp with
    | none => true
    | some idp => idp.distpoint.isNone

def crlScoreNocritical : ℕ := 0x100
def crlScoreScope : ℕ := 0x080
def crlScoreTime : ℕ := 0x040
def crlScoreIssuerName : ℕ := 0x020
def crlScoreIssuerCert : ℕ := 0x018
def crlScoreSamePath : ℕ := 0x008
def crlScoreAkid : ℕ := 0x004

namespace StoreCtx

variable (ctx : StoreCtx)

def checkCrlTime (crl : X509Crl) : Except Failure Bool :=
  if ctx.param.flags.noCheckTime then .ok true
  else do
    let lastUpdate ← cmpTimePosix crl.lastUpdate ctx.param.time
    if lastUpdate ≠ some false then pure false
    else
      match crl.nextUpdate with
      | none => pure true
      | some nextUpdate =>
        let nextUpdate ← cmpTimePosix nextUpdate ctx.param.time
        pure (nextUpdate = some true)

/-- `crl_akid_check`: what it adds to the score, and the issuer of the CRL. -/
def crlAkidCheck (chain : List X509) (errorDepth : ℕ) (crl : X509Crl) :
    Except Failure (Option (ℕ × X509)) :=
  let cidx := if errorDepth ≠ chain.length - 1 then errorDepth + 1 else errorDepth
  match chain[cidx]? with
  | none => .error .undefined
  | some crlIssuer =>
    if crlIssuer.cert.x509CheckAkid crl.akid = .ok then
      .ok (some (crlScoreAkid ||| crlScoreIssuerCert, crlIssuer))
    else
      .ok (((chain.drop (cidx + 1)).find? fun crlIssuer =>
        crlIssuer.cert.subject.eq crl.issuer && crlIssuer.cert.x509CheckAkid crl.akid = .ok).map
          fun crlIssuer => (crlScoreAkid ||| crlScoreSamePath, crlIssuer))

def getCrlScore (chain : List X509) (errorDepth : ℕ) (crl : X509Crl) (x : CrldpCert) :
    Except Failure (ℕ × Option X509) :=
  if crl.idpFlags.invalid then .ok (0, none)
  else if crl.idpFlags.indirect || crl.idpFlags.reasons then .ok (0, none)
  else if !x.cert.issuer.eq crl.issuer then .ok (0, none)
  else do
    let crlScore := crlScoreIssuerName
    let crlScore := if !crl.critical then crlScore ||| crlScoreNocritical else crlScore
    let time ← ctx.checkCrlTime crl
    let crlScore := if time then crlScore ||| crlScoreTime else crlScore
    match ← crlAkidCheck chain errorDepth crl with
    | none => pure (0, none)
    | some (akid, issuer) =>
      let crlScore := crlScore ||| akid
      let crlScore := if crlCrldpCheck x crl then crlScore ||| crlScoreScope else crlScore
      pure (crlScore, some issuer)

end StoreCtx

end BoringSSL
