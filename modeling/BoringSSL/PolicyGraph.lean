import BoringSSL.PkiCertificate
import Mathlib.Data.List.AList

/-!
# The graph of valid policies

`ValidPolicyGraph` of `pki/verify_certificate_chain.cc`, which stands for the `valid_policy_tree` of
RFC 5280, and the parser of the extension that it is built from.  A `std::map` is an `AList`, whose
order nothing depends on.
-/

namespace BoringSSL.Pki

open ByteLib

def kAnyPolicyOid : Bytes := [0x55, 0x1d, 0x20, 0x00]

/-! ## `pki/certificate_policies.cc` -/

def kCpsPointerId : Bytes := [0x2b, 0x06, 0x01, 0x05, 0x05, 0x07, 0x02, 0x01]

def kUserNoticeId : Bytes := [0x2b, 0x06, 0x01, 0x05, 0x05, 0x07, 0x02, 0x02]

variable (restrictToKnownQualifiers : Bool)

def readPolicyQualifierInfo (cbs : Bytes) : Option (Unit × Bytes) := do
  let (policyInformationParser, cbs) ← readSequence cbs
  let (qualifierOid, policyInformationParser) ← readTag asn1Object policyInformationParser
  if restrictToKnownQualifiers ∧ qualifierOid ≠ kCpsPointerId ∧ qualifierOid ≠ kUserNoticeId then
    none
  else do
    let (_, policyInformationParser) ← readRawTlv policyInformationParser
    finished policyInformationParser
    some ((), cbs)

def parsePolicyQualifiers (cbs : Bytes) : Option Unit :=
  if cbs = [] then none
  else (readAll (readPolicyQualifierInfo restrictToKnownQualifiers) cbs).map fun _ => ()

def parseOptionalQualifiers (cbs : Bytes) : Option Unit :=
  if cbs = [] then some ()
  else do
    let (policyQualifiersSequenceParser, cbs) ← readSequence cbs
    finished cbs
    parsePolicyQualifiers restrictToKnownQualifiers policyQualifiersSequenceParser

def readPolicyInformation (failParsingUnknownQualifierOids : Bool) (cbs : Bytes) :
    Option (Bytes × Bytes) := do
  let (policyInformationParser, cbs) ← readSequence cbs
  let (policyOid, policyInformationParser) ← readTag asn1Object policyInformationParser
  parseOptionalQualifiers (failParsingUnknownQualifierOids || policyOid = kAnyPolicyOid)
    policyInformationParser
  some (policyOid, cbs)

def hasAdjacentEqual : List Bytes → Bool
  | a :: b :: rest => a = b || hasAdjacentEqual (b :: rest)
  | _ => false

def parseCertificatePoliciesExtensionOids (extensionValue : Bytes)
    (failParsingUnknownQualifierOids : Bool) : Option (List Bytes) := do
  let (policiesSequenceParser, extensionParser) ← readSequence extensionValue
  finished extensionParser
  if policiesSequenceParser = [] then none
  else do
    let policyOids ←
      readAll (readPolicyInformation failParsingUnknownQualifierOids) policiesSequenceParser
    let policyOids := policyOids.mergeSort fun a b => !(b < a)
    if hasAdjacentEqual policyOids then none else some policyOids

/-- A node; with no parents, its parent is `anyPolicy`. -/
structure PolicyNode where
  parentPolicies : List Bytes
  mapped : Bool
  reachable : Bool
  deriving DecidableEq, Repr

/-- The nodes of one level, by their policies. -/
abbrev PolicyLevel := AList fun _ : Bytes => PolicyNode

/-- What the current level expects. -/
structure LevelDetails where
  expectedPolicyMap : AList fun _ : Bytes => List Bytes
  hasAnyPolicy : Bool

def LevelDetails.empty : LevelDetails := ⟨∅, false⟩

def LevelDetails.expect (d : LevelDetails) (key value : Bytes) : LevelDetails :=
  { d with expectedPolicyMap :=
      d.expectedPolicyMap.insert key ((d.expectedPolicyMap.lookup key).getD [] ++ [value]) }

/-- The graph; the last of its levels stands first.  Whether an assertion was false, which only a
debug build notices, is written down. -/
structure ValidPolicyGraph where
  levels : List PolicyLevel
  currentLevel : LevelDetails
  assertionFailed : Bool

namespace ValidPolicyGraph

variable (g : ValidPolicyGraph)

def isNull : Bool :=
  !g.currentLevel.hasAnyPolicy &&
    match g.levels with
    | [] => true
    | back :: _ => back.entries = []

def setNull : ValidPolicyGraph := ⟨[], .empty, g.assertionFailed⟩

def assert (condition : Bool) : ValidPolicyGraph :=
  { g with assertionFailed := g.assertionFailed || !condition }

/-- A node that is not mapped expects its own policy. -/
def expectUnmapped (d : LevelDetails) : List PolicyLevel → LevelDetails
  | [] => d
  | back :: _ =>
    back.entries.foldl (fun d entry => if !entry.2.mapped then d.expect entry.1 entry.1 else d) d

def startLevel : LevelDetails × ValidPolicyGraph :=
  (expectUnmapped g.currentLevel g.levels, ⟨∅ :: g.levels, .empty, g.assertionFailed⟩)

def addAnyPolicyNode : ValidPolicyGraph :=
  let g := g.assert (g.levels ≠ [])
  { g with currentLevel := { g.currentLevel with hasAnyPolicy := true } }

def init : ValidPolicyGraph := g.setNull.startLevel.2.addAnyPolicyNode

variable (policy : Bytes)

/-- `AddNodeReturningIterator`; a policy that is there already stays as it is. -/
def addNode (parentPolicies : List Bytes) : ValidPolicyGraph :=
  match g.levels with
  | [] => g.assert false
  | back :: levels =>
    if policy ∈ back then (g.assert (policy ≠ kAnyPolicyOid)).assert false
    else
      { g.assert (policy ≠ kAnyPolicyOid) with
        levels := back.insert policy ⟨parentPolicies, false, false⟩ :: levels }

def addNodeWithParentAnyPolicy : ValidPolicyGraph :=
  g.addNode policy []

/-- The node of the policy, which is there, is mapped. -/
def setMapped : ValidPolicyGraph :=
  match g.levels with
  | [] => g
  | back :: levels =>
    match back.lookup policy with
    | none => g
    | some node => { g with levels := back.insert policy { node with mapped := true } :: levels }

def addPolicyMapping (issuerPolicy subjectPolicy : Bytes) : ValidPolicyGraph :=
  let g := g.assert (issuerPolicy ≠ kAnyPolicyOid)
  let g := g.assert (subjectPolicy ≠ kAnyPolicyOid)
  match g.levels with
  | [] => g
  | back :: _ =>
    if issuerPolicy ∉ back ∧ !g.currentLevel.hasAnyPolicy then g
    else
      let g := if issuerPolicy ∉ back then g.addNode issuerPolicy [] else g
      let g := g.setMapped issuerPolicy
      { g with currentLevel := g.currentLevel.expect subjectPolicy issuerPolicy }

def deleteNode : ValidPolicyGraph :=
  match g.levels with
  | [] => g
  | back :: levels => { g with levels := back.erase policy :: levels }

/-- The loop over the levels, from the last; `marked` are the policies of the level that were
marked as reachable from the one after it. -/
def collectPolicies (userInitialPolicySet : Finset Bytes) :
    List PolicyLevel → List Bytes → Finset Bytes → Finset Bytes
  | [], _, policySet => policySet
  | level :: levels, marked, policySet =>
    let reached := level.entries.filter fun entry => entry.2.reachable || entry.1 ∈ marked
    let added := reached.filter fun entry => entry.2.parentPolicies = [] &&
      (kAnyPolicyOid ∈ userInitialPolicySet || entry.1 ∈ userInitialPolicySet)
    collectPolicies userInitialPolicySet levels (reached.flatMap (·.2.parentPolicies))
      (policySet ∪ (added.map (·.1)).toFinset)

def getUserConstrainedPolicySet (userInitialPolicySet : Finset Bytes) : Finset Bytes :=
  match g.levels with
  | [] => ∅
  | back :: _ =>
    if g.currentLevel.hasAnyPolicy then
      if kAnyPolicyOid ∈ userInitialPolicySet then {kAnyPolicyOid} else userInitialPolicySet
    else collectPolicies userInitialPolicySet g.levels back.keys ∅

end ValidPolicyGraph

end BoringSSL.Pki
