import BoringSSL.Bn

/-!
# Groups, scalars and points

From `crypto/fipsmodule/ec`: scalars are numbers below the order of the group, field elements are
numbers below the prime in Montgomery form, and points are in Jacobian coordinates.  The functions
of a method that multiply points by scalars are given.
-/

namespace BoringSSL.Ec

open ByteLib Bn

/-- A point in Jacobian coordinates. -/
structure EcJacobian where
  X : ℕ
  Y : ℕ
  Z : ℕ
  deriving DecidableEq, Repr

/-- A point in affine coordinates. -/
structure EcAffine where
  X : ℕ
  Y : ℕ
  deriving DecidableEq, Repr

/-- `EC_GFp_mont_method` and `EC_GFp_nistp256_method`; those of `nistp224` and `nistz256` are not
modelled. -/
inductive EcMethod where
  | mont | nistp256
  deriving DecidableEq, Repr

def p256 : ℕ := 2 ^ 256 - 2 ^ 224 + 2 ^ 192 + 2 ^ 96 - 1

/-- `EC_GROUP` and its method. -/
structure EcGroup where
  field : BnMontCtx
  order : BnMontCtx
  a : ℕ
  b : ℕ
  aIsMinus3 : Bool
  meth : EcMethod
  mulBase : ℕ → EcJacobian
  mulPublic : ℕ → EcJacobian → ℕ → Ret EcJacobian
  field_gt : 3 < field.N
  order_gt : 1 < order.N
  /-- `EC_GROUP_set_generator` enforces this for other groups than the built-in ones. -/
  field_lt : field.N < 2 * order.N
  a_lt : a < field.N
  b_lt : b < field.N
  minus3 : aIsMinus3 = true → field.decode a = -3
  nistp256 : meth = .nistp256 →
    field.N = p256 ∧ order.N < field.N ∧ field.width = order.width

namespace EcGroup

variable (group : EcGroup)

def fieldGreaterThanOrder : Bool := decide (group.order.N < group.field.N)

variable (a : ℕ)

def ecScalarIsZero : Bool := a == 0

def ecScalarEqualVartime (a b : ℕ) : Bool := a == b

def ecScalarToBytes (input : ℕ) : Ret Bytes :=
  bnWordsToBigEndian (bnNumBytes group.order.N) input

def ecScalarFromBytes (input : Bytes) : Ret ℕ := do
  if input.length ≠ bnNumBytes group.order.N then
    put .ecInvalidScalar
  else
    let out ← bnBigEndianToWords group.order.width input
    if group.order.N ≤ out then put .ecInvalidScalar else return out

def ecScalarAdd (a b : ℕ) : Ret ℕ := bnModAddWords group.order.width a b group.order.N

def ecScalarToMontgomery : ℕ := group.order.toMont a

def ecScalarFromMontgomery : ℕ := group.order.redc a

def ecScalarMulMontgomery (a b : ℕ) : ℕ := group.order.mul a b

def ecScalarInv0Montgomery : ℕ := bnModInverse0PrimeMontSmall group.order a

/-- `none` is the return value 0, without an error. -/
def ecScalarToMontgomeryInvVartime : Option ℕ :=
  if ecScalarIsZero a then none
  else some (group.ecScalarFromMontgomery (group.ecScalarInv0Montgomery a))

def ecFelemAdd (a b : ℕ) : Ret ℕ := bnModAddWords group.field.width a b group.field.N

def ecFelemSub (a b : ℕ) : ℕ := bnModSubWords group.field.width a b group.field.N

def ecFelemEqual (a b : ℕ) : Bool := a == b

def felemMul (a b : ℕ) : ℕ := group.field.mul a b

def felemSqr : ℕ := group.field.mul a a

def felemFromMontgomery : ℕ := group.field.redc a

def felemInv0 : ℕ := bnModInverse0PrimeMontSmall group.field a

def felemToBytes (input : ℕ) : Ret Bytes :=
  bnWordsToBigEndian (bnNumBytes group.field.N) (group.felemFromMontgomery input)

def felemSqrN : ℕ → ℕ → ℕ
  | 0, a => a
  | n + 1, a => felemSqrN n (group.felemSqr a)

def p256InvSquare (input : ℕ) : ℕ :=
  let x2 := group.felemMul (group.felemSqr input) input
  let x3 := group.felemMul (group.felemSqr x2) input
  let x6 := group.felemMul (group.felemSqrN 3 x3) x3
  let x12 := group.felemMul (group.felemSqrN 6 x6) x6
  let x15 := group.felemMul (group.felemSqrN 3 x12) x3
  let x30 := group.felemMul (group.felemSqrN 15 x15) x15
  let x32 := group.felemMul (group.felemSqrN 2 x30) x2
  let ret := group.felemMul (group.felemSqrN 32 x32) input
  let ret := group.felemMul (group.felemSqrN 128 ret) x32
  let ret := group.felemMul (group.felemSqrN 32 ret) x32
  let ret := group.felemMul (group.felemSqrN 30 ret) x30
  group.felemSqrN 2 ret

variable (point : EcJacobian)

def simpleIsAtInfinity : Bool := point.Z == 0

/-- `rh + aZ⁴`, where `a` may be known to be `-3`. -/
def addAZ4 (rh z4 : ℕ) : Ret ℕ :=
  if group.aIsMinus3 then do
    let tmp ← group.ecFelemAdd z4 z4
    let tmp ← group.ecFelemAdd tmp z4
    return group.ecFelemSub rh tmp
  else
    group.ecFelemAdd rh (group.felemMul z4 group.a)

/-- `Y² = X³ + aXZ⁴ + bZ⁶`, which the point at infinity need not meet. -/
def simpleIsOnCurve : Ret Bool := do
  let rh := group.felemSqr point.X
  let tmp := group.felemSqr point.Z
  let z4 := group.felemSqr tmp
  let z6 := group.felemMul z4 tmp
  let rh ← group.addAZ4 rh z4
  let rh := group.felemMul rh point.X
  let rh ← group.ecFelemAdd rh (group.felemMul group.b z6)
  let notEqual := group.ecFelemSub (group.felemSqr point.Y) rh != 0
  let notInfinity := point.Z != 0
  return !(notInfinity && notEqual)

def pointGetAffineX : Ret ℕ :=
  if simpleIsAtInfinity point then put .ecPointAtInfinity
  else match group.meth with
    | .mont => return group.felemMul point.X (group.felemSqr (group.felemInv0 point.Z))
    | .nistp256 => return group.felemMul point.X (group.p256InvSquare point.Z)

variable (p : EcJacobian)

def ecGetXCoordinateAsBytes : Ret Bytes := do
  let x ← group.pointGetAffineX p
  group.felemToBytes x

def ecGetXCoordinateAsScalar : Ret ℕ := do
  let bytes ← group.ecGetXCoordinateAsBytes p
  let words ← bnBigEndianToWords (group.order.width + 1) bytes
  -- the last word is passed apart, as the carry
  bnReduceOnce group.order.width (words % 2 ^ (64 * group.order.width))
    (words / 2 ^ (64 * group.order.width)) group.order.N

/-- The function does not put errors: it returns 0 where its callee fails. -/
def simpleCmpXCoordinate (r : ℕ) : Ret Bool := do
  if simpleIsAtInfinity p then return false
  match group.ecGetXCoordinateAsScalar p with
  | .ok x => return ecScalarEqualVartime x r
  | .error (.put _) => return false
  | .error .abort => .error .abort

/-- `X` against `r * Z²`, and against `(r + order) * Z²` where that is below the prime: `X` and `Z²`
are in Montgomery form and `r` is not. -/
def cmpXByProduct (r : ℕ) : Bool :=
  let z2Mont := group.felemMul p.Z p.Z
  let x := group.felemFromMontgomery p.X
  if ecFelemEqual (group.felemMul r z2Mont) x then true
  else
    let (sum, carry) := bnAddWords group.field.width r group.order.N
    if carry = 0 ∧ sum < group.field.N then ecFelemEqual (group.felemMul sum z2Mont) x
    else false

def montCmpXCoordinate (r : ℕ) : Ret Bool :=
  if !group.fieldGreaterThanOrder || group.field.width != group.order.width then
    group.simpleCmpXCoordinate p r
  else if simpleIsAtInfinity p then return false
  else return group.cmpXByProduct p r

def nistp256CmpXCoordinate (r : ℕ) : Ret Bool :=
  if simpleIsAtInfinity p then return false
  else return group.cmpXByProduct p r

def ecCmpXCoordinate (r : ℕ) : Ret Bool :=
  match group.meth with
  | .mont => group.montCmpXCoordinate p r
  | .nistp256 => group.nistp256CmpXCoordinate p r

def ecPointMulScalarBase (scalar : ℕ) : Ret EcJacobian := do
  let r := group.mulBase scalar
  if ← group.simpleIsOnCurve r then return r else put .ecInternalError

def ecPointMulScalarPublic (gScalar : ℕ) (p : EcJacobian) (pScalar : ℕ) : Ret EcJacobian :=
  group.mulPublic gScalar p pScalar

/-- The products of the first `Z`, kept as the `X` of the output, up to an index. -/
def prefixProducts (input : ℕ → EcJacobian) (out : ℕ → EcAffine) : ℕ → ℕ → EcAffine
  | 0 => Function.update out 0 { out 0 with X := (input 0).Z }
  | i + 1 =>
    let out := prefixProducts input out i
    Function.update out (i + 1)
      { out (i + 1) with X := group.felemMul (out i).X (input (i + 1)).Z }

def affineByInverse (zinv : ℕ) : EcAffine :=
  let zinv2 := group.felemSqr zinv
  ⟨group.felemMul point.X zinv2, group.felemMul (group.felemMul point.Y zinv2) zinv⟩

/-- The second loop of `ec_GFp_mont_jacobian_to_affine_batch`, from an index down. -/
def affineLoop (input : ℕ → EcJacobian) : ℕ → ℕ → (ℕ → EcAffine) → ℕ → EcAffine
  | 0, zinvprod, out => Function.update out 0 (group.affineByInverse (input 0) zinvprod)
  | i + 1, zinvprod, out =>
    let zinv := group.felemMul zinvprod (out i).X
    affineLoop input i (group.felemMul zinvprod (input (i + 1)).Z)
      (Function.update out (i + 1) (group.affineByInverse (input (i + 1)) zinv))

/-- An inversion; the state counts them. -/
def countedInv0 : StateM ℕ ℕ := do
  modify (· + 1)
  return group.felemInv0 a

def jacobianToAffineBatch (out : ℕ → EcAffine) (input : ℕ → EcJacobian) :
    ℕ → StateM ℕ (Ret (ℕ → EcAffine))
  | 0 => return .ok out
  | num + 1 => do
    let out := group.prefixProducts input out num
    if (out num).X = 0 then return put .ecPointAtInfinity
    else do
      let zinvprod ← group.countedInv0 (out num).X
      return .ok (group.affineLoop input num zinvprod out)

end EcGroup

end BoringSSL.Ec
