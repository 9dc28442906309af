import BoringSSL.Cbs

/-!
# `crypto/bytestring/ber.cc`

`cbsFindBer` and `cbsConvertBer` are the two walks over the input.  Both call themselves on the
contents of an element and on what comes after it, which are shorter than what they were given; the
first argument counts the calls left, and one more than the length of the input is enough
(`cbsFindBer_fuel`, `cbsConvertBer_fuel`).

The second half says what the conversion is for: an ASN.1 value has many BER encodings and, once
its constructed strings are joined, one DER encoding.
-/

namespace BoringSSL

open ByteLib

def kMaxDepth : ℕ := 128

def isStringType (tag : UInt32) : Bool :=
  tag &&& ~~~asn1Constructed ∈ ([0x4, 0xc, 0x12, 0x13, 0x14, 0x15, 0x16, 0x19, 0x1a, 0x1b, 0x1c,
    0x1e] : List UInt32)

/-- `cbs_find_ber`: `*ber_found`, or `none` where it returns zero. -/
def cbsFindBer : ℕ → Bytes → ℕ → Option Bool
  | 0, _, _ => none
  | fuel + 1, inp, depth =>
    if depth > kMaxDepth then none
    else if inp = [] then some false
    else (cbsGetAnyBerAsn1Element inp).bind fun e =>
      if e.berFound then some true
      else if e.tag &&& asn1Constructed ≠ 0 then
        if isStringType e.tag then some true
        else (cbsSkip e.out e.headerLen).bind fun contents =>
          (cbsFindBer fuel contents (depth + 1)).bind fun berFound =>
            if berFound then some true else cbsFindBer fuel e.cbs depth
      else cbsFindBer fuel e.cbs depth

def cbsGetEoc : Bytes → Option Bytes
  | 0 :: 0 :: rest => some rest
  | _ => none

/-- `out_contents` with its depth, and `child_string_tag`: the CBB an element's contents are
written to, and the tag its fragments must have. -/
def outContents (tag : UInt32) (out : Cbb) (d : ℕ) (stringTag : UInt32) :
    Option (Cbb × ℕ × UInt32) :=
  if stringTag ≠ 0 then
    if tag &&& ~~~asn1Constructed ≠ stringTag then none else some (out, d, stringTag)
  else
    let joins := tag &&& asn1Constructed ≠ 0 ∧ isStringType tag
    let outTag := if joins then tag &&& ~~~asn1Constructed else tag
    let r := cbbAddAsn1 out d outTag
    if !r.1 then none else some (r.2, d + 1, if joins then outTag else stringTag)

/-- Converts the contents of an element; `convert` is the recursive call, on a CBS and with or
without an EOC at its end. -/
def convertContents (convert : Bytes → Bool → Option (Bytes × Cbb)) (e : Asn1Element) (out : Cbb)
    (d : ℕ) : Option (Bytes × Cbb) :=
  if e.indefinite then convert e.cbs true
  else (cbsSkip e.out e.headerLen).bind fun contents =>
    if e.tag &&& asn1Constructed ≠ 0 then
      (convert contents false).map fun (_, out) => (e.cbs, out)
    else
      let r := cbbAddBytes out d contents
      if r.1 then some (e.cbs, r.2) else none

/-- `cbs_convert_ber`, writing to the CBB at depth `d` of `out`: `*in` and `*out` after it, or
`none` where it returns zero. -/
def cbsConvertBer : ℕ → Bytes → Cbb → ℕ → UInt32 → Bool → ℕ → Option (Bytes × Cbb)
  | 0, _, _, _, _, _, _ => none
  | fuel + 1, inp, out, d, stringTag, lookingForEoc, depth =>
    if depth > kMaxDepth then none
    else if inp = [] then if lookingForEoc then none else some (inp, out)
    else match if lookingForEoc then cbsGetEoc inp else none with
      | some inp => some (inp, out)
      | none =>
        (cbsGetAnyBerAsn1Element inp).bind fun e =>
        (outContents e.tag out d stringTag).bind fun (out, dContents, childStringTag) =>
        (convertContents (fun cbs eoc =>
            cbsConvertBer fuel cbs out dContents childStringTag eoc (depth + 1))
          e out dContents).bind fun (inp, out) =>
        let f := cbbFlush out d
        if f.1 then cbsConvertBer fuel inp f.2 d stringTag lookingForEoc depth else none

/-- What `CBS_asn1_ber_to_der` sets: `*in`, `*out` and `*out_storage`. -/
structure BerToDer where
  cbs : Bytes
  out : Bytes
  outStorage : Option Bytes
  deriving DecidableEq, Repr

/-- `CBS_asn1_ber_to_der`; `fill` is what fresh memory holds. -/
def cbsAsn1BerToDer (fill : UInt8) (inp : Bytes) : Option BerToDer :=
  (cbsFindBer (inp.length + 1) inp 0).bind fun conversionNeeded =>
    if !conversionNeeded then
      (cbsGetAnyAsn1Element inp).map fun e => ⟨e.cbs, e.out, none⟩
    else
      (cbsConvertBer (inp.length + 1) inp (cbbInit inp.length fill) 0 0 false 0).bind
        fun (inp, cbb) => (cbbFinish cbb).map fun data => ⟨inp, data, some data⟩

/-- A tag without its constructed bit. -/
@[ext]
structure BaseTag where
  val : UInt32
  base : val &&& asn1Constructed = 0
  ne_zero : val ≠ 0

/-- Elements one after another. -/
inductive Asn1
  | nil
  | primitive (tag : BaseTag) (contents : Bytes) (next : Asn1)
  | constructed (tag : BaseTag) (children next : Asn1)

namespace Asn1

/-- The BER encodings of the values. -/
inductive IsBer : Asn1 → Bytes → Prop
  | nil : IsBer nil []
  | primitive {tag : BaseTag} {contents len rest : Bytes} {next : Asn1}
    (hlen : BerLength contents.length len) (hnext : IsBer next rest) :
    IsBer (primitive tag contents next) (identifierOctets tag.val ++ len ++ contents ++ rest)
  | definite {tag : BaseTag} {body len rest : Bytes} {children next : Asn1}
    (hchildren : IsBer children body) (hlen : BerLength body.length len) (hnext : IsBer next rest) :
    IsBer (constructed tag children next)
      (identifierOctets (tag.val ||| asn1Constructed) ++ len ++ body ++ rest)
  | indefinite {tag : BaseTag} {body rest : Bytes} {children next : Asn1}
    (hchildren : IsBer children body) (hnext : IsBer next rest) :
    IsBer (constructed tag children next)
      (identifierOctets (tag.val ||| asn1Constructed) ++ 0x80 :: (body ++ 0 :: 0 :: rest))

/-- There is one element. -/
def Single : Asn1 → Prop
  | primitive _ _ nil | constructed _ _ nil => True
  | _ => False

def leaves : Asn1 → Bytes
  | nil => []
  | primitive _ contents next => contents ++ next.leaves
  | constructed _ children next => children.leaves ++ next.leaves

/-- The values with every constructed string made primitive. -/
def flatten : Asn1 → Asn1
  | nil => nil
  | primitive tag contents next => primitive tag contents next.flatten
  | constructed tag children next =>
    if isStringType tag.val then primitive tag children.leaves next.flatten
    else constructed tag children.flatten next.flatten

def der : Asn1 → Bytes
  | nil => []
  | primitive tag contents next => derElement tag.val contents ++ next.der
  | constructed tag children next =>
    derElement (tag.val ||| asn1Constructed) children.der ++ next.der

end Asn1

/-- What `CBS_asn1_ber_to_der` is to do with `inp`: `*out` is the DER encoding of the first value
in it and `*in` is what comes after that value, and a second call leaves `*out` as it is. -/
def ConvertsFirst (fill : UInt8) (inp : Bytes) (r : BerToDer) : Prop :=
  (∃ x : Asn1, x.Single ∧ (∃ bytes, x.IsBer bytes ∧ inp = bytes ++ r.cbs) ∧ r.out = x.flatten.der)
    ∧ cbsAsn1BerToDer fill r.out = some ⟨[], r.out, none⟩

end BoringSSL
