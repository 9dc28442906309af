import BoringSSL.Cbb
import BoringSSL.Lib.Wrap

/-!
# `crypto/base64/base64.cc`

A character is a byte.  `EncodeCtx.data` holds the first `data_used` bytes of the context's array.
What a call writes to `out` is a list, without the terminating zero, and `outLen` is `*out_len`:
the call's output is the first `outLen` bytes of what it wrote (`Call.output`).
-/

namespace BoringSSL

open ByteLib

namespace Base64

section ConstantTime

/-! The helpers of `crypto/internal.h` that the character maps use; a word has 64 bits. -/

def constantTimeMsbW (a : UInt64) : UInt64 := (0 : UInt64) - (a >>> 63)

def constantTimeIsZeroW (a : UInt64) : UInt64 := constantTimeMsbW (~~~a &&& (a - 1))

def constantTimeEq8 (a b : UInt64) : UInt8 := (constantTimeIsZeroW (a ^^^ b)).toUInt8

def constantTimeSelect8 (mask : UInt64) (a b : UInt8) : UInt8 :=
  let m := mask.toUInt8
  (m &&& a) ||| (~~~m &&& b)

def constantTimeLtArgs8 (a b : UInt8) : UInt8 :=
  (constantTimeMsbW (a.toUInt64 - b.toUInt64)).toUInt8

def constantTimeInRange8 (a min max : UInt8) : UInt8 :=
  constantTimeLtArgs8 (a - min) (max - min + 1)

end ConstantTime

section Chars

def convBin2ascii (a : UInt8) : UInt8 :=
  let a := a &&& 0x3f
  let ret := constantTimeSelect8 (constantTimeEq8 a.toUInt64 62).toUInt64
    '+'.toUInt8 '/'.toUInt8
  let ret := constantTimeSelect8 (constantTimeLtArgs8 a 62).toUInt64 (a - 52 + '0'.toUInt8) ret
  let ret := constantTimeSelect8 (constantTimeLtArgs8 a 52).toUInt64 (a - 26 + 'a'.toUInt8) ret
  constantTimeSelect8 (constantTimeLtArgs8 a 26).toUInt64 (a + 'A'.toUInt8) ret

def base64AsciiToBin (a : UInt8) : UInt8 :=
  let isUpper := constantTimeInRange8 a 'A'.toUInt8 'Z'.toUInt8
  let isLower := constantTimeInRange8 a 'a'.toUInt8 'z'.toUInt8
  let isDigit := constantTimeInRange8 a '0'.toUInt8 '9'.toUInt8
  let isPlus := constantTimeEq8 a.toUInt64 '+'.toUInt8.toUInt64
  let isSlash := constantTimeEq8 a.toUInt64 '/'.toUInt8.toUInt64
  let isEquals := constantTimeEq8 a.toUInt64 '='.toUInt8.toUInt64
  let ret := (isUpper &&& (a - 'A'.toUInt8)) ||| (isLower &&& (a - 'a'.toUInt8 + 26))
    ||| (isDigit &&& (a - '0'.toUInt8 + 52)) ||| (isPlus &&& 62) ||| (isSlash &&& 63)
  let isValid := isUpper ||| isLower ||| isDigit ||| isPlus ||| isSlash ||| isEquals
  ret ||| ~~~isValid

end Chars

section Encode

def quadChar (l : UInt32) (shift : UInt32) : UInt8 := convBin2ascii (l >>> shift).toUInt8

def evpEncodeBlock : Bytes → Bytes
  | a :: b :: c :: src =>
    let l := a.toUInt32 <<< 16 ||| b.toUInt32 <<< 8 ||| c.toUInt32
    quadChar l 18 :: quadChar l 12 :: quadChar l 6 :: quadChar l 0 :: evpEncodeBlock src
  | [a, b] =>
    let l := a.toUInt32 <<< 16 ||| b.toUInt32 <<< 8
    [quadChar l 18, quadChar l 12, quadChar l 6, '='.toUInt8]
  | [a] =>
    let l := a.toUInt32 <<< 16
    [quadChar l 18, quadChar l 12, '='.toUInt8, '='.toUInt8]
  | [] => []

end Encode

/-- `EVP_ENCODE_CTX`, as the decoder uses it. -/
structure EncodeCtx where
  data : Bytes
  eofSeen : Bool
  errorEncountered : Bool
  deriving DecidableEq, Repr

def ctxInit : EncodeCtx := ⟨[], false, false⟩

/-- What a call writes, and how much of it counts. -/
structure Call where
  written : Bytes
  outLen : ℕ
  deriving DecidableEq, Repr

def Call.output (call : Call) : Bytes := call.written.take call.outLen

def dataSize : ℕ := 48

def intMax : ℕ := 2 ^ 31 - 1

def newline : UInt8 := '\n'.toUInt8

section Encode

/-- The loop over whole lines: the input left, what has been written, and `total` unless it
overflows.  Each line takes 48 bytes, so the length of the input is enough fuel. -/
def encodeLines : ℕ → Bytes → Bytes → ℕ → Bytes × Bytes × Option ℕ
  | fuel + 1, input, written, total =>
    if input.length ≥ dataSize then
      let line := evpEncodeBlock (input.take dataSize)
      let input := input.drop dataSize
      let written := written ++ line ++ [newline]
      let next := (total + line.length + 1) % sizeMod
      if next < total then (input, written, none) else encodeLines fuel input written next
    else (input, written, some total)
  | 0, input, written, total => (input, written, some total)

def evpEncodeUpdate (ctx : EncodeCtx) (input : Bytes) : EncodeCtx × Call :=
  if input.length = 0 then (ctx, ⟨[], 0⟩)
  else if dataSize - ctx.data.length > input.length then
    ({ ctx with data := ctx.data ++ input }, ⟨[], 0⟩)
  else
    let (input, written, total) :=
      if ctx.data.length ≠ 0 then
        let todo := dataSize - ctx.data.length
        let line := evpEncodeBlock (ctx.data ++ input.take todo)
        (input.drop todo, line ++ [newline], line.length + 1)
      else (input, [], 0)
    match encodeLines input.length input written total with
    | (_, written, none) => ({ ctx with data := [] }, ⟨written, 0⟩)
    | (input, written, some total) =>
      ({ ctx with data := input }, ⟨written, if total > intMax then 0 else total⟩)

def evpEncodeFinal (ctx : EncodeCtx) : EncodeCtx × Call :=
  if ctx.data.length = 0 then (ctx, ⟨[], 0⟩)
  else
    let written := evpEncodeBlock ctx.data ++ [newline]
    ({ ctx with data := [] }, ⟨written, written.length⟩)

def encodeCalls : EncodeCtx → List Bytes → List Call
  | ctx, [] => [(evpEncodeFinal ctx).2]
  | ctx, piece :: pieces =>
    let (ctx, call) := evpEncodeUpdate ctx piece
    call :: encodeCalls ctx pieces

end Encode

section Decode

def base64DecodeQuad (in0 in1 in2 in3 : UInt8) : Option Bytes :=
  let a := base64AsciiToBin in0
  let b := base64AsciiToBin in1
  let c := base64AsciiToBin in2
  let d := base64AsciiToBin in3
  if a = 0xff ∨ b = 0xff ∨ c = 0xff ∨ d = 0xff then none
  else
    let v := a.toUInt32 <<< 18 ||| b.toUInt32 <<< 12 ||| c.toUInt32 <<< 6 ||| d.toUInt32
    let isPadding (c : UInt8) : Bool := c = '='.toUInt8
    match isPadding in0, isPadding in1, isPadding in2, isPadding in3 with
    | false, false, false, false =>
      some [(v >>> 16).toUInt8, (v >>> 8).toUInt8, v.toUInt8]
    | false, false, false, true => some [(v >>> 16).toUInt8, (v >>> 8).toUInt8]
    | false, false, true, true => some [(v >>> 16).toUInt8]
    | _, _, _, _ => none

/-- The characters the streaming decoder skips. -/
def isSpace (c : UInt8) : Bool :=
  c = ' '.toUInt8 || c = '\t'.toUInt8 || c = '\r'.toUInt8 || c = '\n'.toUInt8

def decodeChars : Bytes → EncodeCtx → Bytes → EncodeCtx × Bytes × Bool
  | [], ctx, written => (ctx, written, true)
  | c :: input, ctx, written =>
    if isSpace c then decodeChars input ctx written
    else if ctx.eofSeen then ({ ctx with errorEncountered := true }, written, false)
    else
      let ctx := { ctx with data := ctx.data ++ [c] }
      match ctx.data with
      | [in0, in1, in2, in3] =>
        match base64DecodeQuad in0 in1 in2 in3 with
        | none => ({ ctx with errorEncountered := true }, written, false)
        | some bytes =>
          let eofSeen := if bytes.length < 3 then true else ctx.eofSeen
          decodeChars input { ctx with data := [], eofSeen } (written ++ bytes)
      | _ => decodeChars input ctx written

def evpDecodeUpdate (ctx : EncodeCtx) (input : Bytes) : EncodeCtx × Call × ℤ :=
  if ctx.errorEncountered then (ctx, ⟨[], 0⟩, -1)
  else
    match decodeChars input ctx [] with
    | (ctx, written, false) => (ctx, ⟨written, 0⟩, -1)
    | (ctx, written, true) =>
      if written.length > intMax then
        ({ ctx with errorEncountered := true }, ⟨written, 0⟩, -1)
      else (ctx, ⟨written, written.length⟩, if ctx.eofSeen then 0 else 1)

def evpDecodeFinal (ctx : EncodeCtx) : ℤ :=
  if ctx.errorEncountered ∨ ctx.data.length ≠ 0 then -1 else 1

/-- The calls that decode a sequence of pieces, and what `EVP_DecodeFinal` then returns. -/
def decodeCalls : EncodeCtx → List Bytes → List (Call × ℤ) × ℤ
  | ctx, [] => ([], evpDecodeFinal ctx)
  | ctx, piece :: pieces =>
    let (ctx, call) := evpDecodeUpdate ctx piece
    let (calls, final) := decodeCalls ctx pieces
    (call :: calls, final)

def evpDecodedLength (len : ℕ) : Option ℕ := if len % 4 ≠ 0 then none else some (len / 4 * 3)

/-- The loop of `EVP_DecodeBase64`; the length of its input is a multiple of four. -/
def decodeQuads : Bytes → Option Bytes
  | [] => some []
  | in0 :: in1 :: in2 :: in3 :: input => do
    let bytes ← base64DecodeQuad in0 in1 in2 in3
    if bytes.length ≠ 3 ∧ input ≠ [] then none
    else return bytes ++ (← decodeQuads input)
  | _ => none

def evpDecodeBase64 (maxOut : ℕ) (input : Bytes) : Option Bytes := do
  if input.length % 4 ≠ 0 then none
  else
    let maxLen ← evpDecodedLength input.length
    if maxOut < maxLen then none else decodeQuads input

end Decode

variable (pieces : List Bytes)

def encodeAll : Bytes := (encodeCalls ctxInit pieces).flatMap (·.output)

/-- The outputs of calls that decode, if none of them reports an error. -/
def collect (r : List (Call × ℤ) × ℤ) : Option Bytes :=
  if (∀ call ∈ r.1, call.2 ≠ -1) ∧ r.2 = 1 then some (r.1.flatMap (·.1.output)) else none

def decodeAll : Option Bytes := collect (decodeCalls ctxInit pieces)

/-- The text without the characters the streaming decoder skips. -/
def strip (text : Bytes) : Bytes := text.filter fun c => !isSpace c

/-- No call writes more than `INT_MAX` characters. -/
def EncodeFits : Prop :=
  ∀ call ∈ encodeCalls ctxInit pieces, call.written.length ≤ intMax

/-- No call writes more than `INT_MAX` bytes. -/
def DecodeFits : Prop :=
  ∀ call ∈ (decodeCalls ctxInit pieces).1, call.1.written.length ≤ intMax

end Base64

end BoringSSL
