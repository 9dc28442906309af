import BoringSSL.Base64
import BoringSSL.Lib.Bits
import Mathlib

/-!
# Streaming and one-shot Base64

A call that encodes takes whole lines off the front of what is left to encode
(`evpEncodeUpdate_spec`), and a call that decodes takes quads off the front of the text without its
spaces (`evpDecodeUpdate_spec`); so the calls together do what one shot does.
-/

namespace BoringSSL

open ByteLib Wrap List

variable {x y : ℕ} {l : UInt32} {piece bytes input : Bytes} {in0 in1 in2 in3 : UInt8}
  {pieces : List Bytes} {i k : ℕ} {src : Bytes} {ctx : EncodeCtx}

namespace Base64

section Chars

lemma base64AsciiToBin_convBin2ascii (a : UInt8) :
    base64AsciiToBin (convBin2ascii a) = a &&& 0x3f :=
  forall_byte (P := fun a => base64AsciiToBin (convBin2ascii a) = a &&& 0x3f) (by decide +kernel) a

lemma convBin2ascii_ne (a : UInt8) : convBin2ascii a ≠ '='.toUInt8
    ∧ isSpace (convBin2ascii a) = false :=
  forall_byte (P := fun a => convBin2ascii a ≠ '='.toUInt8 ∧ isSpace (convBin2ascii a) = false)
    (by decide +kernel) a

lemma and_3f_ne_ff (a : UInt8) : a &&& 0x3f ≠ 0xff :=
  forall_byte (P := fun a => a &&& 0x3f ≠ 0xff) (by decide +kernel) a

lemma base64AsciiToBin_padding : base64AsciiToBin '='.toUInt8 = 0 := by decide +kernel

end Chars

section Quads

lemma or_eq_add (hx : 2 ^ i ∣ x) (hy : y < 2 ^ i) : x ||| y = x + y := by
  obtain ⟨k, rfl⟩ := hx
  rw [mul_comm, ← Nat.shiftLeft_eq, Nat.shiftLeft_add_eq_or_of_lt hy]

lemma or_dvd (hx : 2 ^ i ∣ x) (hy : 2 ^ i ∣ y) : 2 ^ i ∣ x ||| y := by
  obtain ⟨k, rfl⟩ := hx
  obtain ⟨l, rfl⟩ := hy
  rw [mul_comm, mul_comm _ l, ← Nat.shiftLeft_eq, ← Nat.shiftLeft_eq,
    ← Nat.shiftLeft_or_distrib, Nat.shiftLeft_eq]
  exact Nat.dvd_mul_left _ _

lemma toNat_shiftLeft {x : UInt8} (hi : i ≤ 18) :
    (x.toUInt32 <<< UInt32.ofNat i).toNat = x.toNat * 2 ^ i % 2 ^ 32 := by
  rw [UInt32.toNat_shiftLeft, UInt8.toNat_toUInt32, UInt32.toNat_ofNat',
    Nat.mod_eq_of_lt (show i < 2 ^ 32 by omega), Nat.mod_eq_of_lt (show i < 32 by omega),
    Nat.shiftLeft_eq]

def sextet (l : UInt32) (shift : UInt32) : UInt8 := (l >>> shift).toUInt8 &&& 0x3f

lemma sextet_toNat (l : UInt32) (hi : i ≤ 18) :
    (sextet l (UInt32.ofNat i)).toNat = l.toNat / 2 ^ i % 64 := by
  have h3f : (0x3f : UInt8).toNat = 2 ^ 6 - 1 := rfl
  rw [sextet, UInt8.toNat_and, h3f, Nat.and_two_pow_sub_one_eq_mod, UInt32.toNat_toUInt8,
    UInt32.toNat_shiftRight, UInt32.toNat_ofNat', Nat.mod_eq_of_lt (show i < 2 ^ 32 by omega),
    Nat.mod_eq_of_lt (show i < 32 by omega), Nat.shiftRight_eq_div_pow]
  omega

lemma join_sextets (h : l.toNat < 2 ^ 24) :
    (sextet l 18).toUInt32 <<< 18 ||| (sextet l 12).toUInt32 <<< 12
      ||| (sextet l 6).toUInt32 <<< 6 ||| (sextet l 0).toUInt32 = l := by
  apply UInt32.toNat_inj.mp
  simp only [UInt32.toNat_or, UInt8.toNat_toUInt32]
  have h18 := sextet_toNat l (i := 18) (by omega)
  have h12 := sextet_toNat l (i := 12) (by omega)
  have h6 := sextet_toNat l (i := 6) (by omega)
  have h0 := sextet_toNat l (i := 0) (by omega)
  have s18 := toNat_shiftLeft (x := sextet l 18) (i := 18) (by omega)
  have s12 := toNat_shiftLeft (x := sextet l 12) (i := 12) (by omega)
  have s6 := toNat_shiftLeft (x := sextet l 6) (i := 6) (by omega)
  simp only [UInt32.reduceOfNat] at h18 h12 h6 h0 s18 s12 s6
  rw [or_eq_add (i := 6) (or_dvd (or_dvd (by omega) (by omega)) (by omega)) (by omega),
    or_eq_add (i := 12) (or_dvd (by omega) (by omega)) (by omega),
    or_eq_add (i := 18) (by omega) (by omega)]
  omega

lemma join_bytes (a b c : UInt8) :
    (a.toUInt32 <<< 16 ||| b.toUInt32 <<< 8 ||| c.toUInt32).toNat
      = a.toNat * 2 ^ 16 + b.toNat * 2 ^ 8 + c.toNat := by
  have ha := a.toNat_lt
  have hb := b.toNat_lt
  have hc := c.toNat_lt
  have s16 := toNat_shiftLeft (x := a) (i := 16) (by omega)
  have s8 := toNat_shiftLeft (x := b) (i := 8) (by omega)
  simp only [UInt32.reduceOfNat] at s16 s8
  simp only [UInt32.toNat_or, UInt8.toNat_toUInt32]
  rw [or_eq_add (i := 8) (or_dvd (by omega) (by omega)) (by omega),
    or_eq_add (i := 16) (by omega) (by omega)]
  omega

lemma byte_of_word {a : UInt8} (hi : i ≤ 18) (h : l.toNat / 2 ^ i % 256 = a.toNat) :
    (l >>> UInt32.ofNat i).toUInt8 = a := by
  apply UInt8.toNat_inj.mp
  rw [UInt32.toNat_toUInt8, UInt32.toNat_shiftRight, UInt32.toNat_ofNat',
    Nat.mod_eq_of_lt (show i < 2 ^ 32 by omega), Nat.mod_eq_of_lt (show i < 32 by omega),
    Nat.shiftRight_eq_div_pow]
  exact h

lemma base64AsciiToBin_quadChar (l shift : UInt32) :
    base64AsciiToBin (quadChar l shift) = sextet l shift :=
  base64AsciiToBin_convBin2ascii _

lemma sextet_ne_ff (l shift : UInt32) : sextet l shift ≠ 0xff := and_3f_ne_ff _

lemma quadChar_ne (l shift : UInt32) : quadChar l shift ≠ '='.toUInt8 := (convBin2ascii_ne _).1

section Word

variable {a b c : UInt8} {l : UInt32} (h : l.toNat = a.toNat * 2 ^ 16 + b.toNat * 2 ^ 8 + c.toNat)
include h

lemma bytes_of_word :
    (l >>> 16).toUInt8 = a ∧ (l >>> 8).toUInt8 = b ∧ l.toUInt8 = c := by
  have ha := a.toNat_lt
  have hb := b.toNat_lt
  have hc := c.toNat_lt
  refine ⟨byte_of_word (i := 16) (by omega) (by omega), byte_of_word (i := 8) (by omega) (by omega),
    UInt8.toNat_inj.mp ?_⟩
  rw [UInt32.toNat_toUInt8]
  omega

lemma word_lt : l.toNat < 2 ^ 24 := by
  have ha := a.toNat_lt
  have hb := b.toNat_lt
  have hc := c.toNat_lt
  omega

lemma base64DecodeQuad_three : base64DecodeQuad (quadChar l 18) (quadChar l 12) (quadChar l 6)
    (quadChar l 0) = some [a, b, c] := by
  obtain ⟨ha, hb, hc⟩ := bytes_of_word h
  simp only [base64DecodeQuad, base64AsciiToBin_quadChar, sextet_ne_ff, quadChar_ne,
    join_sextets (word_lt h), ha, hb, hc, or_self, if_false, decide_false]

lemma base64DecodeQuad_two (hc : c = 0) : base64DecodeQuad (quadChar l 18) (quadChar l 12)
    (quadChar l 6) '='.toUInt8 = some [a, b] := by
  obtain ⟨ha, hb, -⟩ := bytes_of_word h
  have h0 : sextet l 0 = 0 := by
    apply UInt8.toNat_inj.mp
    rw [show (0 : UInt32) = UInt32.ofNat 0 from rfl, sextet_toNat l (by omega)]
    subst hc
    simp at h ⊢
    omega
  have hjoin := join_sextets (word_lt h)
  rw [h0] at hjoin
  simp only [base64DecodeQuad, base64AsciiToBin_quadChar, base64AsciiToBin_padding, sextet_ne_ff,
    quadChar_ne, hjoin, ha, hb, show ¬ (0 : UInt8) = 0xff by decide, or_self, if_false,
    decide_false, decide_true]

lemma base64DecodeQuad_one (hb : b = 0) (hc : c = 0) : base64DecodeQuad (quadChar l 18)
    (quadChar l 12) '='.toUInt8 '='.toUInt8 = some [a] := by
  obtain ⟨ha, -, -⟩ := bytes_of_word h
  have h0 : sextet l 0 = 0 ∧ sextet l 6 = 0 := by
    subst hb hc
    constructor <;> apply UInt8.toNat_inj.mp
    · rw [show (0 : UInt32) = UInt32.ofNat 0 from rfl, sextet_toNat l (by omega)]
      simp at h ⊢
      omega
    · rw [show (6 : UInt32) = UInt32.ofNat 6 from rfl, sextet_toNat l (by omega)]
      simp at h ⊢
      omega
  have hjoin := join_sextets (word_lt h)
  rw [h0.1, h0.2] at hjoin
  simp only [base64DecodeQuad, base64AsciiToBin_quadChar, base64AsciiToBin_padding, sextet_ne_ff,
    quadChar_ne, hjoin, ha, show ¬ (0 : UInt8) = 0xff by decide, or_self, if_false,
    decide_false, decide_true]

end Word

lemma decodeQuads_evpEncodeBlock : ∀ src : Bytes, decodeQuads (evpEncodeBlock src) = some src
  | [] => rfl
  | [a] => by
    have h := join_bytes a 0 0
    simp only [show (0 : UInt8).toUInt32 = 0 from rfl, UInt32.zero_shiftLeft, UInt32.or_zero] at h
    simp [evpEncodeBlock, decodeQuads, base64DecodeQuad_one h rfl rfl]
  | [a, b] => by
    have h := join_bytes a b 0
    simp only [show (0 : UInt8).toUInt32 = 0 from rfl, UInt32.or_zero] at h
    simp [evpEncodeBlock, decodeQuads, base64DecodeQuad_two h rfl]
  | a :: b :: c :: src => by
    simp [evpEncodeBlock, decodeQuads, base64DecodeQuad_three (join_bytes a b c),
      decodeQuads_evpEncodeBlock src]

end Quads

section Encode

lemma evpEncodeBlock_length : ∀ src : Bytes, (evpEncodeBlock src).length = (src.length + 2) / 3 * 4
  | [] => rfl
  | [_] => by simp [evpEncodeBlock]
  | [_, _] => by simp [evpEncodeBlock]
  | _ :: _ :: _ :: src => by
    simp only [evpEncodeBlock, length_cons, evpEncodeBlock_length src]
    omega

lemma evpEncodeBlock_append (rest : Bytes) : ∀ {k : ℕ} {src : Bytes}, src.length = k * 3 →
    evpEncodeBlock (src ++ rest) = evpEncodeBlock src ++ evpEncodeBlock rest
  | 0, [], _ => rfl
  | k + 1, a :: b :: c :: src, h => by
    simp only [length_cons] at h
    have hrec := evpEncodeBlock_append rest (show src.length = k * 3 by omega)
    simp [evpEncodeBlock, hrec]
  | k + 1, [], h => by simp at h
  | k + 1, [_], h => by simp at h; omega
  | k + 1, [_, _], h => by simp at h; omega

/-- The text of a byte string, in lines of 64 characters. -/
def encoded (src : Bytes) : Bytes := wrap 64 newline (evpEncodeBlock src)

@[simp] lemma encoded_nil : encoded [] = [] := wrap_nil

lemma encoded_append (rest : Bytes) (h : src.length = k * dataSize) :
    encoded (src ++ rest) = encoded src ++ encoded rest := by
  unfold dataSize at h
  have hlen : (evpEncodeBlock src).length = k * 64 := by
    rw [evpEncodeBlock_length]
    omega
  rw [encoded, evpEncodeBlock_append (k := k * 16) rest (by omega), wrap_append (by omega) _ hlen]
  rfl

lemma encoded_short (h : src ≠ []) (hle : src.length ≤ dataSize) :
    encoded src = evpEncodeBlock src ++ [newline] := by
  have hpos := length_pos_iff.mpr h
  have hlen := evpEncodeBlock_length src
  unfold dataSize at hle
  refine wrap_short (ne_nil_of_length_pos ?_) ?_ <;> omega

/-- The loop encodes whole lines, and counts what it has written unless that is too much. -/
lemma encodeLines_spec : ∀ {fuel : ℕ} {input written : Bytes} {total : ℕ},
    input.length ≤ fuel → written.length = total →
    ∀ input' written' total', encodeLines fuel input written total = (input', written', total') →
      ∃ full k, input = full ++ input' ∧ full.length = k * dataSize
        ∧ written' = written ++ encoded full
        ∧ (total' = some written'.length ∧ input'.length < dataSize
          ∨ total' = none ∧ intMax < written'.length)
  | 0, input, written, total, hfuel, htotal, input', written', total', hrun => by
    obtain ⟨rfl, rfl, rfl⟩ : input = input' ∧ written = written' ∧ some total = total' := by
      simpa [encodeLines] using hrun
    exact ⟨[], 0, rfl, by simp, by simp, .inl ⟨by rw [htotal], by unfold dataSize; omega⟩⟩
  | fuel + 1, input, written, total, hfuel, htotal, input', written', total', hrun => by
    rw [encodeLines] at hrun
    split_ifs at hrun with hlen
    · have htake : (input.take dataSize).length = dataSize := by
        rw [length_take]
        omega
      have hline : encoded (input.take dataSize)
          = evpEncodeBlock (input.take dataSize) ++ [newline] :=
        encoded_short (ne_nil_of_length_pos (by rw [htake]; decide)) htake.le
      have hwritten : (written ++ encoded (input.take dataSize)).length = total + 65 := by
        rw [hline, length_append, length_append, evpEncodeBlock_length, htake, htotal]
        rfl
      dsimp only at hrun
      rw [evpEncodeBlock_length, htake, append_assoc, ← hline] at hrun
      split_ifs at hrun with hover
      · obtain ⟨rfl, rfl, rfl⟩ := by simpa using hrun
        refine ⟨input.take dataSize, 1, by simp, by simp [htake], rfl, .inr ⟨rfl, ?_⟩⟩
        unfold dataSize sizeMod at hover
        unfold intMax
        omega
      · have hnext : (total + (dataSize + 2) / 3 * 4 + 1) % sizeMod = total + 65 := by
          unfold dataSize sizeMod at *
          omega
        rw [hnext] at hrun
        obtain ⟨full, k, hinput, hfull, hwritten', hfits⟩ := encodeLines_spec
          (by rw [length_drop]; unfold dataSize at *; omega) hwritten _ _ _ hrun
        refine ⟨input.take dataSize ++ full, k + 1, ?_, ?_, ?_, hfits⟩
        · rw [append_assoc, ← hinput, take_append_drop]
        · rw [length_append, htake, hfull]
          ring
        · rw [hwritten', encoded_append (k := 1) full (by simp [htake]), append_assoc]
    · obtain ⟨rfl, rfl, rfl⟩ : input = input' ∧ written = written' ∧ some total = total' := by
        simpa using hrun
      exact ⟨[], 0, rfl, by simp, by simp, .inl ⟨by rw [htotal], by omega⟩⟩

/-- A call encodes whole lines of what was kept and given, all of them unless they are too many. -/
lemma evpEncodeUpdate_spec (hctx : ctx.data.length < dataSize) :
    ∀ ctx' call, evpEncodeUpdate ctx piece = (ctx', call) →
      ∃ full rest k, ctx.data ++ piece = full ++ rest ∧ full.length = k * dataSize
        ∧ call.written = encoded full
        ∧ (ctx'.data = rest ∧ rest.length < dataSize
            ∧ call.outLen = (if call.written.length > intMax then 0 else call.written.length)
          ∨ ctx'.data = [] ∧ call.outLen = 0 ∧ intMax < call.written.length) := by
  intro ctx' call hrun
  rw [evpEncodeUpdate] at hrun
  by_cases hempty : piece.length = 0
  · rw [if_pos hempty] at hrun
    cases hrun
    exact ⟨[], ctx.data, 0, by simp [length_eq_zero_iff.mp hempty], by simp, by simp,
      .inl ⟨rfl, hctx, rfl⟩⟩
  rw [if_neg hempty] at hrun
  by_cases hshort : dataSize - ctx.data.length > piece.length
  · rw [if_pos hshort] at hrun
    cases hrun
    exact ⟨[], ctx.data ++ piece, 0, rfl, by simp, by simp, .inl ⟨rfl, by simp; omega, rfl⟩⟩
  -- what is kept is made up to a line first
  obtain ⟨⟨input₀, written₀, total₀⟩, hfirst⟩ : ∃ r, (if ctx.data.length ≠ 0 then
      (piece.drop (dataSize - ctx.data.length),
        evpEncodeBlock (ctx.data ++ piece.take (dataSize - ctx.data.length)) ++ [newline],
        (evpEncodeBlock (ctx.data ++ piece.take (dataSize - ctx.data.length))).length + 1)
    else (piece, [], 0)) = r := ⟨_, rfl⟩
  have hstart : ∃ line j, ctx.data ++ piece = line ++ input₀ ∧ line.length = j * dataSize
      ∧ written₀ = encoded line ∧ written₀.length = total₀ := by
    split_ifs at hfirst with hdata
    · obtain ⟨rfl, rfl, rfl⟩ := by simpa using hfirst
      have hline : (ctx.data ++ piece.take (dataSize - ctx.data.length)).length = dataSize := by
        rw [length_append, length_take]
        omega
      refine ⟨_, 1, ?_, by rw [hline]; simp, (encoded_short ?_ hline.le).symm, by simp⟩
      · rw [append_assoc, take_append_drop]
      · exact ne_nil_of_length_pos (by rw [hline]; decide)
    · obtain ⟨rfl, rfl, rfl⟩ := by simpa using hfirst
      have : ctx.data = [] := length_eq_zero_iff.mp (by omega)
      exact ⟨[], 0, by simp [this], by simp, by simp, rfl⟩
  obtain ⟨line, j, hsplit, hline, rfl, htotal⟩ := hstart
  obtain ⟨⟨input', written', total'⟩, hlines⟩ :
    ∃ r, encodeLines input₀.length input₀ (encoded line) total₀ = r := ⟨_, rfl⟩
  obtain ⟨full, k, rfl, hfull, rfl, hcount⟩ := encodeLines_spec le_rfl htotal _ _ _ hlines
  refine ⟨line ++ full, input', j + k, by rw [hsplit, append_assoc], ?_, ?_⟩
  · rw [length_append, hline, hfull]
    ring
  rw [encoded_append full hline]
  rcases hcount with ⟨rfl, hlt⟩ | ⟨rfl, hbig⟩
  · grind
  · grind

lemma evpEncodeFinal_output (hctx : ctx.data.length < dataSize) :
    (evpEncodeFinal ctx).2.output = encoded ctx.data := by
  rw [evpEncodeFinal]
  split_ifs with hdata
  · rw [length_eq_zero_iff.mp hdata]
    simp [Call.output]
  · rw [encoded_short (fun h => hdata (by simp [h])) hctx.le]
    simp [Call.output]

lemma encodeCalls_output : ∀ {pieces : List Bytes} {ctx : EncodeCtx},
    ctx.data.length < dataSize → (∀ call ∈ encodeCalls ctx pieces, call.written.length ≤ intMax) →
    (encodeCalls ctx pieces).flatMap (·.output) = encoded (ctx.data ++ pieces.flatten)
  | [], ctx, hctx, _ => by
    simp [encodeCalls, evpEncodeFinal_output hctx]
  | piece :: pieces, ctx, hctx, hfits => by
    obtain ⟨⟨ctx', call⟩, hcall⟩ : ∃ r, evpEncodeUpdate ctx piece = r := ⟨_, rfl⟩
    simp only [encodeCalls, hcall, forall_mem_cons] at hfits
    obtain ⟨full, rest, k, hsplit, hfull, hwritten, ⟨rfl, hctx', hlen⟩ | ⟨-, -, hbig⟩⟩ :=
      evpEncodeUpdate_spec hctx _ _ hcall
    · have hout : call.output = encoded full := by
        rw [Call.output, hlen, if_neg (not_lt.mpr hfits.1), take_length, hwritten]
      simp only [encodeCalls, hcall, flatMap_cons, encodeCalls_output hctx' hfits.2, hout,
        flatten_cons]
      rw [← encoded_append _ hfull, ← append_assoc, ← hsplit, append_assoc]
    · exact absurd hfits.1 (not_le.mpr hbig)

end Encode

section Decode

lemma base64DecodeQuad_length
    (h : base64DecodeQuad in0 in1 in2 in3 = some bytes) : bytes.length ≤ 3 := by
  unfold base64DecodeQuad at h
  dsimp only at h
  split_ifs at h
  split at h <;> simp_all only [Option.some.injEq, reduceCtorEq] <;> subst h <;> simp

/-- What one-shot decoding makes of the characters left, after the padding has been seen or not. -/
def decodeRest (eofSeen : Bool) (chars : Bytes) : Option Bytes :=
  if eofSeen then if chars = [] then some [] else none else decodeQuads chars

/-- The decoder waits for the rest of a group. -/
structure Waiting (ctx : EncodeCtx) : Prop where
  short : ctx.data.length < 4
  done : ctx.eofSeen = true → ctx.data = []
  ok : ctx.errorEncountered = false

lemma decodeRest_quad (h : base64DecodeQuad in0 in1 in2 in3 = some bytes) (rest : Bytes) :
    decodeRest false (in0 :: in1 :: in2 :: in3 :: rest)
      = (decodeRest (decide (bytes.length < 3)) rest).map (bytes ++ ·) := by
  have hlen := base64DecodeQuad_length h
  simp only [decodeRest, decodeQuads, h, Bool.false_eq_true, if_false]
  by_cases hshort : bytes.length < 3
  · by_cases hrest : rest = []
    · simp [hshort, hrest, decodeQuads]
    · simp [hshort, hrest, show bytes.length ≠ 3 by omega]
  · have : bytes.length = 3 := by omega
    cases decodeQuads rest <;> simp [this]

/-- The loop takes characters off the front of the text, or the text cannot be decoded. -/
lemma decodeChars_spec : ∀ {input : Bytes} {ctx : EncodeCtx} {written : Bytes}, Waiting ctx →
    ∀ ctx' written' ok, decodeChars input ctx written = (ctx', written', ok) →
      (ok = true ∧ Waiting ctx' ∧ ∃ bytes, written' = written ++ bytes
        ∧ ∀ rest, decodeRest ctx.eofSeen (ctx.data ++ strip input ++ rest)
          = (decodeRest ctx'.eofSeen (ctx'.data ++ rest)).map (bytes ++ ·))
      ∨ (ok = false ∧ ∀ rest, decodeRest ctx.eofSeen (ctx.data ++ strip input ++ rest) = none)
  | [], ctx, written, h, ctx', written', ok, hrun => by
    obtain ⟨rfl, rfl, rfl⟩ : ctx = ctx' ∧ written = written' ∧ true = ok := by
      simpa [decodeChars] using hrun
    exact .inl ⟨rfl, h, [], by simp, fun rest => by simp [strip]⟩
  | c :: input, ctx, written, h, ctx', written', ok, hrun => by
    rw [decodeChars] at hrun
    by_cases hspace : isSpace c = true
    · rw [if_pos hspace] at hrun
      have hstrip : strip (c :: input) = strip input := by simp [strip, hspace]
      rw [hstrip]
      exact decodeChars_spec h _ _ _ hrun
    have hstrip : strip (c :: input) = c :: strip input := by simp [strip, hspace]
    split_ifs at hrun with heof
    · obtain ⟨-, -, rfl⟩ := by simpa using hrun
      exact .inr ⟨rfl, fun rest => by simp [decodeRest, heof, hstrip]⟩
    have happend : ∀ rest, ctx.data ++ strip (c :: input) ++ rest
        = (ctx.data ++ [c]) ++ strip input ++ rest := fun rest => by simp [hstrip]
    simp only [happend, heof]
    dsimp only at hrun
    split at hrun
    next in0 in1 in2 in3 hdata =>
      rw [hdata]
      cases hquad : base64DecodeQuad in0 in1 in2 in3 with
      | none =>
        simp only [hquad, Prod.mk.injEq] at hrun
        exact .inr ⟨hrun.2.2.symm, fun rest => by simp [decodeRest, decodeQuads, hquad]⟩
      | some bytes =>
        simp only [hquad, heof] at hrun
        have hnext : Waiting ⟨[], if bytes.length < 3 then true else false, ctx.errorEncountered⟩ :=
          ⟨by simp, fun _ => rfl, h.ok⟩
        have hdecide : (if bytes.length < 3 then true else false) = decide (bytes.length < 3) := by
          split <;> simp_all
        rcases decodeChars_spec hnext _ _ _ hrun with
          ⟨rfl, hctx', bytes', hwritten, hrest⟩ | ⟨rfl, hnone⟩
        · refine .inl ⟨rfl, hctx', bytes ++ bytes', by simp [hwritten], fun rest => ?_⟩
          have := hrest rest
          rw [hdecide, nil_append] at this
          simp only [cons_append, nil_append, decodeRest_quad hquad, this]
          simp [Function.comp_def]
        · refine .inr ⟨rfl, fun rest => ?_⟩
          have := hnone rest
          rw [hdecide, nil_append] at this
          simp only [cons_append, nil_append, decodeRest_quad hquad, this]
          rfl
    next hdata =>
      have hshort : (ctx.data ++ [c]).length < 4 := by
        have hle := h.short
        rcases Nat.lt_or_ge ctx.data.length 3 with hlt | hge
        · simp; omega
        · obtain ⟨x, y, z, hxyz⟩ := length_eq_three.mp (show ctx.data.length = 3 by omega)
          exact absurd (by rw [hxyz]; rfl) (hdata x y z c)
      have hnext : Waiting { ctx with data := ctx.data ++ [c] } :=
        ⟨hshort, fun he => absurd he (by simp [heof]), h.ok⟩
      simpa only [heof] using decodeChars_spec hnext _ _ _ hrun

lemma evpDecodeUpdate_spec (h : Waiting ctx) :
    ∀ ctx' call ret, evpDecodeUpdate ctx piece = (ctx', call, ret) → call.written.length ≤ intMax →
      (ret ≠ -1 ∧ Waiting ctx'
        ∧ ∀ rest, decodeRest ctx.eofSeen (ctx.data ++ strip piece ++ rest)
          = (decodeRest ctx'.eofSeen (ctx'.data ++ rest)).map (call.output ++ ·))
      ∨ (ret = -1 ∧ ∀ rest, decodeRest ctx.eofSeen (ctx.data ++ strip piece ++ rest) = none) := by
  intro ctx' call ret hrun hfits
  rw [evpDecodeUpdate, if_neg (by simp [h.ok])] at hrun
  obtain ⟨⟨ctx₁, written, ok⟩, hloop⟩ : ∃ r, decodeChars piece ctx [] = r := ⟨_, rfl⟩
  rcases decodeChars_spec h _ _ _ hloop with ⟨rfl, h₁, bytes, hwritten, hrest⟩ | ⟨rfl, hnone⟩
  · simp only [hloop] at hrun
    subst hwritten
    by_cases hbig : written.length > intMax
    · grind
    · rw [if_neg hbig] at hrun
      obtain ⟨rfl, rfl, rfl⟩ := hrun
      refine .inl ⟨by split <;> decide, h₁, fun rest => ?_⟩
      rw [hrest, Call.output, take_length]
  · simp only [hloop, Prod.mk.injEq] at hrun
    exact .inr ⟨hrun.2.2.symm, hnone⟩

lemma decodeRest_final (h : Waiting ctx) :
    decodeRest ctx.eofSeen ctx.data = if evpDecodeFinal ctx = 1 then some [] else none := by
  obtain ⟨data, eofSeen, errorEncountered⟩ := ctx
  obtain ⟨hshort, hdone, hok⟩ := h
  match data, hshort with
  | [], _ => cases eofSeen <;> simp_all [decodeRest, evpDecodeFinal, decodeQuads]
  | [_], _ => cases eofSeen <;> simp_all [decodeRest, evpDecodeFinal, decodeQuads]
  | [_, _], _ => cases eofSeen <;> simp_all [decodeRest, evpDecodeFinal, decodeQuads]
  | [_, _, _], _ => cases eofSeen <;> simp_all [decodeRest, evpDecodeFinal, decodeQuads]

lemma collect_cons {call : Call} {ret : ℤ} {calls : List (Call × ℤ)} {final : ℤ} :
    collect ((call, ret) :: calls, final)
      = if ret = -1 then none else (collect (calls, final)).map (call.output ++ ·) := by
  unfold collect
  by_cases hret : ret = -1
  · simp [hret]
  · grind

lemma strip_append (a b : Bytes) : strip (a ++ b) = strip a ++ strip b := filter_append ..

lemma collect_decodeCalls : ∀ {pieces : List Bytes} {ctx : EncodeCtx}, Waiting ctx →
    (∀ call ∈ (decodeCalls ctx pieces).1, call.1.written.length ≤ intMax) →
    collect (decodeCalls ctx pieces) = decodeRest ctx.eofSeen (ctx.data ++ strip pieces.flatten)
  | [], ctx, h, _ => by
    simp [decodeCalls, collect, strip, decodeRest_final h]
  | piece :: pieces, ctx, h, hfits => by
    obtain ⟨⟨ctx', call, ret⟩, hcall⟩ : ∃ r, evpDecodeUpdate ctx piece = r := ⟨_, rfl⟩
    simp only [decodeCalls, hcall, forall_mem_cons] at hfits
    simp only [decodeCalls, hcall, collect_cons, flatten_cons, strip_append]
    rw [← append_assoc]
    rcases evpDecodeUpdate_spec h _ _ _ hcall hfits.1 with ⟨hret, h', hrest⟩ | ⟨rfl, hnone⟩
    · rw [if_neg hret, hrest, ← collect_decodeCalls h' hfits.2]
    · rw [if_pos rfl, hnone]

lemma decodeQuads_length : ∀ {input out : Bytes}, decodeQuads input = some out →
    input.length % 4 = 0
  | [], _, _ => rfl
  | in0 :: in1 :: in2 :: in3 :: input, out, h => by
    simp only [decodeQuads, bind, Option.bind_eq_some_iff] at h
    obtain ⟨bytes, -, h⟩ := h
    split_ifs at h
    obtain ⟨rest, hrest, -⟩ := Option.bind_eq_some_iff.mp h
    have := decodeQuads_length hrest
    simp only [length_cons]
    omega
  | [_], _, h => by simp [decodeQuads] at h
  | [_, _], _, h => by simp [decodeQuads] at h
  | [_, _, _], _, h => by simp [decodeQuads] at h

lemma evpDecodeBase64_eq {maxOut : ℕ} (h : input.length / 4 * 3 ≤ maxOut) :
    evpDecodeBase64 maxOut input = decodeQuads input := by
  unfold evpDecodeBase64
  split_ifs with hmod
  · cases hq : decodeQuads input with
    | none => rfl
    | some out => exact absurd (decodeQuads_length hq) hmod
  · simp [evpDecodedLength, hmod, not_lt.mpr h]

end Decode

section Streaming

lemma isSpace_of_mem_evpEncodeBlock : ∀ {src : Bytes}, ∀ c ∈ evpEncodeBlock src, isSpace c = false
  | [], c, h => by simp [evpEncodeBlock] at h
  | [_], c, h => by
    simp only [evpEncodeBlock, mem_cons, not_mem_nil, or_false] at h
    rcases h with rfl | rfl | rfl | rfl <;> first | exact (convBin2ascii_ne _).2 | decide
  | [_, _], c, h => by
    simp only [evpEncodeBlock, mem_cons, not_mem_nil, or_false] at h
    rcases h with rfl | rfl | rfl | rfl <;> first | exact (convBin2ascii_ne _).2 | decide
  | _ :: _ :: _ :: src, c, h => by
    simp only [evpEncodeBlock, mem_cons] at h
    rcases h with rfl | rfl | rfl | rfl | h
    on_goal 5 => exact isSpace_of_mem_evpEncodeBlock c h
    all_goals exact (convBin2ascii_ne _).2

lemma filter_encoded (src : Bytes) : (encoded src).filter (· ≠ newline) = evpEncodeBlock src :=
  filter_wrap _ fun h => absurd (isSpace_of_mem_evpEncodeBlock _ h) (by decide)

lemma strip_encoded (src : Bytes) : strip (encoded src) = evpEncodeBlock src := by
  have hstrip : ∀ text : Bytes, strip text = strip (text.filter (· ≠ newline)) := fun text => by
    rw [strip, strip, List.filter_filter]
    refine filter_congr fun c _ => ?_
    by_cases hc : c = newline
    · subst hc
      decide
    · simp [hc]
  rw [hstrip, filter_encoded]
  exact filter_eq_self.mpr fun c hc => by simp [isSpace_of_mem_evpEncodeBlock c hc]

lemma encodeAll_eq (h : EncodeFits pieces) : encodeAll pieces = encoded pieces.flatten :=
  encodeCalls_output (by decide) h

lemma decodeAll_eq (h : DecodeFits pieces) :
    decodeAll pieces = decodeQuads (strip pieces.flatten) :=
  collect_decodeCalls ⟨by decide, nofun, rfl⟩ h

/-- As long as no call writes more than `INT_MAX` bytes, the calls together encode and decode as one
shot does, and what was encoded is decoded again. -/
theorem streaming_eq_one_shot :
    (∀ pieces : List Bytes, EncodeFits pieces →
      encodeAll pieces = wrap 64 newline (evpEncodeBlock pieces.flatten)
        ∧ (encodeAll pieces).filter (· ≠ newline) = evpEncodeBlock pieces.flatten)
    ∧ (∀ (pieces : List Bytes) (maxOut : ℕ), DecodeFits pieces →
      (strip pieces.flatten).length / 4 * 3 ≤ maxOut →
      decodeAll pieces = evpDecodeBase64 maxOut (strip pieces.flatten))
    ∧ (∀ pieces text : List Bytes, EncodeFits pieces → DecodeFits text →
      text.flatten = encodeAll pieces → decodeAll text = some pieces.flatten) := by
  refine ⟨fun pieces h => ?_, fun pieces maxOut h hmax => ?_, fun pieces text h h' htext => ?_⟩
  · rw [encodeAll_eq h]
    exact ⟨rfl, filter_encoded _⟩
  · rw [decodeAll_eq h, evpDecodeBase64_eq hmax]
  · rw [decodeAll_eq h', htext, encodeAll_eq h, strip_encoded, decodeQuads_evpEncodeBlock]

def fiftyBytes : List Bytes := [replicate 20 1, replicate 30 2]

theorem streaming_eq_one_shot_fifty :
    encodeAll fiftyBytes = wrap 64 newline (evpEncodeBlock fiftyBytes.flatten)
    ∧ decodeAll [(encodeAll fiftyBytes).take 7, (encodeAll fiftyBytes).drop 7]
      = some fiftyBytes.flatten := by
  have hfits : EncodeFits fiftyBytes := by
    unfold EncodeFits
    decide +kernel
  have hfits' : DecodeFits [(encodeAll fiftyBytes).take 7, (encodeAll fiftyBytes).drop 7] := by
    unfold DecodeFits
    decide +kernel
  exact ⟨(streaming_eq_one_shot.1 _ hfits).1, streaming_eq_one_shot.2.2 _ _ hfits hfits' (by simp)⟩

lemma encoded_length (h : src.length = k * dataSize) : (encoded src).length = k * 65 := by
  unfold dataSize at h
  refine wrap_length (by omega) ?_
  rw [evpEncodeBlock_length]
  omega

lemma encodeAll_too_long (h : input.length = k * dataSize) (hk : intMax < k * 65) :
    encodeAll [input] = [] := by
  obtain ⟨⟨ctx', call⟩, hcall⟩ : ∃ r, evpEncodeUpdate ctxInit input = r := ⟨_, rfl⟩
  have hall : encodeAll [input] = call.output ++ (evpEncodeFinal ctx').2.output := by
    simp [encodeAll, encodeCalls, hcall]
  rw [hall]
  have hfinal : ctx'.data = [] → (evpEncodeFinal ctx').2.output = [] := fun hdata => by
    rw [evpEncodeFinal_output (by simp [hdata, dataSize]), hdata, encoded_nil]
  obtain ⟨full, rest, j, hsplit, hfull, hwritten, ⟨hdata, hrest, hlen⟩ | ⟨hdata, hlen, -⟩⟩ :=
    evpEncodeUpdate_spec (by decide) _ _ hcall
  · have hsum : input.length = full.length + rest.length := by
      have := congrArg List.length hsplit
      simpa [ctxInit] using this
    obtain rfl : j = k := by
      unfold dataSize at *
      omega
    have hrest : rest = [] := length_eq_zero_iff.mp (by omega)
    rw [hwritten, encoded_length hfull, if_pos hk] at hlen
    rw [Call.output, hlen, hfinal (hdata.trans hrest)]
    simp
  · rw [Call.output, hlen, hfinal hdata]
    simp

/-- Three gigabytes in one call: all of its output is lost. -/
theorem encodeAll_three_gigabytes :
    encodeAll [replicate (2 ^ 26 * dataSize) 0] = []
      ∧ wrap 64 newline (evpEncodeBlock (replicate (2 ^ 26 * dataSize) 0)) ≠ [] := by
  have hlen : (replicate (2 ^ 26 * dataSize) (0 : UInt8)).length = 2 ^ 26 * dataSize :=
    length_replicate
  refine ⟨encodeAll_too_long hlen (by decide), fun h => ?_⟩
  have := encoded_length hlen
  rw [encoded, h] at this
  simp at this

end Streaming

end Base64

end BoringSSL
