import BoringSSL.IpAddress
import BoringSSL.Lib.Bits
import BoringSSL.Proofs.Cbs

/-!
# IP addresses as text

`IsIpv6` describes what RFC 4291 writes as text.  The parser sees the list of what stands between
single colons.  An empty element comes from a `::`, or from a colon at either end; their number
tells the two apart, but for a string that is one colon.
-/

namespace BoringSSL

open ByteLib List

variable {bytes b : Bytes} {val : UInt8} {es rs : List Bytes} {isLast : Bool}
  {c : UInt8} {e rest s : Bytes}

/-! ## IPv4 -/

def digitsValue (v : ℕ) (e : Bytes) : ℕ := e.foldl (fun v c => v * 10 + (c.toNat - '0'.toNat)) v

/-- A decimal number of one byte. -/
structure IsOctet (e : Bytes) (b : UInt8) : Prop where
  digits : ∀ c ∈ e, opensslIsdigit c = true
  ne_nil : e ≠ []
  noZero : e.head? = some '0'.toUInt8 → e.length = 1
  le : digitsValue 0 e ≤ 255
  value : b = UInt8.ofNat (digitsValue 0 e)

/-- An IPv4 address, dotted. -/
def IsQuad (s bytes : Bytes) : Prop :=
  ∃ e₀ e₁ e₂ e₃ b₀ b₁ b₂ b₃, IsOctet e₀ b₀ ∧ IsOctet e₁ b₁ ∧ IsOctet e₂ b₂ ∧ IsOctet e₃ b₃
    ∧ s = e₀ ++ '.'.toUInt8 :: (e₁ ++ '.'.toUInt8 :: (e₂ ++ '.'.toUInt8 :: e₃))
    ∧ bytes = [b₀, b₁, b₂, b₃]

lemma le_digitsValue : ∀ (e : Bytes) (v : ℕ), v ≤ digitsValue v e
  | [], _ => le_rfl
  | c :: e, v => by
    have ih := le_digitsValue e (v * 10 + (c.toNat - '0'.toNat))
    exact le_trans (by omega) ih

lemma digit_eq_zero_iff (h : opensslIsdigit c = true) :
    c.toNat - '0'.toNat = 0 ↔ c = '0'.toUInt8 := by
  obtain ⟨d, hd, rfl⟩ := opensslIsdigit_iff.mp h
  have : ∀ d < 10, ((UInt8.ofNat (0x30 + d)).toNat - '0'.toNat = 0 ↔
      UInt8.ofNat (0x30 + d) = '0'.toUInt8) := by decide
  exact this d hd

/-- A component ends here. -/
def AtEnd (rest : Bytes) : Prop := rest = [] ∨ rest.head? = some '.'.toUInt8

instance (rest : Bytes) : Decidable (AtEnd rest) := inferInstanceAs (Decidable (_ ∨ _))

/-- `e` after the digits of `out` is a component, before `rest`. -/
structure IsComponent (out : ℕ) (e rest : Bytes) : Prop where
  digits : ∀ c ∈ e, opensslIsdigit c = true
  ne_nil : e ≠ []
  atEnd : AtEnd rest
  le : digitsValue out e ≤ 255
  noZero : out = 0 → e.head? = some '0'.toUInt8 → e.length = 1

lemma isComponent_cons {out : ℕ} (hc : opensslIsdigit c = true) :
    IsComponent out (c :: e) rest ↔ (∀ c ∈ e, opensslIsdigit c = true) ∧ AtEnd rest
      ∧ digitsValue (out * 10 + (c.toNat - '0'.toNat)) e ≤ 255
      ∧ (out * 10 + (c.toNat - '0'.toNat) = 0 → e = []) := by
  have hzero := digit_eq_zero_iff hc
  constructor
  · rintro ⟨hdigits, -, hend, hle, hnoZero⟩
    refine ⟨fun x hx => hdigits x (mem_cons_of_mem _ hx), hend, hle, fun h => ?_⟩
    simpa using hnoZero (by omega) (by rw [hzero.mp (by omega)]; rfl)
  · rintro ⟨hdigits, hend, hle, hnil⟩
    refine ⟨forall_mem_cons.mpr ⟨hc, hdigits⟩, cons_ne_nil _ _, hend, hle, fun h h0 => ?_⟩
    have hc0 := hzero.mpr (by simpa using h0)
    rw [hnil (by omega)]
    rfl

lemma AtEnd.no_digit (h : AtEnd s) (hs : s = e ++ rest)
    (hdigits : ∀ c ∈ e, opensslIsdigit c = true) : e = [] := by
  cases e with
  | nil => rfl
  | cons d e =>
    rw [hs] at h
    rcases h with h | h
    · cases h
    · obtain rfl : d = '.'.toUInt8 := by simpa using h
      exact absurd (hdigits _ mem_cons_self) (by decide)

lemma getIpv4ComponentLoop_iff : ∀ {s rest : Bytes} {out : ℕ} {v : UInt8},
    getIpv4ComponentLoop out s = some (v, rest) ↔
      ∃ e, s = e ++ rest ∧ IsComponent out e rest ∧ v = UInt8.ofNat (digitsValue out e)
  | [], rest, out, v => by
    simp only [getIpv4ComponentLoop, reduceCtorEq, false_iff]
    rintro ⟨e, hs, he, -⟩
    exact he.ne_nil (append_eq_nil_iff.mp hs.symm).1
  | c :: s, rest, out, v => by
    rw [getIpv4ComponentLoop]
    -- a component is its first digit and what follows
    have hsplit : (∃ e, c :: s = e ++ rest ∧ IsComponent out e rest
        ∧ v = UInt8.ofNat (digitsValue out e)) ↔
        ∃ e, s = e ++ rest ∧ IsComponent out (c :: e) rest
          ∧ v = UInt8.ofNat (digitsValue out (c :: e)) := by
      constructor
      · rintro ⟨e, hs, he, hv⟩
        obtain ⟨c', e, rfl⟩ := exists_cons_of_ne_nil he.ne_nil
        obtain ⟨rfl, htail⟩ := List.cons.inj hs
        exact ⟨e, htail, he, hv⟩
      · rintro ⟨e, rfl, he, hv⟩
        exact ⟨c :: e, rfl, he, hv⟩
    rw [hsplit]
    by_cases hdigit : opensslIsdigit c = true
    · obtain ⟨out', hout⟩ : ∃ n, n = out * 10 + (c.toNat - '0'.toNat) := ⟨_, rfl⟩
      have hvalue : ∀ e, digitsValue out (c :: e) = digitsValue out' e := fun e => by rw [hout]; rfl
      simp only [isComponent_cons hdigit, hvalue, hdigit, Bool.not_true, Bool.false_eq_true,
        if_false, ← hout]
      by_cases hbig : out' > 255
      · rw [if_pos hbig]
        simp only [reduceCtorEq, false_iff]
        rintro ⟨e, -, ⟨-, -, hle, -⟩, -⟩
        have := le_digitsValue e out'
        omega
      rw [if_neg hbig]
      by_cases hend : AtEnd s
      · rw [if_pos (by exact hend), Option.some.injEq, Prod.mk.injEq]
        constructor
        · rintro ⟨rfl, rfl⟩
          exact ⟨[], rfl, ⟨by simp, hend, by simpa [digitsValue] using hbig, fun _ => rfl⟩, rfl⟩
        · rintro ⟨e, hs, ⟨hdigits, -⟩, rfl⟩
          obtain rfl := hend.no_digit hs hdigits
          exact ⟨rfl, hs⟩
      rw [if_neg (by exact hend)]
      have hne : ∀ e, s = e ++ rest → AtEnd rest → e ≠ [] := by
        rintro e hs hat rfl
        exact hend (hs ▸ hat)
      by_cases hzero : out' = 0
      · grind
      · rw [if_neg hzero, getIpv4ComponentLoop_iff]
        refine exists_congr fun e => and_congr_right fun hs => and_congr_left fun _ => ?_
        constructor
        · rintro ⟨hdigits, -, hat, hle, -⟩
          exact ⟨hdigits, hat, hle, fun h => absurd h hzero⟩
        · rintro ⟨hdigits, hat, hle, -⟩
          exact ⟨hdigits, hne e hs hat, hat, hle, fun h => absurd h hzero⟩
    · rw [if_pos (by simpa using hdigit)]
      simp only [reduceCtorEq, false_iff]
      rintro ⟨e, -, he, -⟩
      exact hdigit (he.digits c mem_cons_self)

lemma getIpv4Component_iff {v : UInt8} :
    getIpv4Component s = some (v, rest) ↔ ∃ e, s = e ++ rest ∧ IsOctet e v ∧ AtEnd rest := by
  rw [getIpv4Component, getIpv4ComponentLoop_iff]
  refine exists_congr fun e => and_congr_right fun _ => ?_
  constructor
  · rintro ⟨⟨hdigits, hne, hend, hle, hzero⟩, hv⟩
    exact ⟨⟨hdigits, hne, hzero rfl, hle, hv⟩, hend⟩
  · rintro ⟨⟨hdigits, hne, hzero, hle, hv⟩, hend⟩
    exact ⟨⟨hdigits, hne, hend, hle, fun _ => hzero⟩, hv⟩

lemma getIpv4Dot_iff : getIpv4Dot s = some rest ↔ s = '.'.toUInt8 :: rest := by
  cases s with
  | nil => simp [getIpv4Dot]
  | cons c s =>
    by_cases hc : c = '.'.toUInt8 <;> simp [getIpv4Dot, hc]

lemma ipv4FromAsc_iff : ipv4FromAsc s = some bytes ↔ IsQuad s bytes := by
  simp only [ipv4FromAsc, Option.bind_eq_bind, Option.bind_eq_some_iff, Prod.exists,
    getIpv4Component_iff, getIpv4Dot_iff, IsQuad]
  have hdot : ∀ s, AtEnd ('.'.toUInt8 :: s) := fun s => .inr rfl
  constructor
  · rintro ⟨b₀, -, ⟨e₀, rfl, h₀, -⟩, -, rfl, b₁, -, ⟨e₁, rfl, h₁, -⟩, -, rfl, b₂, -,
      ⟨e₂, rfl, h₂, -⟩, -, rfl, b₃, rest, ⟨e₃, rfl, h₃, -⟩, h⟩
    split_ifs at h with hrest
    rw [not_not] at hrest
    refine ⟨e₀, e₁, e₂, e₃, b₀, b₁, b₂, b₃, h₀, h₁, h₂, h₃, ?_, (Option.some.inj h).symm⟩
    rw [hrest, List.append_nil]
  · rintro ⟨e₀, e₁, e₂, e₃, b₀, b₁, b₂, b₃, h₀, h₁, h₂, h₃, rfl, rfl⟩
    exact ⟨b₀, _, ⟨e₀, rfl, h₀, hdot _⟩, _, rfl, b₁, _, ⟨e₁, rfl, h₁, hdot _⟩, _, rfl, b₂, _,
      ⟨e₂, rfl, h₂, hdot _⟩, _, rfl, b₃, [], ⟨e₃, by simp, h₃, .inl rfl⟩, by simp⟩

lemma IsOctet.noColon {b : UInt8} (h : IsOctet e b) : ':'.toUInt8 ∉ e :=
  fun hmem => absurd (h.digits _ hmem) (by decide)

lemma IsQuad.noColon (h : IsQuad s bytes) : ':'.toUInt8 ∉ s := by
  obtain ⟨e₀, e₁, e₂, e₃, b₀, b₁, b₂, b₃, h₀, h₁, h₂, h₃, rfl, -⟩ := h
  have hdot : ':'.toUInt8 ≠ '.'.toUInt8 := by decide
  simp only [mem_append, mem_cons, h₀.noColon, h₁.noColon, h₂.noColon, h₃.noColon, hdot,
    or_self, not_false_eq_true]

lemma IsQuad.length (h : IsQuad s bytes) : bytes.length = 4 := by
  obtain ⟨e₀, e₁, e₂, e₃, b₀, b₁, b₂, b₃, -, -, -, -, -, rfl⟩ := h
  rfl

lemma IsQuad.length_gt (h : IsQuad s bytes) : 4 < s.length := by
  obtain ⟨e₀, e₁, e₂, e₃, b₀, b₁, b₂, b₃, h₀, h₁, -, -, rfl, -⟩ := h
  have hlen₀ := length_pos_iff.mpr h₀.ne_nil
  have hlen₁ := length_pos_iff.mpr h₁.ne_nil
  simp only [length_append, length_cons]
  omega

/-! ## Groups -/

def hexValue (v : ℕ) (e : Bytes) : ℕ :=
  e.foldl (fun v c => v * 16 + ((opensslFromxdigit c).getD 0).toNat) v

/-- Hex digits for two bytes. -/
structure IsGroup (e bytes : Bytes) : Prop where
  digits : ∀ c ∈ e, (opensslFromxdigit c).isSome = true
  ne_nil : e ≠ []
  length_le : e.length ≤ 4
  value : bytes = [UInt8.ofNat (hexValue 0 e / 256), UInt8.ofNat (hexValue 0 e % 256)]

lemma opensslFromxdigit_lt (h : opensslFromxdigit c = some val) : val.toNat < 16 := by
  have hall : ∀ c : UInt8, ((opensslFromxdigit c).getD 0).toNat < 16 :=
    forall_byte (by decide +kernel)
  simpa [h] using hall c

lemma nibble_toNat {num : UInt16} (hnum : num.toNat < 4096) (hval : val.toNat < 16) :
    (num <<< 4 ||| val.toUInt16).toNat = num.toNat * 16 + val.toNat := by
  rw [UInt16.toNat_or, UInt16.toNat_shiftLeft, UInt8.toNat_toUInt16]
  have hshift : num.toNat <<< ((4 : UInt16).toNat % 16) % 2 ^ 16 = num.toNat <<< 4 := by
    rw [show (4 : UInt16).toNat % 16 = 4 from rfl, Nat.shiftLeft_eq]
    omega
  rw [hshift, ← Nat.shiftLeft_add_eq_or_of_lt (by simpa using hval), Nat.shiftLeft_eq]

-- the digits still to come fit beside those of `num`
lemma ipv6HexLoop_iff : ∀ {e : Bytes} {num v : UInt16}, (num.toNat + 1) * 16 ^ e.length ≤ 2 ^ 16 →
    (ipv6HexLoop num e = some v ↔
      (∀ c ∈ e, (opensslFromxdigit c).isSome = true) ∧ v.toNat = hexValue num.toNat e)
  | [], num, v, _ => by
    rw [ipv6HexLoop, Option.some.injEq, eq_comm, ← UInt16.toNat_inj]
    exact ⟨fun h => ⟨by simp, h⟩, And.right⟩
  | c :: e, num, v, hfits => by
    rw [ipv6HexLoop, forall_mem_cons]
    cases hc : opensslFromxdigit c with
    | none => simp
    | some val =>
      have hval := opensslFromxdigit_lt hc
      rw [length_cons, pow_succ'] at hfits
      have hpos : 0 < 16 ^ e.length := by positivity
      have hstep := nibble_toNat (by nlinarith) hval
      have hnext : ((num <<< 4 ||| val.toUInt16).toNat + 1) * 16 ^ e.length ≤ 2 ^ 16 :=
        calc ((num <<< 4 ||| val.toUInt16).toNat + 1) * 16 ^ e.length
            ≤ (num.toNat + 1) * 16 * 16 ^ e.length := by
              exact Nat.mul_le_mul_right _ (by omega)
          _ ≤ 2 ^ 16 := by rwa [mul_assoc]
      rw [Option.bind_some, ipv6HexLoop_iff hnext, hstep]
      simp [hexValue, hc]

lemma hexValue_lt : ∀ (e : Bytes) (v : ℕ), hexValue v e < (v + 1) * 16 ^ e.length
  | [], v => by simp [hexValue]
  | c :: e, v => by
    have hval : ((opensslFromxdigit c).getD 0).toNat < 16 := by
      cases hc : opensslFromxdigit c with
      | none => decide
      | some val => exact opensslFromxdigit_lt hc
    calc hexValue v (c :: e)
        < (v * 16 + ((opensslFromxdigit c).getD 0).toNat + 1) * 16 ^ e.length := hexValue_lt e _
      _ ≤ (v + 1) * 16 * 16 ^ e.length := Nat.mul_le_mul_right _ (by omega)
      _ = (v + 1) * 16 ^ (c :: e).length := by rw [length_cons, pow_succ', mul_assoc]

lemma ipv6Hex_iff (hne : e ≠ []) : ipv6Hex e = some bytes ↔ IsGroup e bytes := by
  rw [ipv6Hex]
  by_cases hlen : e.length > 4
  · rw [if_pos hlen]
    exact ⟨nofun, fun h => absurd h.length_le (by omega)⟩
  have hpow : 16 ^ e.length ≤ 16 ^ 4 := Nat.pow_le_pow_right (by omega) (by omega)
  rw [if_neg hlen, Option.map_eq_some_iff]
  have hloop : ∀ {v : UInt16}, ipv6HexLoop 0 e = some v ↔
      (∀ c ∈ e, (opensslFromxdigit c).isSome = true) ∧ v.toNat = hexValue 0 e :=
    ipv6HexLoop_iff (by simpa using hpow)
  -- the two bytes of a number
  have hbytes : ∀ v : UInt16, [(v >>> 8).toUInt8, (v &&& 0xff).toUInt8] =
      [UInt8.ofNat (v.toNat / 256), UInt8.ofNat (v.toNat % 256)] := by
    intro v
    have hhigh : (v >>> 8).toNat = v.toNat / 256 := by
      exact Nat.shiftRight_eq_div_pow _ _
    have hlow : (v &&& 0xff).toNat = v.toNat % 256 := by
      exact Nat.and_two_pow_sub_one_eq_mod _ 8
    rw [← hhigh, ← hlow, UInt8.ofNat_uInt16ToNat, UInt8.ofNat_uInt16ToNat]
  constructor
  · rintro ⟨v, hv, rfl⟩
    obtain ⟨hdigits, hvalue⟩ := hloop.mp hv
    exact ⟨hdigits, hne, by omega, by rw [hbytes, hvalue]⟩
  · rintro ⟨hdigits, -, -, rfl⟩
    have hlt := hexValue_lt e 0
    have hv : (UInt16.ofNat (hexValue 0 e)).toNat = hexValue 0 e := by
      exact Nat.mod_eq_of_lt (by omega)
    exact ⟨UInt16.ofNat (hexValue 0 e), hloop.mpr ⟨hdigits, hv⟩, by rw [hbytes, hv]⟩

lemma IsGroup.length (h : IsGroup e bytes) : bytes.length = 2 := by
  rw [h.value]
  rfl

lemma IsGroup.noColon (h : IsGroup e bytes) : ':'.toUInt8 ∉ e :=
  fun hmem => absurd (h.digits _ hmem) (by decide)

/-! ## The text of an address -/

def joinColon (es : List Bytes) : Bytes := [':'.toUInt8].intercalate es

/-- Groups, of which the last may be a dotted quad if `quad`, and the bytes they stand for. -/
inductive IsParts (quad : Prop) : List Bytes → Bytes → Prop
  | nil : IsParts quad [] []
  | group {e b : Bytes} {es : List Bytes} {bs : Bytes} :
      IsGroup e b → IsParts quad es bs → IsParts quad (e :: es) (b ++ bs)
  | last {e b : Bytes} : quad → IsQuad e b → IsParts quad [e] b

/-- The text forms of RFC 4291, section 2.2: eight groups, or `::` for one zero group or more. -/
inductive IsIpv6 : Bytes → Bytes → Prop
  | full {es : List Bytes} {bytes : Bytes} :
      IsParts True es bytes → bytes.length = 16 → IsIpv6 (joinColon es) bytes
  | compressed {ls rs : List Bytes} {lb rb : Bytes} :
      IsParts False ls lb → IsParts True rs rb → lb.length + rb.length ≤ 14 →
      IsIpv6 (joinColon ls ++ [':'.toUInt8, ':'.toUInt8] ++ joinColon rs)
        (lb ++ replicate (16 - (lb.length + rb.length)) 0 ++ rb)

lemma joinColon_cons (e : Bytes) (h : es ≠ []) :
    joinColon (e :: es) = e ++ ':'.toUInt8 :: joinColon es := by
  simp [joinColon, intercalate_cons_of_ne_nil h]

lemma joinColon_append : ∀ {ls rs : List Bytes}, ls ≠ [] → rs ≠ [] →
    joinColon (ls ++ rs) = joinColon ls ++ ':'.toUInt8 :: joinColon rs
  | [e], rs, _, hrs => by
    rw [singleton_append, joinColon_cons e hrs]
    simp [joinColon]
  | e :: e' :: ls, rs, _, hrs => by
    rw [cons_append, joinColon_cons e (by simp), joinColon_append (cons_ne_nil e' ls) hrs,
      joinColon_cons e (cons_ne_nil e' ls), append_assoc, cons_append]

namespace IsParts

variable {quad : Prop} {es : List Bytes} {bytes : Bytes} (h : IsParts quad es bytes)

include h

lemma ne_nil : ∀ e ∈ es, e ≠ [] := by
  induction h with
  | nil => simp
  | group he _ ih => exact forall_mem_cons.mpr ⟨he.ne_nil, ih⟩
  | last _ he =>
    have := he.length_gt
    simp only [mem_singleton, forall_eq]
    rintro rfl
    simp at this

lemma noColon : ∀ e ∈ es, ':'.toUInt8 ∉ e := by
  induction h with
  | nil => simp
  | group he _ ih => exact forall_mem_cons.mpr ⟨he.noColon, ih⟩
  | last _ he => simpa using he.noColon

lemma even : bytes.length % 2 = 0 := by
  induction h with
  | nil => rfl
  | group he _ ih =>
    rw [length_append, he.length]
    omega
  | last _ he => rw [he.length]

lemma eq_nil_iff : bytes = [] ↔ es = [] := by
  cases h with
  | nil => simp
  | group he _ => simpa using fun h => absurd he.length (by simp [h])
  | last _ he => simpa using fun h => absurd he.length (by simp [h])

end IsParts

variable {e : Bytes} {s s' : Ipv6Stat}

/-! ## Elements -/

/-- `ipv6Cb` on an element, told whether it is the last. -/
def elemCb (e : Bytes) (isLast : Bool) (s : Ipv6Stat) : Option Ipv6Stat :=
  ipv6Cb (if isLast then e else e ++ [':'.toUInt8]) e.length s

lemma ipv6Cb_append_cons (e rest : Bytes) (c : UInt8) (s : Ipv6Stat) :
    ipv6Cb (e ++ c :: rest) e.length s = ipv6Cb (e ++ [c]) e.length s := by
  simp [ipv6Cb]

def runElems : List Bytes → Ipv6Stat → Option Ipv6Stat
  | [], s => some s
  | e :: es, s => (elemCb e es.isEmpty s).bind (runElems es)

lemma takeWhile_noColon (h : ':'.toUInt8 ∉ e) (rest : Bytes) :
    (e ++ rest).takeWhile (· ≠ ':'.toUInt8) = e ++ rest.takeWhile (· ≠ ':'.toUInt8) :=
  takeWhile_append_of_pos fun _ hc => decide_eq_true fun heq => h (heq ▸ hc)

lemma confParseListLoop_joinColon : ∀ {es : List Bytes} {e : Bytes} {fuel : ℕ} {s : Ipv6Stat},
    (∀ x ∈ e :: es, ':'.toUInt8 ∉ x) → es.length < fuel →
    confParseListLoop ':'.toUInt8 false ipv6Cb fuel (joinColon (e :: es)) s = runElems (e :: es) s
  | [], e, fuel + 1, s, hcolon, hfuel => by
    have htake : e.takeWhile (· ≠ ':'.toUInt8) = e := by
      simpa using takeWhile_noColon (hcolon e mem_cons_self) []
    rw [show joinColon [e] = e by simp [joinColon]]
    simp only [confParseListLoop, htake, Bool.false_eq_true, if_false, runElems, elemCb,
      isEmpty_nil, if_true, drop_length]
    by_cases hnil : e = [] <;> simp [hnil]
  | e' :: es, e, fuel + 1, s, hcolon, hfuel => by
    rw [forall_mem_cons] at hcolon
    have ih : ∀ s, confParseListLoop ':'.toUInt8 false ipv6Cb fuel (joinColon (e' :: es)) s =
        runElems (e' :: es) s := fun s =>
      confParseListLoop_joinColon hcolon.2 (by rw [length_cons] at hfuel; omega)
    have htake : (e ++ ':'.toUInt8 :: joinColon (e' :: es)).takeWhile (· ≠ ':'.toUInt8) = e := by
      rw [takeWhile_noColon hcolon.1]
      simp
    rw [joinColon_cons e (cons_ne_nil e' es)]
    simp only [confParseListLoop, htake, Bool.false_eq_true, if_false, drop_left, ih]
    rw [runElems, elemCb, isEmpty_cons, if_neg Bool.false_ne_true]
    split_ifs with hnil
    · rw [hnil]
      rfl
    · rw [ipv6Cb_append_cons]

lemma confParseList_joinColon (hne : es ≠ []) (hcolon : ∀ x ∈ es, ':'.toUInt8 ∉ x) :
    confParseList ':'.toUInt8 false ipv6Cb (joinColon es) s = runElems es s := by
  obtain ⟨e, es, rfl⟩ := exists_cons_of_ne_nil hne
  have hlen : ∀ (es : List Bytes) (e : Bytes), es.length ≤ (joinColon (e :: es)).length := by
    intro es
    induction es with
    | nil => simp
    | cons e' es ih =>
      intro e
      have := ih e'
      rw [joinColon_cons e (by simp), length_append, length_cons, length_cons]
      omega
  exact confParseListLoop_joinColon hcolon (Nat.lt_succ_of_le (hlen es e))

lemma exists_joinColon (s : Bytes) :
    ∃ es, es ≠ [] ∧ (∀ e ∈ es, ':'.toUInt8 ∉ e) ∧ s = joinColon es := by
  induction s with
  | nil => exact ⟨[[]], by simp, by simp, rfl⟩
  | cons c s ih =>
    obtain ⟨es, hne, hcolon, rfl⟩ := ih
    by_cases hc : c = ':'.toUInt8
    · exact ⟨[] :: es, by simp, forall_mem_cons.mpr ⟨by simp, hcolon⟩,
        by rw [joinColon_cons [] hne, hc]; rfl⟩
    · obtain ⟨e, es, rfl⟩ := exists_cons_of_ne_nil hne
      rw [forall_mem_cons] at hcolon
      refine ⟨(c :: e) :: es, by simp, forall_mem_cons.mpr ⟨?_, hcolon.2⟩, ?_⟩
      · simpa [Ne.symm hc] using hcolon.1
      · cases es with
        | nil => simp [joinColon]
        | cons e' es => rw [joinColon_cons e (by simp), joinColon_cons (c :: e) (by simp)]; rfl

/-! ## Running the callbacks -/

/-- Whole groups, at most eight. -/
structure StatOk (s : Ipv6Stat) : Prop where
  even : s.total % 2 = 0
  le : s.total ≤ 16

def Ipv6Stat.append (s : Ipv6Stat) (b : Bytes) : Ipv6Stat := { s with tmp := s.tmp ++ b }

lemma Ipv6Stat.append_append (s : Ipv6Stat) (b b' : Bytes) :
    (s.append b).append b' = s.append (b ++ b') := by
  simp [Ipv6Stat.append]

@[simp] lemma Ipv6Stat.append_nil (s : Ipv6Stat) : s.append [] = s := by
  simp [Ipv6Stat.append]

@[simp] lemma Ipv6Stat.append_total (s : Ipv6Stat) (b : Bytes) :
    (s.append b).total = s.total + b.length := by
  simp [Ipv6Stat.append, Ipv6Stat.total]

lemma elemCb_iff (hs : StatOk s) (hne : e ≠ []) :
    elemCb e isLast s = some s' ↔ ∃ b, (IsGroup e b ∨ isLast = true ∧ IsQuad e b)
      ∧ s.total + b.length ≤ 16 ∧ s' = s.append b := by
  obtain ⟨heven, hle⟩ := hs
  have hpos := length_pos_iff.mpr hne
  have hbytes : ∀ {b}, IsGroup e b ∨ isLast = true ∧ IsQuad e b → 2 ≤ b.length := by
    rintro b (h | ⟨-, h⟩)
    · exact h.length.ge
    · exact h.length ▸ by omega
  rw [elemCb, ipv6Cb]
  by_cases hfull : s.total = 16
  · grind
  rw [if_neg hfull, if_neg (by omega)]
  by_cases hlen : e.length > 4
  · have hgroup : ∀ b, ¬ IsGroup e b := fun b h => absurd h.length_le (by omega)
    rw [if_pos hlen]
    simp only [hgroup, false_or]
    by_cases hroom : s.total > 12
    · rw [if_pos hroom]
      refine ⟨nofun, fun ⟨b, hb, hfits, _⟩ => ?_⟩
      rw [hb.2.length] at hfits
      omega
    rw [if_neg hroom]
    cases isLast with
    | false => simp
    | true =>
      simp only [if_true, ne_eq, not_true_eq_false, if_false, Option.map_eq_some_iff,
        ipv4FromAsc_iff, true_and]
      refine exists_congr fun b => and_congr_right fun hb => ?_
      rw [hb.length]
      exact ⟨fun h => ⟨by omega, h.symm⟩, fun h => h.2.symm⟩
  · have hquad : ∀ b, ¬ IsQuad e b := fun b h => hlen h.length_gt
    have htake : (if isLast then e else e ++ [':'.toUInt8]).take e.length = e := by
      cases isLast <;> simp
    rw [if_neg hlen, htake, Option.map_eq_some_iff]
    simp only [ipv6Hex_iff hne, hquad, and_false, or_false]
    refine exists_congr fun b => and_congr_right fun hb => ?_
    rw [hb.length]
    exact ⟨fun h => ⟨by omega, h.symm⟩, fun h => h.2.symm⟩

lemma elemCb_nil_iff :
    elemCb [] isLast s = some s' ↔ s.total ≠ 16 ∧ (s.zeroPos = none ∨ s.zeroPos = some s.total)
      ∧ s.zeroCnt < 3
      ∧ s' = { s with zeroPos := some s.total, zeroCnt := s.zeroCnt + 1 } := by
  rw [elemCb, ipv6Cb]
  by_cases hfull : s.total = 16
  · simp [hfull]
  rw [if_neg hfull, length_nil, if_pos rfl]
  by_cases hpos : s.zeroPos ≠ none ∧ s.zeroPos ≠ some s.total
  · rw [if_pos hpos]
    tauto
  split_ifs with hcnt
  · exact ⟨nofun, fun ⟨_, _, h, _⟩ => absurd h (by omega)⟩
  rw [Option.some.injEq, eq_comm]
  exact ⟨fun h => ⟨hfull, by tauto, by omega, h⟩, fun h => h.2.2.2⟩

lemma StatOk.append (hs : StatOk s) (hb : b.length % 2 = 0)
    (hle : s.total + b.length ≤ 16) : StatOk (s.append b) := by
  refine ⟨?_, by simpa using hle⟩
  rw [Ipv6Stat.append_total]
  have := hs.even
  omega

lemma runElems_cons :
    runElems (e :: es) s = some s' ↔
      ∃ s₁, elemCb e es.isEmpty s = some s₁ ∧ runElems es s₁ = some s' :=
  Option.bind_eq_some_iff

lemma even_of_group_or_quad {isLast : Prop} (h : IsGroup e b ∨ isLast ∧ IsQuad e b) :
    b.length % 2 = 0 := by
  rcases h with h | ⟨-, h⟩ <;> rw [h.length]

lemma runElems_append : ∀ {ls : List Bytes} {s s' : Ipv6Stat}, StatOk s →
    (∀ e ∈ ls, e ≠ []) → (runElems (ls ++ es) s = some s' ↔ ∃ lb, IsParts (es = []) ls lb
      ∧ s.total + lb.length ≤ 16 ∧ runElems es (s.append lb) = some s')
  | [], s, s', hs, _ => by
    constructor
    · intro h
      exact ⟨[], .nil, by simpa using hs.le, by simpa using h⟩
    · rintro ⟨lb, hlb, -, h⟩
      cases hlb
      simpa using h
  | e :: ls, s, s', hs, hne => by
    rw [forall_mem_cons] at hne
    rw [cons_append, runElems_cons]
    constructor
    · rintro ⟨s₁, he, hrun⟩
      obtain ⟨b, hb, hfits, rfl⟩ := (elemCb_iff hs hne.1).mp he
      have hs₁ := hs.append (even_of_group_or_quad hb) hfits
      obtain ⟨lb, hlb, hle, hrun⟩ := (runElems_append hs₁ hne.2).mp hrun
      rw [Ipv6Stat.append_total] at hle
      refine ⟨b ++ lb, ?_, by rw [length_append]; omega, by rwa [← Ipv6Stat.append_append]⟩
      rcases hb with hb | ⟨hlast, hb⟩
      · exact .group hb hlb
      · obtain ⟨rfl, hes⟩ := append_eq_nil_iff.mp (List.isEmpty_iff.mp hlast)
        cases hlb
        rw [List.append_nil]
        exact .last hes hb
    · rintro ⟨bytes, hparts, hle, hrun⟩
      cases hparts with
      | @group _ b _ lb hb hlb =>
        rw [length_append] at hle
        have hs₁ := hs.append (b := b) (by rw [hb.length]) (by omega)
        refine ⟨s.append b, (elemCb_iff hs hne.1).mpr ⟨b, .inl hb, by omega, rfl⟩, ?_⟩
        refine (runElems_append hs₁ hne.2).mpr ⟨lb, hlb, ?_, by rwa [Ipv6Stat.append_append]⟩
        rw [Ipv6Stat.append_total]
        omega
      | last hes hb =>
        subst hes
        exact ⟨s.append bytes, (elemCb_iff hs hne.1).mpr ⟨bytes, .inr ⟨rfl, hb⟩, hle, rfl⟩, hrun⟩

lemma runElems_parts (hs : StatOk s) (hne : ∀ e ∈ es, e ≠ []) :
    runElems es s = some s' ↔
      ∃ bs, IsParts True es bs ∧ s.total + bs.length ≤ 16 ∧ s' = s.append bs := by
  have h := @runElems_append [] es s s' hs hne
  simpa only [List.append_nil, eq_self, runElems, Option.some.injEq, eq_comm] using h

lemma runElems_groups {ls : List Bytes} (hs : StatOk s) (hne : ∀ e ∈ ls, e ≠ []) (hes : es ≠ []) :
    runElems (ls ++ es) s = some s' ↔
      ∃ lb, IsParts False ls lb ∧ s.total + lb.length ≤ 16
        ∧ runElems es (s.append lb) = some s' := by
  rw [runElems_append hs hne, eq_false hes]

lemma runElems_empties : ∀ {k : ℕ} {s : Ipv6Stat}, (s.zeroPos = none ∨ s.zeroPos = some s.total) →
    (runElems (replicate (k + 1) [] ++ rs) s = some s' ↔
      s.total ≠ 16 ∧ s.zeroCnt + k < 3
        ∧ runElems rs { s with zeroPos := some s.total, zeroCnt := s.zeroCnt + (k + 1) } = some s')
  | 0, s, hpos => by
    rw [replicate_one, singleton_append, runElems_cons]
    simp only [elemCb_nil_iff]
    constructor
    · grind
    · grind
  | k + 1, s, hpos => by
    rw [replicate_succ, cons_append, runElems_cons]
    simp only [elemCb_nil_iff]
    have ih : runElems (replicate (k + 1) [] ++ rs)
          { s with zeroPos := some s.total, zeroCnt := s.zeroCnt + 1 } = some s' ↔
        s.total ≠ 16 ∧ s.zeroCnt + 1 + k < 3 ∧ runElems rs
          { s with zeroPos := some s.total, zeroCnt := s.zeroCnt + 1 + (k + 1) } = some s' :=
      runElems_empties (.inr rfl)
    have hcnt : s.zeroCnt + 1 + (k + 1) = s.zeroCnt + (k + 1 + 1) := by omega
    constructor
    · grind
    · grind

lemma runElems_after : ∀ {es : List Bytes} {s s' : Ipv6Stat} {p : ℕ}, StatOk s →
    s.zeroPos = some p → p < s.total → runElems es s = some s' → ∀ e ∈ es, e ≠ []
  | [], _, _, _, _, _, _, _ => by simp
  | e :: es, s, s', p, hs, hpos, hlt, hrun => by
    obtain ⟨s₁, he, hrun⟩ := runElems_cons.mp hrun
    have hne : e ≠ [] := by
      rintro rfl
      obtain ⟨-, h | h, -⟩ := elemCb_nil_iff.mp he
      · cases hpos.symm.trans h
      · exact absurd (Option.some.inj (hpos.symm.trans h)) (by omega)
    obtain ⟨b, hb, hfits, rfl⟩ := (elemCb_iff hs hne).mp he
    have hs₁ := hs.append (even_of_group_or_quad hb) hfits
    exact forall_mem_cons.mpr
      ⟨hne, runElems_after hs₁ hpos (by rw [Ipv6Stat.append_total]; omega) hrun⟩

lemma runElems_after_empties (hs : StatOk s) (hpos : s.zeroPos = some s.total)
    (hhead : rs.head? ≠ some []) (hrun : runElems rs s = some s') : ∀ e ∈ rs, e ≠ [] := by
  cases rs with
  | nil => simp
  | cons e es =>
    have hne : e ≠ [] := by simpa using hhead
    obtain ⟨s₁, he, hrun⟩ := runElems_cons.mp hrun
    obtain ⟨b, hb, hfits, rfl⟩ := (elemCb_iff hs hne).mp he
    have hs₁ := hs.append (even_of_group_or_quad hb) hfits
    have hlen : 0 < b.length := by
      rcases hb with hb | ⟨-, hb⟩ <;> rw [hb.length] <;> decide
    exact forall_mem_cons.mpr
      ⟨hne, runElems_after hs₁ hpos (by rw [Ipv6Stat.append_total]; omega) hrun⟩

lemma exists_empties : ∀ es : List Bytes, (∀ e ∈ es, e ≠ []) ∨ ∃ ls k rs,
    es = ls ++ (replicate (k + 1) [] ++ rs) ∧ (∀ e ∈ ls, e ≠ []) ∧ rs.head? ≠ some []
  | [] => .inl (by simp)
  | e :: es => by
    by_cases he : e = []
    · rcases exists_empties es with hes | ⟨ls, k, rs, rfl, hls, hrs⟩
      · refine .inr ⟨[], 0, es, by simp [he], by simp, fun h => ?_⟩
        exact hes [] (mem_of_head? h) rfl
      · cases ls with
        | nil => exact .inr ⟨[], k + 1, rs, by simp [he, replicate_succ], by simp, hrs⟩
        | cons l ls =>
          refine .inr ⟨[], 0, l :: ls ++ (replicate (k + 1) [] ++ rs), by simp [he],
            by simp, ?_⟩
          simpa using hls l mem_cons_self
    · rcases exists_empties es with hes | ⟨ls, k, rs, rfl, hls, hrs⟩
      · exact .inl (forall_mem_cons.mpr ⟨he, hes⟩)
      · exact .inr ⟨e :: ls, k, rs, rfl, forall_mem_cons.mpr ⟨he, hls⟩, hrs⟩

lemma runElems_iff :
    runElems es ⟨[], none, 0⟩ = some s' ↔
      (∃ bs, IsParts True es bs ∧ bs.length ≤ 16 ∧ s' = ⟨bs, none, 0⟩) ∨
      ∃ ls k rs lb rb, es = ls ++ (replicate (k + 1) [] ++ rs) ∧ IsParts False ls lb
        ∧ IsParts True rs rb ∧ lb.length ≠ 16 ∧ k < 3 ∧ lb.length + rb.length ≤ 16
        ∧ s' = ⟨lb ++ rb, some lb.length, k + 1⟩ := by
  have hok : StatOk ⟨[], none, 0⟩ := ⟨rfl, by decide⟩
  -- the state after the groups and after the empty elements
  have hzeros : ∀ {lb : Bytes} (k : ℕ), lb.length % 2 = 0 → lb.length ≤ 16 →
      StatOk ⟨lb, some lb.length, k⟩ := fun _ heven hle => ⟨heven, hle⟩
  constructor
  · intro hrun
    rcases exists_empties es with hes | ⟨ls, k, rs, rfl, hls, hrs⟩
    · obtain ⟨bs, hbs, hle, rfl⟩ := (runElems_parts hok hes).mp hrun
      exact .inl ⟨bs, hbs, by simpa [Ipv6Stat.total] using hle, rfl⟩
    · obtain ⟨lb, hlb, hle, hrun⟩ := (runElems_groups hok hls (by simp)).mp hrun
      obtain ⟨hfull, hk, hrun⟩ := (runElems_empties (.inl rfl)).mp hrun
      simp only [Ipv6Stat.append, Ipv6Stat.total, nil_append, length_nil, zero_add]
        at hle hfull hk hrun
      have hs := hzeros (k + 1) hlb.even hle
      obtain ⟨rb, hrb, hle', rfl⟩ :=
        (runElems_parts hs (runElems_after_empties hs rfl hrs hrun)).mp hrun
      exact .inr ⟨ls, k, rs, lb, rb, rfl, hlb, hrb, hfull, hk, hle', rfl⟩
  · rintro (⟨bs, hbs, hle, rfl⟩ | ⟨ls, k, rs, lb, rb, rfl, hlb, hrb, hfull, hk, hle, rfl⟩)
    · exact (runElems_parts hok hbs.ne_nil).mpr ⟨bs, hbs, by simpa [Ipv6Stat.total] using hle, rfl⟩
    · refine (runElems_groups hok hlb.ne_nil (by simp)).mpr
        ⟨lb, hlb, by simpa [Ipv6Stat.total] using by omega, ?_⟩
      refine (runElems_empties (.inl rfl)).mpr
        ⟨by simpa [Ipv6Stat.append, Ipv6Stat.total] using hfull,
          by simpa [Ipv6Stat.append] using hk, ?_⟩
      simp only [Ipv6Stat.append, Ipv6Stat.total, nil_append, zero_add]
      have hs := hzeros (k + 1) hlb.even (by omega)
      exact (runElems_parts hs hrb.ne_nil).mpr ⟨rb, hrb, hle, rfl⟩

/-! ## The address -/

/-- How many of two lists are empty: there a `::` at an end of the string adds an element. -/
def emptySides {α : Type} (ls rs : List α) : ℕ :=
  (if ls = [] then 1 else 0) + (if rs = [] then 1 else 0)

lemma joinColon_emptySides (ls rs : List Bytes) :
    joinColon (ls ++ (replicate (emptySides ls rs + 1) [] ++ rs)) =
      joinColon ls ++ [':'.toUInt8, ':'.toUInt8] ++ joinColon rs := by
  by_cases hls : ls = [] <;> by_cases hrs : rs = []
  · subst hls hrs
    rfl
  · subst hls
    have hcons := joinColon_cons [] hrs
    simp only [emptySides, hrs, if_true, if_false, replicate_succ, replicate_zero,
      nil_append, cons_append]
    rw [joinColon_cons [] (by simp), hcons]
    rfl
  · subst hrs
    simp only [emptySides, hls, if_true, if_false, List.append_nil]
    rw [joinColon_append hls (by simp)]
    simp [joinColon]
  · simp only [emptySides, hls, hrs, if_false]
    rw [joinColon_append hls (by simp), add_zero, replicate_one, singleton_append,
      joinColon_cons [] hrs]
    simp

lemma zerosOk_iff {lb rb : Bytes} {k : ℕ} (hk : k < 3) :
    zerosOk ⟨lb ++ rb, some lb.length, k + 1⟩ = true ↔ lb.length + rb.length < 16
      ∧ (k = emptySides lb rb ∨ k = 1 ∧ lb = [] ∧ rb = []) := by
  have hnil : ∀ l : Bytes, l = [] ↔ l.length = 0 := fun l => length_eq_zero_iff.symm
  simp only [zerosOk, Ipv6Stat.total, length_append, emptySides, hnil]
  by_cases hfull : lb.length + rb.length ≥ 16
  · rw [if_pos hfull]
    simp only [Bool.false_eq_true, false_iff]
    omega
  interval_cases k <;>
    split_ifs <;> grind

lemma ipv6FromAsc_joinColon (hne : es ≠ []) (hcolon : ∀ e ∈ es, ':'.toUInt8 ∉ e) :
    ipv6FromAsc (joinColon es) = some bytes ↔ ∃ v6stat,
      runElems es ⟨[], none, 0⟩ = some v6stat ∧ zerosOk v6stat = true
        ∧ formatIpv6 v6stat = bytes := by
  rw [ipv6FromAsc, Option.bind_eq_bind, confParseList_joinColon hne hcolon, Option.bind_eq_some_iff]
  refine exists_congr fun v6stat => and_congr_right fun _ => ?_
  by_cases hzeros : zerosOk v6stat = true <;> simp [hzeros]

lemma formatIpv6_zeros (lb rb : Bytes) (k : ℕ) : formatIpv6 ⟨lb ++ rb, some lb.length, k⟩ =
    lb ++ replicate (16 - (lb.length + rb.length)) 0 ++ rb := by
  simp [formatIpv6, Ipv6Stat.total]

lemma IsIpv6.of_ipv6FromAsc {s : Bytes} (hs : s ≠ [':'.toUInt8])
    (h : ipv6FromAsc s = some bytes) : IsIpv6 s bytes := by
  obtain ⟨es, hne, hcolon, rfl⟩ := exists_joinColon s
  obtain ⟨v6stat, hes, hzeros, rfl⟩ := (ipv6FromAsc_joinColon hne hcolon).mp h
  rcases runElems_iff.mp hes with
    ⟨bs, hbs, -, rfl⟩ | ⟨ls, k, rs, lb, rb, rfl, hlb, hrb, -, hk, -, rfl⟩
  · exact .full hbs (of_decide_eq_true hzeros)
  · obtain ⟨hlt, hcnt⟩ := (zerosOk_iff hk).mp hzeros
    have hsides : emptySides lb rb = emptySides ls rs := by
      simp only [emptySides, hlb.eq_nil_iff, hrb.eq_nil_iff]
    rw [hsides, hlb.eq_nil_iff, hrb.eq_nil_iff] at hcnt
    rcases hcnt with rfl | ⟨rfl, rfl, rfl⟩
    · rw [formatIpv6_zeros, joinColon_emptySides]
      have hl := hlb.even
      have hr := hrb.even
      exact .compressed hlb hrb (by omega)
    · exact absurd rfl hs

lemma IsIpv6.ipv6FromAsc {s : Bytes} (h : IsIpv6 s bytes) : ipv6FromAsc s = some bytes := by
  cases h with
  | @full es _ hbs hlen =>
    have hne : es ≠ [] := by
      rintro rfl
      simp [hbs.eq_nil_iff.mpr rfl] at hlen
    exact (ipv6FromAsc_joinColon hne hbs.noColon).mpr ⟨⟨bytes, none, 0⟩,
      runElems_iff.mpr (.inl ⟨bytes, hbs, hlen.le, rfl⟩), decide_eq_true hlen, rfl⟩
  | @compressed ls rs lb rb hlb hrb hle =>
    have hk : emptySides lb rb < 3 := by
      rw [emptySides]
      split_ifs <;> decide
    have hsides : emptySides lb rb = emptySides ls rs := by
      simp only [emptySides, hlb.eq_nil_iff, hrb.eq_nil_iff]
    rw [← joinColon_emptySides, ← hsides]
    refine (ipv6FromAsc_joinColon (by simp) ?_).mpr
      ⟨⟨lb ++ rb, some lb.length, emptySides lb rb + 1⟩, runElems_iff.mpr (.inr ?_), ?_,
        formatIpv6_zeros lb rb _⟩
    · intro e he
      rcases mem_append.mp he with he | he
      · exact hlb.noColon e he
      · rcases mem_append.mp he with he | he
        · rw [eq_of_mem_replicate he]
          simp
        · exact hrb.noColon e he
    · exact ⟨ls, _, rs, lb, rb, rfl, hlb, hrb, by omega, hk, by omega, rfl⟩
    · exact (zerosOk_iff hk).mpr ⟨by omega, .inl rfl⟩

lemma IsIpv6.hasColon {s : Bytes} (h : IsIpv6 s bytes) : ':'.toUInt8 ∈ s ∧ 1 < s.length := by
  cases h with
  | @full es _ hbs hlen =>
    cases hbs with
    | nil => simp at hlen
    | @group e b es bs he hes =>
      have hne : es ≠ [] := by
        rintro rfl
        rw [hes.eq_nil_iff.mpr rfl, List.append_nil, he.length] at hlen
        omega
      have hpos := length_pos_iff.mpr he.ne_nil
      rw [joinColon_cons e hne]
      refine ⟨by simp, ?_⟩
      rw [length_append, length_cons]
      omega
    | last _ he =>
      rw [he.length] at hlen
      omega
  | compressed =>
    grind

/-- Where an address is text of either kind: all strings but the single colon. -/
theorem x509v3A2iIpadd_iff {s bytes : Bytes} (hs : s ≠ [':'.toUInt8]) :
    x509v3A2iIpadd s = some bytes ↔ IsQuad s bytes ∨ IsIpv6 s bytes := by
  rw [x509v3A2iIpadd]
  by_cases hcolon : ':'.toUInt8 ∈ s
  · have hquad : ¬ IsQuad s bytes := fun h => h.noColon hcolon
    rw [if_pos hcolon, or_iff_right hquad]
    exact ⟨.of_ipv6FromAsc hs, IsIpv6.ipv6FromAsc⟩
  · have hipv6 : ¬ IsIpv6 s bytes := fun h => hcolon h.hasColon.1
    rw [if_neg hcolon, ipv4FromAsc_iff, or_iff_left hipv6]

theorem x509v3A2iIpadd_iff_mapped :
    IsQuad "64:ff9b::192.0.2.33".toUTF8.toList
        [0, 0x64, 0xff, 0x9b, 0, 0, 0, 0, 0, 0, 0, 0, 192, 0, 2, 33]
      ∨ IsIpv6 "64:ff9b::192.0.2.33".toUTF8.toList
        [0, 0x64, 0xff, 0x9b, 0, 0, 0, 0, 0, 0, 0, 0, 192, 0, 2, 33] :=
  (x509v3A2iIpadd_iff (by decide +kernel)).mp (by decide +kernel)

/-- A single colon is read as `::`. -/
theorem x509v3A2iIpadd_colon : x509v3A2iIpadd [':'.toUInt8] = some (replicate 16 0)
    ∧ ∀ bytes, ¬ (IsQuad [':'.toUInt8] bytes ∨ IsIpv6 [':'.toUInt8] bytes) := by
  refine ⟨by decide +kernel, fun bytes h => h.elim (fun h => h.noColon (by simp)) ?_⟩
  exact fun h => absurd h.hasColon.2 (by simp)

end BoringSSL
