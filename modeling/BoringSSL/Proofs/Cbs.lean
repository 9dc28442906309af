import BoringSSL.Cbs
import BoringSSL.Proofs.CbbTree

/-!
# DER: the parser and the builder are inverse

Each reader of `cbs.cc` accepts exactly the octets the builder writes, so an element is read back
from what CBB encodes, with anything after it left alone, and no element begins with another
(`der_canonical`).
-/

namespace BoringSSL

open ByteLib List Option

variable {m : ℕ} {num : UInt32}
  {s r rest body : Bytes} {n k : ℕ} {v : UInt64} {tag : UInt32} {e : Asn1Element}

/-! ## Reading bytes -/

lemma cbsGet_eq_some {a : Bytes} : cbsGet s n = some (a, r) ↔ s = a ++ r ∧ a.length = n := by
  unfold cbsGet
  split_ifs with h
  · simp only [false_iff, not_and]
    rintro rfl hn
    simp at h
    omega
  · simp only [Option.some.injEq, Prod.mk.injEq]
    constructor
    · rintro ⟨rfl, rfl⟩
      exact ⟨(take_append_drop n s).symm, by rw [length_take]; omega⟩
    · rintro ⟨rfl, rfl⟩
      exact ⟨take_left, drop_left⟩

lemma getBytes_bind {α : Type} {cbs : Bytes} {len : ℕ} (h : len ≤ cbs.length)
    (f : Bytes × Bytes → Checked α) :
    (getBytes cbs len >>= f) = f (cbs.take len, cbs.drop len) := by
  have hget : cbsGet cbs len = some (cbs.take len, cbs.drop len) :=
    cbsGet_eq_some.mpr ⟨by simp, by rw [length_take, min_eq_left h]⟩
  rw [getBytes, cbsGetBytes, hget]
  rfl

lemma cbsGetU8_eq_some {v : UInt8} : cbsGetU8 s = some (v, r) ↔ s = v :: r := by
  cases s <;> simp [cbsGetU8]

lemma shiftLeft_or_toNat (w : UInt64) (hk : k < 64) (hv : v.toNat * 2 ^ k < 2 ^ 64)
    (hm : w.toNat = m) (hw : m < 2 ^ k) :
    ((v <<< UInt64.ofNat k) ||| w).toNat = v.toNat * 2 ^ k + m := by
  have hk' : (UInt64.ofNat k).toNat % 64 = k := by
    rw [UInt64.toNat_ofNat']
    omega
  rw [UInt64.toNat_or, UInt64.toNat_shiftLeft, hk', Nat.shiftLeft_eq, Nat.mod_eq_of_lt hv, hm,
    mul_comm, Nat.two_pow_add_eq_or_of_lt hw]

lemma foldl_shift_toNat (data : Bytes) (h : data.length ≤ 8) :
    (data.foldl (fun (result : UInt64) b => (result <<< 8) ||| b.toUInt64) 0).toNat
      = beNat data := by
  induction data using reverseRecOn with
  | nil => rfl
  | append_singleton bs b ih =>
    rw [length_append, length_singleton] at h
    have hlt := beNat_lt bs
    have hpow : 256 ^ bs.length ≤ 256 ^ 7 := Nat.pow_le_pow_right (by norm_num) (by omega)
    have hb := b.toNat_lt
    rw [foldl_append, foldl_cons, foldl_nil, beNat_concat, ← ih (by omega)]
    exact shiftLeft_or_toNat (k := 8) b.toUInt64 (by omega) (by omega) (by simp) (by omega)

lemma cbsGetU_eq_some (hn : n ≤ 8) :
    cbsGetU s n = some (v, r) ↔ s = beBytes n v.toNat ++ r ∧ v.toNat < 256 ^ n := by
  simp only [cbsGetU, map_eq_some_iff, Prod.exists, Prod.mk.injEq]
  constructor
  · rintro ⟨data, r', hget, hv, rfl⟩
    obtain ⟨rfl, hlen⟩ := cbsGet_eq_some.mp hget
    have hval := foldl_shift_toNat data (by omega)
    rw [hv] at hval
    rw [hval, ← hlen]
    exact ⟨by rw [beBytes_beNat], beNat_lt data⟩
  · rintro ⟨rfl, hv⟩
    refine ⟨beBytes n v.toNat, r, cbsGet_eq_some.mpr ⟨rfl, beBytes_length _ _⟩, ?_, rfl⟩
    apply UInt64.toNat_inj.mp
    rw [foldl_shift_toNat _ (by rw [beBytes_length]; exact hn), beNat_beBytes, Nat.mod_eq_of_lt hv]

lemma opensslIsdigit_iff {c : UInt8} :
    opensslIsdigit c = true ↔ ∃ n < 10, c = UInt8.ofNat (0x30 + n) := by
  simp only [opensslIsdigit, Bool.and_eq_true, decide_eq_true_eq, UInt8.le_iff_toNat_le]
  constructor
  · rintro ⟨h1, h2⟩
    simp only [UInt8.reduceToNat] at h1 h2
    exact ⟨c.toNat - 0x30, by omega, by rw [Nat.add_sub_cancel' h1, UInt8.ofNat_toNat]⟩
  · rintro ⟨n, hn, rfl⟩
    rw [UInt8.toNat_ofNat']
    simp only [UInt8.reduceToNat]
    omega

lemma digit_toNat (h : n < 10) : (UInt8.ofNat (0x30 + n)).toNat = 0x30 + n := by
  rw [UInt8.toNat_ofNat']
  omega

/-! ## Base-128 integers -/

/-- The groups of `m`, all of them with the high bit set. -/
def base128Cont (m : ℕ) : Bytes := (Nat.digits 128 m).reverse.map fun g => UInt8.ofNat (128 + g)

lemma base128_eq_cont (n : ℕ) : base128 n = base128Cont (n / 128) ++ [UInt8.ofNat (n % 128)] :=
  rfl

lemma base128Cont_zero : base128Cont 0 = [] := rfl

lemma base128Cont_pos (h : 0 < m) :
    base128Cont m = base128Cont (m / 128) ++ [UInt8.ofNat (128 + m % 128)] := by
  rw [base128Cont, Nat.digits_def' (by norm_num) h]
  simp [base128Cont]

lemma highBit_iff (b : UInt8) : b &&& 0x80 = 0 ↔ b.toNat < 128 := by
  have h : ∀ x : Fin 256, UInt8.ofNat x.val &&& 0x80 = 0 ↔ x.val < 128 := by decide +kernel
  simpa using h ⟨b.toNat, b.toNat_lt⟩

lemma low7_toNat (b : UInt8) : (b &&& 0x7f).toNat = b.toNat % 128 :=
  (UInt8.toNat_and b 0x7f).trans (Nat.and_two_pow_sub_one_eq_mod b.toNat 7)

lemma shiftRight57_iff (v : UInt64) : v >>> (64 - 7) = 0 ↔ v.toNat < 2 ^ 57 := by
  have hs : (v >>> (64 - 7)).toNat = v.toNat / 2 ^ 57 := by
    rw [UInt64.toNat_shiftRight, Nat.shiftRight_eq_div_pow]
    rfl
  rw [← UInt64.toNat_inj, hs, UInt64.toNat_zero]
  omega

lemma parseBase128Integer_cons (v : UInt64) (b : UInt8) (cbs : Bytes) :
    parseBase128Integer v (b :: cbs) =
      if v.toNat < 2 ^ 57 ∧ ¬ (v.toNat = 0 ∧ b.toNat = 128) then
        if b.toNat < 128 then some (UInt64.ofNat (v.toNat * 128 + b.toNat % 128), cbs)
        else parseBase128Integer (UInt64.ofNat (v.toNat * 128 + b.toNat % 128)) cbs
      else none := by
  have hb80 : b = 0x80 ↔ b.toNat = 128 := by rw [← UInt8.toNat_inj]; rfl
  have hv0 : v = 0 ↔ v.toNat = 0 := by rw [← UInt64.toNat_inj]; rfl
  rw [parseBase128Integer]
  simp only [ne_eq, shiftRight57_iff, highBit_iff, hb80, hv0]
  by_cases hv : v.toNat < 2 ^ 57
  · have hstep : (v <<< 7) ||| (b &&& 0x7f).toUInt64
        = UInt64.ofNat (v.toNat * 128 + b.toNat % 128) := by
      apply UInt64.toNat_inj.mp
      have := shiftLeft_or_toNat (v := v) (k := 7) (m := b.toNat % 128) (b &&& 0x7f).toUInt64
        (by omega) (by omega) (by rw [UInt8.toNat_toUInt64, low7_toNat]) (by omega)
      rw [UInt64.toNat_ofNat']
      refine this.trans ?_
      omega
    rw [hstep]
    split_ifs <;> first | rfl | omega
  · rw [if_pos hv, if_neg fun h => hv h.1]

lemma parseBase128Integer_cont (rest : Bytes) (m : ℕ) (h : m < 2 ^ 64) :
    parseBase128Integer 0 (base128Cont m ++ rest) = parseBase128Integer (UInt64.ofNat m) rest := by
  induction m using Nat.strong_induction_on generalizing rest with
  | _ m ih =>
    rcases Nat.eq_zero_or_pos m with rfl | hm
    · rfl
    · have hq : (UInt64.ofNat (m / 128)).toNat = m / 128 := by
        rw [UInt64.toNat_ofNat']
        omega
      have hbyte : (UInt8.ofNat (128 + m % 128)).toNat = 128 + m % 128 := by
        rw [UInt8.toNat_ofNat']
        omega
      rw [base128Cont_pos hm, append_assoc, ih _ (by omega) _ (by omega), singleton_append,
        parseBase128Integer_cons, hq, hbyte, if_pos ⟨by omega, by omega⟩, if_neg (by omega)]
      congr 2
      omega

lemma parseBase128Integer_sound : ∀ {s rest : Bytes} {v n : UInt64},
    parseBase128Integer v s = some (n, rest) →
    base128Cont v.toNat ++ s = base128 n.toNat ++ rest
  | [], _, _, _, h => by simp [parseBase128Integer] at h
  | b :: s, rest, v, n, h => by
    have hb := b.toNat_lt
    rw [parseBase128Integer_cons] at h
    split_ifs at h with hc hlast
    all_goals
      have hnext : (UInt64.ofNat (v.toNat * 128 + b.toNat % 128)).toNat
          = v.toNat * 128 + b.toNat % 128 := by
        rw [UInt64.toNat_ofNat']
        omega
    · obtain ⟨rfl, rfl⟩ := h
      have h1 : (v.toNat * 128 + b.toNat % 128) / 128 = v.toNat := by omega
      have h2 : UInt8.ofNat ((v.toNat * 128 + b.toNat % 128) % 128) = b := by
        apply UInt8.toNat_inj.mp
        rw [UInt8.toNat_ofNat']
        omega
      rw [hnext, base128_eq_cont, h1, h2, append_assoc, singleton_append]
    · have ih := parseBase128Integer_sound h
      have h1 : (v.toNat * 128 + b.toNat % 128) / 128 = v.toNat := by omega
      have h2 : UInt8.ofNat (128 + (v.toNat * 128 + b.toNat % 128) % 128) = b := by
        apply UInt8.toNat_inj.mp
        rw [UInt8.toNat_ofNat']
        omega
      rw [hnext, base128Cont_pos (by omega), h1, h2, append_assoc, singleton_append] at ih
      exact ih

lemma parseBase128Integer_iff {n : UInt64} :
    parseBase128Integer 0 s = some (n, rest) ↔ s = base128 n.toNat ++ rest := by
  constructor
  · intro h
    simpa [base128Cont_zero] using parseBase128Integer_sound h
  · rintro rfl
    have hn := n.toNat_lt
    have hq : (UInt64.ofNat (n.toNat / 128)).toNat = n.toNat / 128 := by
      rw [UInt64.toNat_ofNat']
      omega
    have hbyte : (UInt8.ofNat (n.toNat % 128)).toNat = n.toNat % 128 := by
      rw [UInt8.toNat_ofNat']
      omega
    rw [base128_eq_cont, append_assoc, parseBase128Integer_cont _ _ (by omega),
      singleton_append, parseBase128Integer_cons, hq, hbyte, if_pos ⟨by omega, by omega⟩,
      if_pos (by omega)]
    simp only [Option.some.injEq, Prod.mk.injEq, and_true]
    apply UInt64.toNat_inj.mp
    rw [UInt64.toNat_ofNat']
    omega

/-! ## Tags -/

lemma joinTag_toNat (tagByte : UInt8) (h : num.toNat < 2 ^ 29) :
    (((tagByte.toUInt32 &&& 0xe0) <<< asn1TagShift) ||| num).toNat
      = tagByte.toNat / 32 * 2 ^ 29 + num.toNat := by
  have hmask : ∀ x : Fin 256, x.val &&& 0xe0 = x.val / 32 * 32 := by decide +kernel
  have htop : (tagByte.toUInt32 &&& 0xe0).toNat = tagByte.toNat / 32 * 32 := by
    exact hmask ⟨_, tagByte.toNat_lt⟩
  have hb := tagByte.toNat_lt
  have hs : asn1TagShift.toNat % 32 = 24 := rfl
  rw [UInt32.toNat_or, UInt32.toNat_shiftLeft, hs, htop, Nat.shiftLeft_eq,
    Nat.mod_eq_of_lt (by omega),
    show tagByte.toNat / 32 * 32 * 2 ^ 24 = 2 ^ 29 * (tagByte.toNat / 32) by ring,
    ← Nat.two_pow_add_eq_or_of_lt h, mul_comm]

lemma low5_toNat (b : UInt8) : (b &&& 0x1f).toNat = b.toNat % 32 :=
  (UInt8.toNat_and b 0x1f).trans (Nat.and_two_pow_sub_one_eq_mod b.toNat 5)

lemma parseAsn1TagNumber_iff {tagByte : UInt8} :
    parseAsn1TagNumber tagByte s = some (num, rest) ↔
      (tagByte.toNat % 32 = 31 ∧ 31 ≤ num.toNat ∧ num.toNat < 2 ^ 29
          ∧ s = base128 num.toNat ++ rest)
        ∨ (tagByte.toNat % 32 < 31 ∧ num.toNat = tagByte.toNat % 32 ∧ s = rest) := by
  have hlow : tagByte &&& 0x1f = 0x1f ↔ tagByte.toNat % 32 = 31 := by
    rw [← UInt8.toNat_inj, low5_toNat]
    rfl
  have hmask : asn1TagNumberMask.toUInt64.toNat = 2 ^ 29 - 1 := rfl
  rw [parseAsn1TagNumber]
  split_ifs with h
  · have h31 := hlow.mp h
    simp only [bind_eq_some_iff, Prod.exists, ite_none_left_eq_some, not_or,
      Option.some.injEq, Prod.mk.injEq, gt_iff_lt, UInt64.lt_iff_toNat_lt, hmask, not_lt]
    constructor
    · rintro ⟨v, r, hp, ⟨hhi, hlo⟩, rfl, rfl⟩
      have hv : v.toUInt32.toNat = v.toNat := by
        rw [UInt64.toNat_toUInt32]
        omega
      have hlo' : 31 ≤ v.toNat := hlo
      exact Or.inl ⟨h31, by omega, by omega, by rw [hv]; exact parseBase128Integer_iff.mp hp⟩
    · rintro (⟨-, hlo, hhi, hs⟩ | ⟨hlt, -⟩)
      · have hn : num.toUInt64.toNat = num.toNat := UInt32.toNat_toUInt64 num
        refine ⟨num.toUInt64, rest, parseBase128Integer_iff.mpr (by rw [hn]; exact hs),
          ⟨by omega, ?_⟩, by simp, rfl⟩
        exact hlo
      · omega
  · have h31 : tagByte.toNat % 32 < 31 := by
      have := mt hlow.mpr h
      omega
    have hval : (tagByte &&& 0x1f).toUInt32.toNat = tagByte.toNat % 32 := by
      rw [UInt8.toNat_toUInt32, low5_toNat]
    simp only [Option.some.injEq, Prod.mk.injEq, ← UInt32.toNat_inj, hval]
    constructor
    · rintro ⟨h1, rfl⟩
      exact Or.inr ⟨h31, h1.symm, rfl⟩
    · grind

lemma parseAsn1Tag_identifierOctets (tag : UInt32) (rest : Bytes) :
    parseAsn1Tag (identifierOctets tag ++ rest)
      = if Asn1TagOk tag then some (tag, rest) else none := by
  have ht := tag.toNat_lt
  have hnum : (UInt32.ofNat (tag.toNat % 2 ^ 29)).toNat = tag.toNat % 2 ^ 29 := by
    rw [UInt32.toNat_ofNat']
    omega
  -- The first octet carries the top bits, and below them the number or all ones.
  obtain ⟨b, tail, low, hlow, hb, hsplit, hn⟩ : ∃ b tail low, low < 32
      ∧ b = UInt8.ofNat (tag.toNat / 2 ^ 29 * 32 + low)
      ∧ identifierOctets tag ++ rest = b :: tail
      ∧ parseAsn1TagNumber b tail = some (UInt32.ofNat (tag.toNat % 2 ^ 29), rest) := by
    simp only [identifierOctets, parseAsn1TagNumber_iff, hnum]
    split_ifs with h31
    · refine ⟨_, rest, _, by omega, rfl, rfl, Or.inr ⟨?_, ?_, rfl⟩⟩
      all_goals
        rw [UInt8.toNat_ofNat']
        omega
    · refine ⟨_, base128 (tag.toNat % 2 ^ 29) ++ rest, 31, by omega, rfl, rfl,
        Or.inl ⟨?_, by omega, by omega, rfl⟩⟩
      rw [UInt8.toNat_ofNat']
      omega
  have hjoin : ((b.toUInt32 &&& 0xe0) <<< asn1TagShift) ||| UInt32.ofNat (tag.toNat % 2 ^ 29)
      = tag := by
    apply UInt32.toNat_inj.mp
    rw [joinTag_toNat _ (by rw [hnum]; omega), hnum, hb, UInt8.toNat_ofNat']
    omega
  simp only [hsplit, parseAsn1Tag, cbsGetU8, hn, hjoin, bind_some]
  by_cases hok : Asn1TagOk tag
  · rw [if_pos hok, if_neg hok]
  · rw [if_neg hok, if_pos (not_not.mp hok)]

lemma parseAsn1Tag_iff :
    parseAsn1Tag s = some (tag, rest) ↔ s = identifierOctets tag ++ rest ∧ Asn1TagOk tag := by
  constructor
  · simp only [parseAsn1Tag, bind_eq_some_iff, Prod.exists, cbsGetU8_eq_some,
      parseAsn1TagNumber_iff, ite_none_left_eq_some, Option.some.injEq, Prod.mk.injEq]
    rintro ⟨b, t, rfl, num, r, hnum, hok, htag, rfl⟩
    have hb := b.toNat_lt
    have hlt : num.toNat < 2 ^ 29 := by omega
    have hto := joinTag_toNat b hlt
    rw [htag] at hto
    have hdiv : tag.toNat / 2 ^ 29 = b.toNat / 32 := by omega
    have hmod : tag.toNat % 2 ^ 29 = num.toNat := by omega
    have hbyte : ∀ low, b.toNat % 32 = low → UInt8.ofNat (b.toNat / 32 * 32 + low) = b := by
      intro low hl
      apply UInt8.toNat_inj.mp
      rw [UInt8.toNat_ofNat']
      omega
    refine ⟨?_, htag ▸ hok⟩
    simp only [identifierOctets, hdiv, hmod]
    rcases hnum with ⟨h31, hlo, -, rfl⟩ | ⟨h31, hn, rfl⟩
    · rw [if_neg (by omega), hbyte _ h31, cons_append]
    · rw [if_pos (by omega), hbyte _ hn.symm, singleton_append]
  · rintro ⟨rfl, hok⟩
    rw [parseAsn1Tag_identifierOctets, if_pos hok]

/-! ## Elements -/

lemma exists_lengthOctets_long (h : 128 ≤ n) (hn : n ≤ 0xffffffff) :
    ∃ k < 4, 256 ^ k ≤ n ∧ n < 256 ^ (k + 1) := by
  by_cases h1 : n < 256
  · exact ⟨0, by omega, by omega, by omega⟩
  by_cases h2 : n < 256 ^ 2
  · exact ⟨1, by omega, by omega, by omega⟩
  by_cases h3 : n < 256 ^ 3
  · exact ⟨2, by omega, by omega, by omega⟩
  · exact ⟨3, by omega, by omega, by omega⟩

lemma cbsGetBytes_header {header tail out : Bytes} :
    cbsGetBytes (header ++ tail) (n + header.length) = some (out, rest) ↔
      ∃ body, out = header ++ body ∧ tail = body ++ rest ∧ body.length = n := by
  rw [cbsGetBytes, cbsGet_eq_some]
  constructor
  · rintro ⟨h, hlen⟩
    rw [append_eq_append_iff] at h
    obtain ⟨x, rfl, rfl⟩ | ⟨x, rfl, rfl⟩ := h
    · exact ⟨x, rfl, rfl, by simp at hlen; omega⟩
    · simp only [length_append] at hlen
      have hx : x = [] := length_eq_zero_iff.mp (by omega)
      subst hx
      exact ⟨[], by simp, by simp, by simp at hlen ⊢; omega⟩
  · rintro ⟨body, rfl, rfl, rfl⟩
    exact ⟨by simp, by simp [add_comm]⟩

lemma shiftRight_eq_zero_iff (hk : k < 8) : v >>> (UInt64.ofNat k * 8) = 0 ↔ v.toNat < 256 ^ k := by
  have hs : (UInt64.ofNat k * 8).toNat % 64 = 8 * k := by
    rw [UInt64.toNat_mul, UInt64.toNat_ofNat']
    simp only [UInt64.reduceToNat]
    omega
  rw [← UInt64.toNat_inj, UInt64.toNat_shiftRight, hs, Nat.shiftRight_eq_div_pow, pow_mul,
    UInt64.toNat_zero, Nat.div_eq_zero_iff_lt (by positivity)]
  norm_num

/-- The element after a header that `parse_asn1_tag` and the length octets make up. -/
structure IsElement (s : Bytes) (e : Asn1Element) (body : Bytes) : Prop where
  split : s = e.out ++ e.cbs
  out : e.out = derElement e.tag body
  headerLen : e.headerLen + body.length = e.out.length
  length_le : body.length ≤ 0xffffffff
  tagOk : Asn1TagOk e.tag
  der : e.berFound = false ∧ e.indefinite = false

lemma identifierOctets_length_le (tag : UInt32) : (identifierOctets tag).length ≤ 6 := by
  have hd := (Nat.digits_length_le_iff (b := 128) (k := 4) (by norm_num)
    (tag.toNat % 2 ^ 29 / 128)).mpr (by omega)
  unfold identifierOctets
  simp only []
  split_ifs
  · simp
  · simp only [base128, length_cons, length_append, length_map, length_reverse, length_nil]
    omega

lemma longByte_eq {lb : UInt8} (h : ¬ lb.toNat < 128) (hk : lb.toNat % 128 = k + 1) :
    UInt8.ofNat (128 + (k + 1)) = lb := by
  have := lb.toNat_lt
  apply UInt8.toNat_inj.mp
  rw [UInt8.toNat_ofNat']
  omega

/-- What a read returns: the element after a header with a definite length, or a header that
leaves the length open. -/
inductive ReadsElement (s : Bytes) (e : Asn1Element) : Prop
  | definite (len body : Bytes) (hlen : BerLength body.length len) (hs : s = e.out ++ e.cbs)
    (hout : e.out = identifierOctets e.tag ++ len ++ body)
    (hheader : e.headerLen = (identifierOctets e.tag ++ len).length)
    (hfit : body.length ≤ 0xffffffff) (hder : e.berFound = false → len = lengthOctets body.length)
    (hdef : e.indefinite = false)
  | indefinite (hs : s = identifierOctets e.tag ++ 0x80 :: e.cbs)
    (hcons : e.tag &&& asn1Constructed ≠ 0) (hber : e.berFound = true)
    (hindef : e.indefinite = true)

lemma cbsGetAnyAsn1ElementImpl_sound {berOk : Bool}
    (h : cbsGetAnyAsn1ElementImpl s berOk = some e) :
    Asn1TagOk e.tag ∧ ReadsElement s e ∧ (berOk = false → e.berFound = false) := by
  simp only [cbsGetAnyAsn1ElementImpl, bind_eq_some_iff, Prod.exists,
    cbsGetU8_eq_some, parseAsn1Tag_iff] at h
  obtain ⟨tag, -, ⟨rfl, hok⟩, lb, header, rfl, h⟩ := h
  have hlb := lb.toNat_lt
  have hid := identifierOctets_length_le tag
  have hlen : (identifierOctets tag ++ lb :: header).length - header.length
      = (identifierOctets tag).length + 1 := by
    simp only [length_append, length_cons]
    omega
  rw [hlen] at h
  have hhead : identifierOctets tag ++ lb :: header = (identifierOctets tag ++ [lb]) ++ header := by
    simp
  have hone : (identifierOctets tag).length + 1 = (identifierOctets tag ++ [lb]).length := by simp
  split_ifs at h with hshort hindef hnum
  · rw [highBit_iff] at hshort
    obtain ⟨⟨out, rest⟩, hget, rfl⟩ := map_eq_some_iff.mp h
    rw [hhead, hone, cbsGetBytes_header] at hget
    obtain ⟨body, rfl, rfl, hbody⟩ := hget
    have hlo : lengthOctets body.length = [lb] := by simp [lengthOctets, hbody, hshort]
    have hlb' : UInt8.ofNat body.length = lb := by rw [hbody, UInt8.ofNat_toNat]
    have hber := BerLength.short (n := body.length) (by omega)
    rw [hlb'] at hber
    exact ⟨hok, .definite [lb] body hber (by simp) (by simp) (by simp) (by omega)
      (fun _ => hlo.symm) rfl, fun _ => rfl⟩
  · obtain ⟨⟨out, rest⟩, hget, rfl⟩ := map_eq_some_iff.mp h
    rw [highBit_iff] at hshort
    rw [low7_toNat] at hindef
    have h80 : lb = 0x80 := UInt8.toNat_inj.mp (show lb.toNat = 128 by omega)
    rw [hhead, ← zero_add (_ + 1), hone, cbsGetBytes_header] at hget
    obtain ⟨body, -, rfl, hbody⟩ := hget
    rw [length_eq_zero_iff] at hbody
    exact ⟨hok, .indefinite (by simp [h80, hbody]) hindef.2.1 rfl rfl,
      fun hb => by simp [hb] at hindef⟩
  · rw [highBit_iff] at hshort
    rw [low7_toNat] at hnum h
    obtain ⟨⟨len64, header'⟩, hget64, h⟩ := bind_eq_some_iff.mp h
    obtain ⟨rfl, hlt⟩ := (cbsGetU_eq_some (by omega)).mp hget64
    obtain ⟨k, hk⟩ : ∃ k, lb.toNat % 128 = k + 1 := ⟨lb.toNat % 128 - 1, by omega⟩
    rw [hk] at h hlt ⊢
    have h128 : len64 < 128 ↔ len64.toNat < 128 := UInt64.lt_iff_toNat_lt
    have hpow : 256 ^ (k + 1) ≤ 256 ^ 4 := Nat.pow_le_pow_right (by norm_num) (by omega)
    simp only [h128, Nat.add_sub_cancel, shiftRight_eq_zero_iff (show k < 8 by omega)] at h
    split_ifs at h with hmin hover
    obtain ⟨⟨out, rest⟩, hget, rfl⟩ := map_eq_some_iff.mp h
    have hhead' : identifierOctets tag ++ lb :: (beBytes (k + 1) len64.toNat ++ header')
        = (identifierOctets tag ++ lb :: beBytes (k + 1) len64.toNat) ++ header' := by simp
    have hsize : (len64.toNat + ((identifierOctets tag).length + 1) + (k + 1)) % sizeMod
        = len64.toNat + (identifierOctets tag ++ lb :: beBytes (k + 1) len64.toNat).length := by
      rw [Nat.mod_eq_of_lt (by unfold sizeMod; omega)]
      simp
      omega
    rw [hhead', hsize, cbsGetBytes_header] at hget
    obtain ⟨body, rfl, rfl, hbody⟩ := hget
    have hber := BerLength.long (n := body.length) (k + 1) (by omega) (by omega)
    rw [longByte_eq hshort hk, hbody] at hber
    refine ⟨hok, .definite _ body (hbody ▸ hber) (by simp) (by simp [hbody]) ?_ (by omega) ?_ rfl,
      ?_⟩
    · simp
      omega
    · intro hb
      simp only [decide_eq_false_iff_not, not_or, not_lt] at hb
      rw [hbody, lengthOctets_long hb.1 hb.2 hlt, longByte_eq hshort hk]
    · intro hb
      simpa [hb] using hmin

lemma cbsGetAnyAsn1Element_sound (h : cbsGetAnyAsn1Element s = some e) :
    ∃ body, IsElement s e body := by
  obtain ⟨hok, hread, hber⟩ := cbsGetAnyAsn1ElementImpl_sound h
  cases hread with
  | definite len body hlen hs hout hheader hfit hder hdef =>
    rw [hder (hber rfl)] at hout hheader
    refine ⟨body, hs, by simpa [derElement] using hout, ?_, hfit, hok, hber rfl, hdef⟩
    rw [hout, hheader]
    simp [add_assoc]
  | indefinite hs hcons hfound hindef => simp [hber rfl] at hfound

lemma cbsGetAnyAsn1Element_derElement (hok : Asn1TagOk tag) (hlen : body.length ≤ 0xffffffff)
    (rest : Bytes) :
    cbsGetAnyAsn1Element (derElement tag body ++ rest) = some ⟨derElement tag body, rest, tag,
      (identifierOctets tag).length + (lengthOctets body.length).length, false, false⟩ := by
  have hid := identifierOctets_length_le tag
  have htag : parseAsn1Tag (derElement tag body ++ rest)
      = some (tag, lengthOctets body.length ++ (body ++ rest)) := by
    rw [parseAsn1Tag_iff]
    exact ⟨by simp [derElement], hok⟩
  have hget : cbsGetBytes (derElement tag body ++ rest)
      (body.length + (identifierOctets tag ++ lengthOctets body.length).length)
      = some (derElement tag body, rest) := by
    rw [derElement, append_assoc _ body rest, cbsGetBytes_header]
    exact ⟨body, rfl, rfl, rfl⟩
  rw [cbsGetAnyAsn1Element, cbsGetAnyAsn1ElementImpl, htag, bind_some]
  by_cases hs : body.length < 128
  · have hlo : lengthOctets body.length = [UInt8.ofNat body.length] := by
      rw [lengthOctets, if_pos hs]
    have hb : (UInt8.ofNat body.length).toNat = body.length := by
      rw [UInt8.toNat_ofNat']
      omega
    have hhl : (derElement tag body ++ rest).length - (body ++ rest).length
        = (identifierOctets tag).length + 1 := by
      simp [derElement, hlo]
      omega
    rw [hlo, length_append, length_singleton] at hget
    simp only [hlo, singleton_append, cbsGetU8, bind_some, highBit_iff, hb, hs, if_true,
      hhl, hget, map_some, length_singleton]
  · obtain ⟨k, hk, hlow, hhi⟩ := exists_lengthOctets_long (by omega) hlen
    have hlo := lengthOctets_long (by omega) hlow hhi
    have hb : (UInt8.ofNat (128 + (k + 1))).toNat = 128 + (k + 1) := by
      rw [UInt8.toNat_ofNat']
      omega
    have h64 : (UInt64.ofNat body.length).toNat = body.length := by
      rw [UInt64.toNat_ofNat']
      omega
    have hhl : (derElement tag body ++ rest).length
        - (beBytes (k + 1) body.length ++ (body ++ rest)).length
        = (identifierOctets tag).length + 1 := by
      simp [derElement, hlo]
      omega
    have hu : cbsGetU (beBytes (k + 1) body.length ++ (body ++ rest)) (k + 1)
        = some (UInt64.ofNat body.length, body ++ rest) := by
      rw [cbsGetU_eq_some (by omega), h64]
      exact ⟨rfl, hhi⟩
    have hsize : (body.length + ((identifierOctets tag).length + 1) + (k + 1)) % sizeMod
        = body.length + (identifierOctets tag ++ lengthOctets body.length).length := by
      rw [Nat.mod_eq_of_lt (by unfold sizeMod; omega), hlo]
      simp
      omega
    have hmod : (128 + (k + 1)) % 128 = k + 1 := by omega
    have h128 : UInt64.ofNat body.length < 128 ↔ body.length < 128 := by
      rw [UInt64.lt_iff_toNat_lt, h64]
      rfl
    have hmin : ¬ (body.length < 128 ∨ body.length < 256 ^ k) := by omega
    simp only [hlo, cons_append, cbsGetU8, bind_some, highBit_iff, hb, hhl, low7_toNat,
      hmod, hu, h128, Nat.add_sub_cancel, shiftRight_eq_zero_iff (show k < 8 by omega), h64, hmin,
      hsize, false_and, if_false, Bool.false_eq_true, decide_false]
    rw [if_neg (by omega), if_neg (by omega), if_neg (by rw [← hlo]; omega), ← hlo, hget]
    simp [hlo, add_assoc, add_comm 1]

lemma cbsGetAnyBerAsn1Element_of_der (h : cbsGetAnyAsn1Element s = some e) :
    cbsGetAnyBerAsn1Element s = some e := by
  simp only [cbsGetAnyAsn1Element, cbsGetAnyBerAsn1Element, cbsGetAnyAsn1ElementImpl,
    bind_eq_some_iff, Prod.exists] at h ⊢
  obtain ⟨tag, header, htag, lb, header', hlb, h⟩ := h
  refine ⟨tag, header, htag, lb, header', hlb, ?_⟩
  by_cases hshort : lb &&& 0x80 = 0
  · rwa [if_pos hshort] at h ⊢
  · rw [if_neg hshort, if_neg (by simp)] at h
    by_cases hnum : (lb &&& 0x7f).toNat = 0 ∨ (lb &&& 0x7f).toNat > 4
    · rw [if_pos hnum] at h
      cases h
    · rw [if_neg hnum] at h
      rw [if_neg hshort, if_neg (fun hc => hnum (.inl hc.2.2)), if_neg hnum]
      obtain ⟨⟨len64, header''⟩, hget, h⟩ := bind_eq_some_iff.mp h
      refine bind_eq_some_iff.mpr ⟨⟨len64, header''⟩, hget, ?_⟩
      simp only [Bool.not_false, and_true, Bool.not_true, Bool.false_eq_true, and_false,
        if_false] at h ⊢
      split_ifs at h ⊢ with hmin hover
      exact h

lemma cbsGetAnyAsn1Element_iff : cbsGetAnyAsn1Element s = some e ↔ ∃ body, IsElement s e body := by
  refine ⟨cbsGetAnyAsn1Element_sound, ?_⟩
  rintro ⟨body, h⟩
  obtain ⟨out, rest, tag, headerLen, ber, indef⟩ := e
  obtain ⟨hs, ho, hh, hlen, hok, hber, hindef⟩ := h
  simp only [] at hs ho hh hlen hok hber hindef
  subst hs ho hber hindef
  rw [cbsGetAnyAsn1Element_derElement hok hlen]
  simp only [derElement, length_append] at hh
  simp
  omega

/-! ## Against CBB -/

lemma cbbEncode_eq (cap : Fin sizeMod) (fill : UInt8) (tag : UInt32) (body : SizedBytes) :
    cbbEncode cap fill tag body
      = if body.1.length ≤ 0xfffffffe then some (derElement tag body.1) else none := by
  have hid := identifierOctets_length_le tag
  rw [cbbEncode, Writes.finish_exec (CbbRoot.growable cap fill).stands, Writes.spec]
  simp only [Writes.Fails, Writes.closes_done, Writes.serialise, LenPrefix.maxLen, Writes.peak,
    List.append_nil, if_true, true_and, false_or, or_false, LenPrefix.encode, LenPrefix.lead,
    LenPrefix.lenOctets, LenPrefix.reserved, CbbRoot.limit]
  by_cases hb : body.1.length ≤ 0xfffffffe
  · obtain ⟨-, -, -, hform⟩ := asn1LenForm_octets hb
    have hlo : (lengthOctets body.1.length).length ≤ 5 := by
      rw [← hform, asn1LenForm]
      split_ifs <;> simp
    rw [if_pos hb, if_neg]
    · rfl
    · simp only [length_append, sizeMod]
      omega
  · rw [if_neg hb, if_pos (Or.inl (Nat.lt_of_not_le hb))]

lemma eq_of_derElement_prefix (h : cbsGetAnyAsn1Element s = some e)
    (hlen : body.length ≤ 0xffffffff) (hp : derElement tag body <+: s) :
    tag = e.tag ∧ derElement tag body = e.out
      ∧ body = e.out.drop e.headerLen := by
  obtain ⟨rest, rfl⟩ := hp
  have hok : Asn1TagOk tag := by
    by_contra hn
    rw [cbsGetAnyAsn1Element, cbsGetAnyAsn1ElementImpl, derElement, append_assoc,
      append_assoc, parseAsn1Tag_identifierOctets, if_neg hn] at h
    simp at h
  rw [cbsGetAnyAsn1Element_derElement hok hlen, Option.some.injEq] at h
  subst h
  refine ⟨rfl, rfl, ?_⟩
  simp only [derElement, ← length_append, drop_left]

lemma IsElement.drop_headerLen (h : IsElement s e body) : e.out.drop e.headerLen = body := by
  have hh := h.headerLen
  rw [h.out] at hh ⊢
  simp only [derElement, length_append] at hh ⊢
  rw [show e.headerLen = (identifierOctets e.tag ++ lengthOctets body.length).length by
    rw [length_append]; omega, drop_left]

/-- CBS and CBB are inverse on all tags but [UNIVERSAL 0], which CBS does not read, and no element
begins with another. -/
theorem der_canonical (cap : Fin sizeMod) (fill : UInt8) :
    (∀ (s : Bytes) (tag : UInt32) (h : ℕ) (el : Bytes), (el.drop h).length ≤ 0xfffffffe →
        ((∃ e, cbsGetAnyAsn1Element s = some e ∧ e.tag = tag ∧ e.headerLen = h ∧ e.out = el) ↔
          Asn1TagOk tag ∧ h ≤ el.length ∧ el <+: s
            ∧ ∃ body : SizedBytes, body.1 = el.drop h ∧ cbbEncode cap fill tag body = some el
            ∧ ∀ tag' body' el', cbbEncode cap fill tag' body' = some el' → el' <+: s →
              tag' = tag ∧ body' = body ∧ el' = el))
      ∧ (∀ tag, Asn1TagOk tag → ∀ body : SizedBytes, body.1.length ≤ 0xfffffffe →
          ∃ el, cbbEncode cap fill tag body = some el
            ∧ ∀ suffix, cbsGetAnyAsn1 (el ++ suffix) = some (tag, body.1, suffix))
      ∧ ∀ s s' e e', cbsGetAnyAsn1Element s = some e → cbsGetAnyAsn1Element s' = some e' →
          e.out <+: e'.out → e.out = e'.out := by
  refine ⟨fun s tag h el hlen => ⟨?_, ?_⟩, fun tag htag body hlen => ?_, ?_⟩
  · rintro ⟨e, hget, rfl, rfl, rfl⟩
    obtain ⟨body, hb⟩ := cbsGetAnyAsn1Element_sound hget
    have hbody := hb.drop_headerLen
    have hl := hb.headerLen
    rw [hbody] at hlen
    refine ⟨hb.tagOk, by omega, ⟨e.cbs, hb.split.symm⟩,
      ⟨body, by unfold sizeMod; omega⟩, hbody.symm, ?_, ?_⟩
    · rw [cbbEncode_eq, if_pos hlen, hb.out]
    · intro tag' body' el' henc hp
      rw [cbbEncode_eq, ite_none_right_eq_some, Option.some.injEq] at henc
      obtain ⟨hlen', rfl⟩ := henc
      obtain ⟨h1, h2, h3⟩ := eq_of_derElement_prefix hget (by omega) hp
      exact ⟨h1, Subtype.ext (h3.trans hbody), h2⟩
  · rintro ⟨htag, hh, ⟨rest, rfl⟩, body, hbody, henc, -⟩
    rw [cbbEncode_eq, ite_none_right_eq_some, Option.some.injEq] at henc
    obtain ⟨hlen', rfl⟩ := henc
    refine ⟨_, cbsGetAnyAsn1Element_derElement htag (by omega) rest, rfl, ?_, rfl⟩
    have hl := congrArg List.length hbody
    simp only [length_drop, derElement, length_append] at hl hh ⊢
    omega
  · refine ⟨derElement tag body.1, by rw [cbbEncode_eq, if_pos hlen], fun suffix => ?_⟩
    rw [cbsGetAnyAsn1, cbsGetAnyAsn1Element_derElement htag (by omega)]
    have hget : cbsGet (derElement tag body.1) ((identifierOctets tag).length
        + (lengthOctets body.1.length).length)
        = some (identifierOctets tag ++ lengthOctets body.1.length, body.1) := by
      rw [cbsGet_eq_some]
      exact ⟨rfl, by simp⟩
    simp [cbsSkip, hget]
  · intro s s' e e' h h' hp
    obtain ⟨body, hb⟩ := cbsGetAnyAsn1Element_sound h
    obtain ⟨body', hb'⟩ := cbsGetAnyAsn1Element_sound h'
    rw [hb.out] at hp
    obtain ⟨-, h2, -⟩ := eq_of_derElement_prefix h' hb.length_le
      (hp.trans ⟨e'.cbs, hb'.split.symm⟩)
    rw [hb.out, h2]

/-- An empty SEQUENCE followed by another octet, read and written back. -/
theorem der_canonical_sequence : cbsGetAnyAsn1 [0x30, 0x00, 0x05] = some (0x20000010, [], [0x05])
    ∧ cbbEncode 0 0 0x20000010 ⟨[], by decide⟩ = some [0x30, 0x00] := by
  have henc : cbbEncode 0 0 0x20000010 ⟨[], by decide⟩ = some [0x30, 0x00] := by decide
  obtain ⟨el, hel, hparse⟩ := (der_canonical 0 0).2.1 0x20000010 (by decide) ⟨[], by decide⟩
    (by decide)
  rw [henc, Option.some.injEq] at hel
  subst hel
  exact ⟨hparse [0x05], henc⟩

/-- CBB writes the reserved tag [UNIVERSAL 0], which CBS does not read. -/
theorem cbbEncode_universal_zero : cbbEncode 0 0 0 ⟨[], by decide⟩ = some [0x00, 0x00]
    ∧ cbsGetAnyAsn1Element [0x00, 0x00] = none := by
  decide

end BoringSSL
