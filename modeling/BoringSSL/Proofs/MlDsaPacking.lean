import BoringSSL.Lib.Canonical
import BoringSSL.MlDsaEncoding

/-!
# The packings of ML-DSA are canonical

However a width is unrolled, its encoder puts the numbers `subMod max c` into bytes as `Packs` says,
and its decoder takes them out again; the two checks made on all the numbers of a word at once find
exactly those that are too large.
-/

namespace BoringSSL.MlDsa

open ByteLib List
open ByteLib.Checked

variable {m lo max e f g h : ℕ} {ds : List ℕ} {c d a b : ℕ}

def subMod (m c : ℕ) : ℕ := if c ≤ m then m - c else prime + m - c

/-- The numbers from `-lo` to `max` modulo the prime. -/
def InSigned (lo max c : ℕ) : Prop := c ≤ max ∨ prime ≤ c + lo ∧ c < prime

lemma modSub_eq (hm : m < prime) (hc : c < prime) : modSub m c = .ok (subMod m c) := by
  rw [modSub, assert_bind hm, assert_bind hc, reduceOnce, assert_bind (by omega), subMod]
  by_cases h : c ≤ m
  · rw [if_pos h, if_neg (by omega), show prime + m - c - prime = m - c by omega]
    rfl
  · rw [if_neg h, if_pos (by omega)]
    rfl

lemma InSigned.lt (hmax : max < prime) (h : InSigned lo max c) : c < prime := by
  rcases h with h | h <;> omega

lemma subMod_of_inSigned (h : InSigned lo max c) (hsum : lo + max < prime) :
    subMod max c < max + lo + 1 ∧ subMod max (subMod max c) = c := by
  rw [InSigned] at h
  rw [subMod, subMod]
  split_ifs <;> omega

lemma inSigned_subMod (hd : d < max + lo + 1) (hsum : lo + max < prime) :
    InSigned lo max (subMod max d) ∧ subMod max (subMod max d) = d := by
  rw [InSigned, subMod, subMod]
  split_ifs <;> omega

lemma mapM_modSub (hm : m < prime) (hds : ∀ d ∈ ds, d < prime) :
    ds.mapM (modSub m) = .ok (ds.map (subMod m)) :=
  mapM_eq_ok fun d hd => modSub_eq hm (hds d hd)

lemma encode4_packs (hlt : ∀ x ∈ [a, b], x < 2 ^ 4) :
    ∃ bs, encode4 a b = .ok bs ∧ Packs 4 [a, b] bs := by
  obtain ⟨ha, hb, -⟩ := by simpa only [forall_mem_cons] using hlt
  refine ⟨[UInt8.ofNat (a ||| b <<< 4)], ?_, rfl, hlt, ?_⟩
  · rw [encode4, assert_bind (by omega), assert_bind (by omega)]
    rfl
  rw [or_shiftLeft (k := 4) ha]
  simp only [Nat.ofDigits_cons, Nat.ofDigits_nil, leNat, UInt8.toNat_ofNat']
  omega

lemma encode10_packs (hlt : ∀ x ∈ [a, b, c, d], x < 2 ^ 10) :
    ∃ bs, encode10 a b c d = .ok bs ∧ Packs 10 [a, b, c, d] bs := by
  obtain ⟨ha, hb, hc, hd, -⟩ := by simpa only [forall_mem_cons] using hlt
  refine ⟨[UInt8.ofNat a, UInt8.ofNat (a >>> 8 ||| b <<< 2), UInt8.ofNat (b >>> 6 ||| c <<< 4),
    UInt8.ofNat (c >>> 4 ||| d <<< 6), UInt8.ofNat (d >>> 2)], ?_, rfl, hlt, ?_⟩
  · rw [encode10, assert_bind (by omega), assert_bind (by omega), assert_bind (by omega),
      assert_bind (by omega)]
    rfl
  · simp (disch := omega) only [or_shiftLeft]
    simp only [Nat.ofDigits_cons, Nat.ofDigits_nil, leNat, UInt8.toNat_ofNat']
    omega

lemma encode3_packs (hlt : ∀ x ∈ [a, b, c, d, e, f, g, h], x < 2 ^ 3) :
    Packs 3 [a, b, c, d, e, f, g, h] (encode3 a b c d e f g h) := by
  obtain ⟨ha, hb, hc, hd, he, hf, hg, hh, -⟩ := by simpa only [forall_mem_cons] using hlt
  refine ⟨rfl, hlt, ?_⟩
  rw [encode3, leNat_leBytes]
  simp only [Nat.or_assoc]
  simp (disch := omega) only [shiftLeft_mod_or]
  simp only [Nat.ofDigits_cons, Nat.ofDigits_nil]
  omega

lemma encode13_packs (hlt : ∀ x ∈ [a, b, c, d, e, f, g, h], x < 2 ^ 13) :
    ∃ bs, encode13 a b c d e f g h = .ok bs ∧ Packs 13 [a, b, c, d, e, f, g, h] bs := by
  obtain ⟨ha, hb, hc, hd, he, hf, hg, hh, -⟩ := by simpa only [forall_mem_cons] using hlt
  refine ⟨_, by rw [encode13, assert_bind ha, assert_bind hb, assert_bind hc, assert_bind hd,
    assert_bind he, assert_bind hf, assert_bind hg, assert_bind hh]; rfl, rfl, hlt, ?_⟩
  simp only [Nat.shiftRight_eq_div_pow, leNat_append, leNat_leBytes, leBytes_length, length_append]
  simp (disch := omega) only [or_shiftLeft_mod]
  -- The three values that lie across a border of words, and the words.
  have hc' : c = c % 2 ^ 6 + 2 ^ 6 * (c / 2 ^ 6) := by omega
  have he' : e = e % 2 ^ 12 + 2 ^ 12 * (e / 2 ^ 12) := by omega
  have hh' : h = h % 2 ^ 5 + 2 ^ 5 * (h / 2 ^ 5) := by omega
  have h1 : (a + b % 2 ^ (32 - 13) * 2 ^ 13 + c % 2 ^ (32 - 26) * 2 ^ 26) % 256 ^ 4
      = a + b * 2 ^ 13 + c % 2 ^ 6 * 2 ^ 26 := by omega
  have h2 : (c / 2 ^ 6 + d % 2 ^ (32 - 7) * 2 ^ 7 + e % 2 ^ (32 - 20) * 2 ^ 20) % 256 ^ 4
      = c / 2 ^ 6 + d * 2 ^ 7 + e % 2 ^ 12 * 2 ^ 20 := by omega
  have h3 : (e / 2 ^ 12 + f % 2 ^ (32 - 1) * 2 ^ 1 + g % 2 ^ (32 - 14) * 2 ^ 14
      + h % 2 ^ (32 - 27) * 2 ^ 27) % 256 ^ 4
      = e / 2 ^ 12 + f * 2 + g * 2 ^ 14 + h % 2 ^ 5 * 2 ^ 27 := by omega
  have h4 : h / 2 ^ 5 % 256 ^ 1 = h / 2 ^ 5 := by omega
  rw [h1, h2, h3, h4]
  simp only [Nat.ofDigits_cons, Nat.ofDigits_nil]
  generalize c % 2 ^ 6 = c0, c / 2 ^ 6 = c1 at hc' ⊢
  generalize e % 2 ^ 12 = e0, e / 2 ^ 12 = e1 at he' ⊢
  generalize h % 2 ^ 5 = i0, h / 2 ^ 5 = i1 at hh' ⊢
  rw [hc', he', hh']
  ring

lemma encode20_packs (hlt : ∀ x ∈ [a, b, c, d], x < 2 ^ 20) :
    ∃ bs, encode20 a b c d = .ok bs ∧ Packs 20 [a, b, c, d] bs := by
  obtain ⟨ha, hb, hc, hd, -⟩ := by simpa only [forall_mem_cons] using hlt
  refine ⟨_, by rw [encode20, assert_bind ha, assert_bind hb, assert_bind hc, assert_bind hd]; rfl,
    rfl, hlt, ?_⟩
  simp only [Nat.shiftRight_eq_div_pow, leNat_append, leNat_leBytes, leBytes_length, length_append]
  simp (disch := omega) only [or_shiftLeft_mod]
  simp only [Nat.ofDigits_cons, Nat.ofDigits_nil]
  omega

section Decode

variable (b0 b1 b2 b3 b4 b5 b6 b7 b8 b9 b10 b11 b12 : UInt8)

lemma decode10_packs : Packs 10 (decode10 b0 b1 b2 b3 b4) [b0, b1, b2, b3, b4] := by
  have hv := leNat_lt_four b0 b1 b2 b3
  have h4 := b4.toNat_lt
  have hand (x : ℕ) : x &&& 0x3ff = x % 2 ^ 10 := Nat.and_two_pow_sub_one_eq_mod x 10
  have hvalue : leNat [b0, b1, b2, b3, b4] = leNat [b0, b1, b2, b3] + 2 ^ 32 * b4.toNat := by
    simp only [leNat]
    omega
  rw [decode10]
  generalize leNat [b0, b1, b2, b3] = v at hv hvalue
  simp only [hand, Nat.shiftRight_eq_div_pow]
  rw [or_shiftLeft (k := 2) (by omega)]
  refine ⟨rfl, ?_, ?_⟩
  · grind
  · simp only [Nat.ofDigits_cons, Nat.ofDigits_nil]
    omega

lemma nibbles_packs : Packs 4 (nibbles (leNat [b0, b1, b2, b3])) [b0, b1, b2, b3] := by
  have hv := leNat_lt_four b0 b1 b2 b3
  have hand (x : ℕ) : x &&& 15 = x % 2 ^ 4 := Nat.and_two_pow_sub_one_eq_mod x 4
  simp only [nibbles, hand, Nat.shiftRight_eq_div_pow]
  refine ⟨rfl, ?_, ?_⟩
  · simp only [forall_mem_cons, not_mem_nil, false_imp_iff, implies_true, and_true]
    omega
  · simp only [Nat.ofDigits_cons, Nat.ofDigits_nil]
    omega

lemma triples_packs : Packs 3 (triples (leNat [b0, b1, b2, 0])) [b0, b1, b2] := by
  have hv : leNat [b0, b1, b2, 0] = leNat [b0, b1, b2] := by simp [leNat]
  have hlt : leNat [b0, b1, b2] < 2 ^ 24 := by
    simpa using leNat_lt [b0, b1, b2]
  have hand (x : ℕ) : x &&& 7 = x % 2 ^ 3 := Nat.and_two_pow_sub_one_eq_mod x 3
  simp only [hv, triples, hand, Nat.shiftRight_eq_div_pow]
  refine ⟨rfl, ?_, ?_⟩
  · simp only [forall_mem_cons, not_mem_nil, false_imp_iff, implies_true, and_true]
    omega
  · clear hv
    generalize leNat [b0, b1, b2] = v at hlt ⊢
    simp only [Nat.ofDigits_cons, Nat.ofDigits_nil]
    omega

lemma decode13_packs :
    Packs 13 (decode13 (leNat [b0, b1, b2, b3]) (leNat [b4, b5, b6, b7]) (leNat [b8, b9, b10, b11])
      b12.toNat) [b0, b1, b2, b3, b4, b5, b6, b7, b8, b9, b10, b11, b12] := by
  have hvalue : leNat [b0, b1, b2, b3, b4, b5, b6, b7, b8, b9, b10, b11, b12]
      = leNat [b0, b1, b2, b3] + 2 ^ 32 * leNat [b4, b5, b6, b7]
        + 2 ^ 64 * leNat [b8, b9, b10, b11] + 2 ^ 96 * b12.toNat := by
    simp only [leNat]
    omega
  have ha := leNat_lt_four b0 b1 b2 b3
  have hb := leNat_lt_four b4 b5 b6 b7
  have hc := leNat_lt_four b8 b9 b10 b11
  have hd := b12.toNat_lt
  generalize leNat [b0, b1, b2, b3] = a at *
  generalize leNat [b4, b5, b6, b7] = b at *
  generalize leNat [b8, b9, b10, b11] = c at *
  generalize b12.toNat = d at *
  simp only [decode13, Nat.and_two_pow_sub_one_eq_mod, Nat.and_one_is_mod,
    Nat.shiftRight_eq_div_pow]
  simp (disch := omega) only [or_shiftLeft]
  refine ⟨rfl, ?_, ?_⟩
  · simp only [forall_mem_cons, not_mem_nil, false_imp_iff, implies_true, and_true]
    omega
  · have ha' : a = a % 2 ^ 13 + 2 ^ 13 * (a / 2 ^ 13 % 2 ^ 13) + 2 ^ 26 * (a / 2 ^ 26) := by omega
    have hb' : b = b % 2 ^ 7 + 2 ^ 7 * (b / 2 ^ 7 % 2 ^ 13) + 2 ^ 20 * (b / 2 ^ 20) := by omega
    have hc' : c = c % 2 + 2 * (c / 2 ^ 1 % 2 ^ 13) + 2 ^ 14 * (c / 2 ^ 14 % 2 ^ 13)
        + 2 ^ 27 * (c / 2 ^ 27) := by omega
    rw [hvalue]
    simp only [Nat.ofDigits_cons, Nat.ofDigits_nil]
    generalize a % 2 ^ 13 = a0, a / 2 ^ 13 % 2 ^ 13 = a1, a / 2 ^ 26 = a2 at ha' ⊢
    generalize b % 2 ^ 7 = b0, b / 2 ^ 7 % 2 ^ 13 = b1, b / 2 ^ 20 = b2 at hb' ⊢
    generalize c % 2 = c0, c / 2 ^ 1 % 2 ^ 13 = c1, c / 2 ^ 14 % 2 ^ 13 = c2, c / 2 ^ 27 = c3
      at hc' ⊢
    rw [ha', hb', hc']
    ring

lemma decode20_packs :
    Packs 20 (decode20 (leNat [b0, b1, b2, b3]) (leNat [b4, b5, b6, b7]) (leNat [b8, b9]))
      [b0, b1, b2, b3, b4, b5, b6, b7, b8, b9] := by
  have hvalue : leNat [b0, b1, b2, b3, b4, b5, b6, b7, b8, b9]
      = leNat [b0, b1, b2, b3] + 2 ^ 32 * leNat [b4, b5, b6, b7] + 2 ^ 64 * leNat [b8, b9] := by
    simp only [leNat]
    omega
  have hand (x : ℕ) : x &&& 0xff = x % 2 ^ 8 := Nat.and_two_pow_sub_one_eq_mod x 8
  have ha := leNat_lt_four b0 b1 b2 b3
  have hb := leNat_lt_four b4 b5 b6 b7
  have hc : leNat [b8, b9] < 2 ^ 16 := by
    simpa using leNat_lt [b8, b9]
  generalize leNat [b0, b1, b2, b3] = a at *
  generalize leNat [b4, b5, b6, b7] = b at *
  generalize leNat [b8, b9] = c at *
  simp only [decode20, Nat.and_two_pow_sub_one_eq_mod, hand, Nat.shiftRight_eq_div_pow]
  simp (disch := omega) only [or_shiftLeft]
  refine ⟨rfl, ?_, ?_⟩
  · grind
  · simp only [Nat.ofDigits_cons, Nat.ofDigits_nil]
    omega

end Decode

variable {ds : List ℕ}

lemma two_pow_dvd_and {i j : ℕ} (h : i ≤ j) (d : ℕ) : 2 ^ i ∣ d &&& 2 ^ j := by
  rw [Nat.and_two_pow]
  exact (pow_dvd_pow 2 h).mul_left _

lemma mask44_eq_zero (hlt : ∀ d ∈ ds, d < 2 ^ 4) (hlen : ds.length = 8) :
    mask44 (Nat.ofDigits (2 ^ 4) ds) &&& Nat.ofDigits (2 ^ 4) ds = 0 ↔ ∀ d ∈ ds, d < 9 := by
  have hv := Digitwise.self 4 ds
  have hmsbs := hv.land hlt (.const (show 2 ^ 3 < 2 ^ 4 by decide) ds)
  rw [hlen] at hmsbs
  have hshift (j : ℕ) (hj : j ≤ 3) := hmsbs.shiftRight (two_pow_dvd_and hj)
  have hmask := (((hshift 1 (by decide)).lor hlt (hshift 2 (by decide))).lor hlt
    (hshift 3 (by decide))).land hlt hv
  have hnibble : ∀ d < 16, (((d &&& 2 ^ 3) >>> 1 ||| (d &&& 2 ^ 3) >>> 2 ||| (d &&& 2 ^ 3) >>> 3)
      &&& d = 0 ↔ d < 9) := by decide
  exact hmask.eq_zero_iff.trans (forall₂_congr fun d hd => hnibble d (hlt d hd))

lemma mask32_eq_zero (hlt : ∀ d ∈ ds, d < 2 ^ 3) (hlen : ds.length = 8) :
    mask32 (Nat.ofDigits (2 ^ 3) ds) &&& Nat.ofDigits (2 ^ 3) ds = 0 ↔ ∀ d ∈ ds, d < 5 := by
  have hv := Digitwise.self 3 ds
  have hmsbs := hv.land hlt (.const (show 2 ^ 2 < 2 ^ 3 by decide) ds)
  rw [hlen] at hmsbs
  have hshift (j : ℕ) (hj : j ≤ 2) := hmsbs.shiftRight (two_pow_dvd_and hj)
  have hmask := ((hshift 1 (by decide)).lor hlt (hshift 2 (by decide))).land hlt hv
  have htriple : ∀ d < 8, (((d &&& 2 ^ 2) >>> 1 ||| (d &&& 2 ^ 2) >>> 2) &&& d = 0 ↔ d < 5) := by
    decide
  exact hmask.eq_zero_iff.trans (forall₂_congr fun d hd => htriple d (hlt d hd))

lemma scalar10_canonical :
    Canonical 320 scalarEncode10 (fun bs => .ok (scalarDecode10 bs))
      (fun s => s.length = degree ∧ ∀ c ∈ s, c < 2 ^ 10) (OutOfRange 10 (2 ^ 10)) := by
  refine Canonical.of_packs (f := id) (g := id) (by decide) rfl (fun c hc => ⟨hc, rfl⟩)
    (fun d hd => ⟨hd, rfl⟩) (fun s hlen hs => ?_) fun bs hlen => ?_
  · refine Canonical.encode_groups (m := 4) rfl (fun | [a, b, c, d], s, _, hlt => ?_) 64 s hlen hs
    obtain ⟨out, hout, hpacks⟩ := encode10_packs hlt
    refine ⟨out, by rwa [List.map_id], fun rest hrest => ?_⟩
    simp [scalarEncode10, hout, hrest]
  · refine Canonical.decode_groups (n := 5) (fun bs => .ok (scalarDecode10 bs)) rfl
      (fun | [b0, b1, b2, b3, b4], rest, _ => ?_) 64 bs hlen
    have hpacks := decode10_packs b0 b1 b2 b3 b4
    refine ⟨_, hpacks, ?_⟩
    rw [if_pos hpacks.lt, List.map_id]
    rfl

section Signed

variable {w lo max m n j k : ℕ} {enc : Scalar → Checked Bytes} {dec : Bytes → Checked Scalar}

/-- A format of signed values, from what its encoder does with `m` of them and its decoder with `n`
bytes. -/
lemma signed_canonical (hw : 0 < w) (hdeg : m * j = degree) (hbits : w * degree = 8 * (n * k))
    (hsum : lo + max < prime) (hbound : max + lo + 1 ≤ 2 ^ w) (henc : enc [] = .ok [])
    (hdec : dec [] = .ok [])
    (hencode : ∀ vs s, vs.length = m → (∀ c ∈ vs, modSub max c = .ok (subMod max c)) →
      (∀ d ∈ vs.map (subMod max), d < 2 ^ w) → ∃ bs, Packs w (vs.map (subMod max)) bs ∧
        ∀ rest, enc s = .ok rest → enc (vs ++ s) = .ok (bs ++ rest))
    (hdecode : ∀ bs rest, bs.length = n → ∃ ds, Packs w ds bs ∧ dec (bs ++ rest)
      = if ∀ d ∈ ds, d < max + lo + 1 then (dec rest).map (ds.map (subMod max) ++ ·)
        else .error .fail) :
    Canonical (n * k) enc dec (fun s => s.length = degree ∧ ∀ c ∈ s, InSigned lo max c)
      (OutOfRange w (max + lo + 1)) := by
  refine Canonical.of_packs hw hbits (fun c hc => subMod_of_inSigned hc hsum)
    (fun d hd => inSigned_subMod hd hsum) (fun s hlen hs => ?_)
    fun bs hlen => Canonical.decode_groups dec hdec hdecode k bs hlen
  refine Canonical.encode_groups henc (fun vs s hvs hin => ?_) j s (hlen.trans hdeg.symm) hs
  have hmax : max < prime := by omega
  refine hencode vs s hvs (fun c hc => modSub_eq hmax ((hin c hc).lt hmax)) fun d hd => ?_
  obtain ⟨c, hc, rfl⟩ := List.mem_map.mp hd
  exact (subMod_of_inSigned (hin c hc) hsum).1.trans_le hbound

/-- The step of a decoder that finds the values that are too large and subtracts the others. -/
lemma decode_checked (lo : ℕ) (bad : Prop) [Decidable bad] {y : Checked Scalar}
    (hlt : ∀ d ∈ ds, d < prime) (hmax : max < prime) (hbad : ¬ bad ↔ ∀ d ∈ ds, d < max + lo + 1) :
    (if bad then reject else do
      let out ← ds.mapM (modSub max)
      return out ++ (← y))
      = if ∀ d ∈ ds, d < max + lo + 1 then y.map (ds.map (subMod max) ++ ·) else .error .fail := by
  by_cases h : bad
  · rw [if_pos h, if_neg fun hall => hbad.mpr hall h]
    rfl
  · rw [if_neg h, if_pos (hbad.mp h), mapM_modSub hmax hlt]
    cases y <;> rfl

end Signed

lemma scalarSigned44_canonical :
    Canonical 128 scalarEncodeSigned44 scalarDecodeSigned44
      (fun s => s.length = degree ∧ ∀ c ∈ s, InSigned 4 4 c) (OutOfRange 4 9) := by
  refine signed_canonical (m := 2) (n := 4) (j := 128) (k := 32) (by decide) rfl rfl (by decide)
    (by decide) rfl rfl
    (fun | [a, b], s, _, hsub, hlt => ?_) fun | [b0, b1, b2, b3], rest, _ => ?_
  · obtain ⟨out, hout, hpacks⟩ := encode4_packs hlt
    refine ⟨out, hpacks, fun rest hrest => ?_⟩
    simp [scalarEncodeSigned44, hsub, hout, hrest]
  · have hpacks := nibbles_packs b0 b1 b2 b3
    have hmask := mask44_eq_zero hpacks.lt rfl
    rw [hpacks.value] at hmask
    exact ⟨_, hpacks, decode_checked 4 _ (fun d hd => (hpacks.lt d hd).trans (by decide))
      (by decide) (by rw [not_not]; exact hmask)⟩

lemma scalarSigned32_canonical :
    Canonical 96 scalarEncodeSigned32 scalarDecodeSigned32
      (fun s => s.length = degree ∧ ∀ c ∈ s, InSigned 2 2 c) (OutOfRange 3 5) := by
  refine signed_canonical (m := 8) (n := 3) (j := 32) (k := 32) (by decide) rfl rfl (by decide)
    (by decide) rfl rfl
    (fun | [a, b, c, d, e, f, g, h], s, _, hsub, hlt => ?_) fun | [b0, b1, b2], rest, _ => ?_
  · refine ⟨_, encode3_packs hlt, fun rest hrest => ?_⟩
    simp [scalarEncodeSigned32, hsub, hrest]
  · have hpacks := triples_packs b0 b1 b2
    have hmask := mask32_eq_zero hpacks.lt rfl
    rw [hpacks.value, show leNat [b0, b1, b2] = leNat [b0, b1, b2, 0] by simp [leNat]] at hmask
    exact ⟨_, hpacks, decode_checked 2 _ (fun d hd => (hpacks.lt d hd).trans (by decide))
      (by decide) (by rw [not_not]; exact hmask)⟩

lemma scalarSigned1312_canonical :
    Canonical 416 scalarEncodeSigned1312 scalarDecodeSigned1312
      (fun s => s.length = degree ∧ ∀ c ∈ s, InSigned (2 ^ 12 - 1) (2 ^ 12) c)
      (OutOfRange 13 (2 ^ 13)) := by
  refine signed_canonical (m := 8) (n := 13) (j := 32) (k := 32) (by decide) rfl rfl (by decide)
    (by decide) rfl rfl
    (fun | [a, b, c, d, e, f, g, h], s, _, hsub, hlt => ?_)
    fun | [b0, b1, b2, b3, b4, b5, b6, b7, b8, b9, b10, b11, b12], rest, _ => ?_
  · obtain ⟨out, hout, hpacks⟩ := encode13_packs hlt
    refine ⟨out, hpacks, fun rest hrest => ?_⟩
    simp [-Nat.reducePow, scalarEncodeSigned1312, hsub, hout, hrest]
  · have hpacks := decode13_packs b0 b1 b2 b3 b4 b5 b6 b7 b8 b9 b10 b11 b12
    exact ⟨_, hpacks, decode_checked _ False (fun d hd => (hpacks.lt d hd).trans (by decide))
      (by decide) (iff_of_true not_false hpacks.lt)⟩

lemma scalarSigned2019_canonical :
    Canonical 640 scalarEncodeSigned2019 scalarDecodeSigned2019
      (fun s => s.length = degree ∧ ∀ c ∈ s, InSigned (2 ^ 19 - 1) (2 ^ 19) c)
      (OutOfRange 20 (2 ^ 20)) := by
  refine signed_canonical (m := 4) (n := 10) (j := 64) (k := 64) (by decide) rfl rfl (by decide)
    (by decide) rfl rfl
    (fun | [a, b, c, d], s, _, hsub, hlt => ?_)
    fun | [b0, b1, b2, b3, b4, b5, b6, b7, b8, b9], rest, _ => ?_
  · obtain ⟨out, hout, hpacks⟩ := encode20_packs hlt
    refine ⟨out, hpacks, fun rest hrest => ?_⟩
    simp [-Nat.reducePow, scalarEncodeSigned2019, hsub, hout, hrest]
  · have hpacks := decode20_packs b0 b1 b2 b3 b4 b5 b6 b7 b8 b9
    exact ⟨_, hpacks, decode_checked _ False (fun d hd => (hpacks.lt d hd).trans (by decide))
      (by decide) (iff_of_true not_false hpacks.lt)⟩

lemma scalarBytes_eq_part (input : Bytes) (bits i : ℕ) :
    scalarBytes input bits i = Canonical.part (32 * bits) input i :=
  Canonical.part_bits input bits i

lemma vector10_canonical (k : ℕ) :
    Canonical (k * 320) (fun v => vectorEncode v 10) (fun bs => .ok (vectorDecode10 k bs))
      (fun v => v.length = k ∧ ∀ s ∈ v, s.length = degree ∧ ∀ c ∈ s, c < 2 ^ 10)
      fun bs => ∃ i < k, OutOfRange 10 (2 ^ 10) (Canonical.part 320 bs i) := by
  have h := scalar10_canonical.vector k
  have hdec (bs : Bytes) : (range k).mapM
      (fun i => (.ok (scalarDecode10 (Canonical.part 320 bs i)) : Checked Scalar))
      = .ok (vectorDecode10 k bs) := by
    rw [mapM_eq_ok fun i _ => rfl]
    simp only [vectorDecode10, scalarBytes_eq_part]
  simp only [hdec] at h
  exact h

lemma vectorSigned_canonical {bits : ℕ} {Valid : Scalar → Prop} {Bad : Bytes → Prop}
    (h : Canonical (32 * bits) (fun s => scalarEncodeSigned s bits max)
      (fun bs => scalarDecodeSigned bs bits max) Valid Bad) (k : ℕ) :
    Canonical (k * (32 * bits)) (fun v => vectorEncodeSigned v bits max)
      (fun bs => vectorDecodeSigned k bs bits max)
      (fun v => v.length = k ∧ ∀ s ∈ v, Valid s)
      fun bs => ∃ i < k, Bad (Canonical.part (32 * bits) bs i) := by
  simp only [vectorDecodeSigned, scalarBytes_eq_part]
  exact h.vector k

end BoringSSL.MlDsa
