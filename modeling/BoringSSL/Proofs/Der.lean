import BoringSSL.CbbTree

/-!
# The octets `cbb.cc` computes are the DER ones

The length bytes `CBB_flush` picks are the shortest form (`asn1LenForm_octets`), the groups
`add_base128_integer` writes are the base-128 digits (`base128Groups_eq`), and the first identifier
octet is the class bits with the low tag number or all ones.
-/

namespace BoringSSL

open ByteLib List

variable {n k v : ℕ}

lemma beBytes_eq_digits : ∀ k n : ℕ, (Nat.digits 256 n).length = k →
    beBytes k n = (Nat.digits 256 n).reverse.map UInt8.ofNat
  | 0, n, h => by
    rw [length_eq_zero_iff] at h
    simp [beBytes, h]
  | k + 1, n, h => by
    have hn : 0 < n := by
      rcases Nat.eq_zero_or_pos n with rfl | hn
      · simp at h
      · exact hn
    rw [Nat.digits_def' (by norm_num) hn] at h ⊢
    simp only [length_cons, Nat.add_right_cancel_iff] at h
    rw [beBytes, beBytes_eq_digits k _ h]
    simp only [reverse_cons, map_append, map_cons, map_nil,
      append_cancel_left_eq, List.cons.injEq, and_true]
    apply UInt8.toNat_inj.mp
    simp [UInt8.toNat_ofNat']

lemma digits_length_eq {b : ℕ} (hb : 1 < b) (hlo : b ^ k ≤ n) (hhi : n < b ^ (k + 1)) :
    (Nat.digits b n).length = k + 1 := by
  have h1 := (Nat.lt_digits_length_iff hb n).mpr hlo
  have h2 := (Nat.digits_length_le_iff hb n).mpr hhi
  omega

lemma lengthOctets_long (h : 128 ≤ n) (hlo : 256 ^ k ≤ n) (hhi : n < 256 ^ (k + 1)) :
    lengthOctets n = UInt8.ofNat (128 + (k + 1)) :: beBytes (k + 1) n := by
  have hd := digits_length_eq (by norm_num) hlo hhi
  rw [lengthOctets, if_neg (by omega), beBytes_eq_digits _ _ hd]
  simp [hd]

lemma asn1LenForm_octets (h : n ≤ 0xfffffffe) :
    (asn1LenForm n).2.1 :: beBytes ((asn1LenForm n).1 - 1) (asn1LenForm n).2.2 = lengthOctets n
      ∧ (asn1LenForm n).2.2 / 256 ^ ((asn1LenForm n).1 - 1) = 0
      ∧ ((asn1LenForm n).1 = 1 ∨ (asn1LenForm n).2.2 = n)
      ∧ (asn1LenForm n).1 = (lengthOctets n).length := by
  unfold asn1LenForm
  split_ifs with h1 h2 h3 h4
  · rw [lengthOctets_long (k := 3) (by omega) (by omega) (by omega)]
    exact ⟨rfl, Nat.div_eq_of_lt (by simp only []; omega), Or.inr rfl, by simp⟩
  · rw [lengthOctets_long (k := 2) (by omega) (by omega) (by omega)]
    exact ⟨rfl, Nat.div_eq_of_lt (by simp only []; omega), Or.inr rfl, by simp⟩
  · rw [lengthOctets_long (k := 1) (by omega) (by omega) (by omega)]
    exact ⟨rfl, Nat.div_eq_of_lt (by simp only []; omega), Or.inr rfl, by simp⟩
  · rw [lengthOctets_long (k := 0) (by omega) (by omega) (by omega)]
    exact ⟨rfl, Nat.div_eq_of_lt (by simp only []; omega), Or.inr rfl, by simp⟩
  · rw [lengthOctets, if_pos (by omega)]
    exact ⟨rfl, by simp, Or.inl rfl, rfl⟩

lemma lengthOctets_length_pos (n : ℕ) : 1 ≤ (lengthOctets n).length := by
  unfold lengthOctets
  split_ifs <;> simp

lemma base128LenLen_eq : ∀ fuel v : ℕ, v < 128 ^ fuel →
    base128LenLen fuel v = (Nat.digits 128 v).length
  | 0, v, h => by
    have : v = 0 := by omega
    simp [this, base128LenLen]
  | fuel + 1, v, h => by
    rw [base128LenLen]
    split_ifs with hv
    · have hlt : v >>> 7 < 128 ^ fuel := by
        omega
      rw [base128LenLen_eq fuel _ hlt, Nat.digits_def' (by norm_num) hv, length_cons,
        Nat.shiftRight_eq_div_pow]
    · have : v = 0 := by omega
      simp [this]

def base128Byte (v i : ℕ) : UInt8 :=
  if i ≠ 0 then (UInt8.ofNat (v >>> (7 * i)) &&& 0x7f) ||| 0x80
  else UInt8.ofNat (v >>> (7 * i)) &&& 0x7f

lemma ofNat_shiftRight_and (v i : ℕ) :
    UInt8.ofNat (v >>> (7 * i)) &&& 0x7f = UInt8.ofNat (v / 128 ^ i % 128) := by
  apply UInt8.toNat_inj.mp
  have h7 : (0x7f : UInt8).toNat = 2 ^ 7 - 1 := rfl
  rw [UInt8.toNat_and, h7, Nat.and_two_pow_sub_one_eq_mod, UInt8.toNat_ofNat', UInt8.toNat_ofNat',
    Nat.shiftRight_eq_div_pow, pow_mul, show (2 : ℕ) ^ 7 = 128 from rfl]
  omega

lemma ofNat_or_128 {g : ℕ} (h : g < 128) : UInt8.ofNat g ||| 0x80 = UInt8.ofNat (128 + g) := by
  have : ∀ g < 128, UInt8.ofNat g ||| 0x80 = UInt8.ofNat (128 + g) := by decide
  exact this g h

lemma base128Byte_eq (v i : ℕ) : base128Byte v i =
    if i ≠ 0 then UInt8.ofNat (128 + v / 128 ^ i % 128) else UInt8.ofNat (v % 128) := by
  unfold base128Byte
  rw [ofNat_shiftRight_and]
  split_ifs with hi
  · rw [ofNat_or_128 (Nat.mod_lt _ (by norm_num))]
  · have : i = 0 := by omega
    simp [this]

lemma digits_groups : ∀ k m : ℕ, (Nat.digits 128 m).length = k →
    (range k).reverse.map (fun i => UInt8.ofNat (128 + m / 128 ^ i % 128))
      = (Nat.digits 128 m).reverse.map fun g => UInt8.ofNat (128 + g)
  | 0, m, h => by
    rw [length_eq_zero_iff] at h
    simp [h]
  | k + 1, m, h => by
    have hm : 0 < m := by
      rcases Nat.eq_zero_or_pos m with rfl | hm
      · simp at h
      · exact hm
    rw [Nat.digits_def' (by norm_num) hm] at h ⊢
    simp only [length_cons, Nat.add_right_cancel_iff] at h
    rw [range_succ_eq_map, reverse_cons, map_append, ← map_reverse,
      List.map_map, reverse_cons, map_append, ← digits_groups k _ h]
    congr 1
    · apply map_congr_left
      intro i _
      simp only [Function.comp, Nat.succ_eq_add_one, pow_succ', Nat.div_div_eq_div_mul]
    · simp

/-- The groups below `k`, most significant first, are the base-128 digits when `k` counts them. -/
lemma base128Groups_eq (h : (Nat.digits 128 (v / 128)).length = k) :
    (range (k + 1)).reverse.map (base128Byte v) = base128 v := by
  rw [range_succ_eq_map, reverse_cons, map_append, ← map_reverse,
    List.map_map, base128, ← digits_groups k _ h]
  congr 1
  · apply map_congr_left
    simp [Function.comp, base128Byte_eq, pow_succ', Nat.div_div_eq_div_mul]
  · simp [base128Byte_eq]

lemma base128LenLen_or_one (h : v < 2 ^ 64) :
    (if base128LenLen 10 v = 0 then 1 else base128LenLen 10 v)
      = (Nat.digits 128 (v / 128)).length + 1 := by
  rw [base128LenLen_eq 10 v (by omega)]
  rcases Nat.eq_zero_or_pos v with rfl | hv
  · simp
  · rw [Nat.digits_def' (by norm_num) hv]
    simp

lemma base128_ne_nil (n : ℕ) : base128 n ≠ [] := by
  simp [base128]

lemma tagBits_eq (tag : UInt32) : (tag >>> asn1TagShift).toUInt8 &&& 0xe0
    = UInt8.ofNat (tag.toNat / 2 ^ 29 * 32) := by
  have hmask : ∀ x : Fin 256, x.val &&& 0xe0 = x.val / 32 * 32 := by decide +kernel
  apply UInt8.toNat_inj.mp
  have he0 : (0xe0 : UInt8).toNat = 0xe0 := rfl
  rw [UInt8.toNat_and, UInt32.toNat_toUInt8, UInt32.toNat_shiftRight, he0, UInt8.toNat_ofNat',
    hmask ⟨_, Nat.mod_lt _ (by norm_num)⟩]
  have hs : asn1TagShift.toNat % 32 = 24 := rfl
  rw [hs, Nat.shiftRight_eq_div_pow]
  simp only []
  omega

lemma tagNumber_toNat (tag : UInt32) :
    (tag &&& asn1TagNumberMask).toNat = tag.toNat % 2 ^ 29 := by
  exact Nat.and_two_pow_sub_one_eq_mod tag.toNat 29

lemma tagBits_or {bits low : ℕ} (hb : bits < 8) (hl : low < 32) :
    UInt8.ofNat (bits * 32) ||| UInt8.ofNat low = UInt8.ofNat (bits * 32 + low) := by
  have : ∀ bits < 8, ∀ low < 32,
      UInt8.ofNat (bits * 32) ||| UInt8.ofNat low = UInt8.ofNat (bits * 32 + low) := by decide
  exact this bits hb low hl

lemma tagBits_lt (tag : UInt32) : tag.toNat / 2 ^ 29 < 8 := by
  have := tag.toNat_lt
  omega

end BoringSSL
