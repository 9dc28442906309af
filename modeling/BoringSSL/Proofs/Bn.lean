import BoringSSL.Bn

/-!
# Arithmetic on arrays of words
-/

namespace BoringSSL

open ByteLib Montgomery

namespace Bn

variable {α β : Type} {c : Prop} {outLen : ℕ} {n num a b x m : ℕ}

@[simp] lemma ok_bind (a : α) (f : α → Ret β) : (Except.ok a >>= f) = f a := rfl

@[simp] lemma pure_eq_ok (a : α) : (pure a : Ret α) = .ok a := rfl

lemma check_bind [Decidable c] (h : c) (f : Unit → Ret β) : (check c >>= f) = f () := by
  rw [check, if_pos h]
  rfl

lemma require_eq_ok [Decidable c] {reason : Reason} {u : Unit} : require c reason = .ok u ↔ c := by
  rw [require]
  split <;> simp [put, *]

lemma bnNumBits_lt (n : ℕ) : n < 2 ^ bnNumBits n := by
  rw [bnNumBits]
  split
  · simp [*]
  · exact Nat.lt_log2_self

lemma le_of_bnNumBits (h : 0 < n) : 2 ^ bnNumBits n ≤ 2 * n := by
  have hn : n ≠ 0 := by omega
  rw [bnNumBits, if_neg hn, pow_succ, mul_comm]
  exact Nat.mul_le_mul_left 2 (Nat.log2_self_le hn)

lemma bnNumBits_le {k : ℕ} (h : n < 2 ^ k) : bnNumBits n ≤ k := by
  rw [bnNumBits]
  split
  · omega
  · exact (Nat.log2_lt (by assumption)).mpr h

lemma lt_bnNumBytes (n : ℕ) : n < 256 ^ bnNumBytes n := by
  calc n < 2 ^ bnNumBits n := bnNumBits_lt n
    _ ≤ 2 ^ (8 * bnNumBytes n) := Nat.pow_le_pow_right (by norm_num) (by rw [bnNumBytes]; omega)
    _ = 256 ^ bnNumBytes n := by rw [pow_mul]; norm_num

lemma bnNumBytes_le {w : ℕ} (h : n < 2 ^ (64 * w)) : bnNumBytes n ≤ w * 8 := by
  have := bnNumBits_le h
  rw [bnNumBytes]
  omega

lemma bnBigEndianToWords_eq {input : Bytes} (h : input.length ≤ outLen * 8) :
    bnBigEndianToWords outLen input = .ok (beNat input) := check_bind h _

lemma bnWordsToBigEndian_eq {words : ℕ} (h : words < 256 ^ outLen) :
    bnWordsToBigEndian outLen words = .ok (beBytes outLen words) := check_bind h _

lemma bnSubWords_of_le (h : b ≤ a) (ha : a < 2 ^ (64 * num)) : bnSubWords num a b = (a - b, 0) := by
  rw [bnSubWords, if_neg (by omega), Nat.add_sub_assoc h, Nat.add_mod_left,
    Nat.mod_eq_of_lt (by omega)]

lemma bnSubWords_of_lt (h : a < b) (hb : b ≤ 2 ^ (64 * num)) :
    bnSubWords num a b = (2 ^ (64 * num) + a - b, 1) := by
  rw [bnSubWords, if_pos h, Nat.mod_eq_of_lt (by omega)]

variable (hm : m < 2 ^ (64 * num))

include hm

/-- What the borrow of a subtraction says of a number below `2 * m` and its carry. -/
lemma bnSubWords_reduce (hx : x < 2 * m) :
    (x < m → x / 2 ^ (64 * num) = 0 ∧ x % 2 ^ (64 * num) = x ∧
      (bnSubWords num x m).2 = 1) ∧
    (m ≤ x → bnSubWords num (x % 2 ^ (64 * num)) m = (x - m, x / 2 ^ (64 * num))) := by
  by_cases hlow : x < 2 ^ (64 * num)
  · rw [Nat.mod_eq_of_lt hlow, Nat.div_eq_of_lt hlow]
    exact ⟨fun h => ⟨rfl, rfl, if_pos h⟩, fun h => bnSubWords_of_le h hlow⟩
  · have hdiv : x / 2 ^ (64 * num) = 1 := Nat.div_eq_of_lt_le (by omega) (by omega)
    have hrem : x % 2 ^ (64 * num) = x - 2 ^ (64 * num) := by
      rw [Nat.mod_eq_sub_mod (by omega), Nat.mod_eq_of_lt (by omega)]
    refine ⟨fun h => by omega, fun _ => ?_⟩
    rw [hdiv, hrem, bnSubWords_of_lt (by omega) hm.le, Nat.add_sub_cancel' (by omega)]

lemma bnReduceOnce_eq (hx : x < 2 * m) :
    bnReduceOnce num (x % 2 ^ (64 * num)) (x / 2 ^ (64 * num)) m = .ok (x % m) := by
  obtain ⟨hlt, hle⟩ := bnSubWords_reduce hm hx
  rw [bnReduceOnce]
  by_cases hxm : x < m
  · obtain ⟨hcarry, hlow, hborrow⟩ := hlt hxm
    simp only [hcarry, hlow, hborrow, Nat.mod_eq_of_lt hxm]
    rfl
  · have hmod : x % m = x - m := by
      rw [Nat.mod_eq_sub_mod (not_lt.mp hxm), Nat.mod_eq_of_lt (by omega)]
    rw [hle (not_lt.mp hxm), hmod]
    exact if_pos rfl

lemma bnReduceOnce_of_lt (hx : x < 2 * m) (hfit : x < 2 ^ (64 * num)) :
    bnReduceOnce num x 0 m = .ok (x % m) := by
  have h := bnReduceOnce_eq hm hx
  rwa [Nat.mod_eq_of_lt hfit, Nat.div_eq_of_lt hfit] at h

lemma bnModAddWords_eq (ha : a < m) (hb : b < m) :
    bnModAddWords num a b m = .ok ((a + b) % m) := bnReduceOnce_eq hm (by omega)

lemma bnModSubWords_eq (ha : a < m) (hb : b < m) :
    bnModSubWords num a b m = if b ≤ a then a - b else a + m - b := by
  rw [bnModSubWords]
  split_ifs with h
  · rw [bnSubWords_of_le h (by omega)]
    rfl
  · rw [bnSubWords_of_lt (by omega) (by omega)]
    simp only [Nat.one_ne_zero, if_false, bnAddWords]
    rw [show 2 ^ (64 * num) + a - b + m = 2 ^ (64 * num) + (a + m - b) by omega,
      Nat.add_mod_left, Nat.mod_eq_of_lt (by omega)]

lemma bnModSubWords_lt (ha : a < m) (hb : b < m) : bnModSubWords num a b m < m := by
  rw [bnModSubWords_eq hm ha hb]
  split_ifs <;> omega

lemma cast_bnModSubWords (ha : a < m) (hb : b < m) :
    (bnModSubWords num a b m : ZMod m) = a - b := by
  rw [bnModSubWords_eq hm ha hb]
  split_ifs with h
  · rw [Nat.cast_sub h]
  · rw [Nat.cast_sub (by omega)]
    simp

end Bn

end BoringSSL
