import BoringSSL.Lib.Bytes
import Mathlib.Data.List.GetD

/-!
# Byte strings as sets of bits

Bit `i` of a byte string is bit `i % 8` of its byte `i / 8`, and every bit past the end is set
(`bitAt`).  The updates a bitmap makes to its bytes are unions with sets of bits.
-/

namespace ByteLib

open List

variable {b : UInt8}

/-- Bit `j` of a byte. -/
def byteBit (b : UInt8) (j : ℕ) : Bool := b.toNat.testBit j

lemma byteBit_or (a b : UInt8) (j : ℕ) : byteBit (a ||| b) j = (byteBit a j || byteBit b j) := by
  simp [byteBit]

lemma forall_byte {P : UInt8 → Prop} (h : ∀ x : Fin 256, P (UInt8.ofNat x.val)) (b : UInt8) :
    P b := by
  simpa using h ⟨b.toNat, b.toNat_lt⟩

lemma byteBit_ff {j : ℕ} (h : j < 8) : byteBit 0xff j = true := by
  have : ∀ j < 8, byteBit 0xff j = true := by decide
  exact this j h

lemma byteBit_zero (j : ℕ) : byteBit 0 j = false := by
  simp [byteBit]

lemma exists_byteBit_of_ne_ff (h : b ≠ 0xff) : ∃ j < 8, byteBit b j = false :=
  forall_byte (P := fun b => b ≠ 0xff → ∃ j < 8, byteBit b j = false) (by decide +kernel) b h

lemma exists_byteBit_of_ne_zero (h : b ≠ 0) : ∃ j < 8, byteBit b j = true :=
  forall_byte (P := fun b => b ≠ 0 → ∃ j < 8, byteBit b j = true) (by decide +kernel) b h

/-- Bit `i` of a byte string; past its end every bit is set. -/
def bitAt (bytes : Bytes) (i : ℕ) : Bool := byteBit (bytes.getD (i / 8) 0xff) (i % 8)

section Bits

variable {bytes : Bytes} {i : ℕ}

lemma bitAt_of_ge (h : 8 * bytes.length ≤ i) : bitAt bytes i = true := by
  rw [bitAt, getD_eq_default _ _ (by omega), byteBit_ff (Nat.mod_lt _ (by norm_num))]

lemma lt_of_bitAt_eq_false (h : bitAt bytes i = false) : i < 8 * bytes.length := by
  by_contra hn
  rw [bitAt_of_ge (Nat.le_of_not_lt hn)] at h
  exact absurd h (by simp)

lemma bitAt_of_getD_ff (h : bytes.getD (i / 8) 0xff = 0xff) : bitAt bytes i = true := by
  rw [bitAt, h, byteBit_ff (Nat.mod_lt _ (by norm_num))]

lemma bitAt_modify_or (k : ℕ) (m : UInt8) :
    bitAt (bytes.modify k (· ||| m)) i
      = (bitAt bytes i || (decide (i / 8 = k) && byteBit m (i % 8))) := by
  unfold bitAt
  by_cases hk : k = i / 8
  · subst hk
    by_cases hlen : i / 8 < bytes.length
    · simp [getElem?_eq_getElem hlen, byteBit_or]
    · simp [getElem?_eq_none (Nat.le_of_not_lt hlen),
        byteBit_ff (Nat.mod_lt i (by norm_num : 0 < 8))]
  · simp [hk, Ne.symm hk]

lemma bitAt_set_ff (k : ℕ) :
    bitAt (bytes.set k 0xff) i = (bitAt bytes i || decide (i / 8 = k)) := by
  have hff := byteBit_ff (Nat.mod_lt i (by norm_num : 0 < 8))
  unfold bitAt
  by_cases hk : k = i / 8
  · subst hk
    by_cases hlen : i / 8 < bytes.length <;> simp [hlen, hff]
  · simp [hk, Ne.symm hk]

end Bits

/-- `for (i = lo; i < hi; i++) bytes[i] = 0xff;` -/
def fillFF (bytes : Bytes) (lo hi : ℕ) : Bytes :=
  (range' lo (hi - lo)).foldl (fun bytes i => bytes.set i 0xff) bytes

lemma bitAt_foldl_set : ∀ (is : List ℕ) (bytes : Bytes) (i : ℕ),
    bitAt (is.foldl (fun bytes i => bytes.set i 0xff) bytes) i
      = (bitAt bytes i || decide (i / 8 ∈ is))
  | [], bytes, i => by simp
  | k :: is, bytes, i => by
    rw [foldl_cons, bitAt_foldl_set is, bitAt_set_ff]
    simp [Bool.or_assoc]

lemma bitAt_fillFF (bytes : Bytes) (lo hi i : ℕ) :
    bitAt (fillFF bytes lo hi) i = (bitAt bytes i || decide (lo ≤ i / 8 ∧ i / 8 < hi)) := by
  rw [fillFF, bitAt_foldl_set]
  congr 2
  simp only [mem_range'_1, eq_iff_iff]
  omega

/-- `for (i = from; i < xs.size(); i++) if (p(xs[i])) break;` -/
def scanFrom {α : Type*} (p : α → Bool) (xs : List α) (start : ℕ) : ℕ :=
  start + (xs.drop start).findIdx p

section Scan

variable {α : Type*} (p : α → Bool) (xs : List α) {start : ℕ}

lemma le_scanFrom (start : ℕ) : start ≤ scanFrom p xs start := Nat.le_add_right _ _

lemma not_of_lt_scanFrom {k : ℕ} (d : α) (h1 : start ≤ k) (h2 : k < scanFrom p xs start) :
    p (xs.getD k d) = false := by
  unfold scanFrom at h2
  have hk := not_of_lt_findIdx (show k - start < (xs.drop start).findIdx p by omega)
  have hlen : (xs.drop start).findIdx p ≤ (xs.drop start).length := findIdx_le_length
  have hkl : k < xs.length := by
    rw [length_drop] at hlen
    omega
  rw [getD_eq_getElem _ _ hkl]
  simpa [Nat.add_sub_cancel' h1] using hk

lemma scanFrom_spec (d : α) (h : scanFrom p xs start < xs.length) :
    p (xs.getD (scanFrom p xs start) d) = true := by
  have hlt : (xs.drop start).findIdx p < (xs.drop start).length := by
    rw [length_drop]
    unfold scanFrom at h
    omega
  have := findIdx_getElem (p := p) (w := hlt)
  rw [getElem_drop] at this
  rw [getD_eq_getElem _ _ h]
  exact this

end Scan

end ByteLib
