import Mathlib.Data.Nat.Digits.Lemmas

/-!
# Bytes, big-endian numbers and stores into memory

Memory is a list of cells.  A store at an offset replaces the cells it covers (`overwrite`), and
the loop that stores a number from its last byte to its first, shifting it down as it goes
(`storeBE`), leaves its big-endian bytes there and returns what did not fit (`storeBE_eq`).
-/

namespace ByteLib

open List

variable {mem data a b : List α} {off : ℕ}

/-- A string of bytes. -/
abbrev Bytes := List UInt8

instance lawfulBEq_bytes : LawfulBEq Bytes := inferInstance

/-- The last `w` bytes of `n`, most significant first. -/
def beBytes : ℕ → ℕ → Bytes
  | 0, _ => []
  | w + 1, n => beBytes w (n / 256) ++ [UInt8.ofNat n]

/-- The number a big-endian string of bytes spells. -/
def beNat (bs : Bytes) : ℕ := bs.foldl (fun v b => v * 256 + b.toNat) 0

@[simp] lemma beBytes_length : ∀ w n : ℕ, (beBytes w n).length = w
  | 0, _ => rfl
  | w + 1, n => by simp [beBytes, beBytes_length w]

@[simp] lemma beNat_nil : beNat [] = 0 := rfl

@[simp] lemma beNat_concat (bs : Bytes) (b : UInt8) :
    beNat (bs ++ [b]) = beNat bs * 256 + b.toNat := by
  simp [beNat, foldl_append]

lemma beNat_append (as bs : Bytes) : beNat (as ++ bs) = beNat as * 256 ^ bs.length + beNat bs := by
  induction bs using reverseRecOn with
  | nil => simp
  | append_singleton bs b ih =>
    rw [← append_assoc, beNat_concat, beNat_concat, ih, length_append, length_singleton, pow_succ]
    ring

lemma beNat_beBytes : ∀ w n : ℕ, beNat (beBytes w n) = n % 256 ^ w
  | 0, n => by simp [beBytes, Nat.mod_one]
  | w + 1, n => by
    rw [beBytes, beNat_concat, beNat_beBytes w, pow_succ', Nat.mod_mul]
    simp only [UInt8.toNat_ofNat']
    ring

lemma beNat_lt (bs : Bytes) : beNat bs < 256 ^ bs.length := by
  induction bs using reverseRecOn with
  | nil => simp
  | append_singleton bs b ih =>
    have hb := b.toNat_lt
    rw [beNat_concat, length_append, length_singleton, pow_succ]
    omega

lemma beBytes_beNat (bs : Bytes) : beBytes bs.length (beNat bs) = bs := by
  induction bs using reverseRecOn with
  | nil => rfl
  | append_singleton bs b ih =>
    have hb := b.toNat_lt
    have hdiv : (beNat bs * 256 + b.toNat) / 256 = beNat bs := by omega
    have hmod : UInt8.ofNat (beNat bs * 256 + b.toNat) = b := by
      apply UInt8.toNat_inj.mp
      simp only [UInt8.toNat_ofNat']
      omega
    rw [length_append, length_singleton, beBytes, beNat_concat, hdiv, ih, hmod]

variable {α : Type*}

/-- Memory after the cells from `off` on are replaced by `data`. -/
def overwrite (mem : List α) (off : ℕ) (data : List α) : List α :=
  mem.take off ++ data ++ mem.drop (off + data.length)

lemma overwrite_length (h : off + data.length ≤ mem.length) :
    (overwrite mem off data).length = mem.length := by
  simp only [overwrite, length_append, length_take, length_drop]
  omega

@[simp] lemma overwrite_nil (mem : List α) (off : ℕ) : overwrite mem off [] = mem := by
  simp [overwrite]

lemma overwrite_mid (a b c d : List α) (h : d.length = b.length) :
    overwrite (a ++ b ++ c) a.length d = a ++ d ++ c := by
  simp only [overwrite, append_assoc, take_left']
  rw [h, ← append_assoc a b c, ← length_append, drop_left]

lemma take_overwrite_of_le {n : ℕ} (h : n ≤ off) (hoff : off ≤ mem.length) :
    (overwrite mem off data).take n = mem.take n := by
  simp only [overwrite, append_assoc]
  rw [take_append_of_le_length (by rw [length_take]; omega), take_take, min_eq_left h]

lemma take_overwrite_end (h : off ≤ mem.length) :
    (overwrite mem off data).take (off + data.length) = mem.take off ++ data := by
  have hlen : (mem.take off ++ data).length = off + data.length := by
    simp only [length_append, length_take]
    omega
  simp only [overwrite]
  rw [← hlen, take_left]

lemma slice_overwrite (h : off + data.length ≤ mem.length) :
    ((overwrite mem off data).drop off).take data.length = data := by
  have hlen : (mem.take off).length = off := by rw [length_take]; omega
  rw [take_drop, take_overwrite_end (by omega)]
  nth_rewrite 1 [← hlen]
  rw [drop_left]

lemma overwrite_append_left (pre mem data : List α) (off : ℕ) :
    overwrite (pre ++ mem) (pre.length + off) data = pre ++ overwrite mem off data := by
  simp only [overwrite, add_assoc, take_length_add_append, drop_length_add_append, append_assoc]

lemma getElem?_overwrite (h : off + data.length ≤ mem.length) (i : ℕ) : (overwrite mem off data)[i]?
      = if off ≤ i ∧ i < off + data.length then data[i - off]? else mem[i]? := by
  have hoff : min off mem.length = off := by omega
  simp only [overwrite, append_assoc, getElem?_append, length_take, hoff,
    getElem?_take, getElem?_drop]
  by_cases h1 : i < off
  · simp [h1, not_le.mpr h1]
  · grind

lemma set_eq_overwrite (mem : List α) {i : ℕ} (x : α) (h : i < mem.length) :
    mem.set i x = overwrite mem i [x] := by
  rw [set_eq_take_append_cons_drop, if_pos h]
  simp [overwrite]

lemma overwrite_overwrite_left (h : off + a.length + b.length ≤ mem.length) :
    overwrite (overwrite mem (off + a.length) b) off a = overwrite mem off (a ++ b) := by
  have h1 : (mem.take (off + a.length)).length = off + a.length := by
    rw [length_take]; omega
  simp only [overwrite, length_append, ← add_assoc]
  rw [append_assoc (mem.take (off + a.length)), take_append_of_le_length (by omega),
    take_take, min_eq_left (by omega), drop_append_of_le_length (by omega),
    drop_eq_nil_of_le (by omega)]
  simp

lemma overwrite_overwrite_right (h : off + a.length + b.length ≤ mem.length) :
    overwrite (overwrite mem off a) (off + a.length) b = overwrite mem off (a ++ b) := by
  have hfront : (overwrite mem off a).take (off + a.length) = mem.take off ++ a :=
    take_overwrite_end (by omega)
  have hback : (overwrite mem off a).drop (off + a.length + b.length)
      = mem.drop (off + (a ++ b).length) := by
    have hlen : (mem.take off ++ a).length = off + a.length := by
      simp only [length_append, length_take]
      omega
    rw [overwrite, ← hlen, drop_length_add_append, drop_drop, hlen, length_append]
    congr 1
    omega
  rw [overwrite, hfront, hback]
  simp [overwrite]

/-- `for (i = k - 1; i < k; i--) { mem[off + i] = v; v >>= 8; }`, with the `v` it ends on. -/
def storeBE (mem : Bytes) (off : ℕ) : ℕ → ℕ → Bytes × ℕ
  | 0, v => (mem, v)
  | k + 1, v => storeBE (mem.set (off + k) (UInt8.ofNat v)) off k (v / 256)

lemma storeBE_eq : ∀ (k : ℕ) (mem : Bytes) (off v : ℕ), off + k ≤ mem.length →
    storeBE mem off k v = (overwrite mem off (beBytes k v), v / 256 ^ k)
  | 0, mem, off, v, _ => by simp [storeBE, beBytes]
  | k + 1, mem, off, v, h => by
    have hlast : mem.set (off + k) (UInt8.ofNat v)
        = overwrite mem (off + (beBytes k (v / 256)).length) [UInt8.ofNat v] := by
      rw [beBytes_length, set_eq_overwrite _ _ (by omega)]
    rw [storeBE, storeBE_eq k _ off _ (by rw [length_set]; omega), hlast,
      overwrite_overwrite_left (by simp; omega), Nat.div_div_eq_div_mul, ← pow_succ']
    rfl

end ByteLib
