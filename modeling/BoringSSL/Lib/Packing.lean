import BoringSSL.Lib.Bytes
import Mathlib.Data.Nat.Bitwise

/-!
# Strings of numbers of `w` bits, packed into bytes

A string of numbers below `2 ^ w` and a string of bytes hold the same bits if they have the same
number of them and are the digits of one number, least significant first (`Packs`).  Each of the two
then determines the other, and packings can be put together part by part.
-/

namespace ByteLib

open List

/-- The number that bytes spell, least significant first. -/
def leNat : Bytes → ℕ
  | [] => 0
  | b :: bs => b.toNat + 256 * leNat bs

/-- The `m` lowest bytes of a number, least significant first. -/
def leBytes : ℕ → ℕ → Bytes
  | 0, _ => []
  | m + 1, n => UInt8.ofNat n :: leBytes m (n / 256)

@[simp] lemma leBytes_length : ∀ m n : ℕ, (leBytes m n).length = m
  | 0, _ => rfl
  | m + 1, n => by rw [leBytes, length_cons, leBytes_length m]

lemma leNat_leBytes : ∀ m n : ℕ, leNat (leBytes m n) = n % 256 ^ m
  | 0, n => by simp [leBytes, leNat, Nat.mod_one]
  | m + 1, n => by
    rw [leBytes, leNat, leNat_leBytes m, pow_succ', Nat.mod_mul, UInt8.toNat_ofNat']

lemma leNat_append (a b : Bytes) : leNat (a ++ b) = leNat a + 256 ^ a.length * leNat b := by
  induction a with
  | nil => simp [leNat]
  | cons x a ih =>
    rw [cons_append, leNat, ih, leNat, length_cons, pow_succ]
    ring

lemma leNat_lt (bs : Bytes) : leNat bs < 256 ^ bs.length := by
  induction bs with
  | nil => simp [leNat]
  | cons b bs ih =>
    have hb := b.toNat_lt
    rw [leNat, length_cons, pow_succ]
    omega

lemma leNat_lt_four (a b c d : UInt8) : leNat [a, b, c, d] < 2 ^ 32 := by
  simpa using leNat_lt [a, b, c, d]

lemma leNat_inj : ∀ {a b : Bytes}, a.length = b.length → leNat a = leNat b → a = b
  | [], [], _, _ => rfl
  | x :: a, y :: b, hlen, h => by
    have hx := x.toNat_lt
    have hy := y.toNat_lt
    rw [leNat, leNat] at h
    have hxy : x = y := UInt8.toNat_inj.mp (by omega)
    rw [hxy, leNat_inj (Nat.succ.inj hlen) (by omega)]

/-- The bytes are the digits of `w` bits each. -/
structure Packs (w : ℕ) (ds : List ℕ) (bs : Bytes) : Prop where
  length : w * ds.length = 8 * bs.length
  lt : ∀ d ∈ ds, d < 2 ^ w
  value : Nat.ofDigits (2 ^ w) ds = leNat bs

namespace Packs

variable {w : ℕ} {ds ds' : List ℕ} {bs bs' : Bytes}

lemma nil : Packs w [] [] := ⟨rfl, fun _ h => absurd h not_mem_nil, rfl⟩

lemma append (h : Packs w ds bs) (h' : Packs w ds' bs') : Packs w (ds ++ ds') (bs ++ bs') := by
  refine ⟨?_, fun d hd => ?_, ?_⟩
  · rw [length_append, length_append, mul_add, mul_add, h.length, h'.length]
  · exact (mem_append.mp hd).elim (h.lt d) (h'.lt d)
  · have hpow : (2 ^ w) ^ ds.length = 256 ^ bs.length := by
      rw [← pow_mul, h.length, pow_mul]
      rfl
    rw [Nat.ofDigits_append, leNat_append, h.value, h'.value, hpow]

lemma bytes_unique (h : Packs w ds bs) (h' : Packs w ds bs') : bs = bs' :=
  leNat_inj (by have := h.length.symm.trans h'.length; omega) (h.value.symm.trans h'.value)

lemma digits_unique (hw : 0 < w) (h : Packs w ds bs) (h' : Packs w ds' bs) : ds = ds' := by
  have hlen : ds.length = ds'.length :=
    Nat.eq_of_mul_eq_mul_left hw (h.length.trans h'.length.symm)
  exact Nat.ofDigits_inj_of_len_eq (Nat.one_lt_two_pow (by omega)) hlen h.lt h'.lt
    (h.value.trans h'.value.symm)

end Packs

lemma or_shiftLeft {x k : ℕ} (hx : x < 2 ^ k) (y : ℕ) : x ||| y <<< k = x + y * 2 ^ k := by
  rw [Nat.shiftLeft_eq, mul_comm, Nat.or_comm, ← Nat.two_pow_add_eq_or_of_lt hx]
  ring

lemma or_shiftLeft_mod {x k m : ℕ} (hx : x < 2 ^ k) (hk : k ≤ m) (y : ℕ) :
    x ||| (y <<< k) % 2 ^ m = x + y % 2 ^ (m - k) * 2 ^ k := by
  have hmod : (y <<< k) % 2 ^ m = (y % 2 ^ (m - k)) <<< k := by
    rw [Nat.shiftLeft_eq, Nat.shiftLeft_eq, show 2 ^ m = 2 ^ (m - k) * 2 ^ k by
      rw [← pow_add, Nat.sub_add_cancel hk], Nat.mul_mod_mul_right]
  rw [hmod, or_shiftLeft hx]

lemma shiftLeft_mod_or {x k m : ℕ} (hx : x < 2 ^ k) (hk : k ≤ m) (y : ℕ) :
    (y <<< k) % 2 ^ m ||| x = x + y % 2 ^ (m - k) * 2 ^ k := by
  rw [Nat.or_comm, or_shiftLeft_mod hx hk]

section Parallel

variable {w : ℕ} {op : ℕ → ℕ → ℕ}

/-- Operations that treat each bit alone. -/
def Bitwise (op : ℕ → ℕ → ℕ) : Prop :=
  ∀ a b w, op a b % 2 ^ w = op (a % 2 ^ w) (b % 2 ^ w) ∧ op a b / 2 ^ w = op (a / 2 ^ w) (b / 2 ^ w)

lemma bitwise_land : Bitwise (· &&& ·) := fun _ _ _ =>
  ⟨Nat.and_mod_two_pow, Nat.and_div_two_pow⟩

lemma bitwise_lor : Bitwise (· ||| ·) := fun _ _ _ =>
  ⟨Nat.or_mod_two_pow, Nat.or_div_two_pow⟩

lemma Bitwise.add_mul (hop : Bitwise op) {a b : ℕ} (ha : a < 2 ^ w) (hb : b < 2 ^ w) (x y : ℕ) :
    op (a + 2 ^ w * x) (b + 2 ^ w * y) = op a b + 2 ^ w * op x y := by
  have hpos : 0 < 2 ^ w := by positivity
  obtain ⟨hmod, hdiv⟩ := hop (a + 2 ^ w * x) (b + 2 ^ w * y) w
  rw [Nat.add_mul_mod_self_left, Nat.add_mul_mod_self_left, Nat.mod_eq_of_lt ha,
    Nat.mod_eq_of_lt hb] at hmod
  rw [Nat.add_mul_div_left _ _ hpos, Nat.add_mul_div_left _ _ hpos, Nat.div_eq_of_lt ha,
    Nat.div_eq_of_lt hb, zero_add, zero_add] at hdiv
  rw [← Nat.mod_add_div (op (a + 2 ^ w * x) (b + 2 ^ w * y)) (2 ^ w), hmod, hdiv]

lemma Bitwise.zero (hop : Bitwise op) : op 0 0 = 0 := by
  have h := (hop 0 0 0).1
  rwa [pow_zero, Nat.mod_one, Nat.mod_one, eq_comm] at h

/-- The word `x` has `f d` in the place of each number `d` of `ds`. -/
structure Digitwise (w : ℕ) (ds : List ℕ) (x : ℕ) (f : ℕ → ℕ) : Prop where
  lt : ∀ d < 2 ^ w, f d < 2 ^ w
  eq : x = Nat.ofDigits (2 ^ w) (ds.map f)

lemma ofDigits_bitwise (hop : Bitwise op) {f g : ℕ → ℕ} (hf : ∀ d < 2 ^ w, f d < 2 ^ w)
    (hg : ∀ d < 2 ^ w, g d < 2 ^ w) :
    ∀ {ds : List ℕ}, (∀ d ∈ ds, d < 2 ^ w) →
    op (Nat.ofDigits (2 ^ w) (ds.map f)) (Nat.ofDigits (2 ^ w) (ds.map g))
      = Nat.ofDigits (2 ^ w) (ds.map fun d => op (f d) (g d))
  | [], _ => hop.zero
  | d :: ds, h => by
    have hd := h d mem_cons_self
    simp only [map_cons, Nat.ofDigits_cons]
    rw [hop.add_mul (hf d hd) (hg d hd),
      ofDigits_bitwise hop hf hg fun x hx => h x (mem_cons_of_mem d hx)]

lemma ofDigits_shiftRight {f : ℕ → ℕ} {j : ℕ} (hf : ∀ d, 2 ^ j ∣ f d) : ∀ ds : List ℕ,
    2 ^ j ∣ Nat.ofDigits (2 ^ w) (ds.map f) ∧
    Nat.ofDigits (2 ^ w) (ds.map f) >>> j = Nat.ofDigits (2 ^ w) (ds.map fun d => f d >>> j)
  | [] => by simp
  | d :: ds => by
    obtain ⟨hdvd, hshift⟩ := ofDigits_shiftRight hf ds
    simp only [map_cons, Nat.ofDigits_cons, Nat.shiftRight_eq_div_pow] at hshift ⊢
    refine ⟨Nat.dvd_add (hf d) (Dvd.dvd.mul_left hdvd _), ?_⟩
    rw [Nat.add_div_of_dvd_right (hf d), Nat.mul_div_assoc _ hdvd, hshift]

lemma ofDigits_eq_zero {B : ℕ} (hB : 0 < B) : ∀ {ds : List ℕ},
    Nat.ofDigits B ds = 0 ↔ ∀ d ∈ ds, d = 0
  | [] => by simp
  | d :: ds => by
    rw [Nat.ofDigits_cons, Nat.add_eq_zero_iff, Nat.mul_eq_zero, ofDigits_eq_zero hB,
      forall_mem_cons]
    exact and_congr_right fun _ => or_iff_right hB.ne'

namespace Digitwise

variable {ds : List ℕ} {x y j : ℕ} {f g : ℕ → ℕ}

lemma self (w : ℕ) (ds : List ℕ) : Digitwise w ds (Nat.ofDigits (2 ^ w) ds) id :=
  ⟨fun _ h => h, by rw [List.map_id]⟩

lemma const (hy : y < 2 ^ w) (ds : List ℕ) :
    Digitwise w ds (Nat.ofDigits (2 ^ w) (replicate ds.length y)) fun _ => y :=
  ⟨fun _ _ => hy, by rw [map_const']⟩

lemma land (hlt : ∀ d ∈ ds, d < 2 ^ w) (hx : Digitwise w ds x f) (hy : Digitwise w ds y g) :
    Digitwise w ds (x &&& y) fun d => f d &&& g d :=
  ⟨fun d hd => Nat.and_lt_two_pow _ (hy.lt d hd), by
    rw [hx.eq, hy.eq, ofDigits_bitwise bitwise_land hx.lt hy.lt hlt]⟩

lemma lor (hlt : ∀ d ∈ ds, d < 2 ^ w) (hx : Digitwise w ds x f) (hy : Digitwise w ds y g) :
    Digitwise w ds (x ||| y) fun d => f d ||| g d :=
  ⟨fun d hd => Nat.or_lt_two_pow (hx.lt d hd) (hy.lt d hd), by
    rw [hx.eq, hy.eq, ofDigits_bitwise bitwise_lor hx.lt hy.lt hlt]⟩

lemma shiftRight (hx : Digitwise w ds x f) (hf : ∀ d, 2 ^ j ∣ f d) :
    Digitwise w ds (x >>> j) fun d => f d >>> j :=
  ⟨fun d hd => (Nat.shiftRight_le _ j).trans_lt (hx.lt d hd), by
    rw [hx.eq, (ofDigits_shiftRight hf ds).2]⟩

lemma eq_zero_iff (hx : Digitwise w ds x f) : x = 0 ↔ ∀ d ∈ ds, f d = 0 := by
  rw [hx.eq, ofDigits_eq_zero (by positivity), List.forall_mem_map]

end Digitwise

end Parallel

end ByteLib
