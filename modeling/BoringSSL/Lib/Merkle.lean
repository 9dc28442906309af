import Mathlib.Data.Nat.Bitwise

/-!
# Binary hash trees over a numbered row of leaves

Node `i` of height `z` is computed from nodes `2 * i` and `2 * i + 1` of height `z - 1` by a
function that also sees `z` and `i` (`node`).  Climbing from a leaf with the siblings on the way
(`climb`) arrives at the node above that leaf (`climb_eq_node`).
-/

namespace ByteLib.Merkle

variable {α : Type} (leaf : ℕ → α) (comb : ℕ → ℕ → α → α → α)

/-- Node `i` at a height. -/
def node : ℕ → ℕ → α
  | 0, i => leaf i
  | z + 1, i => comb (z + 1) i (node z (2 * i)) (node z (2 * i + 1))

/-- The value `k` levels above leaf `i`, from `x` and the siblings `auth j` at the heights `j`. -/
def climb (auth : ℕ → α) (i : ℕ) (x : α) : ℕ → α
  | 0 => x
  | k + 1 =>
    if i / 2 ^ k % 2 = 0 then comb (k + 1) (i / 2 ^ (k + 1)) (climb auth i x k) (auth k)
    else comb (k + 1) (i / 2 ^ (k + 1)) (auth k) (climb auth i x k)

lemma climb_eq_node {auth : ℕ → α} {i : ℕ} :
    ∀ k : ℕ, (∀ j < k, auth j = node leaf comb j (i / 2 ^ j ^^^ 1)) →
      climb comb auth i (leaf i) k = node leaf comb k (i / 2 ^ k)
  | 0, _ => by simp [climb, node]
  | k + 1, hauth => by
    have hhalf : i / 2 ^ (k + 1) = i / 2 ^ k / 2 := by rw [pow_succ, Nat.div_div_eq_div_mul]
    rw [climb, climb_eq_node k fun j hj => hauth j (by omega), hauth k (by omega), node, hhalf]
    generalize i / 2 ^ k = n
    by_cases h : n % 2 = 0
    · rw [if_pos h, Nat.xor_one_of_even (Nat.even_iff.mpr h),
        Nat.mul_div_cancel' (Nat.dvd_of_mod_eq_zero h)]
    · have hodd : n % 2 = 1 := by omega
      rw [if_neg h, Nat.xor_one_of_odd (Nat.odd_iff.mpr hodd), show 2 * (n / 2) = n - 1 by omega,
        show n - 1 + 1 = n by omega]

end ByteLib.Merkle
