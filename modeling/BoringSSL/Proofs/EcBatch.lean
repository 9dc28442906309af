import BoringSSL.Proofs.Ecdsa

/-!
# Many points to affine coordinates with one inversion

While the second loop goes down, the entries above its index are results and the others are still
products.
-/

namespace BoringSSL.Ec.EcGroup

open Bn Ecdsa.Cusp Montgomery

variable {group : EcGroup} {input : ℕ → EcJacobian} {i n num : ℕ}

/-- `q` are the affine coordinates of `p`. -/
def IsAffine (group : EcGroup) (p : EcJacobian) (q : EcAffine) : Prop :=
  q.X < group.field.N ∧ q.Y < group.field.N ∧
    group.field.decode q.X * group.field.decode p.Z ^ 2 = group.field.decode p.X ∧
    group.field.decode q.Y * group.field.decode p.Z ^ 3 = group.field.decode p.Y

/-- The coordinates are field elements. -/
def Reduced (group : EcGroup) (p : EcJacobian) : Prop :=
  p.X < group.field.N ∧ p.Y < group.field.N ∧ p.Z < group.field.N

/-- `x` stands for the product of the `Z` up to index `i`. -/
def IsProduct (group : EcGroup) (input : ℕ → EcJacobian) (i x : ℕ) : Prop :=
  x < group.field.N ∧
    group.field.decode x = ∏ j ∈ Finset.range (i + 1), group.field.decode (input j).Z

lemma isProduct_succ {x : ℕ} (hx : group.IsProduct input i x)
    (hz : (input (i + 1)).Z < group.field.N) :
    group.IsProduct input (i + 1) (group.felemMul x (input (i + 1)).Z) :=
  ⟨felemMul_lt hx.1 hz, by rw [decode_felemMul, hx.2, ← Finset.prod_range_succ]⟩

lemma isProduct_prefixProducts (out : ℕ → EcAffine) : ∀ {num : ℕ},
    (∀ j ≤ num, group.Reduced (input j)) → ∀ i ≤ num,
      group.IsProduct input i (group.prefixProducts input out num i).X
  | 0, hin, i, h => by
    obtain rfl : i = 0 := by omega
    exact ⟨(hin 0 h).2.2, by simp [prefixProducts]⟩
  | num + 1, hin, i, h => by
    have ih := isProduct_prefixProducts out fun j hj => hin j (hj.trans (Nat.le_succ num))
    rw [prefixProducts]
    rcases h.lt_or_eq with hlt | rfl
    · rw [Function.update_of_ne hlt.ne]
      exact ih i (by omega)
    · rw [Function.update_self]
      exact isProduct_succ (ih num le_rfl) (hin _ le_rfl).2.2

lemma prefixProducts_of_lt {out : ℕ → EcAffine} (h : num < i) :
    group.prefixProducts input out num i = out i := by
  induction num with
  | zero => exact Function.update_of_ne (by omega) ..
  | succ num ih => exact (Function.update_of_ne (by omega) ..).trans (ih (by omega))

lemma isAffine_affineByInverse {p : EcJacobian} {zinv : ℕ} (hp : group.Reduced p)
    (hzinv : zinv < group.field.N) (hinv : group.field.decode zinv * group.field.decode p.Z = 1) :
    group.IsAffine p (group.affineByInverse p zinv) := by
  have hsqr := felemMul_lt hzinv hzinv
  refine ⟨felemMul_lt hp.1 hsqr, felemMul_lt (felemMul_lt hp.2.1 hsqr) hzinv, ?_, ?_⟩
  · rw [affineByInverse, decode_felemMul, felemSqr, Modulus.decode_mul]
    linear_combination group.field.decode p.X *
      (group.field.decode zinv * group.field.decode p.Z + 1) * hinv
  · rw [affineByInverse, decode_felemMul, decode_felemMul, felemSqr, Modulus.decode_mul]
    linear_combination group.field.decode p.Y *
      ((group.field.decode zinv * group.field.decode p.Z) ^ 2
      + group.field.decode zinv * group.field.decode p.Z + 1) * hinv

lemma affineLoop_spec : ∀ {i zinvprod : ℕ} {out : ℕ → EcAffine},
    (∀ j ≤ i, group.Reduced (input j)) → (∀ j < i, group.IsProduct input j (out j).X) →
    zinvprod < group.field.N → group.field.decode zinvprod *
      ∏ j ∈ Finset.range (i + 1), group.field.decode (input j).Z = 1 →
    ∀ j, (j ≤ i → group.IsAffine (input j) (group.affineLoop input i zinvprod out j)) ∧
      (i < j → group.affineLoop input i zinvprod out j = out j)
  | 0, zinvprod, out, hin, _, hlt, hinv, j => by
    refine ⟨fun hj => ?_, fun hj => Function.update_of_ne hj.ne' ..⟩
    obtain rfl : j = 0 := by omega
    exact isAffine_affineByInverse (hin 0 hj) hlt (by simpa using hinv)
  | i + 1, zinvprod, out, hin, hout, hlt, hinv, j => by
    rw [Finset.prod_range_succ] at hinv
    have hprod := hout i (by omega)
    have htop := hin (i + 1) le_rfl
    rw [affineLoop]
    generalize hres : group.affineByInverse (input (i + 1)) _ = res
    have hout' : ∀ j < i, group.IsProduct input j (Function.update out (i + 1) res j).X := by
      intro j hj
      rw [Function.update_of_ne (by omega)]
      exact hout j (by omega)
    obtain ⟨hle, hgt⟩ := affineLoop_spec (fun j hj => hin j (hj.trans (Nat.le_succ i))) hout'
      (felemMul_lt hlt htop.2.2) (by rw [decode_felemMul]; linear_combination hinv) j
    rcases lt_trichotomy j (i + 1) with hj | rfl | hj
    · exact ⟨fun _ => hle (by omega), by omega⟩
    · refine ⟨fun _ => ?_, by omega⟩
      rw [hgt (by omega), Function.update_self, ← hres]
      exact isAffine_affineByInverse htop (felemMul_lt hlt hprod.1)
        (by rw [decode_felemMul, hprod.2]; linear_combination hinv)
    · exact ⟨by omega, fun _ => by rw [hgt (by omega), Function.update_of_ne (by omega)]⟩

/-- One inversion where no point is at infinity, and none where one is. -/
theorem jacobianToAffineBatch_spec [Fact group.field.N.Prime] (out : ℕ → EcAffine) (num n : ℕ)
    (hin : ∀ i ≤ num, group.Reduced (input i)) :
    if ∀ i ≤ num, (input i).Z ≠ 0 then
      ∃ res, group.jacobianToAffineBatch out input (num + 1) n = (.ok res, n + 1) ∧
        (∀ i ≤ num, group.IsAffine (input i) (res i)) ∧ ∀ i > num, res i = out i
    else group.jacobianToAffineBatch out input (num + 1) n = (put .ecPointAtInfinity, n) := by
  obtain ⟨hlt, hprod⟩ := isProduct_prefixProducts out hin num le_rfl
  have hzero : (group.prefixProducts input out num num).X = 0 ↔ ∃ i ≤ num, (input i).Z = 0 := by
    rw [← Modulus.decode_eq_zero hlt, hprod, Finset.prod_eq_zero_iff]
    refine exists_congr fun i => ?_
    rw [Finset.mem_range, Nat.lt_succ_iff]
    exact and_congr_right fun hi => Modulus.decode_eq_zero (hin i hi).2.2
  have hrun : group.jacobianToAffineBatch out input (num + 1) n =
      if (group.prefixProducts input out num num).X = 0 then (put .ecPointAtInfinity, n)
      else (.ok (group.affineLoop input num
        (group.felemInv0 (group.prefixProducts input out num num).X)
        (group.prefixProducts input out num)), n + 1) := by
    rw [jacobianToAffineBatch]
    split_ifs <;> rfl
  rw [hrun]
  split_ifs with hz hX hX
  · obtain ⟨i, hi, h⟩ := hzero.mp hX
    exact absurd h (hz i hi)
  · have hinv : group.field.decode (group.felemInv0 (group.prefixProducts input out num num).X) *
        ∏ j ∈ Finset.range (num + 1), group.field.decode (input j).Z = 1 := by
      rw [felemInv0_decode, ← hprod]
      exact inv_mul_cancel₀ ((Modulus.decode_eq_zero hlt).not.mpr hX)
    have hloop := affineLoop_spec hin (fun j hj => isProduct_prefixProducts out hin j hj.le)
      (Modulus.pow_lt hlt _) hinv
    exact ⟨_, rfl, fun i hi => (hloop i).1 hi,
      fun i hi => ((hloop i).2 hi).trans (prefixProducts_of_lt hi)⟩
  · rfl
  · refine absurd (fun i hi h => ?_) hz
    exact hX (hzero.mpr ⟨i, hi, h⟩)

theorem jacobianToAffineBatch_spec_cusp :
    ∃ res, cuspGroup.jacobianToAffineBatch (fun _ => ⟨0, 0⟩) (fun i => point (i + 1)) (1 + 1) 0
        = (.ok res, 1)
      ∧ (∀ i ≤ 1, cuspGroup.IsAffine (point (i + 1)) (res i)) ∧ ∀ i > 1, res i = ⟨0, 0⟩ := by
  have hone : modulus.toMont 1 < modulus.N := Modulus.toMont_lt (by decide +kernel)
  have hfinite : ∀ i ≤ 1, (point (i + 1)).Z ≠ 0 := by decide +kernel
  have hreduced : ∀ i ≤ 1, cuspGroup.Reduced (point (i + 1)) := fun _ _ =>
    ⟨hone, hone, Modulus.toMont_lt (Modulus.lt_R (Nat.mod_lt _ modulus.N_pos))⟩
  have hspec := jacobianToAffineBatch_spec (fun _ => ⟨0, 0⟩) 1 0 hreduced
  rwa [if_pos hfinite] at hspec

end BoringSSL.Ec.EcGroup
