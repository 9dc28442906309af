import Mathlib.AlgebraicGeometry.EllipticCurve.Affine.Point

/-!
# The points of a cuspidal cubic

The points of `y² = x³` other than the cusp, with the chord-and-tangent law, are the additive group
of the field: `t` stands for `(t⁻², t⁻³)`, and zero for the point at infinity.
-/

namespace CuspidalCubic

open WeierstrassCurve

variable {F : Type*} [Field F] {W : Affine F}

/-- The curve is `y² = x³`. -/
structure IsCusp (W : Affine F) : Prop where
  a₁ : W.a₁ = 0
  a₂ : W.a₂ = 0
  a₃ : W.a₃ = 0
  a₄ : W.a₄ = 0
  a₆ : W.a₆ = 0

namespace IsCusp

variable {x y t s : F}

lemma equation_iff (hW : IsCusp W) : W.Equation x y ↔ y ^ 2 = x ^ 3 := by
  rw [Affine.equation_iff, hW.a₁, hW.a₂, hW.a₃, hW.a₄, hW.a₆]
  simp

lemma ne_zero (hW : IsCusp W) (h : W.Nonsingular x y) : x ≠ 0 ∧ y ≠ 0 := by
  rw [Affine.nonsingular_iff, hW.equation_iff, hW.a₁, hW.a₂, hW.a₃, hW.a₄] at h
  have hx : x ≠ 0 := by
    rintro rfl
    have hy : y = 0 := by simpa using h.1
    simp [hy] at h
  refine ⟨hx, ?_⟩
  rintro rfl
  exact hx (by simpa using h.1.symm)

lemma nonsingular_of_ne_zero (hW : IsCusp W) (h : y ^ 2 = x ^ 3) (hy : y ≠ 0) :
    W.Nonsingular x y := by
  rw [Affine.nonsingular_iff, hW.equation_iff, hW.a₁, hW.a₂, hW.a₃, hW.a₄]
  refine ⟨h, ?_⟩
  have hx : x ≠ 0 := by
    rintro rfl
    exact hy (by simpa using h)
  by_cases h3 : (3 : F) = 0
  · grind
  · simp [h3, hx]

variable (hW : IsCusp W)

include hW in
lemma nonsingular_inv (ht : t ≠ 0) : W.Nonsingular (t⁻¹ ^ 2) (t⁻¹ ^ 3) :=
  hW.nonsingular_of_ne_zero (by rw [← pow_mul, ← pow_mul]) (pow_ne_zero 3 (inv_ne_zero ht))

lemma eq_of_inv_sq (hsum : s + t ≠ 0) (h : s⁻¹ ^ 2 = t⁻¹ ^ 2) : s = t := by
  grind

include hW in
lemma not_opposite (hs : s ≠ 0) (hsum : s + t ≠ 0) :
    ¬ (s⁻¹ ^ 2 = t⁻¹ ^ 2 ∧ s⁻¹ ^ 3 = W.negY (t⁻¹ ^ 2) (t⁻¹ ^ 3)) := by
  rintro ⟨hx, hy⟩
  obtain rfl := eq_of_inv_sq hsum hx
  rw [Affine.negY, hW.a₁, hW.a₃] at hy
  have h2 : (2 : F) ≠ 0 := fun h => hsum (by linear_combination s * h)
  have hzero : 2 * s⁻¹ ^ 3 = 0 := by linear_combination hy
  exact mul_ne_zero h2 (pow_ne_zero 3 (inv_ne_zero hs)) hzero

variable [DecidableEq F]

/-- The point with a parameter. -/
noncomputable def pointOf (t : F) : W.Point :=
  if h : t = 0 then 0 else .some (t⁻¹ ^ 2) (t⁻¹ ^ 3) (hW.nonsingular_inv h)

lemma pointOf_zero : hW.pointOf 0 = 0 := dif_pos rfl

lemma pointOf_of_ne (h : t ≠ 0) :
    hW.pointOf t = .some (t⁻¹ ^ 2) (t⁻¹ ^ 3) (hW.nonsingular_inv h) := dif_neg h

lemma eq_pointOf (h : W.Nonsingular x y) : .some x y h = hW.pointOf (x / y) := by
  obtain ⟨hx, hy⟩ := hW.ne_zero h
  have heq := hW.equation_iff.mp h.1
  rw [hW.pointOf_of_ne (div_ne_zero hx hy)]
  congr 1 <;> field_simp <;> linear_combination -heq

include hW in
lemma slope_eq (hs : s ≠ 0) (ht : t ≠ 0) (hsum : s + t ≠ 0) :
    W.slope (s⁻¹ ^ 2) (t⁻¹ ^ 2) (s⁻¹ ^ 3) (t⁻¹ ^ 3) =
      (s ^ 2 + s * t + t ^ 2) / (s * t * (s + t)) := by
  by_cases heq : s = t
  · subst heq
    have h2 : (2 : F) ≠ 0 := fun h => hsum (by linear_combination s * h)
    rw [Affine.slope_of_Y_ne rfl fun h => hW.not_opposite hs hsum ⟨rfl, h⟩, Affine.negY, hW.a₁,
      hW.a₂, hW.a₃, hW.a₄]
    field_simp
    ring
  · have hsub : t ^ 2 - s ^ 2 ≠ 0 := by
      grind
    rw [Affine.slope_of_X_ne fun h => heq (eq_of_inv_sq hsum h)]
    field_simp
    ring

lemma pointOf_add (s t : F) : hW.pointOf (s + t) = hW.pointOf s + hW.pointOf t := by
  by_cases hs : s = 0
  · rw [hs, zero_add, hW.pointOf_zero, zero_add]
  by_cases ht : t = 0
  · rw [ht, add_zero, hW.pointOf_zero, add_zero]
  rw [hW.pointOf_of_ne hs, hW.pointOf_of_ne ht]
  by_cases hsum : s + t = 0
  · obtain rfl : s = -t := by linear_combination hsum
    rw [hsum, hW.pointOf_zero, Affine.Point.add_of_Y_eq (by ring)]
    rw [Affine.negY, hW.a₁, hW.a₃]
    ring
  rw [hW.pointOf_of_ne hsum, Affine.Point.add_some (hW.not_opposite hs hsum)]
  have hslope := hW.slope_eq hs ht hsum
  congr 1
  · rw [Affine.addX, hslope, hW.a₁, hW.a₂]
    field_simp
    ring
  · rw [Affine.addY, Affine.negY, Affine.negAddY, Affine.addX, hslope, hW.a₁, hW.a₂, hW.a₃]
    field_simp
    ring

lemma nsmul_pointOf (k : ℕ) (t : F) : k • hW.pointOf t = hW.pointOf (k * t) := by
  induction k with
  | zero => rw [zero_nsmul, Nat.cast_zero, zero_mul, hW.pointOf_zero]
  | succ k ih => rw [succ_nsmul, ih, ← hW.pointOf_add, Nat.cast_succ, add_mul, one_mul]

lemma pointOf_ne_zero (h : t ≠ 0) : hW.pointOf t ≠ 0 := by
  rw [hW.pointOf_of_ne h]
  exact Affine.Point.some_ne_zero _

end IsCusp

end CuspidalCubic
