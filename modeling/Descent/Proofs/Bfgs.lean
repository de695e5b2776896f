import Mathlib.Analysis.InnerProductSpace.Symmetric

/-!
# Rank-two updates

A secant pair is a step `s` with the change `y` of the gradient along it, where `sᵀy > 0`. It
updates a symmetric positive definite map `B` and its inverse `H`:

* `B⁺ = B - B s sᵀ B / sᵀ B s + y yᵀ / sᵀy`;
* `H⁺ = (1 - s yᵀ / sᵀy) H (1 - y sᵀ / sᵀy) + s sᵀ / sᵀy`.

The two formulas stay inverse to each other and positive definite (`Inverses.update`), and so do
the maps that absorb a list of pairs one after the other (`inverses_absorb`).
-/

set_option autoImplicit false

open scoped RealInnerProductSpace

namespace Descent

variable {E : Type*} [NormedAddCommGroup E] [InnerProductSpace ℝ E]

/-- A step and the change of the gradient along it, of positive curvature. -/
structure Secant (E : Type*) [NormedAddCommGroup E] [InnerProductSpace ℝ E] where
  s : E
  y : E
  curved : 0 < ⟪s, y⟫

/-- `H` is symmetric and positive definite, and `B` is its inverse. -/
structure Inverses (B H : E →ₗ[ℝ] E) : Prop where
  symmetric : H.IsSymmetric
  positive : ∀ v, v ≠ 0 → 0 < ⟪v, H v⟫
  direct_inverse : ∀ v, B (H v) = v
  inverse_direct : ∀ v, H (B v) = v

namespace Inverses

variable {B H : E →ₗ[ℝ] E}

/-- The inverse of a symmetric map is symmetric. -/
theorem direct_symmetric (h : Inverses B H) : B.IsSymmetric := by
  intro u v
  calc ⟪B u, v⟫ = ⟪B u, H (B v)⟫ := by rw [h.inverse_direct]
    _ = ⟪H (B u), B v⟫ := (h.symmetric _ _).symm
    _ = ⟪u, B v⟫ := by rw [h.inverse_direct]

/-- The inverse of a positive definite map is positive definite. -/
theorem direct_positive (h : Inverses B H) (v : E) (hv : v ≠ 0) : 0 < ⟪v, B v⟫ := by
  have hBv : B v ≠ 0 := by
    intro hzero
    apply hv
    rw [← h.inverse_direct v, hzero, map_zero]
  have := h.positive (B v) hBv
  rwa [h.inverse_direct, real_inner_comm] at this

/-- A positive multiple of the identity with its inverse. -/
theorem scaled {γ : ℝ} (hγ : 0 < γ) :
    Inverses ((1 / γ) • LinearMap.id : E →ₗ[ℝ] E) (γ • LinearMap.id) where
  symmetric u v := by simp [real_inner_smul_left, real_inner_smul_right]
  positive v hv := by
    have : 0 < ⟪v, v⟫ := real_inner_self_pos.mpr hv
    simpa [real_inner_smul_right] using mul_pos hγ this
  direct_inverse v := by simp [smul_smul, mul_inv_cancel₀ hγ.ne']
  inverse_direct v := by simp [smul_smul, inv_mul_cancel₀ hγ.ne']

end Inverses

namespace Secant

variable (p : Secant E)

noncomputable def rho : ℝ := 1 / ⟪p.s, p.y⟫

theorem rho_pos : 0 < p.rho := one_div_pos.mpr p.curved

@[simp] theorem rho_mul_curvature : p.rho * ⟪p.s, p.y⟫ = 1 := one_div_mul_cancel p.curved.ne'

theorem s_ne_zero : p.s ≠ 0 := by
  intro h
  have := p.curved
  simp [h] at this

theorem y_ne_zero : p.y ≠ 0 := by
  intro h
  have := p.curved
  simp [h] at this

/-- `v` with its part along `y` taken out, so that it becomes orthogonal to `s`. -/
noncomputable def remove : E →ₗ[ℝ] E where
  toFun v := v + (-(p.rho * ⟪p.s, v⟫)) • p.y
  map_add' u v := by
    rw [inner_add_right]
    module
  map_smul' c v := by
    rw [real_inner_smul_right, RingHom.id_apply]
    module

theorem remove_apply (v : E) : p.remove v = v + (-(p.rho * ⟪p.s, v⟫)) • p.y := rfl

/-- The updated inverse map, in the form of one level of the two-loop recursion. -/
noncomputable def updateInverse (H : E →ₗ[ℝ] E) : E →ₗ[ℝ] E where
  toFun v := H (p.remove v) + (p.rho * ⟪p.s, v⟫ - p.rho * ⟪p.y, H (p.remove v)⟫) • p.s
  map_add' u v := by
    simp only [map_add, inner_add_right]
    module
  map_smul' c v := by
    simp only [map_smul, real_inner_smul_right, RingHom.id_apply]
    module

theorem updateInverse_apply (H : E →ₗ[ℝ] E) (v : E) : p.updateInverse H v
    = H (p.remove v) + (p.rho * ⟪p.s, v⟫ - p.rho * ⟪p.y, H (p.remove v)⟫) • p.s := rfl

noncomputable def updateDirect (B : E →ₗ[ℝ] E) : E →ₗ[ℝ] E where
  toFun v := B v + (-(⟪B p.s, v⟫ / ⟪p.s, B p.s⟫)) • B p.s + (⟪p.y, v⟫ * p.rho) • p.y
  map_add' u v := by
    simp only [map_add, inner_add_right, add_div]
    module
  map_smul' c v := by
    simp only [map_smul, real_inner_smul_right, RingHom.id_apply, mul_div_assoc]
    module

theorem updateDirect_apply (B : E →ₗ[ℝ] E) (v : E) : p.updateDirect B v
    = B v + (-(⟪B p.s, v⟫ / ⟪p.s, B p.s⟫)) • B p.s + (⟪p.y, v⟫ * p.rho) • p.y := rfl

/-- What is left is orthogonal to the step. -/
@[simp] theorem inner_remove (v : E) : ⟪p.s, p.remove v⟫ = 0 := by
  rw [remove_apply, inner_add_right, real_inner_smul_right]
  linear_combination (-⟪p.s, v⟫) * p.rho_mul_curvature

/-- The updated inverse splits into the old one on what is left and the curvature along `s`. -/
theorem inner_updateInverse (H : E →ₗ[ℝ] E) (u v : E) :
    ⟪u, p.updateInverse H v⟫
      = ⟪p.remove u, H (p.remove v)⟫ + p.rho * (⟪p.s, u⟫ * ⟪p.s, v⟫) := by
  rw [updateInverse_apply, p.remove_apply u]
  simp only [inner_add_left, inner_add_right, real_inner_smul_left, real_inner_smul_right,
    real_inner_comm u p.s]
  ring

end Secant

/-! ## The update keeps inverses -/

namespace Inverses

variable {B H : E →ₗ[ℝ] E}

theorem update_symmetric (h : Inverses B H) (p : Secant E) : (p.updateInverse H).IsSymmetric := by
  intro u v
  have hsymm : ⟪p.remove v, H (p.remove u)⟫ = ⟪p.remove u, H (p.remove v)⟫ := by
    rw [← h.symmetric, real_inner_comm]
  rw [real_inner_comm, p.inner_updateInverse, p.inner_updateInverse, hsymm, mul_comm ⟪p.s, v⟫]

theorem update_positive (h : Inverses B H) (p : Secant E) (v : E) (hv : v ≠ 0) :
    0 < ⟪v, p.updateInverse H v⟫ := by
  rw [p.inner_updateInverse]
  have hcurve : 0 ≤ p.rho * (⟪p.s, v⟫ * ⟪p.s, v⟫) :=
    mul_nonneg p.rho_pos.le (mul_self_nonneg _)
  by_cases hleft : p.remove v = 0
  · -- then `v` is a multiple of `y`, which has curvature along `s`
    have hsv : ⟪p.s, v⟫ ≠ 0 := by
      intro hzero
      apply hv
      simpa [p.remove_apply, hzero] using hleft
    rw [hleft, inner_zero_left, zero_add]
    exact mul_pos p.rho_pos (mul_self_pos.mpr hsv)
  · exact add_pos_of_pos_of_nonneg (h.positive _ hleft) hcurve

theorem update_direct_inverse (h : Inverses B H) (p : Secant E) (v : E) :
    p.updateDirect B (p.updateInverse H v) = v := by
  have hs : ⟪p.s, B p.s⟫ ≠ 0 := (h.direct_positive _ p.s_ne_zero).ne'
  -- the old inverse of what is left is conjugate to the step
  have hconj : ⟪B p.s, H (p.remove v)⟫ = 0 := by
    rw [h.direct_symmetric, h.direct_inverse, p.inner_remove]
  -- the two corrections of the direct map, at `H (remove v) + c s`
  set c := p.rho * ⟪p.s, v⟫ - p.rho * ⟪p.y, H (p.remove v)⟫ with hc
  have hsub : ⟪B p.s, H (p.remove v) + c • p.s⟫ / ⟪p.s, B p.s⟫ = c := by
    rw [inner_add_right, hconj, zero_add, real_inner_smul_right, real_inner_comm p.s (B p.s)]
    exact mul_div_cancel_right₀ c hs
  have hadd : ⟪p.y, H (p.remove v) + c • p.s⟫ * p.rho = p.rho * ⟪p.s, v⟫ := by
    rw [inner_add_right, real_inner_smul_right, real_inner_comm p.s p.y, hc]
    linear_combination (p.rho * ⟪p.s, v⟫ - p.rho * ⟪p.y, H (p.remove v)⟫) * p.rho_mul_curvature
  rw [p.updateInverse_apply, ← hc, p.updateDirect_apply, hsub, hadd, map_add, map_smul,
    h.direct_inverse, p.remove_apply]
  module

theorem update_inverse_direct (h : Inverses B H) (p : Secant E) (v : E) :
    p.updateInverse H (p.updateDirect B v) = v := by
  have hs : ⟪p.s, B p.s⟫ ≠ 0 := (h.direct_positive _ p.s_ne_zero).ne'
  set e := ⟪B p.s, v⟫ / ⟪p.s, B p.s⟫ with he
  have hes : e * ⟪p.s, B p.s⟫ = ⟪p.s, B v⟫ := by
    rw [he, div_mul_cancel₀ _ hs, h.direct_symmetric]
  have hinner : p.rho * ⟪p.s, p.updateDirect B v⟫ = ⟪p.y, v⟫ * p.rho := by
    rw [p.updateDirect_apply, ← he]
    simp only [inner_add_right, real_inner_smul_right]
    linear_combination (⟪p.y, v⟫ * p.rho) * p.rho_mul_curvature - p.rho * hes
  -- the part along `y` that the update has added is what `remove` takes out
  have hleft : H (p.remove (p.updateDirect B v)) = v + (-e) • p.s := by
    rw [p.remove_apply, hinner, p.updateDirect_apply, ← he, add_assoc, ← add_smul, add_neg_cancel,
      zero_smul, add_zero, map_add, map_smul, h.inverse_direct, h.inverse_direct]
  have hback : p.rho * ⟪p.y, v + (-e) • p.s⟫ = ⟪p.y, v⟫ * p.rho - e := by
    rw [inner_add_right, real_inner_smul_right, real_inner_comm p.s p.y]
    linear_combination (-e) * p.rho_mul_curvature
  rw [p.updateInverse_apply, hleft, hinner, hback]
  module

/-- A secant pair updates inverses to inverses. -/
theorem update (h : Inverses B H) (p : Secant E) :
    Inverses (p.updateDirect B) (p.updateInverse H) where
  symmetric := h.update_symmetric p
  positive := h.update_positive p
  direct_inverse := h.update_direct_inverse p
  inverse_direct := h.update_inverse_direct p

end Inverses

/-! ## Lists of pairs -/

/-- The map that starts as `1 / γ` and absorbs the pairs, of which the newest comes first. -/
noncomputable def absorbDirect (γ : ℝ) : List (Secant E) → E →ₗ[ℝ] E
  | [] => (1 / γ) • LinearMap.id
  | p :: older => p.updateDirect (absorbDirect γ older)

/-- The inverse map that starts as `γ` and absorbs the pairs. -/
noncomputable def absorbInverse (γ : ℝ) : List (Secant E) → E →ₗ[ℝ] E
  | [] => γ • LinearMap.id
  | p :: older => p.updateInverse (absorbInverse γ older)

theorem inverses_absorb {γ : ℝ} (hγ : 0 < γ) (pairs : List (Secant E)) :
    Inverses (absorbDirect γ pairs) (absorbInverse γ pairs) := by
  induction pairs with
  | nil => exact Inverses.scaled hγ
  | cons p older ih => exact ih.update p

/-! ## The recursions as matrices -/

/-- The matrix `a bᵀ`. -/
noncomputable def outer (a b : E) : Module.End ℝ E := (innerₛₗ ℝ b).smulRight a

@[simp] theorem outer_apply (a b v : E) : outer a b v = ⟪b, v⟫ • a := rfl

noncomputable def recurInverse (H : Module.End ℝ E) (p : E × E) : Module.End ℝ E :=
  let (s, y) := p
  let ρ := 1 / ⟪s, y⟫
  (1 - ρ • outer s y) * H * (1 - ρ • outer y s) + ρ • outer s s

noncomputable def recurDirect (B : Module.End ℝ E) (p : E × E) : Module.End ℝ E :=
  let (s, y) := p
  let ρ := 1 / ⟪s, y⟫
  B - (1 / ⟪s, B s⟫) • (B * outer s s * B) + ρ • outer y y

/-- The inverse matrix of the pairs, the oldest of which comes first. -/
noncomputable def inverseMatrix (γ : ℝ) (pairs : List (E × E)) : Module.End ℝ E :=
  pairs.foldl recurInverse (γ • 1)

noncomputable def directMatrix (γ : ℝ) (pairs : List (E × E)) : Module.End ℝ E :=
  pairs.foldl recurDirect ((1 / γ) • 1)

end Descent
