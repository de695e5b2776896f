import Mathlib.LinearAlgebra.FiniteDimensional.Lemmas
import Descent.Proofs.TruncatedCg.Decrease

/-!
# Conjugate directions

For a symmetric linear operator the directions that have been searched span a subspace that grows by
one dimension with every round. Of this subspace the recurrence keeps three things (`Explored`): the
step lies in it, the residual is orthogonal to it and the next direction is conjugate to it. That
the direction stays conjugate to all of them, although only the last one enters into it, rests on a
fourth: the operator leads out of the subspace along the residual only.

A direction is never in the span of those before it, so that there are no more of them than
variables (`Explored.finrank_lt`).
-/

set_option autoImplicit false

open scoped RealInnerProductSpace

namespace Descent.TruncatedCg

variable {n : Nat} {H : Point n →ₗ[ℝ] Point n} {S : Submodule ℝ (Point n)} {w r d h v : Point n}

/-- The residual after the full step, if the operator maps the direction `d` to `h`. -/
noncomputable abbrev nextResidual (r d h : Point n) : Point n := r - fullStep r d h • h

noncomputable abbrev nextDirection (r d h : Point n) : Point n :=
  nextResidual r d h + (‖nextResidual r d h‖ ^ 2 / ‖r‖ ^ 2) • d

theorem fullStep_ne_zero (hr : r ≠ 0) (hcurved : 0 < ⟪d, h⟫) : fullStep r d h ≠ 0 :=
  (div_pos (pow_pos (norm_pos_iff.mpr hr) 2) hcurved).ne'

theorem fullStep_mul_curvature (hcurved : 0 < ⟪d, h⟫) : fullStep r d h * ⟪d, h⟫ = ‖r‖ ^ 2 :=
  div_mul_cancel₀ _ hcurved.ne'

/-- The image of the direction is, up to the full step, the change of the residual. -/
theorem fullStep_smul (r d h : Point n) : fullStep r d h • h = r - nextResidual r d h :=
  (sub_sub_cancel _ _).symm

/-- What has been reached when the directions that span `S` have been searched. -/
structure Explored (H : Point n →ₗ[ℝ] Point n) (S : Submodule ℝ (Point n)) (w r d : Point n) :
    Prop where
  step_mem : w ∈ S
  residual_orthogonal : ∀ v ∈ S, ⟪v, r⟫ = 0
  direction_conjugate : ∀ v ∈ S, ⟪d, H v⟫ = 0
  direction_sub_residual_mem : d - r ∈ S
  image_mem : ∀ v ∈ S, H v ∈ S ⊔ ℝ ∙ r

/-- At the start no direction has been searched. -/
theorem explored_initial (H : Point n →ₗ[ℝ] Point n) (g : Point n) :
    Explored H ⊥ 0 (-g) (-g) where
  step_mem := Submodule.zero_mem _
  residual_orthogonal v hv := by
    rw [(Submodule.mem_bot ℝ).mp hv, inner_zero_left]
  direction_conjugate v hv := by
    rw [(Submodule.mem_bot ℝ).mp hv, map_zero, inner_zero_right]
  direction_sub_residual_mem := by
    rw [sub_self]
    exact Submodule.zero_mem _
  image_mem v hv := by
    rw [(Submodule.mem_bot ℝ).mp hv, map_zero]
    exact Submodule.zero_mem _

namespace Explored

/-! ## Dimensions -/

/-- The direction is not in the span of those before it: unlike them it is not orthogonal to the
residual. -/
theorem direction_not_mem (hS : Explored H S w r d) (hr : r ≠ 0) (hdescent : ⟪d, r⟫ = ‖r‖ ^ 2) :
    d ∉ S := by
  intro hd
  have hzero : ‖r‖ ^ 2 = 0 := hdescent ▸ hS.residual_orthogonal d hd
  exact hr (norm_eq_zero.mp ((pow_eq_zero_iff two_ne_zero).mp hzero))

/-- While there is a direction to search the span is not the whole space. -/
theorem finrank_lt (hS : Explored H S w r d) (hr : r ≠ 0) (hdescent : ⟪d, r⟫ = ‖r‖ ^ 2) :
    Module.finrank ℝ S < n := by
  have hproper : S ≠ ⊤ := by
    intro htop
    exact hS.direction_not_mem hr hdescent (htop ▸ Submodule.mem_top)
  calc Module.finrank ℝ S < Module.finrank ℝ (Point n) := Submodule.finrank_lt hproper
    _ = n := finrank_euclideanSpace_fin

/-- One more direction is one more dimension. -/
theorem finrank_next (hS : Explored H S w r d) (hr : r ≠ 0) (hdescent : ⟪d, r⟫ = ‖r‖ ^ 2) :
    Module.finrank ℝ (S ⊔ ℝ ∙ d : Submodule ℝ (Point n)) = Module.finrank ℝ S + 1 :=
  Submodule.finrank_sup_span_singleton (hS.direction_not_mem hr hdescent)

/-! ## The next direction -/

theorem exists_of_mem_next (hv : v ∈ S ⊔ ℝ ∙ d) : ∃ u ∈ S, ∃ a : ℝ, v = u + a • d := by
  obtain ⟨u, hu, z, hz, rfl⟩ := Submodule.mem_sup.mp hv
  obtain ⟨a, rfl⟩ := Submodule.mem_span_singleton.mp hz
  exact ⟨u, hu, a, rfl⟩

theorem direction_mem_next : d ∈ S ⊔ ℝ ∙ d :=
  Submodule.mem_sup_right (Submodule.mem_span_singleton_self d)

/-- The residual has been searched with the direction that came of it. -/
theorem residual_mem_next (hS : Explored H S w r d) : r ∈ S ⊔ ℝ ∙ d := by
  have hsplit : r = d - (d - r) := by abel
  rw [hsplit]
  exact Submodule.sub_mem _ direction_mem_next
    (Submodule.mem_sup_left hS.direction_sub_residual_mem)

/-- So has the image of all that was searched before. -/
theorem image_mem_next (hS : Explored H S w r d) (hv : v ∈ S) : H v ∈ S ⊔ ℝ ∙ d := by
  have hle : S ⊔ ℝ ∙ r ≤ S ⊔ ℝ ∙ d :=
    sup_le le_sup_left ((Submodule.span_singleton_le_iff_mem _ _).mpr hS.residual_mem_next)
  exact hle (hS.image_mem v hv)

/-- The next residual is orthogonal to the old directions and to the new one. -/
theorem orthogonal_next (hS : Explored H S w r d) (hH : H.IsSymmetric)
    (hdescent : ⟪d, r⟫ = ‖r‖ ^ 2) (hcurved : 0 < ⟪d, H d⟫) (hv : v ∈ S ⊔ ℝ ∙ d) :
    ⟪v, nextResidual r d (H d)⟫ = 0 := by
  obtain ⟨u, hu, a, rfl⟩ := exists_of_mem_next hv
  have hold : ⟪u, nextResidual r d (H d)⟫ = 0 := by
    have hconjugate : ⟪u, H d⟫ = 0 := by
      rw [← hH, real_inner_comm]
      exact hS.direction_conjugate u hu
    rw [inner_sub_right, real_inner_smul_right, hS.residual_orthogonal u hu, hconjugate, mul_zero,
      sub_zero]
  rw [inner_add_left, real_inner_smul_left, hold, inner_direction_residual hdescent hcurved,
    mul_zero, add_zero]

section Conjugate

variable (hS : Explored H S w r d) (hH : H.IsSymmetric) (hr : r ≠ 0)
  (hdescent : ⟪d, r⟫ = ‖r‖ ^ 2) (hcurved : 0 < ⟪d, H d⟫)
include hS hH hr hdescent hcurved

/-- As much of the direction is added to the next residual as makes the two conjugate. -/
theorem conjugate_direction : ⟪nextDirection r d (H d), H d⟫ = 0 := by
  have hrr : ‖r‖ ^ 2 ≠ 0 := pow_ne_zero 2 (norm_ne_zero_iff.mpr hr)
  have horthogonal : ⟪nextResidual r d (H d), r⟫ = 0 := by
    rw [real_inner_comm]
    exact hS.orthogonal_next hH hdescent hcurved hS.residual_mem_next
  have himage : fullStep r d (H d) * ⟪nextResidual r d (H d), H d⟫
      = -‖nextResidual r d (H d)‖ ^ 2 := by
    rw [← real_inner_smul_right, fullStep_smul, inner_sub_right, horthogonal,
      real_inner_self_eq_norm_sq, zero_sub]
  have hscaled : fullStep r d (H d) * ⟪nextDirection r d (H d), H d⟫ = 0 := by
    calc fullStep r d (H d) * ⟪nextDirection r d (H d), H d⟫
        = fullStep r d (H d) * ⟪nextResidual r d (H d), H d⟫
          + ‖nextResidual r d (H d)‖ ^ 2 / ‖r‖ ^ 2 * (fullStep r d (H d) * ⟪d, H d⟫) := by
          rw [inner_add_left, real_inner_smul_left]
          ring
      _ = -‖nextResidual r d (H d)‖ ^ 2
          + ‖nextResidual r d (H d)‖ ^ 2 / ‖r‖ ^ 2 * ‖r‖ ^ 2 := by
          rw [himage, fullStep_mul_curvature hcurved]
      _ = 0 := by rw [div_mul_cancel₀ _ hrr, neg_add_cancel]
  exact (mul_eq_zero.mp hscaled).resolve_left (fullStep_ne_zero hr hcurved)

/-- The next direction is conjugate to the old directions and to the last one. -/
theorem conjugate_next (hv : v ∈ S ⊔ ℝ ∙ d) : ⟪nextDirection r d (H d), H v⟫ = 0 := by
  obtain ⟨u, hu, a, rfl⟩ := exists_of_mem_next hv
  have hold : ⟪nextDirection r d (H d), H u⟫ = 0 := by
    have hresidual : ⟪nextResidual r d (H d), H u⟫ = 0 := by
      rw [real_inner_comm]
      exact hS.orthogonal_next hH hdescent hcurved (hS.image_mem_next hu)
    rw [inner_add_left, real_inner_smul_left, hresidual, hS.direction_conjugate u hu, mul_zero,
      add_zero]
  rw [map_add, map_smul, inner_add_right, real_inner_smul_right, hold,
    hS.conjugate_direction hH hr hdescent hcurved, mul_zero, add_zero]

/-- **A full step explores one more direction.** -/
theorem next : Explored H (S ⊔ ℝ ∙ d) (w + fullStep r d (H d) • d) (nextResidual r d (H d))
    (nextDirection r d (H d)) where
  step_mem := Submodule.add_mem _ (Submodule.mem_sup_left hS.step_mem)
    (Submodule.smul_mem _ _ direction_mem_next)
  residual_orthogonal _ hv := hS.orthogonal_next hH hdescent hcurved hv
  direction_conjugate _ hv := hS.conjugate_next hH hr hdescent hcurved hv
  direction_sub_residual_mem := by
    rw [add_sub_cancel_left]
    exact Submodule.smul_mem _ _ direction_mem_next
  image_mem v hv := by
    obtain ⟨u, hu, a, rfl⟩ := exists_of_mem_next hv
    have hold : H u ∈ (S ⊔ ℝ ∙ d) ⊔ ℝ ∙ nextResidual r d (H d) :=
      Submodule.mem_sup_left (hS.image_mem_next hu)
    have hnew : H d ∈ (S ⊔ ℝ ∙ d) ⊔ ℝ ∙ nextResidual r d (H d) := by
      refine (Submodule.smul_mem_iff _ (fullStep_ne_zero hr hcurved)).mp ?_
      rw [fullStep_smul]
      exact Submodule.sub_mem _ (Submodule.mem_sup_left hS.residual_mem_next) direction_mem_next
    rw [map_add, map_smul]
    exact Submodule.add_mem _ hold (Submodule.smul_mem _ _ hnew)

end Conjugate

end Explored

end Descent.TruncatedCg
