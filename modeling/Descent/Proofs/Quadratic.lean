import Descent.Proofs.Euclid
import Descent.Proofs.Outcome
import Descent.Operator

/-!
# The quadratic model

`modelValue H g w = gᵀw + ½ wᵀHw` for a linear map `H`. Along a line from `w` it is a parabola whose
slope at the start is the inner product of the direction with the gradient `g + Hw` of the model
(`modelValue_add_smul`), and steepest descent falls at first (`exists_steepest_descent`). It is what
`Operator.quadratic` computes for an operator that computes `H` (`Operator.Computes.quadratic`).
-/

set_option autoImplicit false

open scoped RealInnerProductSpace

namespace Descent

section Model

variable {E : Type*} [NormedAddCommGroup E] [InnerProductSpace ℝ E]

/-- The quadratic model with the gradient `g` at the origin. -/
noncomputable def modelValue (H : E →ₗ[ℝ] E) (g w : E) : ℝ := ⟪g, w⟫ + ⟪w, H w⟫ * 0.5

variable {H : E →ₗ[ℝ] E} {g w d r : E}

@[simp] theorem modelValue_zero (H : E →ₗ[ℝ] E) (g : E) : modelValue H g 0 = 0 := by
  simp [modelValue]

/-- The model along a line, for the residual `r = -(g + Hw)` at its start. -/
theorem modelValue_add_smul (hH : H.IsSymmetric) (hr : r = -(g + H w)) (t : ℝ) :
    modelValue H g (w + t • d)
      = modelValue H g w - t * ⟪d, r⟫ + t ^ 2 / 2 * ⟪d, H d⟫ := by
  have hcross : ⟪w, H d⟫ = ⟪d, H w⟫ := by rw [← hH, real_inner_comm]
  subst hr
  simp only [modelValue, map_add, map_smul, inner_add_left, inner_add_right, inner_neg_right,
    real_inner_smul_left, real_inner_smul_right, hcross, real_inner_comm g d]
  ring

/-- Two points of a parabola whose curvature `κ` does not turn it up before their middle. -/
theorem parabola_le {a κ s t : ℝ} (hts : t ≤ s) (hmiddle : (t + s) / 2 * κ ≤ a) :
    -s * a + s ^ 2 / 2 * κ ≤ -t * a + t ^ 2 / 2 * κ := by
  have := mul_nonneg (sub_nonneg.mpr hts) (sub_nonneg.mpr hmiddle)
  linarith

/-- The bottom `s` of a parabola that is turned up. -/
theorem parabola_bottom_le {a κ s : ℝ} (hκ : 0 < κ) (hs : s * κ = a) (t : ℝ) :
    -s * a + s ^ 2 / 2 * κ ≤ -t * a + t ^ 2 / 2 * κ := by
  subst hs
  have := mul_nonneg hκ.le (sq_nonneg (t - s))
  linarith

/-- From an offset inside the ball there is room for a step of steepest descent, and a short one
lowers the model. -/
theorem exists_steepest_descent {o : E} {Δ : ℝ} (H : E →ₗ[ℝ] E) (hg : g ≠ 0) (ho : ‖o‖ < Δ) :
    ∃ t : ℝ, 0 ≤ t ∧ ‖o - t • g‖ ≤ Δ ∧ modelValue H g (-(t • g)) < 0 := by
  have hnorm : 0 < ‖g‖ := norm_pos_iff.mpr hg
  have hroom : 0 < (Δ - ‖o‖) / ‖g‖ := div_pos (sub_pos.mpr ho) hnorm
  have hshort : 0 < ‖g‖ ^ 2 / (|⟪g, H g⟫| + 1) := by positivity
  set t := min ((Δ - ‖o‖) / ‖g‖) (‖g‖ ^ 2 / (|⟪g, H g⟫| + 1)) with ht
  have htpos : 0 < t := lt_min hroom hshort
  refine ⟨t, htpos.le, ?_, ?_⟩
  · have hfit : t * ‖g‖ ≤ Δ - ‖o‖ := (le_div_iff₀ hnorm).mp (min_le_left _ _)
    calc ‖o - t • g‖ ≤ ‖o‖ + ‖t • g‖ := norm_sub_le _ _
      _ = ‖o‖ + t * ‖g‖ := by rw [norm_smul, Real.norm_eq_abs, abs_of_pos htpos]
      _ ≤ Δ := by linarith
  · have hcurve : t * (|⟪g, H g⟫| + 1) ≤ ‖g‖ ^ 2 :=
      (le_div_iff₀ (by positivity)).mp (min_le_right _ _)
    have hκ : t * ⟪g, H g⟫ ≤ t * |⟪g, H g⟫| := mul_le_mul_of_nonneg_left (le_abs_self _) htpos.le
    have hfall : t * ⟪g, H g⟫ < ‖g‖ ^ 2 := by linarith
    have hvalue : modelValue H g (-(t • g)) = t * (t * ⟪g, H g⟫ / 2 - ‖g‖ ^ 2) := by
      simp only [modelValue, map_neg, map_smul, inner_neg_right, inner_neg_left,
        real_inner_smul_left, real_inner_smul_right, real_inner_self_eq_norm_sq]
      ring
    rw [hvalue]
    exact mul_neg_of_pos_of_neg htpos (by nlinarith [sq_nonneg ‖g‖])

end Model

/-! ## Operators that compute a linear map -/

variable {σ : Type} {n : Nat} {H : Point n →ₗ[ℝ] Point n} {op : Operator ℝ σ}

/-- What the operator returns, if it returns, is the value of a linear map. -/
def Operator.Computes (op : Operator ℝ σ) (H : Point n →ₗ[ℝ] Point n) : Prop :=
  ∀ x hv, Run.Returns (op.apply (coords x)) hv → hv = coords (H x)

theorem Operator.Computes.attains (hop : op.Computes H) (x : Point n) :
    Run.Attains (fun _ => True) (op.apply (coords x)) fun v => v = coords (H x) :=
  Run.Attains.iff_returns.mpr fun v hv => hop x v hv

/-- The computed value of the quadratic model is the model's. -/
theorem Operator.Computes.quadratic [RealConstants] (hop : op.Computes H) (g w : Point n) {q : ℝ}
    (hq : Run.Returns (op.quadratic (coords g) (coords w)) q) : q = modelValue H g w := by
  have attained : Run.Attains (fun _ => True) (op.quadratic (coords g) (coords w))
      fun q => q = modelValue H g w := by
    refine Run.Attains.bind (hop.attains w) ?_
    rintro _ rfl
    rw [Vec.dot_coords, Vec.dot_coords]
    exact Run.Attains.pure rfl
  exact Run.Attains.iff_returns.mp attained q hq

end Descent
