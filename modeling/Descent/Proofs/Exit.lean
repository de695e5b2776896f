import Mathlib.Analysis.InnerProductSpace.Basic

/-!
# Leaving a ball along a ray

The ray `z + t p`, `t ≥ 0`, leaves the ball of radius `Δ` around the origin at `exitStep z p Δ`. The
root of the quadratic is taken in two forms, whichever does not cancel, and a point outside the
ball is treated as if its own sphere were the ball. Main statements: the exit point lies on the
sphere of radius `max Δ ‖z‖` (`norm_add_exitStep`), and the ray is inside exactly up to it
(`norm_add_smul_le_iff`). A step from inside that is cut at the exit stays inside
(`norm_add_exitStep_le`).
-/

set_option autoImplicit false

open scoped RealInnerProductSpace

namespace Descent

variable {E : Type*} [NormedAddCommGroup E] [InnerProductSpace ℝ E]

/-- What the square of the norm may still grow by inside the ball. -/
noncomputable def slack (z : E) (Δ : ℝ) : ℝ := max (Δ * Δ - ‖z‖ ^ 2) 0

/-- The step at which `z + t p` leaves the ball, for `p ≠ 0`. -/
noncomputable def exitStep (z p : E) (Δ : ℝ) : ℝ :=
  let root := √(⟪z, p⟫ * ⟪z, p⟫ + ‖p‖ ^ 2 * slack z Δ)
  max (if 0 < ⟪z, p⟫ then slack z Δ / (⟪z, p⟫ + root) else (root - ⟪z, p⟫) / ‖p‖ ^ 2) 0

omit [InnerProductSpace ℝ E] in
theorem slack_nonneg (z : E) (Δ : ℝ) : 0 ≤ slack z Δ := le_max_right _ _

theorem norm_add_smul_sq (z p : E) (t : ℝ) :
    ‖z + t • p‖ ^ 2 = ‖z‖ ^ 2 + (‖p‖ ^ 2 * t ^ 2 + 2 * ⟪z, p⟫ * t) := by
  rw [norm_add_sq_real, real_inner_smul_right, norm_smul, mul_pow, Real.norm_eq_abs, sq_abs]
  ring

omit [InnerProductSpace ℝ E] in
/-- The square of the greater of the two radii. -/
theorem norm_sq_add_slack (z : E) {Δ : ℝ} (hΔ : 0 ≤ Δ) : ‖z‖ ^ 2 + slack z Δ = max Δ ‖z‖ ^ 2 := by
  unfold slack
  rcases le_total Δ ‖z‖ with h | h
  · have hsq : Δ * Δ - ‖z‖ ^ 2 ≤ 0 := by nlinarith
    rw [max_eq_right h, max_eq_right hsq, add_zero]
  · have hsq : 0 ≤ Δ * Δ - ‖z‖ ^ 2 := by nlinarith [norm_nonneg z]
    rw [max_eq_left h, max_eq_left hsq]
    ring

/-! ## The root

Over the reals `a t² + 2 b t = c` with `a > 0` and `c ≥ 0` has one root at which the left side is
not falling. Both forms of it are that root. -/

section Root

variable {a b c : ℝ}

/-- The form for `b > 0`, where `√(b² + ac) - b` would cancel. -/
theorem root_conjugate (ha : 0 < a) (hc : 0 ≤ c) (hb : 0 < b) :
    let t := c / (b + √(b * b + a * c))
    0 ≤ t ∧ a * t ^ 2 + 2 * b * t = c ∧ 0 ≤ a * t + 2 * b := by
  intro t
  have hac : 0 ≤ b * b + a * c := by positivity
  have hroot := Real.sq_sqrt hac
  have hpos : 0 < b + √(b * b + a * c) := by positivity
  have ht : t * (b + √(b * b + a * c)) = c := div_mul_cancel₀ c hpos.ne'
  have ht₀ : 0 ≤ t := div_nonneg hc hpos.le
  refine ⟨ht₀, ?_, add_nonneg (mul_nonneg ha.le ht₀) (by linarith)⟩
  -- the equation for `t`, cleared of its denominator
  have key : (a * t ^ 2 + 2 * b * t - c) * (b + √(b * b + a * c)) ^ 2 = 0 := by
    linear_combination
      (a * (t * (b + √(b * b + a * c)) + c) + 2 * b * (b + √(b * b + a * c))) * ht - c * hroot
  have := (mul_eq_zero.mp key).resolve_right (pow_ne_zero 2 hpos.ne')
  linarith

/-- The form for `b ≤ 0`. -/
theorem root_direct (ha : 0 < a) (hc : 0 ≤ c) (hb : b ≤ 0) :
    let t := (√(b * b + a * c) - b) / a
    0 ≤ t ∧ a * t ^ 2 + 2 * b * t = c ∧ 0 ≤ a * t + 2 * b := by
  intro t
  have hac : 0 ≤ b * b + a * c := add_nonneg (mul_self_nonneg b) (mul_nonneg ha.le hc)
  have hroot := Real.sq_sqrt hac
  have hle : -b ≤ √(b * b + a * c) := by
    apply Real.le_sqrt_of_sq_le
    nlinarith [mul_nonneg ha.le hc]
  have ht : t * a = √(b * b + a * c) - b := div_mul_cancel₀ _ ha.ne'
  refine ⟨div_nonneg (by linarith) ha.le, ?_, by linarith⟩
  -- the same for the denominator `a`
  have key : (a * t ^ 2 + 2 * b * t - c) * a = 0 := by
    linear_combination (t * a + √(b * b + a * c) + b) * ht + hroot
  have := (mul_eq_zero.mp key).resolve_right ha.ne'
  linarith

end Root

/-! ## The exit point -/

variable {z p : E} {Δ : ℝ}

/-- The exit step as a root: it is not negative, it uses up the slack, and the norm is not falling
there. -/
theorem exitStep_root (hp : p ≠ 0) :
    0 ≤ exitStep z p Δ ∧
      ‖p‖ ^ 2 * exitStep z p Δ ^ 2 + 2 * ⟪z, p⟫ * exitStep z p Δ = slack z Δ ∧
      0 ≤ ‖p‖ ^ 2 * exitStep z p Δ + 2 * ⟪z, p⟫ := by
  have hpp : 0 < ‖p‖ ^ 2 := by positivity
  unfold exitStep
  dsimp only
  split
  · next hb =>
      have root := root_conjugate hpp (slack_nonneg z Δ) hb
      rwa [max_eq_left root.1]
  · next hb =>
      have root := root_direct hpp (slack_nonneg z Δ) (not_lt.mp hb)
      rwa [max_eq_left root.1]

theorem exitStep_nonneg (z p : E) (Δ : ℝ) : 0 ≤ exitStep z p Δ := le_max_right _ _

/-- The exit point lies on the sphere around the origin, the one through `z` if `z` is outside. -/
theorem norm_add_exitStep (hp : p ≠ 0) (hΔ : 0 ≤ Δ) :
    ‖z + exitStep z p Δ • p‖ = max Δ ‖z‖ := by
  have hsq : ‖z + exitStep z p Δ • p‖ ^ 2 = max Δ ‖z‖ ^ 2 := by
    rw [norm_add_smul_sq, (exitStep_root hp).2.1, norm_sq_add_slack z hΔ]
  exact (sq_eq_sq₀ (norm_nonneg _) (hΔ.trans (le_max_left _ _))).mp hsq

/-- The growth of the square of the norm from `t` to the exit step has the factor `exitStep - t` and
one that is positive for `t > 0`. -/
theorem growth_to_exit (hp : p ≠ 0) (hΔ : 0 ≤ Δ) (t : ℝ) :
    ∃ slope, 0 ≤ slope ∧ max Δ ‖z‖ ^ 2 - ‖z + t • p‖ ^ 2
      = (exitStep z p Δ - t) * (‖p‖ ^ 2 * t + slope) := by
  obtain ⟨-, hroot, hslope⟩ := exitStep_root (z := z) (Δ := Δ) hp
  refine ⟨_, hslope, ?_⟩
  rw [← norm_sq_add_slack z hΔ, norm_add_smul_sq, ← hroot]
  ring

/-- A point of the ray that is not inside lies at or beyond the exit. -/
theorem exitStep_le (hp : p ≠ 0) (hΔ : 0 ≤ Δ) {t : ℝ} (ht : 0 < t)
    (hout : max Δ ‖z‖ ≤ ‖z + t • p‖) : exitStep z p Δ ≤ t := by
  -- before the exit the norm is still less than the radius
  obtain ⟨slope, hslope, hgrowth⟩ := growth_to_exit (z := z) hp hΔ t
  have hfactor : 0 < ‖p‖ ^ 2 * t + slope := by positivity
  have hsq : max Δ ‖z‖ ^ 2 ≤ ‖z + t • p‖ ^ 2 :=
    pow_le_pow_left₀ (hΔ.trans (le_max_left _ _)) hout 2
  by_contra hlt
  have := mul_pos (sub_pos.mpr (not_le.mp hlt)) hfactor
  linarith

/-- A ray is inside the ball exactly up to the exit step. -/
theorem norm_add_smul_le_iff (hp : p ≠ 0) (hΔ : 0 ≤ Δ) {t : ℝ} (ht : 0 ≤ t) :
    ‖z + t • p‖ ≤ max Δ ‖z‖ ↔ t ≤ exitStep z p Δ := by
  have hmax : 0 ≤ max Δ ‖z‖ := hΔ.trans (le_max_left _ _)
  constructor
  · intro hin
    rcases ht.eq_or_lt with rfl | htpos
    · exact exitStep_nonneg z p Δ
    · by_contra hlt
      -- beyond the exit the norm has grown strictly
      obtain ⟨slope, hslope, hgrowth⟩ := growth_to_exit (z := z) hp hΔ t
      have hfactor : 0 < ‖p‖ ^ 2 * t + slope := by positivity
      have hsq : ‖z + t • p‖ ^ 2 ≤ max Δ ‖z‖ ^ 2 := pow_le_pow_left₀ (norm_nonneg _) hin 2
      have := mul_pos (sub_pos.mpr (not_le.mp hlt)) hfactor
      linarith
  · intro hle
    obtain ⟨slope, hslope, hgrowth⟩ := growth_to_exit (z := z) hp hΔ t
    have hfactor : 0 ≤ ‖p‖ ^ 2 * t + slope := by positivity
    have := mul_nonneg (sub_nonneg.mpr hle) hfactor
    exact (sq_le_sq₀ (norm_nonneg _) hmax).mp (by linarith)

/-! ## Cuts

From a point of the ball the direction may also vanish. -/

/-- What is cut at the exit stays inside. -/
theorem norm_add_exitStep_le (hz : ‖z‖ ≤ Δ) : ‖z + exitStep z p Δ • p‖ ≤ Δ := by
  by_cases hp : p = 0
  · rwa [hp, smul_zero, add_zero]
  · rw [norm_add_exitStep hp ((norm_nonneg z).trans hz)]
    exact max_le le_rfl hz

/-- It reaches the sphere, unless the direction vanishes at a point within. -/
theorem norm_add_exitStep_eq_iff (hz : ‖z‖ ≤ Δ) :
    ‖z + exitStep z p Δ • p‖ = Δ ↔ p ≠ 0 ∨ ‖z‖ = Δ := by
  by_cases hp : p = 0
  · simp [hp]
  · rw [norm_add_exitStep hp ((norm_nonneg z).trans hz), max_eq_left hz]
    simp [hp]

/-- From the centre the exit is as far as the radius. -/
theorem exitStep_zero (hp : p ≠ 0) (hΔ : 0 ≤ Δ) : exitStep 0 p Δ = Δ / ‖p‖ := by
  have hexit := norm_add_exitStep (z := 0) hp hΔ
  rw [zero_add, norm_smul, norm_zero, max_eq_left hΔ, Real.norm_of_nonneg (exitStep_nonneg ..)]
    at hexit
  exact eq_div_of_mul_eq (norm_ne_zero_iff.mpr hp) hexit

/-- What ends before the exit stays inside. -/
theorem norm_add_le_of_one_le_exitStep (hz : ‖z‖ ≤ Δ) (h : 1 ≤ exitStep z p Δ) :
    ‖z + p‖ ≤ Δ := by
  by_cases hp : p = 0
  · rwa [hp, add_zero]
  · have hin := (norm_add_smul_le_iff hp ((norm_nonneg z).trans hz) zero_le_one).mpr h
    rw [one_smul] at hin
    exact hin.trans (max_le le_rfl hz)

end Descent
