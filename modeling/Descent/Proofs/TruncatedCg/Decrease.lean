import Descent.Proofs.Quadratic
import Descent.Proofs.TruncatedCg.Ball

/-!
# The decrease of truncated conjugate gradients

For a symmetric linear operator, which may be indefinite, the step of `solveFrom` is at least as
good on the quadratic model as every point of the steepest-descent ray inside the ball
(`solveFrom_le_steepest_descent`). The residual is then minus the gradient of the model, and a round
ends at the best point of its own ray inside the ball (`BestOnRay`): at the bottom of the parabola,
or at the exit while the parabola still falls. The first ray is that of steepest descent; the later
ones start where the last ended and so can only improve on it.
-/

set_option autoImplicit false

open scoped RealInnerProductSpace

namespace Descent

namespace TruncatedCg

open Run

variable {σ : Type} {n : Nat} {H : Point n →ₗ[ℝ] Point n} {g o w r d w' : Point n} {Δ tol : ℝ}

/-- No point of the ray from `w` along `d` inside the ball is better than `w'`. -/
def BestOnRay (H : Point n →ₗ[ℝ] Point n) (g o : Point n) (Δ : ℝ) (w d w' : Point n) : Prop :=
  ∀ t : ℝ, 0 ≤ t → ‖o + (w + t • d)‖ ≤ Δ → modelValue H g w' ≤ modelValue H g (w + t • d)

/-- The state of a run for a linear operator: the residual is minus the gradient of the model. -/
structure Consistent (H : Point n →ₗ[ℝ] Point n) (g o : Point n) (Δ : ℝ) (w r d : Point n) : Prop
    extends Inside o Δ w r d where
  residual_eq : r = -(g + H w)

theorem Consistent.modelValue_ray (hInv : Consistent H g o Δ w r d) (hH : H.IsSymmetric) (t : ℝ) :
    modelValue H g (w + t • d) = modelValue H g w - t * ‖r‖ ^ 2 + t ^ 2 / 2 * ⟪d, H d⟫ := by
  rw [modelValue_add_smul hH hInv.residual_eq, hInv.descent]

/-- From an offset inside the ball every point reached is inside. -/
theorem Consistent.norm_le (hInv : Consistent H g o Δ w r d) (ho : ‖o‖ ≤ Δ) : ‖o + w‖ ≤ Δ :=
  hInv.ball.trans_eq (max_eq_left ho)

/-- The exit is the best point of the ray inside the ball while the parabola falls up to it. -/
theorem Consistent.exit_best (hInv : Consistent H g o Δ w r d) (hH : H.IsSymmetric) (ho : ‖o‖ ≤ Δ)
    (hfalls : exitStep (o + w) d Δ * ⟪d, H d⟫ ≤ ‖r‖ ^ 2) :
    BestOnRay H g o Δ w d (w + exitStep (o + w) d Δ • d) := by
  intro t ht hin
  have hΔ : 0 ≤ Δ := (norm_nonneg o).trans ho
  have hexit : t ≤ exitStep (o + w) d Δ := by
    rw [← norm_add_smul_le_iff hInv.direction_ne hΔ ht, max_eq_left (hInv.norm_le ho), add_assoc]
    exact hin
  -- the middle of `t` and the exit is not beyond the bottom of the parabola
  have hmiddle : (t + exitStep (o + w) d Δ) / 2 * ⟪d, H d⟫ ≤ ‖r‖ ^ 2 := by
    rcases le_total ⟪d, H d⟫ 0 with hκ | hκ
    · have := mul_nonneg (add_nonneg ht (exitStep_nonneg (o + w) d Δ)) (neg_nonneg.mpr hκ)
      linarith [sq_nonneg ‖r‖]
    · have := mul_le_mul_of_nonneg_right hexit hκ
      linarith
  have := parabola_le hexit hmiddle
  rw [hInv.modelValue_ray hH, hInv.modelValue_ray hH]
  linarith

/-- The full step leads to the best point of the whole line. -/
theorem Consistent.fullStep_best (hInv : Consistent H g o Δ w r d) (hH : H.IsSymmetric)
    (hcurved : 0 < ⟪d, H d⟫) : BestOnRay H g o Δ w d (w + fullStep r d (H d) • d) := by
  intro t _ _
  rw [hInv.modelValue_ray hH, hInv.modelValue_ray hH]
  have := parabola_bottom_le hcurved (div_mul_cancel₀ (‖r‖ ^ 2) hcurved.ne') t
  unfold fullStep
  linarith

/-- The full step that leaves the ball does not lead beyond the bottom of the parabola before the
exit. -/
theorem Consistent.exit_falls (hInv : Consistent H g o Δ w r d) (ho : ‖o‖ ≤ Δ)
    (hcurved : 0 < ⟪d, H d⟫) (hleaves : Δ ≤ ‖o + (w + fullStep r d (H d) • d)‖) :
    exitStep (o + w) d Δ * ⟪d, H d⟫ ≤ ‖r‖ ^ 2 := by
  have hr : 0 < ‖r‖ ^ 2 := pow_pos (norm_pos_iff.mpr hInv.residual_ne) 2
  have hexit : exitStep (o + w) d Δ ≤ fullStep r d (H d) := by
    refine exitStep_le hInv.direction_ne ((norm_nonneg o).trans ho) (div_pos hr hcurved) ?_
    rw [max_eq_left (hInv.norm_le ho), add_assoc]
    exact hleaves
  calc exitStep (o + w) d Δ * ⟪d, H d⟫
      ≤ fullStep r d (H d) * ⟪d, H d⟫ := mul_le_mul_of_nonneg_right hexit hcurved.le
    _ = ‖r‖ ^ 2 := div_mul_cancel₀ _ hcurved.ne'

/-- A round that ends the run ends it at the best point of its ray. -/
theorem Consistent.stop (hInv : Consistent H g o Δ w r d) (hH : H.IsSymmetric) (ho : ‖o‖ ≤ Δ)
    {k : Nat} {sol : Solution ℝ} (hround : Round o Δ tol k w r d (H d) (.inl sol)) :
    ∃ w', sol.step = coords w' ∧ BestOnRay H g o Δ w d w' := by
  cases hround with
  | negative curved =>
      have hfalls : exitStep (o + w) d Δ * ⟪d, H d⟫ ≤ 0 :=
        mul_nonpos_of_nonneg_of_nonpos (exitStep_nonneg _ _ _) curved
      exact ⟨_, rfl, hInv.exit_best hH ho (hfalls.trans (sq_nonneg _))⟩
  | boundary curved leaves =>
      exact ⟨_, rfl, hInv.exit_best hH ho (hInv.exit_falls ho curved leaves)⟩
  | interior curved stays small => exact ⟨_, rfl, hInv.fullStep_best hH curved⟩

/-- The residual is updated as the gradient of the model is. -/
theorem Consistent.fullStep_residual (hInv : Consistent H g o Δ w r d) :
    r - fullStep r d (H d) • H d = -(g + H (w + fullStep r d (H d) • d)) := by
  rw [hInv.residual_eq, map_add, map_smul]
  abel

/-- The full step keeps the invariant if it stays inside with a residual above the tolerance. -/
theorem Consistent.fullStep (hInv : Consistent H g o Δ w r d) (htol : 0 ≤ tol)
    (curved : 0 < ⟪d, H d⟫) (stays : ‖o + (w + fullStep r d (H d) • d)‖ < Δ)
    (large : tol < ‖r - fullStep r d (H d) • H d‖) :
    Consistent H g o Δ (w + fullStep r d (H d) • d) (r - fullStep r d (H d) • H d)
      (r - fullStep r d (H d) • H d
        + (‖r - fullStep r d (H d) • H d‖ ^ 2 / ‖r‖ ^ 2) • d) where
  toInside := hInv.toInside.fullStep htol curved stays large
  residual_eq := hInv.fullStep_residual

/-- A round that goes on goes on from the best point of its ray, with the residual of the model
there. -/
theorem Consistent.next (hInv : Consistent H g o Δ w r d) (hH : H.IsSymmetric) (htol : 0 ≤ tol)
    {k : Nat} {c : State ℝ} (hround : Round o Δ tol k w r d (H d) (.inr c)) :
    ∃ w' r' d', c = State.at w' r' d' ∧ Consistent H g o Δ w' r' d' ∧
      BestOnRay H g o Δ w d w' := by
  cases hround with
  | next curved stays large =>
      exact ⟨_, _, _, rfl, hInv.fullStep htol curved stays large, hInv.fullStep_best hH curved⟩

/-! ## Whole runs -/

/-- No point of the steepest-descent ray inside the ball is better than `w`. -/
def BeatsSteepestDescent (H : Point n →ₗ[ℝ] Point n) (g o : Point n) (Δ : ℝ) (w : Point n) : Prop :=
  ∀ t : ℝ, 0 ≤ t → ‖o - t • g‖ ≤ Δ → modelValue H g w ≤ modelValue H g (-(t • g))

/-- The first ray is the one of steepest descent. -/
theorem BestOnRay.beatsSteepestDescent (h : BestOnRay H g o Δ 0 (-g) w) :
    BeatsSteepestDescent H g o Δ w := by
  intro t ht hin
  have hpoint : (0 : Point n) + t • -g = -(t • g) := by rw [zero_add, smul_neg]
  have := h t ht
  rw [hpoint, ← sub_eq_add_neg] at this
  exact this hin

/-- A ray starts at its best point or improves on it. -/
theorem BestOnRay.le_start (h : BestOnRay H g o Δ w d w') (hin : ‖o + w‖ ≤ Δ) :
    modelValue H g w' ≤ modelValue H g w := by
  simpa using h 0 le_rfl (by simpa using hin)

theorem BeatsSteepestDescent.mono (h : BeatsSteepestDescent H g o Δ w)
    (hle : modelValue H g w' ≤ modelValue H g w) : BeatsSteepestDescent H g o Δ w' :=
  fun t ht hin => hle.trans (h t ht hin)

structure Leading (H : Point n →ₗ[ℝ] Point n) (g o : Point n) (Δ : ℝ) (w r d : Point n) : Prop
    extends Consistent H g o Δ w r d where
  beats : BeatsSteepestDescent H g o Δ w

theorem consistent_initial (hg : g ≠ 0) : Consistent H g o Δ 0 (-g) (-g) where
  toInside := inside_initial hg
  residual_eq := by simp

variable [RealConstants] {op : Operator ℝ σ}

/-- After the first round every further one improves on the step so far. -/
theorem iterate_beatsSteepestDescent (hH : H.IsSymmetric) (hop : op.Computes H) (ho : ‖o‖ ≤ Δ)
    (htol : 0 ≤ tol) (remaining k : Nat) (hInv : Leading H g o Δ w r d) :
    Attains (fun _ => True) (iterate ⟨op, coords o, Δ, tol⟩ remaining k (State.at w r d))
      fun sol => ∃ w', sol.step = coords w' ∧ BeatsSteepestDescent H g o Δ w' := by
  refine iterate_attains (P := fun d h => h = H d)
    (fun d => (hop.attains d).mono fun v hv => ⟨_, hv, rfl⟩)
    (fun w r d k hInv => ⟨w, rfl, hInv.beats⟩) ?_ ?_ remaining k hInv
  · rintro w r d _ k sol ⟨hInv, hw⟩ rfl hround
    obtain ⟨w', hstep, hbest⟩ := hInv.stop hH ho hround
    exact ⟨w', hstep, hw.mono (hbest.le_start (hInv.norm_le ho))⟩
  · rintro w r d _ k c ⟨hInv, hw⟩ rfl hround
    obtain ⟨w', r', d', rfl, hInv', hbest⟩ := hInv.next hH htol hround
    exact ⟨w', r', d', rfl, hInv', hw.mono (hbest.le_start (hInv.norm_le ho))⟩

theorem solveFrom_beatsSteepestDescent (config : Config ℝ) (hH : H.IsSymmetric)
    (hop : op.Computes H) (ho : ‖o‖ ≤ Δ) {rtol : ℝ} (hrtol : 0 ≤ rtol) :
    Attains (fun _ => True) (solveFrom config op (coords g) Δ (coords o) rtol)
      fun sol => ∃ w, sol.step = coords w ∧ BeatsSteepestDescent H g o Δ w := by
  rw [solveFrom_coords]
  split
  · next hg =>
      refine Attains.pure ⟨0, rfl, fun t _ _ => ?_⟩
      rw [hg, smul_zero, neg_zero]
  · next hg =>
      have htol : 0 ≤ rtol * ‖g‖ := mul_nonneg hrtol (norm_nonneg g)
      have hInv : Consistent H g o Δ 0 (-g) (-g) := consistent_initial hg
      -- the first round is taken out of the run: only after it the step beats steepest descent
      obtain ⟨m, hm⟩ : ∃ m, max (config.maxIterations.getD n) 1 = m + 1 :=
        ⟨_, (Nat.sub_add_cancel (le_max_right _ _)).symm⟩
      rw [hm]
      refine Attains.bind (advance_round (P := fun h => h = H (-g))
        ((hop.attains _).mono fun v hv => ⟨_, hv, rfl⟩)) ?_
      rintro (sol | c) ⟨_, rfl, hround⟩
      · obtain ⟨w, hstep, hbest⟩ := hInv.stop hH ho hround
        exact Attains.pure ⟨w, hstep, hbest.beatsSteepestDescent⟩
      · obtain ⟨w, r, d, rfl, hInv', hbest⟩ := hInv.next hH htol hround
        exact iterate_beatsSteepestDescent hH hop ho htol m 1
          ⟨hInv', hbest.beatsSteepestDescent⟩

/-- **Truncated conjugate gradients do at least as well as steepest descent.** No point `-tg` inside
the ball is better on the quadratic model than the step, which is therefore no worse than no step,
and better from an offset inside the sphere unless the gradient vanishes. -/
theorem solveFrom_le_steepest_descent (config : Config ℝ) (op : Operator ℝ σ)
    {H : Point n →ₗ[ℝ] Point n} (hH : H.IsSymmetric) (hop : op.Computes H) (g o : Point n)
    {Δ rtol : ℝ} (ho : ‖o‖ ≤ Δ) (hrtol : 0 ≤ rtol) {sol : Solution ℝ}
    (hsol : Returns (solveFrom config op (coords g) Δ (coords o) rtol) sol) :
    ∃ w : Point n, sol.step = coords w ∧
      (∀ t : ℝ, 0 ≤ t → ‖o - t • g‖ ≤ Δ → modelValue H g w ≤ modelValue H g (-(t • g))) ∧
      modelValue H g w ≤ 0 ∧ (g ≠ 0 → ‖o‖ < Δ → modelValue H g w < 0) := by
  obtain ⟨w, hstep, hw⟩ := Attains.iff_returns.mp
    (solveFrom_beatsSteepestDescent config hH hop ho hrtol) sol hsol
  refine ⟨w, hstep, hw, ?_, fun hg ho' => ?_⟩
  · simpa using hw 0 le_rfl (by simpa using ho)
  · obtain ⟨t, ht, hin, hfalls⟩ := exists_steepest_descent H hg ho'
    exact (hw t ht hin).trans_lt hfalls

end TruncatedCg

section Example

attribute [local instance] RealConstants.double

theorem Operator.identity_computes (n : Nat) :
    identity.Computes (LinearMap.id : Point n →ₗ[ℝ] Point n) :=
  fun _ _ h => identity_returns h

theorem TruncatedCg.solveFrom_le_steepest_descent_identity :
    ∃ w : Point 1, [-2⁻¹] = coords w ∧
      modelValue LinearMap.id (pointOf fun _ => 1) w < 0 := by
  have horigin : coords (0 : Point 1) = [0] := by simp [coords]
  obtain ⟨w, hstep, -, -, hfalls⟩ := solveFrom_le_steepest_descent {} Operator.identity
    (H := LinearMap.id) (fun _ _ => rfl) (Operator.identity_computes 1) (pointOf fun _ => 1) 0
    (Δ := 2⁻¹) (by simp) le_rfl (by simpa [horigin] using solveFrom_identity)
  refine ⟨w, hstep, hfalls (fun h => ?_) (by simp)⟩
  simpa [pointOf] using congrFun (congrArg WithLp.ofLp h) 0

end Example

end Descent
