import Descent.Proofs.NewtonCg
import Descent.Proofs.Safe
import Descent.Proofs.TruncatedCg.Decrease

/-!
# Truncated conjugate gradients on real numbers among the extended ones

For an operator that computes a linear map on real vectors, truncated conjugate gradients from a
real gradient in a ball of a real radius divide by no zero, so that their states are real: an
iteration is a round of exact arithmetic (`advance_embed`). The solve then ends with a real step,
which lowers the quadratic model if the map is symmetric and the gradient does not vanish
(`solveFrom_falls`).
-/

set_option autoImplicit false

open scoped RealInnerProductSpace

namespace Descent

open Run Extended Vec

variable {σ : Type} {n : Nat}

/-- From states with `K`, which it keeps, the operator computes a linear map on real vectors. -/
def Operator.Applies (op : Operator Extended σ) (H : Point n →ₗ[ℝ] Point n) (K : σ → Prop) : Prop :=
  ∀ d : Point n, Succeeds K (op.apply (embed (coords d))) fun v t => K t ∧ v = embed (coords (H d))

namespace TruncatedCg

def State.embed (c : State ℝ) : State Extended :=
  ⟨Vec.embed c.step, Vec.embed c.residual, Vec.embed c.direction, real c.residualSquared⟩

def Solution.embed (sol : Solution ℝ) : Solution Extended :=
  ⟨Vec.embed sol.step, sol.kind, sol.iterations, real sol.residualNorm⟩

variable [RealConstants] {op : Operator Extended σ} {H : Point n →ₗ[ℝ] Point n} {K : σ → Prop}
  {g o w r d : Point n} {Δ tol : ℝ}

theorem sqrt_norm_sq_embed (x : Point n) : Scalar.sqrt (real (‖x‖ ^ 2)) = real ‖x‖ := by
  rw [real_sqrt (sq_nonneg _), Real.sqrt_sq (norm_nonneg x)]

theorem initial_embed (g : Point n) :
    State.initial (Vec.embed (coords g)) = (State.at 0 (-g) (-g)).embed := by
  simp [State.initial, State.at, State.embed]

theorem prolong_embed {tolerance : Extended} :
    prolong ⟨op, Vec.embed (coords o), real Δ, tolerance⟩ (State.at w r d).embed
      = .ok (Vec.embed (coords (w + exitStep (o + w) d Δ • d))) := by
  simp only [prolong, State.embed, State.at_step, State.at_direction, add_embed]
  show (do
    let tau ← boundaryStep (Vec.embed (coords (o + w))) (Vec.embed (coords d)) (real Δ)
    Vec.addMultiple (Vec.embed (coords w)) tau (Vec.embed (coords d))) = _
  rw [boundaryStep_embed]
  exact addMultiple_embed d w _

/-- An iteration from a real state is a round. -/
theorem advance_embed (hop : op.Applies H K) (hr : r ≠ 0) (k : Nat) :
    Succeeds K (advance ⟨op, Vec.embed (coords o), real Δ, real tol⟩ k (State.at w r d).embed)
      fun out t => K t ∧ ∃ out', out = Sum.map Solution.embed State.embed out' ∧
        Round o Δ tol k w r d (H d) out' := by
  have hrr : ‖r‖ ^ 2 ≠ 0 := by positivity
  unfold advance
  refine Settles.bind (hop d) fun v => Settles.assume ?_
  rintro rfl
  rw [prolong_embed]
  simp only [State.embed, State.at_step, State.at_direction, State.at_residual,
    State.at_residualSquared, dot_embed, liftM_ok, pure_bind, real_zero, real_lt,
    sqrt_norm_sq_embed]
  split
  · next curved =>
      simp only [real_div curved.ne', along_embed, add_embed, norm_embed, liftM_ok, pure_bind,
        real_le]
      split
      · next leaves =>
          exact Settles.bind Settles.emit fun _ => Settles.pure fun t ht =>
            ⟨ht, _, rfl, .boundary curved leaves⟩
      · next stays =>
          have hnegate : -real (‖r‖ ^ 2 / ⟪d, H d⟫) = real (-fullStep r d (H d)) := rfl
          simp only [hnegate, addMultiple_embed, neg_smul, ← sub_eq_add_neg, liftM_ok, pure_bind,
            normSquared_embed, sqrt_norm_sq_embed, real_div hrr, along_embed, real_le]
          split
          · next small =>
              exact Settles.pure fun t ht =>
                ⟨ht, _, rfl, .interior curved (not_le.mp stays) small⟩
          · next large =>
              exact Settles.pure fun t ht =>
                ⟨ht, _, rfl, .next curved (not_le.mp stays) (not_le.mp large)⟩
  · next curved =>
      exact Settles.bind Settles.emit fun _ => Settles.pure fun t ht =>
        ⟨ht, _, rfl, .negative (not_lt.mp curved)⟩

omit [RealConstants] in
/-- A round ends with one of the kinds of the recurrence. -/
theorem Round.kind_ne {k : Nat} {h : Point n} {sol : Solution ℝ}
    (hround : Round o Δ tol k w r d h (.inl sol)) : sol.kind ≠ .lineSearch := by
  cases hround <;> exact nofun

/-- What is asked of the end of a run: a real step that no point of the steepest-descent ray inside
the ball is better than. -/
def Ends (H : Point n →ₗ[ℝ] Point n) (g o : Point n) (Δ : ℝ) (sol : Solution Extended) : Prop :=
  sol.kind ≠ .lineSearch ∧
    ∃ w, sol.step = Vec.embed (coords w) ∧ BeatsSteepestDescent H g o Δ w

/-- After the first round every further one improves on the step so far. -/
theorem iterate_ends (hH : H.IsSymmetric) (hop : op.Applies H K) (ho : ‖o‖ ≤ Δ) (htol : 0 ≤ tol)
    (remaining k : Nat) (hInv : Leading H g o Δ w r d) :
    Succeeds K (iterate ⟨op, Vec.embed (coords o), real Δ, real tol⟩ remaining k
      (State.at w r d).embed) fun sol t => K t ∧ Ends H g o Δ sol := by
  induction remaining generalizing k w r d with
  | zero => exact Settles.pure fun t ht => ⟨ht, nofun, w, rfl, hInv.beats⟩
  | succ remaining ih =>
      refine Settles.bind (advance_embed hop hInv.residual_ne (k + 1)) ?_
      rintro out
      refine Settles.assume ?_
      rintro ⟨sol | c, rfl, hround⟩
      · obtain ⟨w', hstep, hbest⟩ := hInv.stop hH ho hround
        refine Settles.pure fun t ht => ⟨ht, hround.kind_ne, w', congrArg Vec.embed hstep, ?_⟩
        exact hInv.beats.mono (hbest.le_start (hInv.norm_le ho))
      · obtain ⟨w', r', d', rfl, hInv', hbest⟩ := hInv.next hH htol hround
        exact ih (k + 1) ⟨hInv', hInv.beats.mono (hbest.le_start (hInv.norm_le ho))⟩

/-- A solve from a gradient that is not zero is a run of at least one iteration. -/
theorem solveFrom_embed (config : Config Extended) (hg : g ≠ 0) (rtol : ℝ) :
    solveFrom config op (Vec.embed (coords g)) (real Δ) (Vec.embed (coords o)) (real rtol)
      = iterate ⟨op, Vec.embed (coords o), real Δ, real (rtol * ‖g‖)⟩
          (max (config.maxIterations.getD n) 1) 0 (State.at 0 (-g) (-g)).embed := by
  have hgg : ‖-g‖ ^ 2 ≠ 0 := by
    rw [norm_neg]
    positivity
  have hsquared : (State.at 0 (-g) (-g)).embed.residualSquared = real (‖-g‖ ^ 2) := rfl
  unfold solveFrom
  dsimp only
  rw [initial_embed, hsquared, sqrt_norm_sq_embed, real_mul, norm_neg, length_embed, length_coords]
  exact if_neg (by simpa using hgg)

/-- A solve of one iteration takes the full step of steepest descent if that stays inside. -/
theorem solveFrom_once {config : Config Extended} (hmost : config.maxIterations = some 1)
    (hop : op.Applies H K) (hg : g ≠ 0) (rtol : ℝ) (curved : 0 < ⟪g, H g⟫)
    (stays : ‖o + fullStep g g (H g) • (-g)‖ < Δ) :
    Succeeds K (solveFrom config op (Vec.embed (coords g)) (real Δ) (Vec.embed (coords o))
      (real rtol)) fun sol t =>
        K t ∧ sol.step = Vec.embed (coords (fullStep g g (H g) • (-g))) := by
  have hstep : (0 : Point n) + fullStep (-g) (-g) (H (-g)) • (-g) = fullStep g g (H g) • (-g) := by
    rw [zero_add, fullStep, norm_neg, map_neg, inner_neg_neg, fullStep]
  have hcurvature : ⟪-g, H (-g)⟫ = ⟪g, H g⟫ := by rw [map_neg, inner_neg_neg]
  rw [solveFrom_embed config hg rtol, hmost]
  refine Settles.bind (advance_embed hop (neg_ne_zero.mpr hg) 1) fun out => Settles.assume ?_
  rintro ⟨out, rfl, hround⟩
  cases hround with
  | negative flat => exact absurd (hcurvature ▸ flat) (not_le.mpr curved)
  | boundary _ leaves => exact absurd (hstep ▸ leaves) (not_le.mpr stays)
  | interior => exact Settles.pure fun t ht => ⟨ht, congrArg (Vec.embed ∘ coords) hstep⟩
  | next => exact Settles.pure fun t ht => ⟨ht, congrArg (Vec.embed ∘ coords) hstep⟩

/-- From a gradient that does not vanish the solve ends with a real step that lowers the model. -/
theorem solveFrom_falls (config : Config Extended) (hH : H.IsSymmetric) (hop : op.Applies H K)
    (hg : g ≠ 0) (hΔ : 0 < Δ) {rtol : ℝ} (hrtol : 0 ≤ rtol) :
    Succeeds K (solveFrom config op (Vec.embed (coords g)) (real Δ) (zeros n) (real rtol))
      fun sol t => K t ∧ sol.kind ≠ .lineSearch ∧
        ∃ w : Point n, sol.step = Vec.embed (coords w) ∧ modelValue H g w < 0 := by
  have ho : ‖(0 : Point n)‖ < Δ := by simpa using hΔ
  have htol : 0 ≤ rtol * ‖g‖ := mul_nonneg hrtol (norm_nonneg g)
  have hInv : Consistent H g 0 Δ 0 (-g) (-g) := consistent_initial hg
  -- what beats steepest descent lowers the model
  have hfalls : ∀ sol : Solution Extended, Ends H g 0 Δ sol → sol.kind ≠ .lineSearch ∧
      ∃ w : Point n, sol.step = Vec.embed (coords w) ∧ modelValue H g w < 0 := by
    rintro sol ⟨hkind, w, hstep, hw⟩
    obtain ⟨t, ht, hin, hlow⟩ := exists_steepest_descent H hg ho
    exact ⟨hkind, w, hstep, (hw t ht hin).trans_lt hlow⟩
  refine Settles.mono (Q := fun sol t => K t ∧ Ends H g 0 Δ sol) ?_ (fun _ h => h)
    (fun sol t h => ⟨h.1, hfalls sol h.2⟩) (fun _ _ h => h) fun _ h => h
  obtain ⟨m, hm⟩ : ∃ m, max (config.maxIterations.getD n) 1 = m + 1 :=
    ⟨_, (Nat.sub_add_cancel (le_max_right _ _)).symm⟩
  rw [zeros_embed, solveFrom_embed config hg, hm]
  -- the first round is taken out of the run: only after it the step beats steepest descent
  refine Settles.bind (advance_embed hop hInv.residual_ne 1) fun out => Settles.assume ?_
  rintro ⟨sol | c, rfl, hround⟩
  · obtain ⟨w, hstep, hbest⟩ := hInv.stop hH ho.le hround
    exact Settles.pure fun t ht =>
      ⟨ht, hround.kind_ne, w, congrArg Vec.embed hstep, hbest.beatsSteepestDescent⟩
  · obtain ⟨w, r, d, rfl, hInv', hbest⟩ := hInv.next hH htol hround
    exact iterate_ends hH hop ho.le htol m 1 ⟨hInv', hbest.beatsSteepestDescent⟩

end TruncatedCg

end Descent
