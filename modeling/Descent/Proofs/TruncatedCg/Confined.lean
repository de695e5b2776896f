import Descent.Proofs.Extended.Operators
import Descent.Proofs.TruncatedCg.Embedded

/-!
# Truncated conjugate gradients within a subspace

For an operator that maps a subspace into itself, truncated conjugate gradients from a gradient in
the subspace never leave it, nor the ball if the offset lies inside (`solveFrom_confined`). The
operator need not be linear and the tolerance may be any number, a NaN included: divisors are not
zero as long as a residual that has vanished leaves no direction (`Confined`).
-/

set_option autoImplicit false

open scoped RealInnerProductSpace

namespace Descent.TruncatedCg

open Run Extended Vec

variable {σ : Type} {n : Nat} {S : Submodule ℝ (Point n)} {g o w r d : Point n} {Δ : ℝ}

/-- A step within the subspace that stays inside the ball around `-o` if the ball contains 0. -/
structure Reaches (S : Submodule ℝ (Point n)) (o : Point n) (Δ : ℝ) (w : Point n) : Prop where
  mem : w ∈ S
  inside : ‖o‖ ≤ Δ → ‖o + w‖ ≤ Δ

/-- What the states of the recurrence have in common. -/
structure Confined (S : Submodule ℝ (Point n)) (o : Point n) (Δ : ℝ) (w r d : Point n) : Prop where
  step : Reaches S o Δ w
  residual : r ∈ S
  direction : d ∈ S
  vanishes : r = 0 → d = 0

theorem reaches_zero : Reaches S o Δ 0 := ⟨S.zero_mem, fun ho => by rwa [add_zero]⟩

theorem confined_initial (hg : g ∈ S) : Confined S o Δ 0 (-g) (-g) where
  step := reaches_zero
  residual := S.neg_mem hg
  direction := S.neg_mem hg
  vanishes := id

/-- A step prolonged up to the boundary. -/
theorem Confined.prolonged (h : Confined S o Δ w r d) :
    Reaches S o Δ (w + exitStep (o + w) d Δ • d) where
  mem := S.add_mem h.step.mem (S.smul_mem _ h.direction)
  inside := by
    intro ho
    rw [← add_assoc]
    exact norm_add_exitStep_le (h.step.inside ho)

variable [RealConstants] {op : Operator Extended σ} {H : Point n → Point n} {K F : σ → Prop}
  {tol : Extended}

/-- An iteration keeps to the subspace. -/
theorem advance_confined (hop : op.Multiplies H K F) (hS : ∀ v ∈ S, H v ∈ S)
    (h : Confined S o Δ w r d) (k : Nat) :
    Attempt K (advance ⟨op, Vec.embed (coords o), real Δ, tol⟩ k (State.at w r d).embed)
      (fun out t => K t ∧ match out with
        | .inl sol => ∃ w', sol.step = Vec.embed (coords w') ∧ Reaches S o Δ w'
        | .inr c => ∃ w' r' d', c = (State.at w' r' d').embed ∧ Confined S o Δ w' r' d') F := by
  have hHd : H d ∈ S := hS d h.direction
  unfold advance
  refine Attempt.bind (hop d) fun v => Attempt.assume ?_
  rintro rfl
  rw [prolong_embed]
  simp only [State.embed, State.at_step, State.at_direction, State.at_residual,
    State.at_residualSquared, dot_embed, liftM_ok, pure_bind, real_zero, real_lt,
    sqrt_norm_sq_embed]
  split
  · next curved =>
      simp only [real_div curved.ne', along_embed, add_embed, norm_embed, liftM_ok, pure_bind,
        real_le]
      split
      · exact Attempt.bind Attempt.emit fun _ => Attempt.pure fun t ht =>
          ⟨ht, _, rfl, h.prolonged⟩
      · next stays =>
          -- a direction with a curvature has not vanished, and so has not the residual
          have hd : d ≠ 0 := by
            rintro rfl
            rw [inner_zero_left] at curved
            exact lt_irrefl _ curved
          have hrr : ‖r‖ ^ 2 ≠ 0 := by
            have hr : r ≠ 0 := mt h.vanishes hd
            positivity
          have hstep : Reaches S o Δ (w + (‖r‖ ^ 2 / ⟪d, H d⟫) • d) :=
            ⟨S.add_mem h.step.mem (S.smul_mem _ h.direction), fun _ => (not_le.mp stays).le⟩
          have hresidual : r + (-(‖r‖ ^ 2 / ⟪d, H d⟫)) • H d ∈ S :=
            S.add_mem h.residual (S.smul_mem _ hHd)
          have hnegate : -real (‖r‖ ^ 2 / ⟪d, H d⟫) = real (-(‖r‖ ^ 2 / ⟪d, H d⟫)) := rfl
          simp only [hnegate, addMultiple_embed, liftM_ok, pure_bind, normSquared_embed,
            sqrt_norm_sq_embed, real_div hrr, along_embed]
          split
          · exact Attempt.pure fun t ht => ⟨ht, _, rfl, hstep⟩
          · refine Attempt.pure fun t ht => ⟨ht, _, _, _, rfl, hstep, hresidual,
              S.add_mem hresidual (S.smul_mem _ h.direction), fun hzero => ?_⟩
            rw [hzero, norm_zero, zero_pow two_ne_zero, zero_div, zero_smul, add_zero]
  · exact Attempt.bind Attempt.emit fun _ => Attempt.pure fun t ht => ⟨ht, _, rfl, h.prolonged⟩

theorem iterate_confined (hop : op.Multiplies H K F) (hS : ∀ v ∈ S, H v ∈ S)
    (h : Confined S o Δ w r d) (remaining k : Nat) :
    Attempt K (iterate ⟨op, Vec.embed (coords o), real Δ, tol⟩ remaining k (State.at w r d).embed)
      (fun sol t => K t ∧ ∃ w', sol.step = Vec.embed (coords w') ∧ Reaches S o Δ w') F := by
  induction remaining generalizing k w r d with
  | zero => exact Attempt.pure fun t ht => ⟨ht, w, rfl, h.step⟩
  | succ remaining ih =>
      refine Attempt.bind (advance_confined hop hS h (k + 1)) ?_
      rintro (sol | c)
      · exact Attempt.pure fun t ht => ht
      · refine Attempt.assume ?_
        rintro ⟨w', r', d', rfl, h'⟩
        exact ih h' (k + 1)

/-- **A solve from a gradient in the subspace ends with a step there**, inside the ball if the
offset is. -/
theorem solveFrom_confined (config : Config Extended) (hop : op.Multiplies H K F)
    (hS : ∀ v ∈ S, H v ∈ S) (hg : g ∈ S) (o : Point n) (Δ : ℝ) (rtol : Extended) :
    Attempt K (solveFrom config op (Vec.embed (coords g)) (real Δ) (Vec.embed (coords o)) rtol)
      (fun sol t => K t ∧ ∃ w, sol.step = Vec.embed (coords w) ∧ Reaches S o Δ w) F := by
  unfold solveFrom
  dsimp only
  rw [initial_embed]
  split
  · exact Attempt.pure fun t ht => ⟨ht, 0, rfl, reaches_zero⟩
  · exact iterate_confined hop hS (confined_initial hg) _ _

end Descent.TruncatedCg
