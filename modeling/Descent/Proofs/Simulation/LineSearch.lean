import Descent.LineSearch
import Descent.Proofs.Simulation.Model

/-!
# Line searches side by side

A line search asks its model for the objective and the gradient only. Along the same direction from
the same point it goes alike on two models that answer alike (`LineSearch.run_agrees`).
-/

set_option autoImplicit false

namespace Descent.LineSearch

open Run

variable {α σ τ : Type} [Scalar α] {J : Journals} {V : τ → σ → Prop} {m' : Model α τ}
  {m : Model α σ}

omit [Scalar α] in
theorem Failures.record_agrees (f : Failures) (cap : Nat) (reason : String) :
    Agrees J V (f.record cap reason : Search τ Failures) (f.record cap reason) := by
  refine .bind .emit fun _ => ?_
  exact .ite (fun _ => .throw_bind) fun _ => .pure

section Ray

variable (params : LineSearchParams α) (x : Vec α) (f₀ : α) (d : Vec α) (slope : α)

/-- The same search on each of the models: trial by trial the same steps are tried. -/
theorem Ray.backtrack_agrees (hm : m'.AnswersAlike J V m) (remaining k : Nat) (a : α)
    (failures : Failures) :
    Agrees J V (Ray.backtrack ⟨params, m', x, f₀, d, slope⟩ remaining k a failures)
      (Ray.backtrack ⟨params, m, x, f₀, d, slope⟩ remaining k a failures) := by
  induction remaining generalizing k a failures with
  | zero => exact .throw
  | succ remaining ih =>
      unfold Ray.backtrack
      refine .ite (fun _ => .throw_bind) fun _ => ?_
      refine .bind .checked fun point => ?_
      refine .bind (Evaluation.usable_agrees (hm.objective point) _ _) ?_
      rintro (reason | value)
      · exact .bind (failures.record_agrees _ _) fun _ => ih _ _ _
      · refine .ite (fun _ => ?_) fun _ => ih _ _ _
        -- the gradient is asked for only where the decrease suffices
        refine .bind (Evaluation.usable_agrees (hm.gradient point) _ _) ?_
        rintro (reason | gradient)
        · exact .bind (failures.interrupted.record_agrees _ _) fun _ => ih _ _ _
        · exact .pure

theorem Ray.bracket_agrees (hm : m'.AnswersAlike J V m) (remaining k : Nat) (b : Ray.Bracket α) :
    Agrees J V (Ray.bracket ⟨params, m', x, f₀, d, slope⟩ remaining k b)
      (Ray.bracket ⟨params, m, x, f₀, d, slope⟩ remaining k b) := by
  induction remaining generalizing k b with
  | zero => exact .pure
  | succ remaining ih =>
      unfold Ray.bracket
      refine .ite (fun _ => .pure) fun _ => ?_
      refine .bind .checked fun point => ?_
      refine .bind (Evaluation.usable_agrees (hm.objectiveAndGradient point) _ _) fun answer => ?_
      -- the step to try next depends on the bracket, not on the model
      have hstep : ∀ b, Ray.nextStep ⟨params, m', x, f₀, d, slope⟩ b
          = Ray.nextStep ⟨params, m, x, f₀, d, slope⟩ b := fun _ => rfl
      rcases answer with reason | ⟨value, gradient⟩
      case' error => refine .bind (b.failures.record_agrees _ _) fun _ => .bind .pure ?_
      case' ok => refine .bind .checked ?_
      -- a point of either kind is judged, and the search goes on in the same way
      all_goals
        rintro (found | next)
        · exact .pure
        · dsimp only
          rw [hstep next]
          cases Ray.nextStep ⟨params, m, x, f₀, d, slope⟩ next with
          | none => exact .pure
          | some step => exact ih _ _

end Ray

theorem run_agrees (search : LineSearch α) (hm : m'.AnswersAlike J V m) (x : Vec α) (f₀ : α)
    (g₀ d : Vec α) (initialStep : α) :
    Agrees J V (search.run m' x f₀ g₀ d initialStep) (search.run m x f₀ g₀ d initialStep) := by
  have hslope : Agrees J V (descentSlope g₀ d f₀ : Search τ α) (descentSlope g₀ d f₀) :=
    .bind .checked fun _ => .ite (fun _ => .pure) fun _ => .throw
  refine .bind hslope fun slope => ?_
  cases search with
  | backtracking params => exact Ray.backtrack_agrees params x f₀ d slope hm _ _ _ _
  | wolfe params =>
      refine .bind (Ray.bracket_agrees params x f₀ d slope hm _ _ _) ?_
      rintro (found | b)
      · exact .pure
      · dsimp only
        cases b.fallback with
        | none => exact .throw
        | some found => exact .bind .emit fun _ => .pure

end Descent.LineSearch
