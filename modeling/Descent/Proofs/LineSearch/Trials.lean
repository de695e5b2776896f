import Descent.LineSearch
import Descent.Proofs.Outcome

/-!
# Searches trial by trial

A line search repeats one trial: backtracking shortens the step (`Ray.shorten`), bracketing narrows
the bracket (`Ray.narrow`). What every trial keeps holds where the search ends; `backtrack_settles`
and `bracket_settles` are the rules for that, so that a statement about all searches is one about a
single trial.
-/

set_option autoImplicit false

namespace Descent.LineSearch

open Run

variable {α σ : Type} [Scalar α]

/-! ## One trial -/

def isFinitePair (v : α × Vec α) : Bool := Scalar.isFinite v.1 && Vec.allFinite v.2

namespace Ray

/-- Trial number `k + 1` of backtracking, at step length `a`: a step to return, or the next one to
try. -/
def shorten (r : Ray α σ) (k : Nat) (a : α) (failures : Failures) :
    Search σ (Found α ⊕ α × Failures) := do
  let point ← r.pointAt a
  match ← Evaluation.usable (r.model.objective point) Scalar.isFinite "objective" with
  | .error reason =>
    let failures ← failures.record r.params.maxEvaluationFailures reason
    return .inr (a * r.params.rho, failures)
  | .ok value =>
    if value ≤ r.armijoBound a then
      match ← Evaluation.usable (r.model.gradient point) Vec.allFinite "gradient" with
      | .ok gradient =>
        return .inl ⟨a, point, value, gradient, k + 1, failures.interrupted.total⟩
      | .error reason =>
        let failures ← failures.interrupted.record r.params.maxEvaluationFailures reason
        return .inr (a * r.params.rho, failures)
    else return .inr (r.interpolated a value, failures.interrupted)

/-- Trial number `k + 1` of bracketing, at the step of the bracket: a step to return, or the
narrowed bracket. -/
def narrow (r : Ray α σ) (k : Nat) (b : Bracket α) : Search σ (Found α ⊕ Bracket α) := do
  let point ← r.pointAt b.step
  match ← Evaluation.usable (r.model.objectiveAndGradient point) isFinitePair
      "objective or gradient" with
  | .ok (value, gradient) =>
    r.judge (k + 1) { b with failures := b.failures.interrupted } point value gradient
  | .error reason => do
    let failures ← b.failures.record r.params.maxEvaluationFailures reason
    return .inr { b.closed with failures }

/-- Backtracking makes a trial unless the step is too short. -/
theorem backtrack_succ (r : Ray α σ) (remaining k : Nat) (a : α) (failures : Failures) :
    r.backtrack (remaining + 1) k a failures =
      if a < r.params.minStepSize then throw (r.failure "step length below minimum" k a)
      else (do
        match ← r.shorten k a failures with
        | .inl found => return found
        | .inr (step, failures) => r.backtrack remaining (k + 1) step failures) := by
  rw [backtrack]
  split
  · rfl
  · simp only [shorten, bind_assoc]
    refine bind_congr fun point => bind_congr fun value => ?_
    rcases value with reason | value
    · simp only [bind_assoc, pure_bind]
    · dsimp only
      split
      · simp only [bind_assoc]
        refine bind_congr fun gradient => ?_
        rcases gradient with reason | gradient
        · simp only [bind_assoc, pure_bind]
        · simp only [pure_bind]
      · simp only [pure_bind]

/-- Bracketing makes a trial unless the step is too short, and ends after one if there is no step
to try next. -/
theorem bracket_succ (r : Ray α σ) (remaining k : Nat) (b : Bracket α) :
    r.bracket (remaining + 1) k b =
      if b.step < r.params.minStepSize then return .inr b
      else do
        match ← r.narrow k b with
        | .inl found => return .inl found
        | .inr b =>
          match r.nextStep b with
          | some step => r.bracket remaining (k + 1) { b with step }
          | none => return .inr b := by
  rw [bracket]
  split
  · rfl
  · simp only [narrow, bind_assoc]
    refine bind_congr fun point => bind_congr fun both => ?_
    rcases both with reason | ⟨value, gradient⟩
    · exact (bind_assoc (b.failures.record r.params.maxEvaluationFailures reason) _ _).symm
    · rfl

/-! ## All trials -/

section Rules

variable {r : Ray α σ} {E : SolverError → σ → Prop} {F : σ → Prop} {last : Nat}

/-- What every trial of backtracking keeps holds where the trials are used up and where the step is
too short. -/
theorem backtrack_settles {I : Nat → α → Failures → σ → Prop} {Q : Found α → σ → Prop}
    (hbudget : ∀ a f s, I last a f s →
      E (r.failure "trial budget exhausted without sufficient decrease" r.params.maxTrials a) s)
    (hshort : ∀ k a f s, k < last → a < r.params.minStepSize → I k a f s →
      E (r.failure "step length below minimum" k a) s)
    (htrial : ∀ k a f, k < last → ¬ a < r.params.minStepSize →
      Settles (I k a f) (r.shorten k a f) (fun out s => match out with
        | .inl found => Q found s
        | .inr (step, f) => I (k + 1) step f s) E F)
    {remaining k : Nat} (hlast : k + remaining = last) (a : α) (f : Failures) :
    Settles (I k a f) (r.backtrack remaining k a f) Q E F := by
  induction remaining generalizing k a f with
  | zero =>
      obtain rfl : k = last := hlast
      exact Settles.throw (hbudget a f)
  | succ remaining ih =>
      have hk : k < last := by omega
      rw [backtrack_succ]
      refine Settles.ite (fun h => Settles.throw fun s => hshort k a f s hk h) fun h => ?_
      refine Settles.bind (htrial k a f hk h) ?_
      rintro (found | ⟨step, f'⟩)
      · exact Settles.pure fun _ hs => hs
      · exact ih (by omega) step f'

/-- What every trial of bracketing keeps holds of the bracket that is left, whether the trials are
used up, the step is too short or there is no next one. -/
theorem bracket_settles {I : Nat → Bracket α → σ → Prop} {Q : Found α ⊕ Bracket α → σ → Prop}
    (hbudget : ∀ b s, I last b s → Q (.inr b) s)
    (hshort : ∀ k b s, k < last → b.step < r.params.minStepSize → I k b s → Q (.inr b) s)
    (htrial : ∀ k b, k < last → ¬ b.step < r.params.minStepSize →
      Settles (I k b) (r.narrow k b) (fun out s => match out with
        | .inl found => Q (.inl found) s
        | .inr b => match r.nextStep b with
          | some step => I (k + 1) { b with step } s
          | none => Q (.inr b) s) E F)
    {remaining k : Nat} (hlast : k + remaining = last) (b : Bracket α) :
    Settles (I k b) (r.bracket remaining k b) Q E F := by
  induction remaining generalizing k b with
  | zero =>
      obtain rfl : k = last := hlast
      exact Settles.pure (hbudget b)
  | succ remaining ih =>
      have hk : k < last := by omega
      rw [bracket_succ]
      refine Settles.ite (fun h => Settles.pure fun s => hshort k b s hk h) fun h => ?_
      refine Settles.bind (htrial k b hk h) ?_
      rintro (found | b')
      · exact Settles.pure fun _ hs => hs
      · dsimp only
        cases r.nextStep b' with
        | none => exact Settles.pure fun _ hs => hs
        | some step => exact ih (by omega) _

end Rules

end Ray

end Descent.LineSearch
