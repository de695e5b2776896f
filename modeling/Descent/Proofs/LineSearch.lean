import Descent.LineSearch
import Descent.Proofs.Evaluated

/-!
# What line searches settle on

A line search from `x` along `d` ends at a point `x + a d` at which the model has answered with
finite values (`Ray.Lands`), where `a` is at least the shortest step. Backtracking has sufficient
decrease there (`backtrack_gives`), and so has every step that bracketing returns or keeps for the
end of its budget (`bracket_gives`), in the form in which each compares: `value ≤ bound` and
`¬ bound < value`. Both rules carry a predicate `P` on the step lengths that the way from one trial
to the next keeps.

A search never ends in stagnation, and a run of failed evaluations that ends it is one longer than
allowed (`SolverError.EndsSearch`).
-/

set_option autoImplicit false

namespace Descent

open Run

namespace SolverError

/-- What is known of the counts in an error: of the rejected steps in a row, and of the failed
evaluations in a row. -/
def Counts (Rejections Failures : Nat → Prop) : SolverError → Prop
  | .stagnation n _ => Rejections n
  | .evaluationFailures n _ => Failures n
  | _ => True

theorem Counts.mono {P P' Q Q' : Nat → Prop} {e : SolverError} (h : e.Counts P Q)
    (hP : ∀ n, P n → P' n) (hQ : ∀ n, Q n → Q' n) : e.Counts P' Q' := by
  cases e with
  | stagnation n => exact hP n h
  | evaluationFailures n => exact hQ n h
  | _ => trivial

abbrev Uncounted : SolverError → Prop := Counts (fun _ => False) fun _ => False

/-- The error ends a line search that allows for `cap` failed evaluations in a row. -/
abbrev EndsSearch (cap : Nat) : SolverError → Prop := Counts (fun _ => False) (· = cap + 1)

/-- An error that is not the search's own. -/
theorem EndsSearch.uncounted {cap : Nat} {e : SolverError} (h : e.EndsSearch cap)
    (hown : e.isLineSearchFailure = false) : e.Uncounted := by
  cases e with
  | stagnation n => exact h
  | evaluationFailures n => cases hown
  | _ => trivial

end SolverError

namespace LineSearch

variable {α σ : Type} [Scalar α]

/-- A failed evaluation is the last one that is allowed at most, or ends the search as the first
one that is not. -/
theorem Failures.record_gives {f : Failures} {cap : Nat} (hf : f.run ≤ cap) (reason : String) :
    Gives (f.record cap reason : Search σ Failures) (fun f' => f'.run ≤ cap)
      (SolverError.EndsSearch cap) := by
  refine Gives.bind Gives.emit fun _ _ => ?_
  dsimp only
  split
  · next hcap =>
      have hcount : f.run + 1 = cap + 1 := by omega
      exact Gives.throw hcount
  · next hcap => exact Gives.pure (Nat.not_lt.mp hcap)

/-- The evaluations of a search fail with errors of the model only. -/
theorem usable_counts {β : Type} {cap : Nat} (e : Evaluation σ β) (isFinite : β → Bool)
    (what : String) : Gives (Evaluation.usable e isFinite what)
      (fun r => ∀ b, r = .ok b → Returns e b ∧ isFinite b = true)
      (SolverError.EndsSearch cap) := by
  refine Gives.mono (Evaluation.usable_gives e isFinite what) (fun _ h => h) ?_
  rintro _ ⟨inner, rfl⟩
  trivial

namespace Ray

/-- The step is one of the ray, not too short, and the model has answered at its end. -/
structure Lands (r : Ray α σ) (found : Found α) : Prop where
  point : r.pointAt found.stepSize = .ok found.point
  long : ¬ found.stepSize < r.params.minStepSize
  evaluated : r.model.Evaluated found.point found.value found.gradient

variable {r : Ray α σ} {P : α → Prop}

/-! ## Backtracking -/

/-- What backtracking returns has sufficient decrease. -/
theorem backtrack_gives (hrho : ∀ a, P a → P (a * r.params.rho))
    (hinterpolated : ∀ a f, P a → P (r.interpolated a f)) (remaining k : Nat) {a : α}
    {failures : Failures} (ha : P a) (hfailures : failures.run ≤ r.params.maxEvaluationFailures) :
    Gives (r.backtrack remaining k a failures)
      (fun found => r.Lands found ∧ P found.stepSize ∧ found.value ≤ r.armijoBound found.stepSize)
      (SolverError.EndsSearch r.params.maxEvaluationFailures) := by
  induction remaining generalizing k a failures with
  | zero => exact Gives.throw trivial
  | succ remaining ih =>
      unfold backtrack
      split
      · exact Gives.bind (P := fun _ => False) (Gives.throw trivial) fun _ h => h.elim
      · next hlong =>
          -- a point without a value shortens the step by the factor
          have hagain : ∀ {failures : Failures} (reason : String),
              failures.run ≤ r.params.maxEvaluationFailures →
              Gives (do
                let failures ← failures.record r.params.maxEvaluationFailures reason
                r.backtrack remaining (k + 1) (a * r.params.rho) failures)
                (fun found => r.Lands found ∧ P found.stepSize ∧
                  found.value ≤ r.armijoBound found.stepSize)
                (SolverError.EndsSearch r.params.maxEvaluationFailures) :=
            fun reason hf => Gives.bind (Failures.record_gives hf reason) fun _ h =>
              ih (k + 1) (hrho a ha) h
          refine Gives.bind (Gives.checked fun _ h => h) fun point hpoint => ?_
          refine Gives.bind (usable_counts _ _ _) ?_
          rintro (reason | value) hvalue
          · exact hagain reason hfailures
          · dsimp only
            split
            · next hdecrease =>
                refine Gives.bind (usable_counts _ _ _) ?_
                rintro (reason | gradient) hgradient
                · exact hagain reason (Nat.zero_le _)
                · obtain ⟨hreturns, hfinite⟩ := hvalue value rfl
                  obtain ⟨hreturns', hfinite'⟩ := hgradient gradient rfl
                  exact Gives.pure ⟨⟨hpoint, hlong, .inl hreturns, .inl hreturns', hfinite,
                    hfinite'⟩, ha, hdecrease⟩
            · exact ih (k + 1) (hinterpolated a value ha) (Nat.zero_le _)

/-! ## Bracketing -/

/-- A step to return, or to keep for the end of the budget. -/
structure Suits (r : Ray α σ) (P : α → Prop) (found : Found α) : Prop extends r.Lands found where
  allowed : P found.stepSize
  decrease : ¬ r.armijoBound found.stepSize < found.value

/-- The state of the search between two trials. -/
structure Bracketed (r : Ray α σ) (P : α → Prop) (b : Bracket α) : Prop where
  lower : P b.lower
  upper : ∀ u, b.upper = some u → Scalar.isFinite u = true
  step : P b.step
  failures : b.failures.run ≤ r.params.maxEvaluationFailures
  fallback : ∀ found, b.fallback = some found → r.Suits P found

theorem Bracketed.closed {b : Bracket α} (h : r.Bracketed P b) : r.Bracketed P b.closed where
  lower := h.lower
  upper u hu := by
    unfold Bracket.closed at hu
    dsimp only at hu
    split at hu
    · next hfinite =>
        cases hu
        exact hfinite
    · cases hu
  step := h.step
  failures := h.failures
  fallback := h.fallback

/-- Another count of failures. -/
theorem Bracketed.count {b : Bracket α} (h : r.Bracketed P b) {failures : Failures}
    (hf : failures.run ≤ r.params.maxEvaluationFailures) :
    r.Bracketed P { b with failures } where
  lower := h.lower
  upper := h.upper
  step := h.step
  failures := hf
  fallback := h.fallback

/-- A step that suits, or a bracket with the invariant. -/
def Judged (r : Ray α σ) (P : α → Prop) : Found α ⊕ Bracket α → Prop
  | .inl found => r.Suits P found
  | .inr b => r.Bracketed P b

theorem judge_judged {b : Bracket α} (hb : r.Bracketed P b) (k : Nat) {point : Vec α} {value : α}
    {gradient : Vec α} (hpoint : r.pointAt b.step = .ok point)
    (hlong : ¬ b.step < r.params.minStepSize) (hevaluated : r.model.Evaluated point value gradient)
    {judged : Found α ⊕ Bracket α} (h : r.judge k b point value gradient = .ok judged) :
    r.Judged P judged := by
  unfold judge at h
  split at h
  · cases h
    exact hb.closed
  · next hdecrease =>
      have hsuits : r.Suits P ⟨b.step, point, value, gradient, k, b.failures.total⟩ :=
        ⟨⟨hpoint, hlong, hevaluated⟩, hb.step, hdecrease⟩
      obtain ⟨slope, -, h⟩ := exists_of_bind_ok h
      dsimp only at h
      split at h
      · cases h
        exact ⟨hb.step, hb.upper, hb.step, hb.failures, fun _ hf => by cases hf; exact hsuits⟩
      · split at h
        · cases h
          exact ⟨hb.lower, hb.closed.upper, hb.step, hb.failures,
            fun _ hf => by cases hf; exact hsuits⟩
        · cases h
          exact hsuits

/-- The next step keeps the predicate. -/
theorem Bracketed.next {b : Bracket α} (hb : r.Bracketed P b)
    (hmiddle : ∀ lower upper, P lower → Scalar.isFinite upper = true →
      P ((lower + upper) * 0.5))
    (hdouble : ∀ a, P a → P (Scalar.minNum (2.0 * a) r.params.maxStepSize)) {step : α}
    (h : r.nextStep b = some step) : r.Bracketed P { b with step } where
  lower := hb.lower
  upper := hb.upper
  step := by
    unfold nextStep at h
    split at h
    · next upper hupper =>
        cases h
        exact hmiddle _ _ hb.lower (hb.upper upper hupper)
    · split at h
      · cases h
      · cases h
        exact hdouble _ hb.step
  failures := hb.failures
  fallback := hb.fallback

/-- What bracketing returns suits, and the bracket that is left keeps a step that does, if any. -/
theorem bracket_gives
    (hmiddle : ∀ lower upper, P lower → Scalar.isFinite upper = true →
      P ((lower + upper) * 0.5))
    (hdouble : ∀ a, P a → P (Scalar.minNum (2.0 * a) r.params.maxStepSize))
    (remaining k : Nat) {b : Bracket α} (hb : r.Bracketed P b) :
    Gives (r.bracket remaining k b) (r.Judged P)
      (SolverError.EndsSearch r.params.maxEvaluationFailures) := by
  induction remaining generalizing k b with
  | zero => exact Gives.pure hb
  | succ remaining ih =>
      unfold bracket
      split
      · exact Gives.pure hb
      · next hlong =>
          refine Gives.bind (Gives.checked fun _ h => h) fun point hpoint => ?_
          refine Gives.bind (usable_counts _ _ _) ?_
          rintro (reason | ⟨value, gradient⟩) hboth
          case' error =>
            refine Gives.bind (Failures.record_gives hb.failures reason) fun failures hf => ?_
            have hcounted : r.Judged P (.inr { b.closed with failures }) := hb.closed.count hf
            refine Gives.bind (Gives.pure hcounted) fun judged hjudged => ?_
          case' ok =>
            obtain ⟨hreturns, hfinite⟩ := hboth _ rfl
            rw [Bool.and_eq_true] at hfinite
            have hevaluated : r.model.Evaluated point value gradient :=
              ⟨.inr ⟨gradient, hreturns⟩, .inr ⟨value, hreturns⟩, hfinite.1, hfinite.2⟩
            have hinterrupted : r.Bracketed P { b with failures := b.failures.interrupted } :=
              hb.count (Nat.zero_le _)
            refine Gives.bind (Gives.checked fun judged hjudged =>
              judge_judged hinterrupted (k + 1) hpoint hlong hevaluated hjudged)
              fun judged hjudged => ?_
          -- both ways the search goes on from the judgement alone
          all_goals
            rcases judged with found | b
            · exact Gives.pure hjudged
            · dsimp only
              split
              · next step hstep =>
                  exact ih (k + 1) (Bracketed.next hjudged hmiddle hdouble hstep)
              · exact Gives.pure hjudged

end Ray

/-! ## Whole searches -/

/-- The slope along the direction, which is finite and negative. -/
structure Downhill (g₀ direction : Vec α) (slope : α) : Prop where
  dot : Vec.dot g₀ direction = .ok slope
  negative : slope < 0
  isFinite : Scalar.isFinite slope = true

theorem descentSlope_gives {cap : Nat} (g₀ direction : Vec α) (f₀ : α) :
    Gives (descentSlope g₀ direction f₀ : Search σ α) (Downhill g₀ direction)
      (SolverError.EndsSearch cap) := by
  refine Gives.bind (Gives.checked fun _ h => h) fun slope hslope => ?_
  split
  · next h =>
      rw [Bool.and_eq_true, decide_eq_true_eq] at h
      exact Gives.pure ⟨hslope, h.1, h.2⟩
  · exact Gives.throw trivial

section Run

variable {m : Model α σ} {p : LineSearchParams α} {P : α → Prop} {x g₀ direction : Vec α}
  {f₀ initialStep : α}

/-- A backtracking search settles on a step with sufficient decrease. -/
theorem run_backtracking_gives (hfirst : P (Scalar.minNum initialStep p.maxStepSize))
    (hrho : ∀ a, P a → P (a * p.rho))
    (hinterpolated : ∀ slope a f, P a →
      P (Ray.interpolated ⟨p, m, x, f₀, direction, slope⟩ a f)) :
    Gives ((backtracking p).run m x f₀ g₀ direction initialStep)
      (fun found => ∃ slope, Downhill g₀ direction slope ∧
        let r : Ray α σ := ⟨p, m, x, f₀, direction, slope⟩
        r.Lands found ∧ P found.stepSize ∧ found.value ≤ r.armijoBound found.stepSize)
      (SolverError.EndsSearch p.maxEvaluationFailures) := by
  refine Gives.bind (descentSlope_gives g₀ direction f₀) fun slope hslope => ?_
  refine Gives.mono (Ray.backtrack_gives hrho (hinterpolated slope) _ _ hfirst (Nat.zero_le _))
    (fun found h => ⟨slope, hslope, h⟩) fun _ h => h

/-- A bracketing search settles on a step that suits. -/
theorem run_wolfe_gives (hzero : P 0) (hfirst : P (Scalar.minNum initialStep p.maxStepSize))
    (hmiddle : ∀ lower upper, P lower → Scalar.isFinite upper = true →
      P ((lower + upper) * 0.5))
    (hdouble : ∀ a, P a → P (Scalar.minNum (2.0 * a) p.maxStepSize)) :
    Gives ((wolfe p).run m x f₀ g₀ direction initialStep)
      (fun found => ∃ slope, Downhill g₀ direction slope ∧
        Ray.Suits ⟨p, m, x, f₀, direction, slope⟩ P found)
      (SolverError.EndsSearch p.maxEvaluationFailures) := by
  refine Gives.bind (descentSlope_gives g₀ direction f₀) fun slope hslope => ?_
  have hstart : Ray.Bracketed (⟨p, m, x, f₀, direction, slope⟩ : Ray α σ) P
      { step := Scalar.minNum initialStep p.maxStepSize } :=
    ⟨hzero, fun _ h => (nomatch h), hfirst, Nat.zero_le _, fun _ h => (nomatch h)⟩
  refine Gives.bind (Ray.bracket_gives hmiddle hdouble _ _ hstart) ?_
  rintro (found | b) hjudged
  · exact Gives.pure ⟨slope, hslope, hjudged⟩
  · dsimp only
    split
    · next found hfallback =>
        -- only the number of failures is another
        obtain ⟨⟨hpoint, hlong, hevaluated⟩, hallowed, hdecrease⟩ :=
          hjudged.fallback found hfallback
        refine Gives.bind Gives.emit fun _ _ => Gives.pure ⟨slope, hslope, ?_⟩
        exact ⟨⟨hpoint, hlong, hevaluated⟩, hallowed, hdecrease⟩
    · exact Gives.throw trivial

/-- Whatever the search, the model has answered where it settles. -/
theorem run_evaluated (s : LineSearch α) :
    Gives (s.run m x f₀ g₀ direction initialStep)
      (fun found => m.Evaluated found.point found.value found.gradient)
      (SolverError.EndsSearch s.params.maxEvaluationFailures) := by
  cases s with
  | backtracking p =>
      exact Gives.mono (run_backtracking_gives (P := fun _ => True) trivial (fun _ _ => trivial)
        fun _ _ _ _ => trivial) (fun found ⟨_, _, hlands, _⟩ => hlands.evaluated) fun _ h => h
  | wolfe p =>
      exact Gives.mono (run_wolfe_gives (P := fun _ => True) trivial trivial
        (fun _ _ _ _ => trivial) fun _ _ => trivial)
        (fun found ⟨_, _, hsuits⟩ => hsuits.evaluated) fun _ h => h

end Run

end LineSearch

end Descent
