import Descent.Proofs.Move
import Descent.Proofs.Solve

/-!
# What a record says

A model that is pure answers every question by a function of the point (`Model.IsPure`). The record
of a solve of such a model holds the values of these functions at its point, and what it says of the
projected gradient is measured there, whatever ended the solve (`Method.record_describes_model`).

Why a solve ended is told by the status and the error of its record (`Solve.Reason`), and both are
true (`Method.record_truthful`): a tolerance has been met, a budget is used up, or the error is that
of the last round.
-/

set_option autoImplicit false

namespace Descent

open Run

variable {α σ ω : Type} [Scalar α] {m : Model α σ} {F : Vec α → Option α}
  {G : Vec α → Option (Vec α)} {x g : Vec α} {f : α}

/-! ## Pure models -/

/-- Whatever the state of the model, it answers a question for the objective or the gradient at a
point by the value of `F` or `G`, if there is one, and one for both by both. -/
structure Model.IsPure (m : Model α σ) (F : Vec α → Option α) (G : Vec α → Option (Vec α)) :
    Prop where
  objective : ∀ x f s journal,
    (Run.start (m.objective x).run s journal).1.1 = .ok (.ok f) ↔ F x = some f
  gradient : ∀ x g s journal,
    (Run.start (m.gradient x).run s journal).1.1 = .ok (.ok g) ↔ G x = some g
  both : ∀ x f g s journal,
    (Run.start (m.objectiveAndGradient x).run s journal).1.1 = .ok (.ok (f, g)) ↔
      F x = some f ∧ G x = some g

theorem Model.IsPure.value (hm : m.IsPure F G) (h : m.HasValue x f) : F x = some f := by
  rcases h with ⟨s, journal, h⟩ | ⟨g, s, journal, h⟩
  · exact (hm.objective x f s journal).mp h
  · exact ((hm.both x f g s journal).mp h).1

theorem Model.IsPure.hasGradient (hm : m.IsPure F G) (h : m.HasGradient x g) : G x = some g := by
  rcases h with ⟨s, journal, h⟩ | ⟨f, s, journal, h⟩
  · exact (hm.gradient x g s journal).mp h
  · exact ((hm.both x f g s journal).mp h).2

/-- A starting point with finite values does not end a solve. -/
theorem Model.IsPure.not_fails {s : Solve α σ ω} (hm : s.model.IsPure F G) (hf : F x = some f)
    (hg : G x = some g) (hfinite : Scalar.isFinite f = true) (hfinite' : Vec.allFinite g = true)
    (e : ModelError) : ¬ Fails (s.evaluateStart x) e := by
  have hboth : Gives (s.model.objectiveAndGradient x) (· = (f, g)) fun _ => False := by
    refine Gives.iff_returns.mpr ⟨?_, ?_⟩
    · rintro ⟨f', g'⟩ ⟨t, journal, h⟩
      obtain ⟨hf', hg'⟩ := (hm.both x f' g' t journal).mp h
      cases hf.symm.trans hf'
      cases hg.symm.trans hg'
      rfl
    · rintro e ⟨t, journal, h⟩
      cases h.symm.trans ((hm.both x f g t journal).mpr ⟨hf, hg⟩)
  have hstart : Gives (s.evaluateStart x) (fun _ => True) fun _ => False := by
    have hcount : ∀ change : Counts → Counts,
        Gives (Model.count change : Evaluation (Counts × σ) Unit) (fun _ => True)
          fun _ => False := fun _ _ _ _ => ⟨trivial, trivial⟩
    refine Gives.bind (Gives.bind (hcount _) fun _ _ => Gives.bind (hcount _) fun _ _ =>
      hboth.tryOnSnd) ?_
    rintro _ rfl
    dsimp only
    rw [hfinite, hfinite']
    exact Gives.pure trivial
  exact hstart.failed

/-! ## The iterate -/

/-- **The record describes the model.** If the model is pure and the starting point has finite
values, then the point of every record has the objective and the gradient of the record, which are
finite, and the active bounds and the norm of the projected gradient are measured there. -/
theorem Method.record_describes_model (method : Method α) (hm : m.IsPure F G) {x₀ : Vec α}
    (hx : method.StartsAt m x₀ x) (hf : F x = some f) (hg : G x = some g)
    (hfinite : Scalar.isFinite f = true) (hfinite' : Vec.allFinite g = true) (o : Options α)
    (observer : Observer α ω) (clock : Nat → Duration) (state : σ) (w : ω) (journal : Journal)
    {record : Record α}
    (h : (Run.start (method.minimize m x₀ o observer clock).run (({}, state), w) journal).1.1
      = .ok (.ok record)) :
    F record.iterate.x = some record.iterate.f ∧ G record.iterate.x = some record.iterate.g ∧
      Scalar.isFinite record.iterate.f = true ∧ Vec.allFinite record.iterate.g = true ∧
      method.Measures m record.iterate record.gradientNorm := by
  have hnoted : Method.solveNoted method m x₀ o observer clock state w journal =
      (.ok (.ok record), (solveNoted method m x₀ o observer clock state w journal).2) :=
    Prod.ext h rfl
  generalize (solveNoted method m x₀ o observer clock state w journal).2 = seen at hnoted
  cases solveNoted_ends hnoted with
  | atStart starts fails =>
      rw [starts.unique hx] at fails
      exact absurd fails (hm.not_fails (s := method.solve m o clock) hf hg hfinite hfinite' _)
  | after opens ending =>
      obtain ⟨k, p, t, trail, hiterate, hnorm⟩ := ending.trail_end
      obtain ⟨hevaluated, hmeasured⟩ := opens.trail_stands trail
      rw [hiterate, hnorm]
      exact ⟨hm.value hevaluated.value, hm.hasGradient hevaluated.gradient,
        hevaluated.isFinite_value, hevaluated.allFinite_gradient, hmeasured⟩

/-- The square of one variable. -/
def square : Model α Unit where
  dimension := 1
  objective x := pure (x.headD 0 * x.headD 0)
  gradient x := pure [2.0 * x.headD 0]

theorem square_isPure : (square : Model α Unit).IsPure (fun x => some (x.headD 0 * x.headD 0))
    (fun x => some [2.0 * x.headD 0]) where
  objective x f s journal := by
    constructor
    · rintro ⟨⟩
      rfl
    · rintro ⟨⟩
      rfl
  gradient x g s journal := by
    constructor
    · rintro ⟨⟩
      rfl
    · rintro ⟨⟩
      rfl
  both x f g s journal := by
    constructor
    · rintro ⟨⟩
      exact ⟨rfl, rfl⟩
    · rintro ⟨⟨⟩, ⟨⟩⟩
      rfl

/-- The solve of the square by projected Newton steps from 3 ends with a record, which describes
it. -/
theorem record_describes_square : ∃ record : Record Float,
    (Run.start (Method.minimize (.projectedNewton {}) square [3] {}
      (Observer.silent : Observer Float Unit) (fun _ => .zero)).run (({}, ()), ()) #[]).1.1
        = .ok (.ok record) ∧
      some (record.iterate.x.headD 0 * record.iterate.x.headD 0) = some record.iterate.f ∧
      some [2.0 * record.iterate.x.headD 0] = some record.iterate.g ∧
      Scalar.isFinite record.iterate.f = true ∧ Vec.allFinite record.iterate.g = true ∧
      (Method.projectedNewton {}).Measures square record.iterate record.gradientNorm := by
  have hends : (match (Run.start (Method.minimize (.projectedNewton {}) square [3] {}
      (Observer.silent : Observer Float Unit) (fun _ => .zero)).run (({}, ()), ()) #[]).1.1 with
    | .ok (.ok _) => true
    | _ => false) = true := by decide +kernel
  have hclamp : Interval.clamp ⟨-Scalar.infinity, Scalar.infinity⟩ (3 : Float) = 3 := by
    decide +kernel
  have hstart : (Method.projectedNewton {}).StartsAt (square : Model Float Unit) [3] [3] :=
    ⟨[⟨-Scalar.infinity, Scalar.infinity⟩], rfl, congrArg (fun a => Except.ok [a]) hclamp⟩
  generalize hrun : (Run.start (Method.minimize (.projectedNewton {}) square [3] {}
    (Observer.silent : Observer Float Unit) (fun _ => .zero)).run (({}, ()), ()) #[]).1.1 = result
    at hends
  rcases result with _ | _ | record
  · cases hends
  · cases hends
  · exact ⟨record, rfl, Method.record_describes_model _ square_isPure hstart rfl rfl
      (by decide +kernel) (by decide +kernel) _ _ _ _ _ _ hrun⟩

/-! ## The status -/

/-- The last round started from the progress `p`, was reported as `i` and led to the iterate of the
record. -/
def Course.EndsWith (c : Course α σ) (start : Counts × σ) (record : Record α)
    (seen : List (Iteration α)) (p : Progress α c.Memory) (i : Iteration α) : Prop :=
  ∃ k r t, c.Went start k p r t seen ∧ r.iteration = i ∧ record.iterations = k + 1 ∧
    record.iterate = r.progress.iterate

namespace Solve

/-- The projected gradient is as small as the options ask for, given its norm at the start. -/
def IsSmall (s : Solve α σ ω) (c : Course α σ) (gradientNorm : α) : Prop :=
  gradientNorm ≤ s.threshold c.first.gradientNorm

/-- Why a solve ends after a trail, with a status and perhaps an error. -/
inductive Reason (s : Solve α σ ω) (c : Course α σ) (start : Counts × σ) (record : Record α)
    (seen : List (Iteration α)) : Status → Option SolverError → Prop
  | gradientTolerance (small : s.IsSmall c record.gradientNorm) :
      Reason s c start record seen .gradientTolerance none
  | iterationLimit (all : record.iterations = s.options.maxIterations)
      (large : ¬ s.IsSmall c record.gradientNorm) :
      Reason s c start record seen .iterationLimit none
  | evaluationLimit {most : Nat} (limit : s.options.maxEvaluations = some most)
      (used : most ≤ record.counts.functionEvaluations)
      (large : ¬ s.IsSmall c record.gradientNorm) :
      Reason s c start record seen .evaluationLimit none
  | timeLimit {most : Duration} (limit : s.options.maxTime = some most)
      (used : most.total ≤ (s.clock record.iterations).total)
      (large : ¬ s.IsSmall c record.gradientNorm) : Reason s c start record seen .timeLimit none
  | functionTolerance {p : Progress α c.Memory} {i : Iteration α} {tol : α}
      (last : c.EndsWith start record seen p i) (accepted : i.accepted = true)
      (tolerance : s.options.functionTolerance = some tol)
      (met : Scalar.abs (p.iterate.f - record.iterate.f)
        ≤ tol * Scalar.maxNum 1 (Scalar.abs p.iterate.f)) :
      Reason s c start record seen .functionTolerance none
  | stepTolerance {p : Progress α c.Memory} {i : Iteration α} {tol : α}
      (last : c.EndsWith start record seen p i) (accepted : i.accepted = true)
      (tolerance : s.options.stepTolerance = some tol)
      (met : i.stepNorm ≤ tol * Scalar.maxNum 1 (Vec.norm p.iterate.x)) :
      Reason s c start record seen .stepTolerance none
  | userRequested : Reason s c start record seen .userRequested none
  | failure {e : SolverError} (counts : e.Counts (· = s.options.maxConsecutiveRejections + 1)
      (· = s.options.maxConsecutiveEvaluationFailures + 1)) :
      Reason s c start record seen (.ofError e) (some e)

/-- Every ending has its reason. -/
theorem Ending.reason {s : Solve α σ Unit} {method : Method α} {x₀ : Vec α} {state : σ}
    {c : Course α σ} {start : Counts × σ} {record : Record α} {seen : List (Iteration α)}
    (opens : method.Opens s x₀ state c start) (h : s.Ending c start record seen) :
    record.iterations ≤ s.options.maxIterations ∧
      s.Reason c start record seen record.status record.error := by
  cases h with
  | converged trail bounded shows small =>
      rw [shows.status, shows.error, shows.iterations]
      exact ⟨bounded, .gradientTolerance (shows.gradientNorm ▸ small)⟩
  | outOfRounds trail shows large =>
      rw [shows.status, shows.error, shows.iterations]
      exact ⟨Nat.le_refl _, .iterationLimit shows.iterations (shows.gradientNorm ▸ large)⟩
  | exhausted trail bounded shows large budget =>
      rw [shows.status, shows.error, shows.iterations]
      refine ⟨Nat.le_of_lt bounded, ?_⟩
      rcases exhausted_cases budget with ⟨rfl, most, limit, used⟩ | ⟨rfl, most, limit, used⟩
      · exact .evaluationLimit limit used (shows.gradientNorm ▸ large)
      · exact .timeLimit limit (shows.iterations ▸ used) (shows.gradientNorm ▸ large)
  | failed trail bounded shows fails =>
      rw [shows.status, shows.error, shows.iterations]
      exact ⟨bounded, .failure (opens.fails_counts trail fails)⟩
  | stopped went bounded shows =>
      rw [shows.status, shows.error, shows.iterations]
      exact ⟨bounded, .userRequested⟩
  | settled went bounded verdict shows =>
      rw [shows.status, shows.error, shows.iterations]
      refine ⟨bounded, ?_⟩
      have last : c.EndsWith start record seen _ _ :=
        ⟨_, _, _, went, rfl, shows.iterations, shows.iterate⟩
      obtain ⟨_, _, -, leads, -⟩ := went
      -- only a step that was accepted can meet a tolerance
      cases opens.move leads.returns with
      | stayed _ _ _ _ hnone =>
          rw [hnone] at verdict
          cases verdict
      | moved _ accepted _ hverdict =>
          rw [hverdict, ← shows.iterate] at verdict
          rcases stepVerdict_cases verdict with ⟨rfl, tol, htol, met⟩ | ⟨rfl, tol, htol, met⟩
          · exact .functionTolerance last accepted htol met
          · exact .stepTolerance last accepted htol met

/-- The status and the error of a record are true of the rounds before it. -/
structure Truthful (s : Solve α σ ω) (c : Course α σ) (start : Counts × σ) (record : Record α)
    (seen : List (Iteration α)) : Prop where
  gradientTolerance : record.status = .gradientTolerance → s.IsSmall c record.gradientNorm
  iterationLimit : record.status = .iterationLimit →
    record.iterations = s.options.maxIterations ∧ ¬ s.IsSmall c record.gradientNorm
  evaluationLimit : record.status = .evaluationLimit →
    (∃ most, s.options.maxEvaluations = some most ∧ most ≤ record.counts.functionEvaluations) ∧
      ¬ s.IsSmall c record.gradientNorm
  functionTolerance : record.status = .functionTolerance →
    ∃ p i tol, c.EndsWith start record seen p i ∧ i.accepted = true ∧
      s.options.functionTolerance = some tol ∧
      Scalar.abs (p.iterate.f - record.iterate.f) ≤ tol * Scalar.maxNum 1 (Scalar.abs p.iterate.f)
  stepTolerance : record.status = .stepTolerance →
    ∃ p i tol, c.EndsWith start record seen p i ∧ i.accepted = true ∧
      s.options.stepTolerance = some tol ∧
      i.stepNorm ≤ tol * Scalar.maxNum 1 (Vec.norm p.iterate.x)
  stagnation : record.status = .stagnation →
    ∃ radius, record.error = some (.stagnation (s.options.maxConsecutiveRejections + 1) radius)
  evaluationFailures : ∀ n reason, record.error = some (.evaluationFailures n reason) →
    n = s.options.maxConsecutiveEvaluationFailures + 1

/-- No tolerance that is met and no budget that is used up is an error. -/
theorem ofError_ne {status : Status} (h : status.isFailure = false) (e : SolverError) :
    Status.ofError e ≠ status := by
  rintro rfl
  rw [Status.isFailure_ofError] at h
  cases h

/-- A status with a reason is true. -/
theorem Reason.truthful {s : Solve α σ ω} {c : Course α σ} {start : Counts × σ}
    {record : Record α} {seen : List (Iteration α)}
    (h : s.Reason c start record seen record.status record.error) :
    s.Truthful c start record seen := by
  generalize hstatus : record.status = status at h
  generalize herror : record.error = error at h
  constructor
  case gradientTolerance =>
    rw [hstatus]
    intro hs
    cases h with
    | gradientTolerance small => exact small
    | failure => exact absurd hs (ofError_ne rfl _)
    | _ => cases hs
  case iterationLimit =>
    rw [hstatus]
    intro hs
    cases h with
    | iterationLimit all large => exact ⟨all, large⟩
    | failure => exact absurd hs (ofError_ne rfl _)
    | _ => cases hs
  case evaluationLimit =>
    rw [hstatus]
    intro hs
    cases h with
    | evaluationLimit limit used large => exact ⟨⟨_, limit, used⟩, large⟩
    | failure => exact absurd hs (ofError_ne rfl _)
    | _ => cases hs
  case functionTolerance =>
    rw [hstatus]
    intro hs
    cases h with
    | functionTolerance last accepted tolerance met =>
        exact ⟨_, _, _, last, accepted, tolerance, met⟩
    | failure => exact absurd hs (ofError_ne rfl _)
    | _ => cases hs
  case stepTolerance =>
    rw [hstatus]
    intro hs
    cases h with
    | stepTolerance last accepted tolerance met =>
        exact ⟨_, _, _, last, accepted, tolerance, met⟩
    | failure => exact absurd hs (ofError_ne rfl _)
    | _ => cases hs
  case stagnation =>
    rw [hstatus, herror]
    intro hs
    cases h with
    | @failure e counts =>
        cases e with
        | stagnation n radius => exact ⟨radius, by rw [show n = _ from counts]⟩
        | _ => cases hs
    | _ => cases hs
  case evaluationFailures =>
    rw [herror]
    intro n reason he
    cases h with
    | failure counts =>
        cases he
        exact counts
    | _ => cases he

end Solve

/-- The record keeps to the budget of iterations, and it has an error exactly if its status is a
failure, which is the one of the error. -/
structure Record.Consistent (record : Record α) (o : Options α) : Prop where
  iterations_le : record.iterations ≤ o.maxIterations
  failure : record.error.isSome = record.status.isFailure
  status : ∀ e, record.error = some e → record.status = .ofError e

theorem Solve.Reason.consistent {s : Solve α σ ω} {c : Course α σ} {start : Counts × σ}
    {record : Record α} {seen : List (Iteration α)}
    (h : s.Reason c start record seen record.status record.error)
    (hiterations : record.iterations ≤ s.options.maxIterations) :
    record.Consistent s.options := by
  generalize hstatus : record.status = status at h
  generalize herror : record.error = error at h
  refine ⟨hiterations, ?_, ?_⟩
  · rw [hstatus, herror]
    cases h with
    | failure => exact (Status.isFailure_ofError _).symm
    | _ => rfl
  · rw [hstatus, herror]
    intro e he
    cases h with
    | failure =>
        cases he
        rfl
    | _ => cases he

/-- **The record is truthful.** Every record keeps to the budget of iterations and has an error
exactly if its status is a failure. It is that of a starting point at which the model failed, or its
status and error are true of the rounds that the observer heard of. -/
theorem Method.record_truthful {method : Method α} {m : Model α σ} {x₀ : Vec α} {o : Options α}
    {observer : Observer α ω} {clock : Nat → Duration} {state : σ} {w : ω} {journal : Journal}
    {record : Record α} {seen : List (Iteration α)}
    (h : solveNoted method m x₀ o observer clock state w journal = (.ok (.ok record), seen)) :
    let s := method.solve m o clock
    record.Consistent o ∧
      ((∃ x e, method.StartsAt m x₀ x ∧ Fails (s.evaluateStart x) e ∧ record.iterations = 0 ∧
          record.error = some (.evaluationFailures 1 e.message) ∧ seen = []) ∨
        ∃ c start, Opens s x₀ state method c start ∧ s.Truthful c start record seen) := by
  intro s
  cases solveNoted_ends h with
  | atStart starts fails shows =>
      refine ⟨⟨?_, ?_, ?_⟩, .inl ⟨_, _, starts, fails, shows.iterations, shows.error, rfl⟩⟩
      · rw [shows.iterations]
        exact Nat.zero_le _
      · rw [shows.error, shows.status]
        rfl
      · rw [shows.error, shows.status]
        rintro _ ⟨⟩
        rfl
  | after opens ending =>
      obtain ⟨hiterations, reason⟩ := ending.reason opens
      exact ⟨reason.consistent hiterations, .inr ⟨_, _, opens, reason.truthful⟩⟩

/-- The record of the square's solve by BFGS steps from 3, which converges, is truthful. -/
theorem record_truthful_square :
    let s := Method.solve (.lbfgs {}) (square : Model Float Unit) {} fun _ => .zero
    ∃ record seen, Method.solveNoted (.lbfgs {}) square [3] {}
        (Observer.silent : Observer Float Unit) (fun _ => .zero) () () #[]
          = (.ok (.ok record), seen) ∧
      record.status = .gradientTolerance ∧ record.Consistent {} ∧
      ((∃ x e, Method.StartsAt (.lbfgs {}) square [3] x ∧ Fails (s.evaluateStart x) e ∧
          record.iterations = 0 ∧ record.error = some (.evaluationFailures 1 e.message) ∧
          seen = []) ∨
        ∃ c start, Method.Opens s [3] () (.lbfgs {}) c start ∧
          s.Truthful c start record seen) := by
  have hends : (match (Method.solveNoted (.lbfgs {}) square [3] {}
      (Observer.silent : Observer Float Unit) (fun _ => .zero) () () #[]).1 with
    | .ok (.ok record) => decide (record.status = .gradientTolerance)
    | _ => false) = true := by decide +kernel
  generalize hrun : Method.solveNoted (.lbfgs {}) square [3] {}
    (Observer.silent : Observer Float Unit) (fun _ => .zero) () () #[] = result at hends
  rcases result with ⟨_ | _ | record, seen⟩
  · cases hends
  · cases hends
  · exact ⟨record, seen, rfl, of_decide_eq_true hends, Method.record_truthful hrun⟩

end Descent
