import Descent.Proofs.Course
import Descent.Proofs.LineSearch
import Descent.TrustRegion

/-!
# The rounds of a trust-region method

What one round can do (`Step`) and how one can fail (`Breakdown`), for any stepper. The round does
nothing else (`round_gives`), so that whatever is said about rounds is said about these cases. A
whole solve is a course of such rounds (`minimize_settles`), which starts at the projected point
with the radius of the options or the norm of the projected gradient (`Opens`).
-/

set_option autoImplicit false

namespace Descent.TrustRegion

open Run

variable {α σ μ ω : Type} [Scalar α]

/-! ## Attempts -/

/-- From the progress the stepper has proposed a trial step and changed its memory, and the
objective has a finite value at the trial point. -/
structure Tried (stepper : Stepper α σ μ) (m : Model α σ) (box : Box α)
    (p : Progress α (Memory α μ)) (trial : Trial α) (memory : μ) (value : α) : Prop where
  proposed : Returns (stepper.propose m box p.iterate p.memory.region.radius p.gradientNorm
    p.memory.stepper) (trial, memory)
  objective : Returns (m.objective trial.point) value
  isFinite : Scalar.isFinite value = true

inductive Attempted (stepper : Stepper α σ μ) (c : Config α) (m : Model α σ) (box : Box α)
    (p : Progress α (Memory α μ)) : Outcome α × μ → Prop
  | failed (reason : String) (memory : μ) : Attempted stepper c m box p (.failed reason, memory)
  | rejected {trial : Trial α} {memory : μ} {value : α}
      (tried : Tried stepper m box p trial memory value)
      (poor : ¬ c.acceptanceRatio < reductionRatio p.iterate.f value trial.predicted) :
      Attempted stepper c m box p
        (.rejected trial value (reductionRatio p.iterate.f value trial.predicted), memory)
  | accepted {trial : Trial α} {memory : μ} {value : α} {gradient : Vec α}
      (tried : Tried stepper m box p trial memory value)
      (good : c.acceptanceRatio < reductionRatio p.iterate.f value trial.predicted)
      (answered : Returns (m.gradient trial.point) gradient)
      (isFinite : Vec.allFinite gradient = true) : Attempted stepper c m box p
        (.accepted trial value gradient (reductionRatio p.iterate.f value trial.predicted), memory)
  | rescued {trial : Trial α} {memory : μ} {value : α} {found : LineSearch.Found α}
      (tried : Tried stepper m box p trial memory value)
      (poor : ¬ c.acceptanceRatio < reductionRatio p.iterate.f value trial.predicted)
      (rescue : Returns (stepper.rescue m p.iterate trial value) (some found)) :
      Attempted stepper c m box p
        (.rescued found (reductionRatio p.iterate.f value trial.predicted), memory)

/-- The errors of the stepper and of the model, which end a round. -/
inductive Unattempted (stepper : Stepper α σ μ) (m : Model α σ) (box : Box α)
    (p : Progress α (Memory α μ)) : SolverError → Prop
  | proposal {e : SolverError} {memory : μ}
      (fails : Fails (stepper.propose m box p.iterate p.memory.region.radius p.gradientNorm
        p.memory.stepper) (e, memory)) : Unattempted stepper m box p e
  | rescue {e : SolverError} {trial : Trial α} {value : α}
      (fails : Fails (stepper.rescue m p.iterate trial value) e) : Unattempted stepper m box p e
  | model (e : ModelError) : Unattempted stepper m box p (.model e)

variable {stepper : Stepper α σ μ} {c : Config α} {m : Model α σ} {box : Box α}
  {p : Progress α (Memory α μ)}

theorem assess_attempted {trial : Trial α} {memory : μ}
    (hproposed : Returns (stepper.propose m box p.iterate p.memory.region.radius p.gradientNorm
      p.memory.stepper) (trial, memory)) :
    Gives (assess c m p.iterate trial)
      (fun outcome => Attempted stepper c m box p (outcome, memory))
      (Unattempted stepper m box p) := by
  have husable : ∀ {β : Type} (e : Evaluation σ β) (isFinite : β → Bool) (what : String),
      Gives (Evaluation.usable e isFinite what)
        (fun r => ∀ b, r = .ok b → Returns e b ∧ isFinite b = true)
        (Unattempted stepper m box p) := by
    intro β e isFinite what
    refine Gives.mono (Evaluation.usable_gives e isFinite what) (fun _ h => h) ?_
    rintro _ ⟨inner, rfl⟩
    exact .model inner
  refine Gives.bind (husable _ _ _) ?_
  rintro (reason | value) hvalue
  · exact Gives.pure (.failed _ _)
  · have htried : Tried stepper m box p trial memory value :=
      ⟨hproposed, (hvalue value rfl).1, (hvalue value rfl).2⟩
    dsimp only
    split
    · next good =>
        refine Gives.bind (husable _ _ _) ?_
        rintro (reason | gradient) hgradient
        · exact Gives.pure (.failed _ _)
        · obtain ⟨hanswered, hfinite⟩ := hgradient gradient rfl
          exact Gives.pure (.accepted htried good hanswered hfinite)
    · next poor => exact Gives.pure (.rejected htried poor)

theorem attempt_attempted :
    Gives (attempt stepper c m box p.iterate p.memory.region.radius p.gradientNorm
      p.memory.stepper) (Attempted stepper c m box p) (Unattempted stepper m box p) := by
  refine Gives.bind (Gives.caught Gives.self) ?_
  rintro (⟨error, memory⟩ | ⟨trial, memory⟩) hproposed
  · rcases error with e | _ | _ | _ | _ | _ | _ | _
    · dsimp only
      split
      · exact Gives.pure (.failed _ _)
      · exact Gives.throw (.model e)
    all_goals exact Gives.throw (.proposal hproposed)
  · refine Gives.bind (assess_attempted hproposed) ?_
    rintro (reason | ⟨trial, value, ratio⟩ | ⟨trial, value, gradient, ratio⟩ | ⟨found, ratio⟩)
      hassessed
    · exact Gives.pure hassessed
    · obtain ⟨tried, poor⟩ : Tried stepper m box p trial memory value ∧
          ratio = reductionRatio p.iterate.f value trial.predicted ∧
          ¬ c.acceptanceRatio < ratio := by
        cases hassessed with
        | rejected tried poor => exact ⟨tried, rfl, poor⟩
      obtain ⟨rfl, poor⟩ := poor
      refine Gives.bind (Gives.mono Gives.self (fun _ h => h) fun _ h => .rescue h) ?_
      rintro (_ | found) hrescue
      · exact Gives.pure hassessed
      · exact Gives.pure (.rescued tried poor hrescue)
    · exact Gives.pure hassessed
    · exact Gives.pure hassessed

/-! ## Rounds -/

/-- The iterate at the end of an accepted step, with the norm of the projected gradient there. -/
structure Arrives (box : Box α) (number : Nat) (point : Vec α) (value : α) (gradient : Vec α)
    (iterate : Iterate α) (norm : α) : Prop where
  optimality : TrustRegion.optimality box point gradient = .ok (norm, iterate.active)
  stands : iterate = ⟨point, value, gradient, iterate.active, number⟩

theorem moveTo_arrives (iterate : Iterate α) (point : Vec α) (value : α) (gradient : Vec α)
    (number : Nat) :
    Ensures (fun _ => True) (moveTo m box iterate point value gradient number)
      fun r => Arrives box number point value gradient r.1 r.2 := by
  refine Ensures.bind (Ensures.checked fun _ _ => trivial) fun s _ => ?_
  refine Ensures.bind (Ensures.checked fun _ _ => trivial) fun y _ => ?_
  refine Ensures.bind Ensures.trivial fun _ _ => ?_
  refine Ensures.bind (Ensures.checked fun _ h => h) ?_
  rintro ⟨norm, active⟩ hoptimality
  exact Ensures.pure ⟨hoptimality, rfl⟩

inductive Step (s : Solve α σ ω) (stepper : Stepper α (Counts × σ) μ) (c : Config α) (box : Box α)
    (number : Nat) (p : Progress α (Memory α μ)) : Round α (Memory α μ) → Prop
  /-- There is no value at the trial point: the radius shrinks. -/
  | failed (memory : μ)
      (allowed : p.memory.region.failures + 1 ≤ s.options.maxConsecutiveEvaluationFailures) :
      Step s stepper c box number p (report s number
        { p with memory := ⟨{ p.memory.region.shrink c with
          failures := p.memory.region.failures + 1 }, memory⟩ } 0 .interior false none)
  /-- The step is not good enough: the iterate stays. -/
  | rejected {trial : Trial α} {memory : μ} {value : α}
      (tried : Tried stepper s.model.counted box p trial memory value)
      (poor : ¬ c.acceptanceRatio < reductionRatio p.iterate.f value trial.predicted)
      (allowed : p.memory.region.rejections + 1 ≤ s.options.maxConsecutiveRejections) :
      Step s stepper c box number p (report s number
        { p with memory := ⟨{ p.memory.region.update c
            (reductionRatio p.iterate.f value trial.predicted) (Vec.norm trial.step)
            (hitBoundary trial.kind (Vec.norm trial.step) p.memory.region.radius) with
          failures := 0, rejections := p.memory.region.rejections + 1 }, memory⟩ }
        (Vec.norm trial.step) trial.kind false none)
  /-- The step is good enough: the iterate moves to its end. -/
  | accepted {trial : Trial α} {memory : μ} {value : α} {gradient : Vec α} {iterate : Iterate α}
      {norm : α} (tried : Tried stepper s.model.counted box p trial memory value)
      (good : c.acceptanceRatio < reductionRatio p.iterate.f value trial.predicted)
      (evaluated : s.model.counted.Evaluated trial.point value gradient)
      (arrives : Arrives box number trial.point value gradient iterate norm) :
      Step s stepper c box number p (report s number
        ⟨iterate, norm, ⟨(p.memory.region.update c
            (reductionRatio p.iterate.f value trial.predicted) (Vec.norm trial.step)
            (hitBoundary trial.kind (Vec.norm trial.step) p.memory.region.radius)).settled,
          memory⟩⟩
        (Vec.norm trial.step) trial.kind true
        (s.stepVerdict p.iterate.f value (Vec.norm trial.step) (Vec.norm p.iterate.x)))
  /-- The step is not good enough, but a line search along it finds one. -/
  | rescued {trial : Trial α} {memory : μ} {value : α} {found : LineSearch.Found α}
      {step : Vec α} {iterate : Iterate α} {norm : α}
      (tried : Tried stepper s.model.counted box p trial memory value)
      (poor : ¬ c.acceptanceRatio < reductionRatio p.iterate.f value trial.predicted)
      (rescue : Returns (stepper.rescue s.model.counted p.iterate trial value) (some found))
      (difference : Vec.sub found.point p.iterate.x = .ok step)
      (arrives : Arrives box number found.point found.value found.gradient iterate norm) :
      Step s stepper c box number p (report s number
        ⟨iterate, norm, ⟨(p.memory.region.reset c
            (reductionRatio p.iterate.f value trial.predicted) (Vec.norm step)).settled, memory⟩⟩
        (Vec.norm step) .lineSearch true
        (s.stepVerdict p.iterate.f found.value (Vec.norm step) (Vec.norm p.iterate.x)))

/-- How a round can fail: the attempt fails, or there was too much bad luck in a row. The error of
too many rejections shows the radius after the last of them. -/
inductive Breakdown (s : Solve α σ ω) (stepper : Stepper α (Counts × σ) μ) (c : Config α)
    (box : Box α) (p : Progress α (Memory α μ)) : SolverError → Prop
  | unattempted {e : SolverError} (h : Unattempted stepper s.model.counted box p e) :
      Breakdown s stepper c box p e
  | failures (reason : String)
      (many : s.options.maxConsecutiveEvaluationFailures < p.memory.region.failures + 1) :
      Breakdown s stepper c box p (.evaluationFailures (p.memory.region.failures + 1) reason)
  | rejections {trial : Trial α} {memory : μ} {value : α}
      (tried : Tried stepper s.model.counted box p trial memory value)
      (poor : ¬ c.acceptanceRatio < reductionRatio p.iterate.f value trial.predicted)
      (many : s.options.maxConsecutiveRejections < p.memory.region.rejections + 1) :
      Breakdown s stepper c box p (.stagnation (p.memory.region.rejections + 1)
        (Scalar.toFloat (p.memory.region.update c
          (reductionRatio p.iterate.f value trial.predicted) (Vec.norm trial.step)
          (hitBoundary trial.kind (Vec.norm trial.step) p.memory.region.radius)).radius))

/-- **A round is a step or a breakdown.** -/
theorem round_gives (s : Solve α σ ω) (stepper : Stepper α (Counts × σ) μ) (c : Config α)
    (box : Box α) (number : Nat) (p : Progress α (Memory α μ)) :
    Gives (round s stepper c box number p) (Step s stepper c box number p)
      (Breakdown s stepper c box p) := by
  unfold round
  refine Gives.bind (Gives.mono attempt_attempted (fun _ h => h) fun _ h => .unattempted h) ?_
  rintro ⟨outcome, memory⟩ hattempted
  cases hattempted with
  | failed reason =>
      refine Gives.bind Gives.emit fun _ _ => ?_
      dsimp only
      split
      · next many =>
          exact Gives.bind (P := fun _ => False) (Gives.throw (.failures reason many))
            fun _ h => h.elim
      · next allowed => exact Gives.pure (.failed memory (Nat.not_lt.mp allowed))
  | rejected tried poor =>
      dsimp only
      split
      · next many =>
          exact Gives.bind (P := fun _ => False) (Gives.throw (.rejections tried poor many))
            fun _ h => h.elim
      · next allowed => exact Gives.pure (.rejected tried poor (Nat.not_lt.mp allowed))
  | accepted tried good answered hfinite =>
      refine Gives.bind (Gives.lift (moveTo_arrives _ _ _ _ _)) ?_
      rintro ⟨iterate, norm⟩ arrives
      exact Gives.pure (.accepted tried good
        ⟨.inl tried.objective, .inl answered, tried.isFinite, hfinite⟩ arrives)
  | rescued tried poor rescue =>
      refine Gives.bind (Gives.checked fun _ h => h) fun step difference => ?_
      refine Gives.bind Gives.emit fun _ _ => ?_
      refine Gives.bind (Gives.lift (moveTo_arrives _ _ _ _ _)) ?_
      rintro ⟨iterate, norm⟩ arrives
      exact Gives.pure (.rescued tried poor rescue difference arrives)

/-! ## Whole solves -/

/-- The first radius: that of the options, or the norm of the projected gradient at the start. -/
def firstRadius (o : Options α) (c : Config α) (norm : α) : α :=
  Scalar.minNum (o.trustRegionInitialRadius.getD (if 0 < norm then norm else 1)) c.maxRadius

def course (s : Solve α σ ω) (stepper : Stepper α (Counts × σ) μ) (c : Config α) (box : Box α)
    (iterate : Iterate α) (norm : α) : Course α σ where
  Memory := Memory α μ
  first := ⟨iterate, norm, ⟨{ radius := firstRadius s.options c norm }, stepper.fresh⟩⟩
  round := round s stepper c box

def StartsAt (m : Model α σ) (x₀ x : Vec α) : Prop :=
  ∃ box, m.box = .ok box ∧ box.project x₀ = .ok x

/-- The courses that a solve from `x₀` and a state of the model can take, with the state in which
the first round finds the model. -/
inductive Opens (s : Solve α σ ω) (stepper : Stepper α (Counts × σ) μ) (c : Config α) (x₀ : Vec α)
    (state : σ) : Course α σ → Counts × σ → Prop
  | intro {box : Box α} {x g : Vec α} {f norm : α} {active : List Bool} {start : Counts × σ}
      (settings : c.validate = .ok ()) (options : s.options.validate = .ok ())
      (length : x₀.length = s.model.dimension) (box_eq : s.model.box = .ok box)
      (project : box.project x₀ = .ok x)
      (evaluate : Leads (s.evaluateStart x) ({}, state) (f, g) start)
      (optimal : optimality box x g = .ok (norm, active)) :
      Opens s stepper c x₀ state (course s stepper c box ⟨x, f, g, active, 0⟩ norm) start

/-- **A solve takes a course.** What its parts do, a solve does. It looks at the bounds after its
start, and the error of the model is the one with which it then ends. -/
theorem minimize_settles {s : Solve α σ ω} {x₀ : Vec α} {state : σ} {K₀ K₁ : ω → Prop}
    {R : Record α → (Counts × σ) × ω → Prop} {E : SolverError → (Counts × σ) × ω → Prop}
    {F : (Counts × σ) × ω → Prop} (stepper : Stepper α (Counts × σ) μ) (c : Config α)
    (h : s.Parts (StartsAt s.model x₀) (Opens s.unobserved stepper c x₀ state) state K₀ K₁ R E F)
    (hbounds : ∀ inner u, s.model.box = .error inner → u.1 = ({}, state) → K₁ u.2 →
      E (.model inner) u) :
    Settles (fun u => u.1 = ({}, state) ∧ K₀ u.2) (minimize s stepper c x₀) R E F := by
  unfold minimize
  refine Settles.bind (Settles.ofExcept (fun _ h _ hu => And.intro hu h) fun e he u hu =>
    h.refused e u (c.namesSetting_validate.not_model he) hu.1 hu.2) fun _ =>
    Settles.assume fun settings => ?_
  refine Settles.bind (Settles.mono (Solve.start_settles x₀ h.started) (fun _ hu => hu)
    (fun _ _ hu => hu) (fun e u hu => h.refused e u hu.1.2 hu.2.1 hu.2.2) fun _ hu => hu) fun _ =>
    Settles.assume fun hstart => ?_
  -- the bounds are looked at after the start has been told
  refine Settles.bind (Settles.ofExcept
    (Q := fun box u => (u.1 = ({}, state) ∧ K₁ u.2) ∧ s.model.box = .ok box) ?_ ?_) fun box =>
    Settles.assume fun hbox => ?_
  · intro box hbox u hu
    cases hmodel : s.model.box with
    | error e =>
        rw [hmodel] at hbox
        cases hbox
    | ok b =>
        rw [hmodel] at hbox
        cases hbox
        exact ⟨hu, rfl⟩
  · intro e he u hu
    cases hmodel : s.model.box with
    | ok b =>
        rw [hmodel] at he
        cases he
    | error inner =>
        rw [hmodel] at he
        cases he
        exact hbounds inner u hmodel hu.1 hu.2
  have hfault : ∀ u : (Counts × σ) × ω, u.1 = ({}, state) ∧ K₁ u.2 → F u :=
    fun u hu => h.fault u hu.2
  refine Settles.bind (Settles.checked (fun _ h _ hu => And.intro hu h) hfault) fun x =>
    Settles.assume fun project => ?_
  refine Solve.evaluated_settles h.fault
    (fun e t breaks => h.atStart x e t ⟨box, hbox, project⟩ breaks) fun f g start evaluate => ?_
  refine Settles.bind (Settles.checked (fun _ h _ hu => And.intro hu h)
    fun u hu => h.fault u hu.2) ?_
  rintro ⟨norm, active⟩
  refine Settles.assume fun optimal => Settles.bind Settles.emit fun _ => ?_
  have opens : Opens s.unobserved stepper c x₀ state
      (course s.unobserved stepper c box ⟨x, f, g, active, 0⟩ norm) start :=
    .intro settings hstart.1 hstart.2 hbox project evaluate optimal
  exact Settles.lift (h.rounds _ start opens)

end Descent.TrustRegion
