import Descent.Proofs.Method
import Descent.Proofs.TrustRegion.Stepper

/-!
# What every round does

Rounds of different methods have in common what they do to the iterate (`Solve.Move`): it stays with
everything known of it, or it moves to a point at which the model has answered, with the norm and
the active bounds measured there. So an iterate always stands where the model has answered
(`Method.Opens.trail_stands`). A round that fails has exceeded an allowance by one, if its error has
a count in it (`Method.Opens.fails_counts`).
-/

set_option autoImplicit false

namespace Descent

open Run

variable {α σ ω μ : Type} [Scalar α]

/-! ## Iterates and moves -/

/-- The model has answered at the point of the iterate with what the iterate holds, and the norm of
the projected gradient and the active bounds are measured there. -/
structure Model.Stands (m : Model α σ) (Measures : Iterate α → α → Prop) (iterate : Iterate α)
    (gradientNorm : α) : Prop where
  evaluated : m.Evaluated iterate.x iterate.f iterate.g
  measured : Measures iterate gradientNorm

/-- The report on a round shows where it ends. -/
structure Round.Reported (r : Round α μ) (number : Nat) : Prop where
  number : r.iteration.number = number
  objective : r.iteration.objective = r.progress.iterate.f
  gradientNorm : r.iteration.gradientNorm = r.progress.gradientNorm

inductive Solve.Move (s : Solve α σ ω) (Measures : Iterate α → α → Prop) (number : Nat)
    (p : Progress α μ) (r : Round α μ) : Prop
  /-- The step was rejected. -/
  | stayed (reported : r.Reported number) (rejected : r.iteration.accepted = false)
      (iterate : r.progress.iterate = p.iterate)
      (gradientNorm : r.progress.gradientNorm = p.gradientNorm) (verdict : r.verdict = none)
  /-- The step was accepted, and the tolerances have been looked at. -/
  | moved (reported : r.Reported number) (accepted : r.iteration.accepted = true)
      (stands : s.model.Stands Measures r.progress.iterate r.progress.gradientNorm)
      (verdict : r.verdict = s.stepVerdict p.iterate.f r.progress.iterate.f r.iteration.stepNorm
        (Vec.norm p.iterate.x))

/-- What the start of a solve answers, the model answers. -/
theorem Solve.evaluated_start {s : Solve α σ ω} {x g : Vec α} {f : α}
    (h : Returns (s.evaluateStart x) (f, g)) : s.model.Evaluated x f g := by
  obtain ⟨⟨f', g'⟩, hboth, hrest⟩ := h.of_bind
  dsimp only at hrest
  split at hrest
  · next hfinite =>
      rw [Bool.and_eq_true] at hfinite
      obtain ⟨rfl, rfl⟩ : f' = f ∧ g' = g := by
        obtain ⟨_, _, hpure⟩ := hrest
        cases hpure
        exact ⟨rfl, rfl⟩
      have hinside := Model.returns_both_of_counted hboth
      exact ⟨.inr ⟨g', hinside⟩, .inr ⟨f', hinside⟩, hfinite.1, hfinite.2⟩
  · obtain ⟨_, _, hthrow⟩ := hrest
    cases hthrow

/-! ## Trust regions -/

namespace TrustRegion

/-- The norm is that of the projected gradient, and the active bounds are those without
tolerance. -/
def Measures (m : Model α σ) (iterate : Iterate α) (gradientNorm : α) : Prop :=
  ∃ box projected, m.box = .ok box ∧ box.projectedGradient iterate.x iterate.g = .ok projected ∧
    gradientNorm = Vec.norm projected ∧
    Box.activeMask 0 box iterate.x iterate.g = .ok iterate.active

theorem measures_of_optimality {m : Model α σ} {box : Box α} (hbox : m.box = .ok box)
    {iterate : Iterate α} {norm : α}
    (h : optimality box iterate.x iterate.g = .ok (norm, iterate.active)) :
    Measures m iterate norm := by
  obtain ⟨projected, hprojected, hrest⟩ := exists_of_bind_ok h
  obtain ⟨active, hactive, hpair⟩ := exists_of_bind_ok hrest
  cases hpair
  exact ⟨box, projected, hbox, hprojected, rfl, hactive⟩

theorem Arrives.measures {m : Model α σ} {box : Box α} (hbox : m.box = .ok box) {number : Nat}
    {point gradient : Vec α} {value norm : α} {iterate : Iterate α}
    (h : Arrives box number point value gradient iterate norm) : Measures m iterate norm := by
  refine measures_of_optimality hbox ?_
  have hoptimality := h.optimality
  rw [h.stands]
  exact hoptimality

variable {s : Solve α σ ω} {stepper : Stepper α (Counts × σ) μ} {c : Config α} {box : Box α}
  {number : Nat} {p : Progress α (Memory α μ)}

/-- A step is a move. -/
theorem Step.move (hstepper : stepper.Sound s.model.counted) (hbox : s.model.box = .ok box)
    {r : Round α (Memory α μ)} (h : Step s stepper c box number p r) :
    s.Move (Measures s.model) number p r := by
  have arrived : ∀ {point gradient : Vec α} {value norm : α} {iterate : Iterate α},
      Arrives box number point value gradient iterate norm →
      s.model.counted.Evaluated point value gradient →
      s.model.Stands (Measures s.model) iterate norm := by
    intro point gradient value norm iterate harrives hevaluated
    refine ⟨?_, harrives.measures hbox⟩
    rw [harrives.stands]
    exact hevaluated.of_counted
  cases h with
  | failed => exact .stayed ⟨rfl, rfl, rfl⟩ rfl rfl rfl rfl
  | rejected => exact .stayed ⟨rfl, rfl, rfl⟩ rfl rfl rfl rfl
  | accepted tried good evaluated arrives =>
      refine .moved ⟨rfl, rfl, rfl⟩ rfl (arrived arrives evaluated) ?_
      show s.stepVerdict _ _ _ _ = s.stepVerdict _ (Iterate.f _) _ _
      rw [arrives.stands]
      rfl
  | rescued tried poor rescue difference arrives =>
      have evaluated := (hstepper.rescue _ _ _).returned rescue _ rfl
      refine .moved ⟨rfl, rfl, rfl⟩ rfl (arrived arrives evaluated) ?_
      show s.stepVerdict _ _ _ _ = s.stepVerdict _ (Iterate.f _) _ _
      rw [arrives.stands]
      rfl

structure Memory.Allowed (memory : Memory α μ) (o : Options α) : Prop where
  rejections : memory.region.rejections ≤ o.maxConsecutiveRejections
  failures : memory.region.failures ≤ o.maxConsecutiveEvaluationFailures

theorem Step.allowed {r : Round α (Memory α μ)} (h : Step s stepper c box number p r)
    (hp : p.memory.Allowed s.options) : r.progress.memory.Allowed s.options := by
  cases h with
  | failed memory allowed => exact ⟨hp.rejections, allowed⟩
  | rejected tried poor allowed => exact ⟨allowed, Nat.zero_le _⟩
  | accepted => exact ⟨Nat.zero_le _, Nat.zero_le _⟩
  | rescued => exact ⟨Nat.zero_le _, Nat.zero_le _⟩

/-- A breakdown comes with the first piece of bad luck that is not allowed, if there is a count. -/
theorem Breakdown.counts (hstepper : stepper.Sound s.model.counted)
    (hp : p.memory.Allowed s.options) {e : SolverError} (h : Breakdown s stepper c box p e) :
    e.Counts (· = s.options.maxConsecutiveRejections + 1)
      (· = s.options.maxConsecutiveEvaluationFailures + 1) := by
  have uncounted : ∀ {e : SolverError}, e.Uncounted →
      e.Counts (· = s.options.maxConsecutiveRejections + 1)
        (· = s.options.maxConsecutiveEvaluationFailures + 1) :=
    fun h => h.mono (fun _ => False.elim) fun _ => False.elim
  cases h with
  | unattempted h =>
      cases h with
      | proposal fails =>
          exact uncounted ((hstepper.propose _ _ _ _ _).failed fails)
      | rescue fails => exact uncounted ((hstepper.rescue _ _ _).failed fails)
      | model e => trivial
  | failures reason many =>
      have hfailures := hp.failures
      show _ = _
      omega
  | rejections _ _ many =>
      have hrejections := hp.rejections
      show _ = _
      omega

section Opens

variable {x₀ : Vec α} {state : σ} {course : Course α σ} {start t : Counts × σ}

theorem Opens.move (hstepper : stepper.Sound s.model.counted)
    (opens : Opens s stepper c x₀ state course start) {k : Nat} {p : Progress α course.Memory}
    {r : Round α course.Memory} (h : Returns (course.round k p) r) :
    s.Move (Measures s.model) k p r := by
  cases opens with
  | intro _ _ _ hbox =>
      exact ((round_gives s stepper c _ k p).returned h).move hstepper hbox

theorem Opens.first_stands (opens : Opens s stepper c x₀ state course start) :
    s.model.Stands (Measures s.model) course.first.iterate course.first.gradientNorm := by
  cases opens with
  | intro _ _ _ hbox _ evaluate optimal =>
      exact ⟨Solve.evaluated_start evaluate.returns, measures_of_optimality hbox optimal⟩

theorem Opens.fails_counts (hstepper : stepper.Sound s.model.counted)
    (opens : Opens s stepper c x₀ state course start) {k : Nat} {p : Progress α course.Memory}
    {seen : List (Iteration α)} {e : SolverError} (trail : course.Trail start k p t seen)
    (fails : Fails (course.round (k + 1) p) e) :
    e.Counts (· = s.options.maxConsecutiveRejections + 1)
      (· = s.options.maxConsecutiveEvaluationFailures + 1) := by
  cases opens with
  | intro =>
      have allowed : p.memory.Allowed s.options := by
        refine trail.keeps (I := fun _ p _ => Memory.Allowed p.memory s.options)
          ⟨Nat.zero_le _, Nat.zero_le _⟩ fun k p seen r hp hr => ?_
        exact ((round_gives s stepper c _ _ p).returned hr).allowed hp
      exact ((round_gives s stepper c _ _ p).failed fails).counts hstepper
        allowed

end Opens

end TrustRegion

/-! ## The limited-memory BFGS method -/

namespace Lbfgs

/-- The norm is that of the gradient itself, and no bound is active. -/
def Measures (iterate : Iterate α) (gradientNorm : α) : Prop :=
  gradientNorm = Vec.norm iterate.g ∧ iterate.active = List.replicate iterate.x.length false

variable {s : Solve α σ ω} {search : LineSearch α} {initialStepSize : α} {number : Nat}
  {p : Progress α (History α)}

/-- A step is a move. -/
theorem Step.move {r : Round α (History α)} (h : Step s search initialStepSize number p r) :
    s.Move Measures number p r := by
  cases h with
  | restarted => exact .stayed ⟨rfl, rfl, rfl⟩ rfl rfl rfl rfl
  | moved directed settled =>
      have evaluated := (LineSearch.run_evaluated search).returned settled
      exact .moved ⟨rfl, rfl, rfl⟩ rfl ⟨evaluated.of_counted, rfl, rfl⟩ rfl

/-- A search that ends a round has seen one failed evaluation more than allowed, if it has
counted. -/
theorem Breakdown.counts {e : SolverError} (h : Breakdown s search initialStepSize p e) :
    e.EndsSearch search.params.maxEvaluationFailures := by
  obtain ⟨d, h, -, fails⟩ := h
  exact (LineSearch.run_evaluated search).failed fails

end Lbfgs

/-! ## All methods -/

namespace Method

/-- What the norm and the active bounds of an iterate are. -/
def Measures (method : Method α) (m : Model α σ) : Iterate α → α → Prop :=
  match method with
  | projectedNewton _ | newtonCg _ _ => TrustRegion.Measures m
  | lbfgs _ => Lbfgs.Measures

variable {s : Solve α σ Unit} {x₀ : Vec α} {state : σ} {method : Method α} {c : Course α σ}
  {start t : Counts × σ}

/-- Every round of a solve is a move. -/
theorem Opens.move (opens : Opens s x₀ state method c start) {k : Nat}
    {p : Progress α c.Memory} {r : Round α c.Memory} (h : Returns (c.round k p) r) :
    s.Move (method.Measures s.model) k p r := by
  cases opens with
  | @projectedNewton c _ _ opens =>
      exact opens.move (ProjectedNewton.stepper_sound
        (fun _ h => c.subproblem.plain_linearSolver h) c.cg) h
  | @newtonCg c _ _ _ _ opens =>
      exact opens.move (NewtonCg.stepper_sound
        (fun _ h => c.subproblem.plain_linearSolver h) c.cg _) h
  | lbfgs opens =>
      cases opens with
      | intro => exact ((Lbfgs.round_gives s _ _ k p).returned h).move

theorem Opens.first_stands (opens : Opens s x₀ state method c start) :
    s.model.Stands (method.Measures s.model) c.first.iterate c.first.gradientNorm := by
  cases opens with
  | projectedNewton opens => exact opens.first_stands
  | newtonCg _ opens => exact opens.first_stands
  | lbfgs opens =>
      cases opens with
      | intro _ _ _ _ _ evaluate =>
          exact ⟨Solve.evaluated_start evaluate.returns, rfl, rfl⟩

/-- Wherever the rounds lead, the iterate stands where the model has answered. -/
theorem Opens.trail_stands (opens : Opens s x₀ state method c start) {k : Nat}
    {p : Progress α c.Memory} {seen : List (Iteration α)} (trail : c.Trail start k p t seen) :
    s.model.Stands (method.Measures s.model) p.iterate p.gradientNorm := by
  refine trail.keeps (I := fun _ p _ =>
    s.model.Stands (method.Measures s.model) p.iterate p.gradientNorm) opens.first_stands ?_
  intro k p seen r hp hr
  cases opens.move hr with
  | stayed _ _ iterate gradientNorm =>
      rw [iterate, gradientNorm]
      exact hp
  | moved _ _ stands => exact stands

/-- A round that fails has exceeded an allowance by one, if its error has a count in it. -/
theorem Opens.fails_counts (opens : Opens s x₀ state method c start) {k : Nat}
    {p : Progress α c.Memory} {seen : List (Iteration α)} {e : SolverError}
    (trail : c.Trail start k p t seen) (fails : Fails (c.round (k + 1) p) e) :
    e.Counts (· = s.options.maxConsecutiveRejections + 1)
      (· = s.options.maxConsecutiveEvaluationFailures + 1) := by
  cases opens with
  | @projectedNewton c _ _ opens =>
      exact opens.fails_counts (ProjectedNewton.stepper_sound
        (fun _ h => c.subproblem.plain_linearSolver h) c.cg) trail fails
  | @newtonCg c _ _ _ _ opens =>
      exact opens.fails_counts (NewtonCg.stepper_sound
        (fun _ h => c.subproblem.plain_linearSolver h) c.cg _) trail fails
  | @lbfgs c _ _ opens =>
      cases opens with
      | intro =>
          have hends := ((Lbfgs.round_gives s _ _ _ p).failed fails).counts
          rw [c.search_params] at hends
          exact hends.mono (fun _ => False.elim) fun _ h => h

end Method

end Descent
