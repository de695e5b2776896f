import Descent.Lbfgs
import Descent.Proofs.Course
import Descent.Proofs.LineSearch

/-!
# The rounds of the limited-memory BFGS method

What one round can do (`Step`) and how one can fail (`Breakdown`). The round does nothing else
(`round_gives`), and a whole solve is a course of such rounds from the starting point
(`minimize_settles`).
-/

set_option autoImplicit false

namespace Descent.Lbfgs

open Run

variable {α σ ω : Type} [Scalar α]

/-! ## Rounds -/

/-- A direction of search at the gradient `g`, with the history to go on with: the one that the
pairs have shaped, which points downhill, or the steepest descent without pairs. -/
inductive Directed (h : History α) (g : Vec α) : Vec α → History α → Prop
  | shaped {v : Vec α} {slope : α} (product : h.applyInverse g = .ok v)
      (dot : Vec.dot g (Vec.negate v) = .ok slope) (downhill : slope < 0)
      (isFinite : Vec.allFinite (Vec.negate v) = true) : Directed h g (Vec.negate v) h
  | steepest : Directed h g (Vec.negate g) h.clear

theorem direction_directed (solver : String) (h : History α) (g : Vec α) :
    Ensures (fun _ => True) (direction solver h g : Run σ (Vec α × History α))
      fun r => Directed h g r.1 r.2 := by
  refine Ensures.bind (Ensures.checked fun _ h => h) fun v product => ?_
  refine Ensures.bind (Ensures.checked fun _ h => h) fun slope dot => ?_
  split
  · next hdownhill =>
      rw [Bool.and_eq_true, decide_eq_true_eq] at hdownhill
      exact Ensures.pure (.shaped product dot hdownhill.1 hdownhill.2)
  · exact Ensures.bind Ensures.trivial fun _ _ => Ensures.pure .steepest

/-- The first step length of a round: along the steepest descent a step of length 1 at most. -/
def firstStep (initialStepSize gradientNorm : α) (h : History α) : α :=
  if h.pairs.isEmpty then Scalar.minNum 1 (1 / gradientNorm) else initialStepSize

inductive Step (s : Solve α σ ω) (search : LineSearch α) (initialStepSize : α) (number : Nat)
    (p : Progress α (History α)) : Round α (History α) → Prop
  /-- The search has failed and the pairs are forgotten: the iterate stays. -/
  | restarted {d : Vec α} {h : History α} (directed : Directed p.memory p.iterate.g d h)
      (paired : h.pairs.isEmpty = false) : Step s search initialStepSize number p {
        iteration :=
          { number, objective := p.iterate.f, gradientNorm := p.gradientNorm, stepNorm := 0
            radius := 0, ratio := none, kind := .lineSearch, accepted := false
            elapsed := s.clock number }
        progress := { p with memory := h.clear }
        verdict := none }
  /-- The search has found a step: the iterate moves to its end, and the history may grow. -/
  | moved {d step change : Vec α} {h h' : History α} {found : LineSearch.Found α}
      (directed : Directed p.memory p.iterate.g d h)
      (settled : Returns (search.run s.model.counted p.iterate.x p.iterate.f p.iterate.g d
        (firstStep initialStepSize p.gradientNorm h)) found)
      (step_eq : Vec.sub found.point p.iterate.x = .ok step)
      (change_eq : Vec.sub found.gradient p.iterate.g = .ok change)
      (pushed : ∃ journal, h' = ((History.tryPush step change).start h journal).1.2) :
      Step s search initialStepSize number p {
        iteration :=
          { number, objective := found.value, gradientNorm := Vec.norm found.gradient
            stepNorm := Vec.norm step, radius := found.stepSize, ratio := none
            kind := .lineSearch, accepted := true, elapsed := s.clock number }
        progress := ⟨.free found.point found.value found.gradient number,
          Vec.norm found.gradient, h'⟩
        verdict := s.stepVerdict p.iterate.f found.value (Vec.norm step)
          (Vec.norm p.iterate.x) }

def Breakdown (s : Solve α σ ω) (search : LineSearch α) (initialStepSize : α)
    (p : Progress α (History α)) (e : SolverError) : Prop :=
  ∃ d h, Directed p.memory p.iterate.g d h ∧
    Fails (search.run s.model.counted p.iterate.x p.iterate.f p.iterate.g d
      (firstStep initialStepSize p.gradientNorm h)) e

/-- **A round is a step or a breakdown.** -/
theorem round_gives (s : Solve α σ ω) (search : LineSearch α) (initialStepSize : α) (number : Nat)
    (p : Progress α (History α)) :
    Gives (round s search initialStepSize number p) (Step s search initialStepSize number p)
      (Breakdown s search initialStepSize p) := by
  refine Gives.bind (Gives.lift (direction_directed _ _ _)) ?_
  rintro ⟨d, h⟩ directed
  refine Gives.bind (Gives.caught Gives.self) ?_
  rintro (e | found) hsearch
  · dsimp only
    split
    · next hpairs =>
        rw [Bool.and_eq_true, Bool.not_eq_true'] at hpairs
        exact Gives.bind Gives.emit fun _ _ => Gives.pure (.restarted directed hpairs.1)
    · exact Gives.throw ⟨d, h, directed, hsearch⟩
  · refine Gives.bind (Gives.checked fun _ h => h) fun step hstep => ?_
    refine Gives.bind (Gives.checked fun _ h => h) fun change hchange => ?_
    refine Gives.bind (Gives.lift Ensures.trivial) fun _ _ => ?_
    refine Gives.bind (Gives.lift Ensures.inside) ?_
    rintro ⟨stored, h'⟩ ⟨journal, hpush⟩
    have pushed : ∃ journal, h' = ((History.tryPush step change).start h journal).1.2 :=
      ⟨journal, by rw [hpush]⟩
    dsimp only
    split
    · exact Gives.bind Gives.emit fun _ _ =>
        Gives.pure (.moved directed hsearch hstep hchange pushed)
    · exact Gives.pure (.moved directed hsearch hstep hchange pushed)

/-! ## Whole solves -/

/-- The course of a solve from a point with the objective `f` and the gradient `g`. -/
def course (s : Solve α σ ω) (search : LineSearch α) (initialStepSize : α) (h : History α)
    (x : Vec α) (f : α) (g : Vec α) : Course α σ where
  Memory := History α
  first := ⟨.free x f g 0, Vec.norm g, h⟩
  round := round s search initialStepSize

def Config.search (c : Config α) (o : Options α) : LineSearch α :=
  c.lineSearch.search (c.resolvedParams o)

theorem Config.search_params (c : Config α) (o : Options α) :
    (c.search o).params = c.resolvedParams o := by
  unfold search LineSearchKind.search
  cases c.lineSearch <;> rfl

def StartsAt (x₀ x : Vec α) : Prop := x = x₀

/-- The courses that a solve from `x₀` and a state of the model can take, with the state in which
the first round finds the model. -/
inductive Opens (s : Solve α σ ω) (c : Config α) (x₀ : Vec α) (state : σ) :
    Course α σ → Counts × σ → Prop
  | intro {g : Vec α} {f : α} {h : History α} {start : Counts × σ}
      (positive : 0 < c.initialStepSize)
      (settings : (c.resolvedParams s.options).validate = .ok ())
      (memory : History.empty s.options.lbfgsMemory = .ok h)
      (options : s.options.validate = .ok ()) (length : x₀.length = s.model.dimension)
      (evaluate : Leads (s.evaluateStart x₀) ({}, state) (f, g) start) :
      Opens s c x₀ state (course s (c.search s.options) c.initialStepSize h x₀ f g) start

/-- **A solve takes a course.** What its parts do, a solve does. -/
theorem minimize_settles {s : Solve α σ ω} {x₀ : Vec α} {state : σ} {K₀ K₁ : ω → Prop}
    {R : Record α → (Counts × σ) × ω → Prop} {E : SolverError → (Counts × σ) × ω → Prop}
    {F : (Counts × σ) × ω → Prop} (hname : s.solver = name) (c : Config α)
    (h : s.Parts (StartsAt x₀) (Opens s.unobserved c x₀ state) state K₀ K₁ R E F) :
    Settles (fun u => u.1 = ({}, state) ∧ K₀ u.2)
      (minimize c s.model x₀ s.options s.observer s.clock) R E F := by
  obtain ⟨_, m, options, observer, clock⟩ := s
  obtain rfl : _ = name := hname
  have hrefused : ∀ e, (∀ inner, e ≠ .model inner) → ∀ u : (Counts × σ) × ω,
      u.1 = ({}, state) ∧ K₀ u.2 → E e u :=
    fun e he u hu => h.refused e u he hu.1 hu.2
  unfold minimize
  dsimp only
  split
  · exact Settles.throw_bind (hrefused _ nofun)
  · split
    · exact Settles.throw_bind (hrefused _ nofun)
    · next positive =>
        refine Settles.bind (Settles.ofExcept (fun _ h _ hu => And.intro hu h) fun e he =>
          hrefused e ((c.resolvedParams options).namesSetting_validate.not_model he)) fun _ =>
          Settles.assume fun settings => ?_
        refine Settles.bind (Settles.ofExcept (fun _ h _ hu => And.intro hu h) fun e he =>
          hrefused e ((History.namesSetting_empty options.lbfgsMemory).not_model he)) fun history =>
          Settles.assume fun memory => ?_
        refine Settles.bind (Settles.mono (Solve.start_settles x₀ h.started) (fun _ hu => hu)
          (fun _ _ hu => hu) (fun e u hu => hrefused e hu.1.2 u hu.2) fun _ hu => hu) fun _ =>
          Settles.assume fun hstart => ?_
        refine Solve.evaluated_settles h.fault
          (fun e t breaks => h.atStart x₀ e t rfl breaks) fun f g start evaluate => ?_
        exact Settles.lift (h.rounds _ start
          (.intro (Decidable.of_not_not positive) settings memory hstart.1 hstart.2 evaluate))

end Descent.Lbfgs
