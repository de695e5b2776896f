import Descent.History
import Descent.LineSearch
import Descent.Solve

/-!
# The limited-memory BFGS method

A quasi-Newton method for problems without bounds. The direction of each iteration is the gradient
times the inverse approximation of a `History`, a line search picks the length, and the new pair
goes into the history if its curvature is positive.

When the search fails while there are pairs, they are forgotten and the next iteration follows the
steepest descent; a failure along the steepest descent ends the solve.
-/

set_option autoImplicit false

namespace Descent

namespace Lbfgs

/-- Settings of the method. The budgets of the line search are those of the solve. -/
structure Config (α : Type) [Scalar α] where
  lineSearch : LineSearchKind := .standard
  /-- Parameters of the search; without them, those that go with its kind. -/
  lineSearchParams : Option (LineSearchParams α) := none
  /-- The first length of a search along a direction that pairs have shaped. -/
  initialStepSize : α := 1

variable {α σ ω : Type} [Scalar α]

def Config.resolvedParams (c : Config α) (o : Options α) : LineSearchParams α :=
  (c.lineSearchParams.getD c.lineSearch.params).withBudgets o

/-- The direction of search and the history to go on with: the steepest descent without pairs, if
the direction of the pairs does not point downhill. -/
def direction (solver : String) (h : History α) (g : Vec α) : Run σ (Vec α × History α) := do
  let d := Vec.negate (← h.applyInverse g)
  if decide ((← Vec.dot g d) < 0) && Vec.allFinite d then
    return (d, h)
  else
    emit (.notDescent solver)
    return (Vec.negate g, h.clear)

/-- One round: a search, and what it means for the iterate and for the pairs. -/
def round (s : Solve α σ ω) (search : LineSearch α) (initialStepSize : α) (number : Nat)
    (p : Progress α (History α)) : Working σ (Round α (History α)) := do
  let m := s.model.counted
  let old := p.iterate
  let (d, h) ← (direction s.solver p.memory old.g : Run (Counts × σ) _)
  let first := if h.pairs.isEmpty then Scalar.minNum 1 (1 / p.gradientNorm) else initialStepSize
  match ← Run.caught (search.run m old.x old.f old.g d first) with
  | .error e =>
    if !h.pairs.isEmpty && e.isLineSearchFailure then
      emit (.restarted s.solver e.message)
      return {
        iteration :=
          { number, objective := old.f, gradientNorm := p.gradientNorm, stepNorm := 0, radius := 0
            ratio := none, kind := .lineSearch, accepted := false, elapsed := s.clock number }
        progress := { p with memory := h.clear }
        verdict := none }
    else throw e
  | .ok found =>
    let step ← Vec.sub found.point old.x
    let change ← Vec.sub found.gradient old.g
    let stepNorm := Vec.norm step
    m.acceptStep step change
    let (stored, h) ← (Run.inside (History.tryPush step change) h : Run (Counts × σ) _)
    if !stored then
      emit (.correctionSkipped s.solver)
    let norm := Vec.norm found.gradient
    return {
      iteration :=
        { number, objective := found.value, gradientNorm := norm, stepNorm
          radius := found.stepSize, ratio := none, kind := .lineSearch, accepted := true
          elapsed := s.clock number }
      progress := ⟨.free found.point found.value found.gradient number, norm, h⟩
      verdict := s.stepVerdict old.f found.value stepNorm (Vec.norm old.x) }

def name : String := "L-BFGS"

def minimize (c : Config α) (m : Model α σ) (x₀ : Vec α) (o : Options α) (observer : Observer α ω)
    (clock : Nat → Duration) : ExceptT SolverError (Run ((Counts × σ) × ω)) (Record α) := do
  if m.hasBounds then
    throw (.invalidConfiguration "L-BFGS handles unconstrained problems only, use TRON for bounds"
      "bounds" m.name)
  if ¬ 0 < c.initialStepSize then
    throw (.invalidConfiguration "initial step size must be positive" "initial_step_size"
      (Scalar.text c.initialStepSize))
  let params := c.resolvedParams o
  params.validate
  let h ← History.empty o.lbfgsMemory
  let s : Solve α σ ω := ⟨name, m, o, observer, clock⟩
  s.start x₀
  match ← (Run.onFst (Run.outcome (s.evaluateStart x₀)) : Solving σ ω _) with
  | .error e => s.finishAtStart x₀ e
  | .ok (f, g) =>
    s.iterate (round s (c.lineSearch.search params) c.initialStepSize)
      ⟨.free x₀ f g 0, Vec.norm g, h⟩

end Lbfgs

end Descent
