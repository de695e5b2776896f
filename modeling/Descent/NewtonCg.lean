import Descent.TrustRegion

/-!
# The Newton-CG method

A trust-region Newton method for problems without bounds: the Newton step within the radius is the
trial step. A rejected step that points downhill may be rescued by a backtracking line search along
it.
-/

set_option autoImplicit false

namespace Descent

namespace NewtonCg

variable {α σ ω : Type} [Scalar α]

def newtonStep (linear : Option (LinearSolver α)) (cg : TruncatedCg.Config α)
    (curvature : Curvature α σ) (iterate : Iterate α) (radius gradientNorm : α) :
    ExceptT SolverError (Run σ) (Vec α × StepKind) :=
  let n := iterate.x.length
  match linear with
  | some solver => do
    let hessian ← Evaluation.required curvature.toDense
    Run.ofChecked (TrustRegion.directStep solver hessian iterate.g (List.replicate n true)
      (Vec.zeros n) radius)
  | none => do
    let solution ← Evaluation.required (TruncatedCg.solveFrom cg curvature.operator iterate.g
      radius (Vec.zeros n) (cg.toleranceAt gradientNorm))
    emit (.newtonStep solution.iterations solution.kind)
    return (solution.step, solution.kind)

def propose (linear : Option (LinearSolver α)) (cg : TruncatedCg.Config α) (m : Model α σ)
    (iterate : Iterate α) (radius gradientNorm : α) :
    ExceptT SolverError (Run σ) (TrustRegion.Trial α) := do
  let curvature ← Evaluation.required (Curvature.ofModel m iterate.x)
  let (step, kind) ← newtonStep linear cg curvature iterate radius gradientNorm
  let q ← Evaluation.required (curvature.operator.quadratic iterate.g step)
  return ⟨← Vec.add iterate.x step, step, -q, kind⟩

/-- The first length of the rescuing search: the minimizer of the parabola through both values and
the slope, kept between a tenth and a half. -/
def firstLength (f value slope : α) : α :=
  let curvature := value - f - slope
  let guess := if 0 < curvature then -slope / (curvature + curvature) else 0.5
  Scalar.maxNum 0.1 (Scalar.minNum guess 0.5)

/-- A line search along a rejected step that points downhill. A search that fails rescues
nothing. -/
def rescue (params : Option (LineSearchParams α)) (m : Model α σ) (iterate : Iterate α)
    (trial : TrustRegion.Trial α) (value : α) :
    ExceptT SolverError (Run σ) (Option (LineSearch.Found α)) := do
  let some params := params | return none
  let slope ← Vec.dot iterate.g trial.step
  if ¬ slope < 0 then
    return none
  let search := (LineSearch.backtracking params).run m iterate.x iterate.f iterate.g trial.step
    (firstLength iterate.f value slope)
  match ← Run.caught search with
  | .ok found => return some found
  | .error e =>
    if e.isLineSearchFailure then
      emit (.rescueFailed e.message)
      return none
    else throw e

def stepper (linear : Option (LinearSolver α)) (cg : TruncatedCg.Config α)
    (params : Option (LineSearchParams α)) : TrustRegion.Stepper α σ Unit where
  fresh := ()
  propose m _ iterate radius gradientNorm _ := do
    let trial ← ExceptT.adapt (fun e => (e, ()))
      (propose linear cg m iterate radius gradientNorm)
    return (trial, ())
  rescue := rescue params

def name : String := "trunk"

/-- Minimizes a model without bounds from a starting point, with or without the rescue of rejected
steps. -/
def minimize (c : TrustRegion.Config α) (withRescue : Bool) (m : Model α σ) (x₀ : Vec α)
    (o : Options α) (observer : Observer α ω) (clock : Nat → Duration) :
    ExceptT SolverError (Run ((Counts × σ) × ω)) (Record α) := do
  if m.hasBounds then
    throw (.invalidConfiguration "trunk handles unconstrained problems only, use TRON for bounds"
      "bounds" m.name)
  let params := (LineSearchKind.backtracking.params : LineSearchParams α).withBudgets o
  if withRescue then
    params.validate
  TrustRegion.minimize ⟨name, m, o, observer, clock⟩
    (stepper c.subproblem.linearSolver c.cg (if withRescue then some params else none)) c x₀

end NewtonCg

end Descent
