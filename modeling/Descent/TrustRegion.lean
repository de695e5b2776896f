import Descent.LinearSolver
import Descent.LineSearch
import Descent.Solve
import Descent.TruncatedCg

/-!
# Trust regions

The globalization that the Newton methods share. A stepper proposes a trial step within the current
radius together with the decrease that the quadratic model predicts; the step is accepted if the
ratio of the actual to the predicted decrease is above a threshold. The radius shrinks after a poor
ratio, grows after a good one if the step reached the boundary, and else stays, so that poor steps
never make it grow.

A trial point without values shrinks the radius too. Too many of them in a row, or too many rejected
steps in a row, end the solve.
-/

set_option autoImplicit false

namespace Descent

/-- How the subproblem within the radius is solved. -/
inductive Subproblem where
  /-- Truncated conjugate gradients. -/
  | truncatedCg
  /-- An exact Newton step, cut at the boundary. -/
  | direct (backend : Backend)
deriving DecidableEq, Repr

def Subproblem.linearSolver {α : Type} [Scalar α] : Subproblem → Option (LinearSolver α)
  | truncatedCg => none
  | direct backend => some backend.solver

namespace TrustRegion

structure Config (α : Type) [Scalar α] where
  /-- The greatest radius. -/
  maxRadius : α := 1e10
  /-- The ratio above which a step is accepted. -/
  acceptanceRatio : α := 1e-4
  /-- The ratio below which the radius shrinks. -/
  decreaseThreshold : α := 0.25
  /-- The ratio above which a step to the boundary makes the radius grow. -/
  increaseThreshold : α := 0.75
  decreaseFactor : α := 0.25
  increaseFactor : α := 2.0
  subproblem : Subproblem := .truncatedCg
  cg : TruncatedCg.Config α := {}

variable {α σ ω μ : Type} [Scalar α]

/-- Checks the settings; the first one out of range is reported. -/
def Config.validate (c : Config α) : Except SolverError Unit := do
  if ¬ 0 < c.maxRadius then
    refuse "maximum radius must be positive" "max_radius" (Scalar.text c.maxRadius)
  if ¬ (0 ≤ c.acceptanceRatio ∧ c.acceptanceRatio < c.decreaseThreshold) then
    refuse "acceptance ratio must be in [0, decrease_threshold)" "acceptance_ratio"
      (Scalar.text c.acceptanceRatio)
  if ¬ (c.decreaseThreshold ≤ c.increaseThreshold ∧ c.increaseThreshold < 1) then
    refuse "thresholds must satisfy decrease_threshold <= increase_threshold < 1"
      "increase_threshold" (Scalar.text c.increaseThreshold)
  if ¬ (0 < c.decreaseFactor ∧ c.decreaseFactor < 1) then
    refuse "decrease factor must be in (0, 1)" "decrease_factor" (Scalar.text c.decreaseFactor)
  if ¬ 1 < c.increaseFactor then
    refuse "increase factor must exceed 1" "increase_factor" (Scalar.text c.increaseFactor)
  c.cg.validate

/-! ## The radius -/

/-- The radius and the runs of bad luck that go with it. -/
structure State (α : Type) where
  radius : α
  /-- The ratio of the last step that was evaluated. -/
  ratio : Option α := none
  /-- Rejected steps since the last accepted one. -/
  rejections : Nat := 0
  /-- Failed evaluations since the last successful one. -/
  failures : Nat := 0

namespace State

/-- After a step of a given ratio and length: a poor ratio shrinks the radius, or the length if that
is less; a good one at the boundary lets it grow. -/
def update (s : State α) (c : Config α) (ratio stepNorm : α) (hitBoundary : Bool) : State α :=
  if ratio < c.decreaseThreshold then
    let base := if 0 < stepNorm then Scalar.minNum stepNorm s.radius else s.radius
    { s with ratio := some ratio, radius := c.decreaseFactor * base }
  else if decide (c.increaseThreshold < ratio) && hitBoundary then
    { s with
      ratio := some ratio, radius := Scalar.minNum (c.increaseFactor * s.radius) c.maxRadius }
  else { s with ratio := some ratio }

/-- After a failed evaluation. -/
def shrink (s : State α) (c : Config α) : State α :=
  { s with ratio := none, radius := c.decreaseFactor * s.radius }

/-- After a rescue by a line search: the radius is the length of the step it took. -/
def reset (s : State α) (c : Config α) (ratio stepNorm : α) : State α :=
  { s with
    ratio := some ratio
    radius := Scalar.minNum (Scalar.maxNum stepNorm Scalar.epsilon) c.maxRadius }

/-- No run of bad luck any more. -/
def settled (s : State α) : State α := { s with rejections := 0, failures := 0 }

end State

/-- Actual decrease over predicted decrease; `-∞` if no decrease is predicted. -/
def reductionRatio (f fNew predicted : α) : α :=
  if 0 < predicted then (f - fNew) / predicted else -Scalar.infinity

/-- Whether a step of the given kind and length reached the boundary of the ball. -/
def hitBoundary (kind : StepKind) (stepNorm radius : α) : Bool :=
  kind == .boundary || kind == .negativeCurvature || decide (0.99 * radius ≤ stepNorm)

/-! ## Steps -/

structure Trial (α : Type) where
  point : Vec α
  step : Vec α
  /-- The decrease `-(gᵀs + ½ sᵀHs)` that the quadratic model predicts. -/
  predicted : α
  kind : StepKind

/-- A source of trial steps, with a memory that lasts from one iteration to the next. -/
structure Stepper (α σ μ : Type) [Scalar α] where
  /-- The memory at the start. -/
  fresh : μ
  /-- The trial step from an iterate within a radius, given the norm of the projected gradient.
  The memory changes even where the step fails. -/
  propose : Model α σ → Box α → Iterate α → α → α → μ →
    ExceptT (SolverError × μ) (Run σ) (Trial α × μ)
  /-- A second chance for a rejected step, at which the objective has the given value. -/
  rescue : Model α σ → Iterate α → Trial α → α →
    ExceptT SolverError (Run σ) (Option (LineSearch.Found α)) := fun _ _ _ _ => pure none

/-- The Newton step on the free variables, cut at the boundary of the ball around `-offset`: the
solution of the reduced system by the given linear solver, and zero on the other variables. -/
def directStep (solver : LinearSolver α) (hessian : Matrix α) (g : Vec α) (free : List Bool)
    (offset : Vec α) (radius : α) : ExceptT SolverError Checked (Vec α × StepKind) := do
  let mask ← ((List.range g.length).mapM (entryAt free) : Checked (List Bool))
  let index := (List.range g.length).filter fun i => mask.getD i false
  if index.isEmpty then
    return (Vec.zeros g.length, .direct)
  let rows ← (index.mapM fun i => index.mapM fun j => hessian.entry i j : Checked (List (Vec α)))
  let reduced : Matrix α := Matrix.ofFn index.length index.length fun i j =>
    (rows.getD i []).getD j 0
  let rhs := index.map fun i => -(g.getD i 0)
  let solution ← solver.solveOnce reduced rhs
  if !Vec.allFinite solution then
    throw (.singularSystem (solver.name ++ " produced a non-finite solution"))
  let placed := index.zip solution
  let w := (List.range g.length).map fun i => (placed.lookup i).getD 0
  let tau ← (TruncatedCg.boundaryStep offset w radius : Checked α)
  return if tau < 1 then (Vec.scale w tau, .boundary) else (w, .direct)

/-! ## Rounds -/

inductive Outcome (α : Type) where
  /-- There is no value at the trial point. -/
  | failed (reason : String)
  | rejected (trial : Trial α) (value ratio : α)
  | accepted (trial : Trial α) (value : α) (gradient : Vec α) (ratio : α)
  /-- A line search rescued the rejected step. -/
  | rescued (found : LineSearch.Found α) (ratio : α)

/-- Evaluates a trial step: the objective first, the gradient only if the step is accepted. -/
def assess (c : Config α) (m : Model α σ) (iterate : Iterate α) (trial : Trial α) :
    ExceptT SolverError (Run σ) (Outcome α) := do
  match ← Evaluation.usable (m.objective trial.point) Scalar.isFinite
      "objective at trial point" with
  | .error reason => return .failed reason
  | .ok value =>
    let ratio := reductionRatio iterate.f value trial.predicted
    if c.acceptanceRatio < ratio then
      match ← Evaluation.usable (m.gradient trial.point) Vec.allFinite
          "gradient at trial point" with
      | .error reason => return .failed reason
      | .ok gradient => return .accepted trial value gradient ratio
    else return .rejected trial value ratio

def attempt (stepper : Stepper α σ μ) (c : Config α) (m : Model α σ) (box : Box α)
    (iterate : Iterate α) (radius gradientNorm : α) (memory : μ) :
    ExceptT SolverError (Run σ) (Outcome α × μ) := do
  match ← Run.caught (stepper.propose m box iterate radius gradientNorm memory) with
  | .error (.model e, memory) =>
    if e.isRecoverable then return (.failed e.message, memory) else throw (.model e)
  | .error (e, _) => throw e
  | .ok (trial, memory) =>
    match ← assess c m iterate trial with
    | .rejected trial value ratio =>
      match ← stepper.rescue m iterate trial value with
      | some found => return (.rescued found ratio, memory)
      | none => return (.rejected trial value ratio, memory)
    | outcome => return (outcome, memory)

def optimality (box : Box α) (x g : Vec α) : Checked (α × List Bool) := do
  let projected ← box.projectedGradient x g
  return (Vec.norm projected, ← Box.activeMask 0 box x g)

/-- Tells the model of the accepted step and moves to its end: the new iterate and the norm of the
projected gradient there. -/
def moveTo (m : Model α σ) (box : Box α) (iterate : Iterate α) (point : Vec α) (value : α)
    (gradient : Vec α) (iteration : Nat) : Run σ (Iterate α × α) := do
  let s ← Vec.sub point iterate.x
  let y ← Vec.sub gradient iterate.g
  m.acceptStep s y
  let (norm, active) ← optimality box point gradient
  return (⟨point, value, gradient, active, iteration⟩, norm)

/-- What a solve with a trust region remembers: the radius, and the memory of the stepper. -/
structure Memory (α μ : Type) where
  region : State α
  stepper : μ

def report (s : Solve α σ ω) (number : Nat) (p : Progress α (Memory α μ)) (stepNorm : α)
    (kind : StepKind) (accepted : Bool) (verdict : Option Status) : Round α (Memory α μ) where
  iteration :=
    { number, objective := p.iterate.f, gradientNorm := p.gradientNorm, stepNorm
      radius := p.memory.region.radius, ratio := p.memory.region.ratio, kind, accepted
      elapsed := s.clock number }
  progress := p
  verdict := verdict

/-- One round: an attempt, and what it means for the iterate and for the radius. -/
def round (s : Solve α σ ω) (stepper : Stepper α (Counts × σ) μ) (c : Config α) (box : Box α)
    (number : Nat) (p : Progress α (Memory α μ)) : Working σ (Round α (Memory α μ)) := do
  let m := s.model.counted
  let region := p.memory.region
  let (outcome, memory) ←
    attempt stepper c m box p.iterate region.radius p.gradientNorm p.memory.stepper
  match outcome with
  | .failed reason =>
    let region := { region.shrink c with failures := region.failures + 1 }
    emit (.stepUnevaluable s.solver reason (Scalar.toFloat region.radius))
    if s.options.maxConsecutiveEvaluationFailures < region.failures then
      throw (.evaluationFailures region.failures reason)
    return report s number { p with memory := ⟨region, memory⟩ } 0 .interior false none
  | .rejected trial _ ratio =>
    let stepNorm := Vec.norm trial.step
    let region :=
      { region.update c ratio stepNorm (hitBoundary trial.kind stepNorm region.radius) with
        failures := 0, rejections := region.rejections + 1 }
    if s.options.maxConsecutiveRejections < region.rejections then
      throw (.stagnation region.rejections (Scalar.toFloat region.radius))
    return report s number { p with memory := ⟨region, memory⟩ } stepNorm trial.kind false none
  | .accepted trial value gradient ratio =>
    let stepNorm := Vec.norm trial.step
    let region := region.update c ratio stepNorm (hitBoundary trial.kind stepNorm region.radius)
    let (iterate, norm) ← moveTo m box p.iterate trial.point value gradient number
    return report s number ⟨iterate, norm, ⟨region.settled, memory⟩⟩ stepNorm trial.kind true
      (s.stepVerdict p.iterate.f value stepNorm (Vec.norm p.iterate.x))
  | .rescued found ratio =>
    let stepNorm := Vec.norm (← Vec.sub found.point p.iterate.x)
    emit (.stepRescued s.solver (Scalar.toFloat ratio) (Scalar.toFloat found.stepSize))
    let (iterate, norm) ← moveTo m box p.iterate found.point found.value found.gradient number
    return report s number ⟨iterate, norm, ⟨(region.reset c ratio stepNorm).settled, memory⟩⟩
      stepNorm .lineSearch true
      (s.stepVerdict p.iterate.f found.value stepNorm (Vec.norm p.iterate.x))

/-- A whole solve: the checks, the projection of the starting point onto the box, and the rounds.
The first radius is that of the options, or the norm of the projected gradient at the start. -/
def minimize (s : Solve α σ ω) (stepper : Stepper α (Counts × σ) μ) (c : Config α) (x₀ : Vec α) :
    ExceptT SolverError (Run ((Counts × σ) × ω)) (Record α) := do
  c.validate
  s.start x₀
  let box ← s.model.box.mapError SolverError.model
  let x ← box.project x₀
  match ← (Run.onFst (Run.outcome (s.evaluateStart x)) : Solving σ ω _) with
  | .error e => s.finishAtStart x e
  | .ok (f, g) =>
    let (norm, active) ← optimality box x g
    let initial := s.options.trustRegionInitialRadius.getD (if 0 < norm then norm else 1)
    let radius := Scalar.minNum initial c.maxRadius
    emit (.startEvaluated s.solver (Scalar.toFloat f) (Scalar.toFloat norm)
      (Scalar.toFloat radius))
    s.iterate (round s stepper c box) ⟨⟨x, f, g, active, 0⟩, norm, ⟨{ radius }, stepper.fresh⟩⟩

end TrustRegion

end Descent
