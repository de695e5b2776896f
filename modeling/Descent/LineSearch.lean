import Descent.Model
import Descent.Options

/-!
# Line searches

A line search picks the length of a step along a descent direction `d` from a point `x`. With `φ(a)`
the objective at `x + a d`, the conditions on the length are

* sufficient decrease (Armijo): `φ(a) ≤ φ(0) + c₁ a φ'(0)`;
* weak curvature (Wolfe): `φ'(a) ≥ c₂ φ'(0)`;
* strong curvature: `|φ'(a)| ≤ c₂ |φ'(0)|`.

`backtrack` asks for sufficient decrease only and shortens the step by safeguarded interpolation.
`bracket` asks for a curvature condition too: it doubles the step until an interval is closed, then
bisects.

A trial point without a finite value counts as a step that is too long. More than a given number of
them in a row end a search, as do too many trials and steps that become too short.
-/

set_option autoImplicit false

namespace Descent

/-- What a search asks of the slope at its end. -/
inductive CurvatureCondition where
  /-- Nothing. -/
  | none
  | weak
  | strong
deriving DecidableEq, Repr

namespace CurvatureCondition

def all : List CurvatureCondition := [.none, .weak, .strong]

def name : CurvatureCondition → String
  | none => "None"
  | weak => "Weak"
  | strong => "Strong"

end CurvatureCondition

inductive LineSearchKind where
  | backtracking
  | wolfe
  | strongWolfe
deriving DecidableEq, Repr

namespace LineSearchKind

def standard : LineSearchKind := .wolfe

def all : List LineSearchKind := [.backtracking, .wolfe, .strongWolfe]

def name : LineSearchKind → String
  | backtracking => "Backtracking"
  | wolfe => "Wolfe"
  | strongWolfe => "StrongWolfe"

end LineSearchKind

structure LineSearchParams (α : Type) [Scalar α] where
  /-- The longest step that is tried. -/
  maxStepSize : α := 1e10
  /-- The shortest step that is tried. -/
  minStepSize : α := Scalar.minStepSize
  /-- The most trial points. -/
  maxTrials : Nat := 20
  /-- The constant of sufficient decrease. -/
  c1 : α := 1e-4
  /-- The constant of the curvature condition. -/
  c2 : α := 0.9
  /-- The greatest factor by which backtracking shortens a step. -/
  rho : α := 0.5
  condition : CurvatureCondition := .weak
  /-- The most failed evaluations in a row. -/
  maxEvaluationFailures : Nat := 10

def LineSearchKind.params {α : Type} [Scalar α] : LineSearchKind → LineSearchParams α
  | backtracking => { condition := .none }
  | wolfe => {}
  | strongWolfe => { condition := .strong }

namespace LineSearchParams

variable {α : Type} [Scalar α]

def withBudgets (p : LineSearchParams α) (o : Options α) : LineSearchParams α :=
  { p with
    maxTrials := o.lineSearchMaxTrials
    maxEvaluationFailures := o.maxConsecutiveEvaluationFailures }

/-- Checks the parameters; the first one out of range is reported. -/
def validate (p : LineSearchParams α) : Except SolverError Unit := do
  if ¬ 0 < p.minStepSize then
    refuse "minimum step size must be positive" "min_step_size" (Scalar.text p.minStepSize)
  if p.maxStepSize ≤ p.minStepSize then
    refuse "maximum step size must exceed the minimum step size" "max_step_size"
      (Scalar.text p.maxStepSize)
  if ¬ (0 < p.c1 ∧ p.c1 < 1) then
    refuse "Armijo constant c1 must be in (0, 1)" "c1" (Scalar.text p.c1)
  if ¬ (p.c1 < p.c2 ∧ p.c2 < 1) then
    refuse "curvature constant c2 must satisfy c1 < c2 < 1" "c2" (Scalar.text p.c2)
  if ¬ (0 < p.rho ∧ p.rho < 1) then
    refuse "contraction factor rho must be in (0, 1)" "rho" (Scalar.text p.rho)
  if p.maxTrials = 0 then
    refuse "at least one trial is required" "max_trials" "0"
  if p.maxEvaluationFailures = 0 then
    refuse "at least one evaluation failure must be tolerated" "max_evaluation_failures" "0"

end LineSearchParams

inductive LineSearch (α : Type) [Scalar α] where
  /-- Sufficient decrease only. -/
  | backtracking (params : LineSearchParams α)
  /-- Sufficient decrease and curvature; no curvature condition is read as the weak one. -/
  | wolfe (params : LineSearchParams α)

def LineSearchKind.search {α : Type} [Scalar α] (k : LineSearchKind) (p : LineSearchParams α) :
    LineSearch α :=
  match k with
  | backtracking => .backtracking p
  | wolfe | strongWolfe => .wolfe p

namespace LineSearch

structure Found (α : Type) where
  stepSize : α
  point : Vec α
  value : α
  gradient : Vec α
  /-- The trial points evaluated. -/
  trials : Nat
  /-- Those of them that failed. -/
  evaluationFailures : Nat

/-- The failed evaluations of a search: those in a row up to now and all of them. -/
structure Failures where
  run : Nat := 0
  total : Nat := 0

def Failures.interrupted (f : Failures) : Failures := { f with run := 0 }

/-- The answer of a search with a model behind it. -/
abbrev Search (σ β : Type) := ExceptT SolverError (Run σ) β

/-- Counts a failed evaluation; more than `cap` in a row end the search. -/
def Failures.record {σ : Type} (f : Failures) (cap : Nat) (reason : String) :
    Search σ Failures := do
  let run := f.run + 1
  emit (.trialUnevaluable run reason)
  if cap < run then
    throw (.evaluationFailures run reason)
  return ⟨run, f.total + 1⟩

variable {α σ : Type} [Scalar α]

/-- A search under way: the model, the start, and the direction with its slope. -/
structure Ray (α σ : Type) [Scalar α] where
  params : LineSearchParams α
  model : Model α σ
  x : Vec α
  f₀ : α
  direction : Vec α
  slope : α

namespace Ray

def pointAt (r : Ray α σ) (a : α) : Checked (Vec α) := Vec.along r.x r.direction a

/-- The greatest value with sufficient decrease at step length `a`. -/
def armijoBound (r : Ray α σ) (a : α) : α := r.f₀ + r.params.c1 * a * r.slope

def failure (r : Ray α σ) (reason : String) (trials : Nat) (a : α) : SolverError :=
  .lineSearchFailed reason trials (Scalar.toFloat a) (Scalar.toFloat r.f₀)

/-- The next step length after one with too great a value `f`: the minimizer of the parabola through
both values and the slope, kept between a tenth (or `ρ`, if that is less) and `ρ` times the last. -/
def interpolated (r : Ray α σ) (a f : α) : α :=
  let curvature := 2.0 * (f - r.f₀ - r.slope * a)
  let longest := r.params.rho * a
  let shortest := Scalar.minNum 0.1 r.params.rho * a
  let candidate := if 0 < curvature then -r.slope * a * a / curvature else longest
  Scalar.maxNum (Scalar.minNum candidate longest) shortest

def backtrack (r : Ray α σ) : (remaining k : Nat) → α → Failures → Search σ (Found α)
  | 0, _, a, _ =>
    throw (r.failure "trial budget exhausted without sufficient decrease" r.params.maxTrials a)
  | remaining + 1, k, a, failures => do
    if a < r.params.minStepSize then
      throw (r.failure "step length below minimum" k a)
    let point ← r.pointAt a
    match ← Evaluation.usable (r.model.objective point) Scalar.isFinite "objective" with
    | .error reason =>
      let failures ← failures.record r.params.maxEvaluationFailures reason
      r.backtrack remaining (k + 1) (a * r.params.rho) failures
    | .ok value =>
      let failures := failures.interrupted
      if value ≤ r.armijoBound a then
        match ← Evaluation.usable (r.model.gradient point) Vec.allFinite "gradient" with
        | .ok gradient => return ⟨a, point, value, gradient, k + 1, failures.total⟩
        | .error reason =>
          let failures ← failures.record r.params.maxEvaluationFailures reason
          r.backtrack remaining (k + 1) (a * r.params.rho) failures
      else r.backtrack remaining (k + 1) (r.interpolated a value) failures

/-- The state of the bracketing search: the last step with sufficient decrease that is too short,
the finite step that is too long if there is one, the step to try, and the last trial with
sufficient decrease. -/
structure Bracket (α : Type) [Scalar α] where
  lower : α := 0
  upper : Option α := none
  step : α
  failures : Failures := {}
  fallback : Option (Found α) := none

/-- The bracket whose upper end is the step just tried; an infinite step closes nothing. -/
def Bracket.closed (b : Bracket α) : Bracket α :=
  { b with upper := if Scalar.isFinite b.step then some b.step else none }

/-- The next step to try: the middle of a closed bracket, else twice the last step. `none` if the
last one was the longest allowed. -/
def nextStep (r : Ray α σ) (b : Bracket α) : Option α :=
  match b.upper with
  | some upper => some ((b.lower + upper) * 0.5)
  | none =>
    if r.params.maxStepSize ≤ b.step then none
    else some (Scalar.minNum (2.0 * b.step) r.params.maxStepSize)

/-- Judges trial number `k`, which was evaluated at the step of the bracket: a step to return, or
the narrowed bracket. -/
def judge (r : Ray α σ) (k : Nat) (b : Bracket α) (point : Vec α) (value : α)
    (gradient : Vec α) : Checked (Found α ⊕ Bracket α) := do
  if r.armijoBound b.step < value then
    return .inr b.closed
  let slope ← Vec.dot gradient r.direction
  let found : Found α := ⟨b.step, point, value, gradient, k, b.failures.total⟩
  if slope < r.params.c2 * r.slope then
    return .inr { b with lower := b.step, fallback := some found }
  else if r.params.condition = .strong ∧ -r.params.c2 * r.slope < slope then
    return .inr { b.closed with fallback := some found }
  else
    return .inl found

/-- Bracketing and bisection: trial number `k + 1` is at the step of the bracket. The result is a
step that meets the conditions, or the bracket that is left. -/
def bracket (r : Ray α σ) : (remaining k : Nat) → Bracket α → Search σ (Found α ⊕ Bracket α)
  | 0, _, b => return .inr b
  | remaining + 1, k, b => do
    if b.step < r.params.minStepSize then
      return .inr b
    let point ← r.pointAt b.step
    let isFinite (v : α × Vec α) := Scalar.isFinite v.1 && Vec.allFinite v.2
    let judged ←
      match ← Evaluation.usable (r.model.objectiveAndGradient point) isFinite
          "objective or gradient" with
      | .ok (value, gradient) =>
        r.judge (k + 1) { b with failures := b.failures.interrupted } point value gradient
      | .error reason => do
        let failures ← b.failures.record r.params.maxEvaluationFailures reason
        pure (.inr { b.closed with failures })
    match judged with
    | .inl found => return .inl found
    | .inr b =>
      match r.nextStep b with
      | some step => r.bracket remaining (k + 1) { b with step }
      | none => return .inr b

end Ray

def params : LineSearch α → LineSearchParams α
  | backtracking p | wolfe p => p

def name : LineSearch α → String
  | backtracking _ => "backtracking"
  | wolfe p => if p.condition = .strong then "strong-wolfe" else "wolfe"

/-- The slope along the direction, which must be finite and negative. -/
def descentSlope (g₀ direction : Vec α) (f₀ : α) : Search σ α := do
  let slope ← Vec.dot g₀ direction
  if decide (slope < 0) && Scalar.isFinite slope then
    return slope
  else
    throw (.lineSearchFailed "search direction is not a descent direction" 0 0
      (Scalar.toFloat f₀))

/-- Searches from `x`, where the objective is `f₀` and the gradient `g₀`, along a descent direction;
the first step tried is `initialStep`. A bracketing search without a step that meets all its
conditions returns the last one with sufficient decrease. -/
def run (s : LineSearch α) (m : Model α σ) (x : Vec α) (f₀ : α) (g₀ direction : Vec α)
    (initialStep : α) : Search σ (Found α) := do
  let slope ← descentSlope g₀ direction f₀
  let p := s.params
  let ray : Ray α σ := ⟨p, m, x, f₀, direction, slope⟩
  let first := Scalar.minNum initialStep p.maxStepSize
  match s with
  | backtracking _ => ray.backtrack p.maxTrials 0 first {}
  | wolfe _ =>
    match ← ray.bracket p.maxTrials 0 { step := first } with
    | .inl found => return found
    | .inr b =>
      match b.fallback with
      | some found =>
        emit (.armijoStepKept s.name (Scalar.toFloat found.stepSize))
        return { found with evaluationFailures := b.failures.total }
      | none =>
        throw (ray.failure "no step satisfying the Wolfe conditions" p.maxTrials b.step)

end LineSearch

end Descent
