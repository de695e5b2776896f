import Descent.Operator
import Descent.Options

/-!
# Truncated conjugate gradients

An approximate minimizer of `gᵀw + ½ wᵀHw` over the ball `‖o + w‖ ≤ Δ` around `-o`, by the
conjugate gradient recurrence on `Hw = -g`. The iteration ends when the residual is small (an
interior step), when the next point would leave the ball (the step is cut at the boundary), or when
a direction of non-positive curvature turns up (it is followed to the boundary).
-/

set_option autoImplicit false

namespace Descent

namespace TruncatedCg

structure Config (α : Type) [Scalar α] where
  /-- The reduction of the residual that counts as converged. -/
  relativeTolerance : α := 0.1
  /-- The most iterations; without a number, as many as there are variables. -/
  maxIterations : Option Nat := none

variable {α σ : Type} [Scalar α]

def Config.validate (c : Config α) : Except SolverError Unit := do
  if ¬ (0 < c.relativeTolerance ∧ c.relativeTolerance < 1) then
    refuse "CG relative tolerance must be in (0, 1)" "relative_tolerance"
      (Scalar.text c.relativeTolerance)
  if c.maxIterations = some 0 then
    refuse "CG needs at least one iteration" "max_iterations" "0"

/-- The tolerance within a solve: tighter the smaller the norm of the gradient is. -/
def Config.toleranceAt (c : Config α) (gradientNorm : α) : α :=
  Scalar.minNum c.relativeTolerance (Scalar.sqrt gradientNorm)

structure Solution (α : Type) where
  /-- The step, without the offset. -/
  step : Vec α
  /-- Why the iteration stopped. -/
  kind : StepKind
  iterations : Nat
  residualNorm : α

/-- The greatest `τ ≥ 0` with `‖z + τp‖ ≤ Δ`; zero for a vanishing direction. The root is taken in
the form that does not cancel. -/
def boundaryStep (z p : Vec α) (radius : α) : Checked α := do
  let pp := Vec.normSquared p
  if pp == 0 then
    return 0
  let zp ← Vec.dot z p
  let slack := Scalar.maxNum (radius * radius - Vec.normSquared z) 0
  let root := Scalar.sqrt (zp * zp + pp * slack)
  let tau := if 0 < zp then slack / (zp + root) else (root - zp) / pp
  return Scalar.maxNum tau 0

/-- The state of the recurrence: the step so far, the residual `-g - Hw`, the direction of search
and the squared norm of the residual. -/
structure State (α : Type) where
  step : Vec α
  residual : Vec α
  direction : Vec α
  residualSquared : α

def State.initial (g : Vec α) : State α :=
  let r := Vec.negate g
  ⟨Vec.zeros g.length, r, r, Vec.normSquared r⟩

/-- The subproblem: the operator, the ball and the norm of the residual that is small enough. -/
structure Problem (α σ : Type) where
  operator : Operator α σ
  offset : Vec α
  radius : α
  tolerance : α

/-- The step prolonged along the direction of search up to the boundary. -/
def prolong (p : Problem α σ) (c : State α) : Checked (Vec α) := do
  let tau ← boundaryStep (← Vec.add p.offset c.step) c.direction p.radius
  Vec.addMultiple c.step tau c.direction

/-- Iteration `k`: the solution, or the state with which to go on. -/
def advance (p : Problem α σ) (k : Nat) (c : State α) :
    Evaluation σ (Solution α ⊕ State α) := do
  let hp ← p.operator.apply c.direction
  let curvature ← Vec.dot c.direction hp
  if 0 < curvature then
    let alpha := c.residualSquared / curvature
    let next ← Vec.along c.step c.direction alpha
    if p.radius ≤ Vec.norm (← Vec.add p.offset next) then
      let step ← prolong p c
      emit (.boundaryReached k)
      return .inl ⟨step, .boundary, k, Scalar.sqrt c.residualSquared⟩
    else
      let residual ← Vec.addMultiple c.residual (-alpha) hp
      let squared := Vec.normSquared residual
      if Scalar.sqrt squared ≤ p.tolerance then
        return .inl ⟨next, .interior, k, Scalar.sqrt squared⟩
      else
        let beta := squared / c.residualSquared
        return .inr ⟨next, residual, ← Vec.along residual c.direction beta, squared⟩
  else
    let step ← prolong p c
    emit (.negativeCurvature k)
    return .inl ⟨step, .negativeCurvature, k, Scalar.sqrt c.residualSquared⟩

/-- Iterates until there is a solution, at most `remaining` times after iteration `k`. -/
def iterate (p : Problem α σ) : (remaining k : Nat) → State α → Evaluation σ (Solution α)
  | 0, k, c => return ⟨c.step, .interior, k, Scalar.sqrt c.residualSquared⟩
  | remaining + 1, k, c => do
    match ← advance p (k + 1) c with
    | .inl solution => return solution
    | .inr next => iterate p remaining (k + 1) next

/-- Solves the subproblem around `offset` down to the relative tolerance `rtol`. It fails only where
the operator does. -/
def solveFrom (config : Config α) (op : Operator α σ) (g : Vec α) (radius : α) (offset : Vec α)
    (rtol : α) : Evaluation σ (Solution α) := do
  let start := State.initial g
  let tolerance := rtol * Scalar.sqrt start.residualSquared
  if start.residualSquared == 0 then
    return ⟨start.step, .interior, 0, 0⟩
  iterate ⟨op, offset, radius, tolerance⟩ (max (config.maxIterations.getD g.length) 1) 0 start

def solve (config : Config α) (op : Operator α σ) (g : Vec α) (radius : α) :
    Evaluation σ (Solution α) :=
  solveFrom config op g radius (Vec.zeros g.length) config.relativeTolerance

end TruncatedCg

end Descent
