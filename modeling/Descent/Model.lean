import Descent.Box
import Descent.Run
import Descent.Sparse

/-!
# Models

A `Model` is what a solver sees of a minimization problem: an objective and its derivatives, and
perhaps bounds and a starting point. Evaluations are computations with a state, so that a layer
around a model can count calls or learn curvature; a plain model leaves the state alone.

Only the objective and the gradient have to be given. Products with the Hessian come from forward
differences of the gradient, the dense Hessian from products with the coordinate vectors.
-/

set_option autoImplicit false

namespace Descent

abbrev Evaluation (σ β : Type) := ExceptT ModelError (Run σ) β

/-- The value of an evaluation that a solver cannot do without. -/
def Evaluation.required {σ β : Type} (evaluation : Evaluation σ β) :
    ExceptT SolverError (Run σ) β :=
  ExceptT.adapt SolverError.model evaluation

/-- The value of an evaluation, or why there is none that can be used: a failure that a shorter
step may mend, or a value that is not finite. Other failures are errors of the caller. -/
def Evaluation.usable {σ β : Type} (evaluation : Evaluation σ β) (isFinite : β → Bool)
    (what : String) : ExceptT SolverError (Run σ) (Except String β) := do
  match ← Run.caught evaluation with
  | .ok b => return if isFinite b then .ok b else .error ("non-finite " ++ what)
  | .error e => if e.isRecoverable then return .error e.message else throw (.model e)

/-- The product `∇²f(x) v` by a forward difference of the gradient along `v`. The step is
`√ε · max(1, ‖x‖) / ‖v‖`; along no direction at all the product is zero. -/
def forwardDifference {α σ : Type} [Scalar α] (gradient : Vec α → Evaluation σ (Vec α))
    (x v : Vec α) : Evaluation σ (Vec α) := do
  let length := Vec.norm v
  if length == 0 then
    return Vec.zeros x.length
  let step := Scalar.sqrtEpsilon * Scalar.maxNum 1 (Vec.norm x) / length
  let shifted ← Vec.along x v step
  let g₀ ← gradient x
  let g₁ ← gradient shifted
  return Vec.divide (← Vec.sub g₁ g₀) step

/-- The dense Hessian of `n` variables from products with the coordinate vectors, made symmetric. A
product of another length than `n` is a fault. -/
def hessianByColumns {α σ : Type} [Scalar α] (n : Nat)
    (hessianVector : Vec α → Vec α → Evaluation σ (Vec α)) (x : Vec α) :
    Evaluation σ (Matrix α) := do
  let columns ← (List.range n).mapM fun j => do
    let column ← hessianVector x (Vec.unit n j)
    if column.length ≠ n then
      throwThe Fault (.lengthMismatch n column.length)
    return column
  return Matrix.symmetricPart columns

/-- A minimization problem as a solver sees it. -/
structure Model (α σ : Type) [Scalar α] where
  /-- The number of variables. -/
  dimension : Nat
  /-- What messages call the problem. -/
  name : String := "model"
  objective : Vec α → Evaluation σ α
  gradient : Vec α → Evaluation σ (Vec α)
  /-- Both at once, for models whose values share work. -/
  objectiveAndGradient : Vec α → Evaluation σ (α × Vec α) := fun x => do
    let f ← objective x
    let g ← gradient x
    return (f, g)
  /-- The product of the Hessian at the first vector with the second. -/
  hessianVector : Vec α → Vec α → Evaluation σ (Vec α) := forwardDifference gradient
  /-- The Hessian as a dense matrix. -/
  hessian : Vec α → Evaluation σ (Matrix α) := hessianByColumns dimension hessianVector
  /-- The Hessian as a sparse matrix, from models that have one; solvers then multiply with it. -/
  sparseHessian : Vec α → Evaluation σ (Option (Sparse α)) := fun _ => pure none
  /-- The lower and the upper bounds; nothing is promised about them. -/
  sides : Vec α × Vec α :=
    (Vec.constant dimension (-Scalar.infinity), Vec.constant dimension Scalar.infinity)
  /-- A suggested starting point. -/
  initialPoint : Option (Vec α) := none
  /-- Notice of an accepted step and of the change of the gradient along it. -/
  acceptStep : Vec α → Vec α → Run σ Unit := fun _ _ => pure ()

namespace Model

variable {α σ : Type} [Scalar α]

def hasBounds (m : Model α σ) : Bool :=
  m.sides.1.any Scalar.isFinite || m.sides.2.any Scalar.isFinite

def project (m : Model α σ) (x : Vec α) : Checked (Vec α) := do
  Box.project (← Vec.combine Interval.mk m.sides.1 m.sides.2) x

/-- The bounds as a box, if they are as many as the variables and make valid intervals. -/
def box (m : Model α σ) : Except ModelError (Box α) := do
  ModelError.checkLength m.dimension m.sides.1
  Box.ofSides m.sides.1 m.sides.2

end Model

end Descent
