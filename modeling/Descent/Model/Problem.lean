import Descent.Model
import Descent.Quoted

/-!
# Problems given by functions

A `Problem` is a model whose objective and gradient, and perhaps products with the Hessian, are
given as functions. They are asked only at points of the right length. The bounds are taken as
given; `validate` checks them.
-/

set_option autoImplicit false

namespace Descent

structure Problem (α : Type) [Scalar α] where
  name : String := "problem"
  dimension : Nat
  lower : Vec α := Vec.constant dimension (-Scalar.infinity)
  upper : Vec α := Vec.constant dimension Scalar.infinity
  initialPoint : Option (Vec α) := none
  objective : Vec α → Except ModelError α
  gradient : Vec α → Except ModelError (Vec α)
  /-- Products with the Hessian, if there is something better than differences. -/
  hessianVector : Option (Vec α → Vec α → Except ModelError (Vec α)) := none

namespace Problem

variable {α : Type} [Scalar α]

def withLowerBound (p : Problem α) (bound : α) : Problem α :=
  { p with lower := Vec.constant p.dimension bound }

def withUpperBound (p : Problem α) (bound : α) : Problem α :=
  { p with upper := Vec.constant p.dimension bound }

def hasBounds (p : Problem α) : Bool :=
  p.lower.any Scalar.isFinite || p.upper.any Scalar.isFinite

/-- Refuses the first variable, counted from `k`, whose lower bound is above the upper one. -/
def checkOrder (k : Nat) : Vec α → Vec α → Except ModelError Unit
  | l :: lower, u :: upper =>
    if u < l then
      .error (.invalidParameter ("lower bound " ++ Scalar.text l ++ " exceeds upper bound "
        ++ Scalar.text u ++ s!" for variable {k}"))
    else checkOrder (k + 1) lower upper
  | _, _ => .ok ()

/-- Checks the lengths of the bounds and of the starting point, then the order of the bounds. -/
def validate (p : Problem α) : Except ModelError Unit := do
  ModelError.checkLength p.dimension p.lower
  ModelError.checkLength p.dimension p.upper
  if let some x₀ := p.initialPoint then
    ModelError.checkLength p.dimension x₀
  checkOrder 0 p.lower p.upper

/-- The gradient at a point, both of the right length. -/
def gradientAt {σ : Type} (p : Problem α) (x : Vec α) : Evaluation σ (Vec α) := do
  ModelError.checkLength p.dimension x
  let g ← p.gradient x
  ModelError.checkLength p.dimension g
  return g

/-- The problem as a model, which needs no state. -/
def model {σ : Type} (p : Problem α) : Model α σ where
  dimension := p.dimension
  name := p.name
  objective x := do
    ModelError.checkLength p.dimension x
    p.objective x
  gradient := p.gradientAt
  hessianVector x v := do
    ModelError.checkLength p.dimension x
    ModelError.checkLength p.dimension v
    match p.hessianVector with
    | some hv => hv x v
    | none => forwardDifference p.gradientAt x v
  sides := (p.lower, p.upper)
  initialPoint := p.initialPoint

def describe (p : Problem α) : String :=
  "Problem \x7b name: " ++ Quoted.encode p.name
    ++ ", dimension: " ++ toString p.dimension
    ++ ", bounded: " ++ toString p.hasBounds
    ++ ", analytic_hessian_vector: " ++ toString p.hessianVector.isSome ++ ", .. \x7d"

end Problem

end Descent
