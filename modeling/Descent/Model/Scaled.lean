import Descent.Model

/-!
# Scaled models

A layer that multiplies the objective and all its derivatives by a constant. A maximization problem
is the minimization of the negated objective. What a solver reports is in scaled units; `unscale`
goes back.
-/

set_option autoImplicit false

namespace Descent

/-- A scale and a direction for an objective. -/
structure Scaling where
  scale : Float := 1
  maximize : Bool := false

namespace Scaling

/-- The scaling with another scale, which has to be positive and finite. -/
def withScale (c : Scaling) (scale : Float) : Except ModelError Scaling :=
  if scale.isFinite && decide (0 < scale) then .ok { c with scale }
  else .error (.invalidParameter
    ("objective scale must be positive and finite, got " ++ Scalar.text scale))

/-- The factor of the objective and its derivatives. -/
def factor (c : Scaling) : Float := if c.maximize then -c.scale else c.scale

def factorAs (c : Scaling) (α : Type) [Scalar α] : α := Scalar.ofFloat c.factor

def unscale {α : Type} [Scalar α] (c : Scaling) (value : α) : α := value / c.factorAs α

end Scaling

/-- The model with everything multiplied by the factor of the scaling. The change of the gradient
along an accepted step arrives in scaled units and is passed on in those of the model, unless the
factor is zero in this precision. -/
def Model.scaled {α σ : Type} [Scalar α] (m : Model α σ) (c : Scaling) : Model α σ where
  dimension := m.dimension
  name := m.name
  objective x := do return (← m.objective x) * c.factorAs α
  gradient x := do return Vec.scale (← m.gradient x) (c.factorAs α)
  objectiveAndGradient x := do
    let (f, g) ← m.objectiveAndGradient x
    return (f * c.factorAs α, Vec.scale g (c.factorAs α))
  hessianVector x v := do return Vec.scale (← m.hessianVector x v) (c.factorAs α)
  hessian x := do return (← m.hessian x).scale (c.factorAs α)
  sparseHessian x := do return (← m.sparseHessian x).map fun h => h.scale (c.factorAs α)
  sides := m.sides
  initialPoint := m.initialPoint
  acceptStep s y := do
    if 0 < Scalar.abs (c.factorAs α) then
      m.acceptStep s (Vec.divide y (c.factorAs α))

end Descent
