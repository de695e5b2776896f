import Descent.Model

/-!
# Counted models

A layer that counts the evaluations passed to the model inside. A failed evaluation counts like any
other. Asking for a sparse Hessian counts only if there is one.
-/

set_option autoImplicit false

namespace Descent

structure Counts where
  objective : Nat := 0
  gradient : Nat := 0
  /-- Products with the Hessian. -/
  hessianVector : Nat := 0
  /-- Hessians, dense or sparse. -/
  hessian : Nat := 0
deriving DecidableEq, Repr

namespace Counts

/-- Evaluations of the objective and of the gradient together: what budgets limit. -/
def functionEvaluations (c : Counts) : Nat := c.objective + c.gradient

def text (c : Counts) : String :=
  "#f=" ++ toString c.objective ++ " #g=" ++ toString c.gradient
    ++ " #Hv=" ++ toString c.hessianVector ++ " #H=" ++ toString c.hessian

def addObjective (c : Counts) : Counts := { c with objective := c.objective + 1 }

def addGradient (c : Counts) : Counts := { c with gradient := c.gradient + 1 }

def addHessianVector (c : Counts) : Counts := { c with hessianVector := c.hessianVector + 1 }

def addHessian (c : Counts) : Counts := { c with hessian := c.hessian + 1 }

end Counts

namespace Model

variable {α σ : Type} [Scalar α]

def count (change : Counts → Counts) : Evaluation (Counts × σ) Unit :=
  modify fun (c, s) => (change c, s)

/-- The model with a count of its evaluations beside its own state. -/
def counted (m : Model α σ) : Model α (Counts × σ) where
  dimension := m.dimension
  name := m.name
  objective x := do
    count .addObjective
    Run.tryOnSnd (m.objective x)
  gradient x := do
    count .addGradient
    Run.tryOnSnd (m.gradient x)
  objectiveAndGradient x := do
    count .addObjective
    count .addGradient
    Run.tryOnSnd (m.objectiveAndGradient x)
  hessianVector x v := do
    count .addHessianVector
    Run.tryOnSnd (m.hessianVector x v)
  hessian x := do
    count .addHessian
    Run.tryOnSnd (m.hessian x)
  sparseHessian x := do
    let h ← Run.tryOnSnd (m.sparseHessian x)
    if h.isSome then
      count .addHessian
    return h
  sides := m.sides
  initialPoint := m.initialPoint
  acceptStep s y := Run.onSnd (m.acceptStep s y)

end Model

end Descent
