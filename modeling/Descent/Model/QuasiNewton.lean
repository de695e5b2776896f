import Descent.History
import Descent.Model

/-!
# Quasi-Newton models

A layer that replaces the curvature of a model by what a `History` has learned from the accepted
steps. It lets a Newton method run on a model that has first derivatives only.
-/

set_option autoImplicit false

namespace Descent

/-- The model with products by the approximation of a history that is kept beside its state. Each
accepted step is offered to the history before the model inside hears of it. -/
def Model.quasiNewton {α σ : Type} [Scalar α] (m : Model α σ) : Model α (History α × σ) where
  dimension := m.dimension
  name := m.name
  objective x := Run.tryOnSnd (m.objective x)
  gradient x := Run.tryOnSnd (m.gradient x)
  objectiveAndGradient x := Run.tryOnSnd (m.objectiveAndGradient x)
  hessianVector _ v := do
    let (h, _) ← get
    h.apply v
  sides := m.sides
  initialPoint := m.initialPoint
  acceptStep s y := do
    let _ ← Run.onFst (History.tryPush s y)
    Run.onSnd (m.acceptStep s y)

end Descent
