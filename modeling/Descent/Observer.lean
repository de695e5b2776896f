import Descent.Record
import Descent.Run

/-!
# Observers

An `Observer` hears of the start of a solve, of every outer iteration and of the end, and may stop
the solve after an iteration. It has a state of its own and may add to the journal.
-/

set_option autoImplicit false

namespace Descent

/-- Someone who watches a solve. -/
structure Observer (α ω : Type) where
  /-- Hears the names of the solver and of the model before the first iteration. -/
  onStart : String → String → Report ω Unit := fun _ _ => pure ()
  /-- Hears of an iteration; the answer `false` stops the solve. -/
  onIteration : Iteration α → Report ω Bool := fun _ => pure true
  /-- Hears the final record. -/
  onFinish : Record α → Report ω Unit := fun _ => pure ()

namespace Observer

variable {α ω : Type}

def silent : Observer α ω := {}

def keeping : Observer α (List (Iteration α)) where
  onIteration i := do
    modify fun seen => seen ++ [i]
    return true

/-- Notes the start, the end and the iterations whose number `period` divides; a period of zero is
taken for one. -/
def logging [Scalar α] (period : Nat) : Observer α ω where
  onStart solver model := emit (.observedStart solver model)
  onIteration i := do
    if i.number % max period 1 = 0 then
      emit (.observedIteration i.figures)
    return true
  onFinish r := emit (.observedFinish r.text)

end Observer

end Descent
