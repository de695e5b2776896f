import Descent.Event
import Descent.Fault

/-!
# Computations

`Run σ` is a computation that reads and writes a state `σ`, adds events to the journal and may stop
at a fault. What was written and reported before a fault stays. Failures that callers handle are an
`ExceptT` on top. A computation on one part of a state runs on the whole through `onFst` and
`onSnd`, which leave the other part alone.
-/

set_option autoImplicit false

namespace Descent

/-- A computation with a state and a journal that always ends well. -/
abbrev Report (σ : Type) := StateT σ (StateM Journal)

/-- A computation with a state and a journal that may stop at a fault. -/
abbrev Run (σ : Type) := ExceptT Fault (Report σ)

/-- Adds an event to the journal, in any computation that has one. -/
def emit {m : Type → Type} [MonadStateOf Journal m] (e : Event) : m Unit :=
  modifyThe Journal fun events => events.push e

namespace Report

variable {σ τ β : Type}

def onFst (m : Report σ β) : Report (σ × τ) β := fun (s, t) => do
  let (b, s') ← m s
  return (b, (s', t))

def onSnd (m : Report τ β) : Report (σ × τ) β := fun (s, t) => do
  let (b, t') ← m t
  return (b, (s, t'))

end Report

namespace Run

variable {σ τ β ε δ : Type}

def onFst (m : Run σ β) : Run (σ × τ) β := ExceptT.mk (Report.onFst m.run)

def onSnd (m : Run τ β) : Run (σ × τ) β := ExceptT.mk (Report.onSnd m.run)

/-- Runs from a state and a journal: the result or the fault, the state that is left and the
journal. -/
def start (m : Run σ β) (s : σ) (journal : Journal) : (Except Fault β × σ) × Journal :=
  (m.run s).run journal

def tryOnFst (m : ExceptT ε (Run σ) β) : ExceptT ε (Run (σ × τ)) β := ExceptT.mk (onFst m.run)

def tryOnSnd (m : ExceptT ε (Run τ) β) : ExceptT ε (Run (σ × τ)) β := ExceptT.mk (onSnd m.run)

/-- Runs with a state of its own, which is handed back beside the result. -/
def inside (m : Run τ β) (t : τ) : Run σ (β × τ) := ExceptT.mk fun s => do
  let (r, t') ← m.run t
  return (r.map fun b => (b, t'), s)

/-- A computation without a state, with its failures. -/
def ofChecked (m : ExceptT ε Checked β) : ExceptT ε (Run σ) β :=
  ExceptT.mk (liftM (m.run : Checked (Except ε β)))

/-- The result or the failure of a computation, as a value. -/
def outcome (m : ExceptT ε (Run σ) β) : Run σ (Except ε β) := m.run

/-- The result or the failure of a computation, as a value within a computation with failures of its
own. -/
def caught (m : ExceptT ε (Run σ) β) : ExceptT δ (Run σ) (Except ε β) := ExceptT.lift m.run

end Run

end Descent
