/-!
# Faults

A `Fault` is a breach of a precondition between vectors: two of different lengths combined, or an
entry asked for that is not there. It is not a way for a computation to report failure: nothing
catches one, and it ends the whole computation it arises in. `Checked` is the result of an operation
that has such a precondition and nothing else that can go wrong.
-/

set_option autoImplicit false

namespace Descent

/-- A breached precondition. -/
inductive Fault where
  /-- Two sequences that have to be equally long are not. -/
  | lengthMismatch (left right : Nat)
  /-- An entry beyond the end of a sequence is asked for. -/
  | missingEntry
  /-- A model that does not exist for this number of variables. -/
  | unsupportedDimension (dimension : Nat)
deriving DecidableEq, Repr

/-- The value of an operation, or the fault it runs into. -/
abbrev Checked (β : Type) := Except Fault β

def entryAt {β : Type} (xs : List β) (i : Nat) : Checked β :=
  match xs[i]? with
  | some x => .ok x
  | none => .error .missingEntry

/-- The entry at `i` of a sequence that has one there. -/
theorem entryAt_of_lt {β : Type} {xs : List β} {i : Nat} (h : i < xs.length) :
    entryAt xs i = .ok xs[i] := by
  simp [entryAt, h]

end Descent
