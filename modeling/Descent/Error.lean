import Descent.Decimal.Notation

/-!
# Errors

`ModelError` is what a model answers when it has no value; `SolverError` is why an algorithm stops
without having reached its goal. Each has one wording, `message`. Numbers in errors are doubles,
whatever the precision of the computation.
-/

set_option autoImplicit false

namespace Descent

inductive ModelError where
  /-- There is no value at this point; a shorter step may help. -/
  | evaluation (reason : String)
  /-- A vector or a matrix has the wrong size. -/
  | dimensionMismatch (expected actual : String)
  /-- The model does not offer this. -/
  | notImplemented (feature : String)
  /-- The model was given something unusable. -/
  | invalidParameter (reason : String)
deriving DecidableEq, Repr

namespace ModelError

def message : ModelError → String
  | evaluation reason => "Evaluation failed: " ++ reason
  | dimensionMismatch expected actual =>
    s!"Dimension mismatch: expected {expected}, got {actual}"
  | notImplemented feature => "Feature not implemented: " ++ feature
  | invalidParameter reason => "Invalid parameter: " ++ reason

/-- Only a failed evaluation may go away with a shorter step. -/
def isRecoverable : ModelError → Bool
  | evaluation _ => true
  | _ => false

def ofLengths (expected actual : Nat) : ModelError :=
  .dimensionMismatch (toString expected) (toString actual)

def checkLength {β : Type} (expected : Nat) (xs : List β) : Except ModelError Unit :=
  if xs.length = expected then .ok () else .error (ofLengths expected xs.length)

end ModelError

inductive SolverError where
  /-- The model failed. -/
  | model (error : ModelError)
  /-- Too many evaluations in a row failed. -/
  | evaluationFailures (failures : Nat) (reason : String)
  /-- Too many trial steps in a row were rejected. -/
  | stagnation (rejections : Nat) (radius : Float)
  /-- A line search found no acceptable step. -/
  | lineSearchFailed (reason : String) (trials : Nat) (lastStepSize initialValue : Float)
  /-- A linear system could not be factorized or solved. -/
  | singularSystem (reason : String)
  /-- A value that has to be finite is not. -/
  | numericalFailure (reason : String)
  /-- A setting is out of its range. -/
  | invalidConfiguration (reason parameter value : String)
  /-- A vector or a matrix has the wrong size. -/
  | dimensionMismatch (expected actual : String)
deriving Repr

namespace SolverError

def message : SolverError → String
  | model error => "Model evaluation failed: " ++ error.message
  | evaluationFailures failures reason =>
    s!"{failures} consecutive evaluation failures, last: {reason}"
  | stagnation rejections radius =>
    s!"Stagnation: {rejections} consecutive rejected steps (radius "
      ++ (Binary.ofFloat radius).scientific ++ ")"
  | lineSearchFailed reason .. => "Line search failed: " ++ reason
  | singularSystem reason => "Singular system: " ++ reason
  | numericalFailure reason => "Numerical failure: " ++ reason
  | invalidConfiguration reason .. => "Invalid solver configuration: " ++ reason
  | dimensionMismatch expected actual =>
    s!"Dimension mismatch: expected {expected}, got {actual}"

def ofLengths (expected actual : Nat) : SolverError :=
  .dimensionMismatch (toString expected) (toString actual)

/-- A failure that a line search from elsewhere, or none, may get past. -/
def isLineSearchFailure : SolverError → Bool
  | lineSearchFailed .. | evaluationFailures .. => true
  | _ => false

end SolverError

end Descent
