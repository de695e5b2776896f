import Descent.Event
import Descent.Model.Counted
import Descent.Options

/-!
# Iterates and records

Where a solve stands (`Iterate`), why it ended (`Status`), what one outer iteration did
(`Iteration`) and what the whole solve came to (`Record`), with the texts that describe them.
-/

set_option autoImplicit false

namespace Descent

/-- A point with the objective and the gradient there. -/
structure Iterate (α : Type) where
  x : Vec α
  f : α
  g : Vec α
  /-- The active bounds. -/
  active : List Bool
  /-- The outer iteration that led to the point. -/
  iteration : Nat

namespace Iterate

variable {α : Type}

/-- The iterate at a point without active bounds. -/
def free (x : Vec α) (f : α) (g : Vec α) (iteration : Nat) : Iterate α :=
  ⟨x, f, g, List.replicate x.length false, iteration⟩

def activeCount (i : Iterate α) : Nat := i.active.countP id

end Iterate

/-- Why a solve ended. -/
inductive Status where
  | gradientTolerance
  | functionTolerance
  | stepTolerance
  | iterationLimit
  | evaluationLimit
  | timeLimit
  | stagnation
  | lineSearchFailure
  | evaluationFailure
  | singularSystem
  | numericalFailure
  | userRequested
deriving DecidableEq, Repr

namespace Status

def all : List Status :=
  [.gradientTolerance, .functionTolerance, .stepTolerance, .iterationLimit, .evaluationLimit,
    .timeLimit, .stagnation, .lineSearchFailure, .evaluationFailure, .singularSystem,
    .numericalFailure, .userRequested]

def name : Status → String
  | gradientTolerance => "GradientTolerance"
  | functionTolerance => "FunctionTolerance"
  | stepTolerance => "StepTolerance"
  | iterationLimit => "IterationLimit"
  | evaluationLimit => "EvaluationLimit"
  | timeLimit => "TimeLimit"
  | stagnation => "Stagnation"
  | lineSearchFailure => "LineSearchFailure"
  | evaluationFailure => "EvaluationFailure"
  | singularSystem => "SingularSystem"
  | numericalFailure => "NumericalFailure"
  | userRequested => "UserRequested"

def text : Status → String
  | gradientTolerance => "projected gradient below tolerance"
  | functionTolerance => "objective decrease below tolerance"
  | stepTolerance => "step length below tolerance"
  | iterationLimit => "iteration limit reached"
  | evaluationLimit => "evaluation limit reached"
  | timeLimit => "time limit reached"
  | stagnation => "too many consecutive rejected steps"
  | lineSearchFailure => "line search failure"
  | evaluationFailure => "too many evaluation failures"
  | singularSystem => "singular linear system"
  | numericalFailure => "numerical failure"
  | userRequested => "stopped by observer"

def code : Status → String
  | gradientTolerance | functionTolerance | stepTolerance => "opt"
  | iterationLimit => "itr"
  | evaluationLimit => "eval"
  | timeLimit => "time"
  | stagnation => "stg"
  | lineSearchFailure => "lsf"
  | evaluationFailure => "fev"
  | singularSystem => "sng"
  | numericalFailure => "num"
  | userRequested => "usr"

def isConverged : Status → Bool
  | gradientTolerance | functionTolerance | stepTolerance => true
  | _ => false

def isBudgetExceeded : Status → Bool
  | iterationLimit | evaluationLimit | timeLimit => true
  | _ => false

def isFailure (s : Status) : Bool :=
  !s.isConverged && !s.isBudgetExceeded && s != userRequested

def ofError : SolverError → Status
  | .model _ | .evaluationFailures .. => evaluationFailure
  | .stagnation .. => stagnation
  | .lineSearchFailed .. => lineSearchFailure
  | .singularSystem _ => singularSystem
  | .numericalFailure _ | .invalidConfiguration .. | .dimensionMismatch .. => numericalFailure

end Status

structure Iteration (α : Type) where
  /-- The number of the iteration, from 1. -/
  number : Nat
  /-- The objective after it. -/
  objective : α
  /-- The norm of the projected gradient after it. -/
  gradientNorm : α
  /-- The length of the trial step. -/
  stepNorm : α
  /-- The trust-region radius after it, or the step length of a line search. -/
  radius : α
  /-- Actual decrease over predicted decrease, if there is a prediction. -/
  ratio : Option α
  kind : StepKind
  accepted : Bool
  /-- The time since the solve began. -/
  elapsed : Duration

def Iteration.figures {α : Type} [Scalar α] (i : Iteration α) : Figures where
  iteration := i.number
  objective := Scalar.toFloat i.objective
  gradientNorm := Scalar.toFloat i.gradientNorm
  stepNorm := Scalar.toFloat i.stepNorm
  radius := Scalar.toFloat i.radius
  kind := i.kind
  accepted := i.accepted

structure Record (α : Type) where
  solver : String
  model : String
  status : Status
  iterate : Iterate α
  /-- The norm of the projected gradient at the final point. -/
  gradientNorm : α
  /-- The outer iterations performed. -/
  iterations : Nat
  counts : Counts
  elapsed : Duration
  /-- The error behind a failure. -/
  error : Option SolverError

namespace Record

variable {α : Type} [Scalar α]

def text (r : Record α) : String :=
  r.solver ++ ": " ++ r.status.text ++ " after " ++ toString r.iterations ++ " iterations, f = "
    ++ (Binary.ofFloat (Scalar.toFloat r.iterate.f)).scientific ++ ", |pg| = "
    ++ (Binary.ofFloat (Scalar.toFloat r.gradientNorm)).scientific ++ ", " ++ r.counts.text
    ++ match r.error with
      | some e => " (" ++ e.message ++ ")"
      | none => ""

def summary (r : Record α) : String :=
  " ".intercalate
    [padRight 12 r.model, padLeft 6 (toString r.iterate.x.length),
      padLeft 6 (toString r.iterations),
      padLeft 12 ((Binary.ofFloat (Scalar.toFloat r.iterate.f)).scientificTo 5),
      padLeft 9 ((Binary.ofFloat (Scalar.toFloat r.gradientNorm)).scientificTo 2),
      padLeft 6 (toString r.counts.objective), padLeft 6 (toString r.counts.gradient),
      padLeft 6 (toString r.counts.hessianVector), padLeft 5 r.status.code,
      padLeft 8 ((Binary.ofFloat r.elapsed.toFloat).fixedTo 3)]

end Record

end Descent
