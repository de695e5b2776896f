import Descent.Json
import Descent.Record

/-!
# Results in files

The JSON forms of what a solve ends with: an error names its kind and says its message, an iteration
is a row of figures, and a record is an object with the final iterate in it.
-/

set_option autoImplicit false

namespace Descent

namespace ModelError

def name : ModelError → String
  | evaluation _ => "Evaluation"
  | dimensionMismatch .. => "DimensionMismatch"
  | notImplemented _ => "NotImplemented"
  | invalidParameter _ => "InvalidParameter"

def json (e : ModelError) : Json := .object [("error", .str e.name), ("message", .str e.message)]

end ModelError

namespace SolverError

def name : SolverError → String
  | model _ => "Model"
  | evaluationFailures .. => "EvaluationFailures"
  | stagnation .. => "Stagnation"
  | lineSearchFailed .. => "LineSearchFailed"
  | singularSystem _ => "SingularSystem"
  | numericalFailure _ => "NumericalFailure"
  | invalidConfiguration .. => "InvalidConfiguration"
  | dimensionMismatch .. => "DimensionMismatch"

def detail : SolverError → List (String × Json)
  | model inner => [("inner", .str inner.name)]
  | evaluationFailures failures reason => [("failures", .nat failures), ("reason", .str reason)]
  | stagnation rejections radius => [("rejections", .nat rejections), ("radius", .float radius)]
  | lineSearchFailed reason trials lastStepSize initialValue =>
    [("reason", .str reason), ("trials", .nat trials), ("last_step_size", .float lastStepSize),
      ("initial_value", .float initialValue)]
  | singularSystem reason | numericalFailure reason => [("reason", .str reason)]
  | invalidConfiguration reason parameter value =>
    [("reason", .str reason), ("parameter", .str parameter), ("value", .str value)]
  | dimensionMismatch expected actual =>
    [("expected", .str expected), ("actual", .str actual)]

def json (e : SolverError) : Json :=
  .object [("error", .str e.name), ("message", .str e.message), ("detail", .object e.detail)]

end SolverError

def Counts.row (c : Counts) : Json :=
  .list .nat [c.objective, c.gradient, c.hessianVector, c.hessian]

variable {α : Type} [Scalar α]

def Json.scalar (a : α) : Json := .float (Scalar.toFloat a)

def Json.vector (v : Vec α) : Json := .list .scalar v

def Iteration.row (i : Iteration α) : Json := .array
  [.nat i.number, .scalar i.objective, .scalar i.gradientNorm, .scalar i.stepNorm, .scalar i.radius,
    .option .scalar i.ratio, .str i.kind.name, .bool i.accepted]

def Record.json (r : Record α) : Json := .object
  [("solver", .str r.solver), ("model", .str r.model), ("status", .str r.status.name),
    ("converged", .bool r.status.isConverged), ("x", .vector r.iterate.x),
    ("f", .scalar r.iterate.f), ("g", .vector r.iterate.g),
    ("active", .list .bool r.iterate.active), ("active_count", .nat r.iterate.activeCount),
    ("iterate_iteration", .nat r.iterate.iteration), ("pg_norm", .scalar r.gradientNorm),
    ("iterations", .nat r.iterations), ("counts", r.counts.row),
    ("error", .option SolverError.json r.error), ("display", .str r.text)]

end Descent
