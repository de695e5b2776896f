import Descent.Decimal.Notation
import Descent.StepKind

/-!
# Events

What the algorithms report about their progress while they run. An event says what happened; its
`level` says how much it matters and its `message` words it. A `Journal` is the events so far, in
the order in which they were emitted.
-/

set_option autoImplicit false

namespace Descent

inductive Level where
  | trace
  | debug
  | info
  | warn
deriving DecidableEq, Repr

namespace Level

def severity : Level → Nat
  | .trace => 0
  | .debug => 1
  | .info => 2
  | .warn => 3

/-- The word that starts a line of the journal. -/
def label : Level → String
  | .trace => "TRACE"
  | .debug => "DEBUG"
  | .info => "INFO"
  | .warn => "WARN"

end Level

/-- The figures of one outer iteration, as far as reports show them. -/
structure Figures where
  iteration : Nat
  objective : Float
  gradientNorm : Float
  stepNorm : Float
  radius : Float
  kind : StepKind
  accepted : Bool

inductive Event where
  /-- The truncated conjugate gradients met a direction of non-positive curvature. -/
  | negativeCurvature (iteration : Nat)
  /-- The truncated conjugate gradients reached the boundary of the trust region. -/
  | boundaryReached (iteration : Nat)
  /-- A Newton step was computed. -/
  | newtonStep (iterations : Nat) (kind : StepKind)
  /-- A Newton step on the face of the Cauchy point was computed. -/
  | faceStep (free iterations : Nat) (kind : StepKind)
  /-- No point of the projected search did as well as the Cauchy point. -/
  | projectedSearchFailed
  /-- A correction pair without safely positive curvature was not stored. -/
  | pairSkipped (curvature : Float)
  /-- A trial point of a line search could not be evaluated; `run` failures in a row so far. -/
  | trialUnevaluable (run : Nat) (reason : String)
  /-- A Wolfe search ended with a point that has sufficient decrease only. -/
  | armijoStepKept (search : String) (stepSize : Float)
  /-- The line search that should rescue a rejected step failed. -/
  | rescueFailed (error : String)
  /-- All entries of a derivative check are within the tolerance. -/
  | derivativesAgree (model check : String) (maxRelativeError : Float)
  /-- A derivative check failed. -/
  | derivativesDisagree (model report : String)
  /-- A solver was chosen for a model. -/
  | solving (model : String) (dimension : Nat) (algorithm : String)
  /-- A solve starts. -/
  | started (solver model : String) (dimension : Nat)
  /-- The start of a trust-region solve is evaluated. -/
  | startEvaluated (solver : String) (objective gradientNorm radius : Float)
  /-- An outer iteration is complete. -/
  | iterated (solver : String) (figures : Figures)
  /-- A trial step could not be evaluated. -/
  | stepUnevaluable (solver reason : String) (radius : Float)
  /-- A rejected step was rescued by a line search. -/
  | stepRescued (solver : String) (ratio stepSize : Float)
  /-- The quasi-Newton direction does not point downhill. -/
  | notDescent (solver : String)
  /-- A failed line search made the solver forget its curvature pairs. -/
  | restarted (solver error : String)
  /-- The newest correction pair of a solver was not stored. -/
  | correctionSkipped (solver : String)
  /-- A solve is over. -/
  | finished (record : String)
  /-- An observer notes the start of a solve. -/
  | observedStart (solver model : String)
  /-- An observer notes an outer iteration. -/
  | observedIteration (figures : Figures)
  /-- An observer notes the end of a solve. -/
  | observedFinish (record : String)

/-- The events so far, oldest first. -/
abbrev Journal := Array Event

namespace Figures

/-- The figures in the line of a solver's own report. -/
def line (r : Figures) : String :=
  padLeft 4 (toString r.iteration)
    ++ ": f = " ++ (Binary.ofFloat r.objective).scientific
    ++ ", |pg| = " ++ (Binary.ofFloat r.gradientNorm).scientificTo 3
    ++ ", |s| = " ++ (Binary.ofFloat r.stepNorm).scientificTo 3
    ++ ", radius = " ++ (Binary.ofFloat r.radius).scientificTo 3
    ++ ", " ++ r.kind.name ++ (if r.accepted then "" else " (rejected)")

def columns (r : Figures) : String :=
  padLeft 5 (toString r.iteration)
    ++ " f=" ++ padLeft 14 ((Binary.ofFloat r.objective).scientificTo 7)
    ++ " |pg|=" ++ padLeft 9 ((Binary.ofFloat r.gradientNorm).scientificTo 2)
    ++ " |s|=" ++ padLeft 9 ((Binary.ofFloat r.stepNorm).scientificTo 2)
    ++ " radius=" ++ padLeft 9 ((Binary.ofFloat r.radius).scientificTo 2)
    ++ " " ++ r.kind.name ++ (if r.accepted then "" else " rejected")

end Figures

namespace Event

def level : Event → Level
  | negativeCurvature .. | boundaryReached .. | newtonStep .. | faceStep ..
  | projectedSearchFailed | pairSkipped .. => .trace
  | trialUnevaluable .. | armijoStepKept .. | rescueFailed .. | derivativesAgree .. | solving ..
  | started .. | startEvaluated .. | iterated .. | stepRescued .. | notDescent ..
  | correctionSkipped .. => .debug
  | finished .. | observedStart .. | observedIteration .. | observedFinish .. => .info
  | derivativesDisagree .. | stepUnevaluable .. | restarted .. => .warn

def message : Event → String
  | negativeCurvature k => s!"tcg: negative curvature at iteration {k}"
  | boundaryReached k => s!"tcg: boundary reached at iteration {k}"
  | newtonStep k kind => s!"trunk: {k} CG iterations, " ++ kind.name
  | faceStep free k kind => s!"tron: {free} free variables, {k} CG iterations, " ++ kind.name
  | projectedSearchFailed => "tron: projected search failed, falling back to the Cauchy step"
  | pairSkipped c => "lbfgs: skipping pair with sᵀy = " ++ (Binary.ofFloat c).scientific
  | trialUnevaluable run reason => s!"line search: evaluation failure {run} ({reason})"
  | armijoStepKept search a =>
    s!"{search}: curvature condition not met, keeping Armijo step "
      ++ (Binary.ofFloat a).scientific
  | rescueFailed error => s!"trunk: line search fallback failed: {error}"
  | derivativesAgree model check e =>
    s!"{model}: {check} check passed, max relative error " ++ (Binary.ofFloat e).scientificTo 3
  | derivativesDisagree model report => s!"{model}: {report}"
  | solving model n algorithm => s!"solving '{model}' (n = {n}) with {algorithm}"
  | started solver model n => s!"{solver}: starting on {model} (n = {n})"
  | startEvaluated solver f pg radius =>
    s!"{solver}: f0 = " ++ (Binary.ofFloat f).scientific
      ++ ", |pg0| = " ++ (Binary.ofFloat pg).scientificTo 3
      ++ ", radius0 = " ++ (Binary.ofFloat radius).scientificTo 3
  | iterated solver r => s!"{solver} " ++ r.line
  | stepUnevaluable solver reason radius =>
    s!"{solver}: evaluation failed at trial point ({reason}), radius reduced to "
      ++ (Binary.ofFloat radius).scientificTo 3
  | stepRescued solver ratio a =>
    s!"{solver}: rejected step (ratio " ++ (Binary.ofFloat ratio).scientificTo 3
      ++ ") recovered by line search, step " ++ (Binary.ofFloat a).scientific
  | notDescent solver =>
    s!"{solver}: quasi-Newton direction is not a descent direction, resetting"
  | restarted solver error => s!"{solver}: {error}, restarting from steepest descent"
  | correctionSkipped solver => s!"{solver}: curvature condition failed, correction pair skipped"
  | finished record => record
  | observedStart solver model => s!"{solver}: solving {model}"
  | observedIteration r => r.columns
  | observedFinish record => record

end Event

end Descent
