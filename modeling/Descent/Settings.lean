import Descent.Algorithm
import Descent.Derivatives
import Descent.Json.Codec

/-!
# Settings in files

The JSON forms of the settings of solves and of what solves report.
-/

set_option autoImplicit false

namespace Descent

/-- A span of time: an object of exactly two members, or an array of two numbers. Nanoseconds beyond
a second are carried over, as long as the seconds fit 64 bits. -/
def Duration.codec : Codec Duration where
  read json := do
    let names := ["secs", "nanos"]
    let fs ← Codec.fields names false json
    if let .object members := json then
      if members.length ≠ fs.length then none
    let seconds ← Codec.nat.required fs "secs"
    let nanoseconds ← Codec.nat.required fs "nanos"
    if 0xffffffff < nanoseconds then none
    let d : Duration := ⟨seconds + nanoseconds / 1000000000, nanoseconds % 1000000000⟩
    if d.seconds ≤ Codec.wordMax then some d else none
  write d := .object [("secs", .nat d.seconds), ("nanos", .nat d.nanoseconds)]

variable {α : Type} [Scalar α]

def Options.codec : Codec (Options α) where
  read json := do
    let fs ← Codec.fields ["max_iterations", "max_evaluations", "max_time", "gradient_tolerance",
      "relative_gradient_tolerance", "function_tolerance", "step_tolerance",
      "trust_region_initial_radius", "lbfgs_memory", "line_search_max_trials",
      "max_consecutive_rejections", "max_consecutive_evaluation_failures"] true json
    let o : Options α := {}
    return {
      maxIterations := ← Codec.nat.withDefault fs "max_iterations" o.maxIterations
      maxEvaluations := ← Codec.nat.optional fs "max_evaluations"
      maxTime := ← Duration.codec.optional fs "max_time"
      gradientTolerance := ← Codec.scalar.withDefault fs "gradient_tolerance" o.gradientTolerance
      relativeGradientTolerance := ← Codec.scalar.optional fs "relative_gradient_tolerance"
      functionTolerance := ← Codec.scalar.optional fs "function_tolerance"
      stepTolerance := ← Codec.scalar.optional fs "step_tolerance"
      trustRegionInitialRadius := ← Codec.scalar.optional fs "trust_region_initial_radius"
      lbfgsMemory := ← Codec.nat.withDefault fs "lbfgs_memory" o.lbfgsMemory
      lineSearchMaxTrials :=
        ← Codec.nat.withDefault fs "line_search_max_trials" o.lineSearchMaxTrials
      maxConsecutiveRejections :=
        ← Codec.nat.withDefault fs "max_consecutive_rejections" o.maxConsecutiveRejections
      maxConsecutiveEvaluationFailures :=
        ← Codec.nat.withDefault fs "max_consecutive_evaluation_failures"
          o.maxConsecutiveEvaluationFailures }
  write o := .object
    [("max_iterations", .nat o.maxIterations),
      ("max_evaluations", .option .nat o.maxEvaluations),
      ("max_time", .option Duration.codec.write o.maxTime),
      ("gradient_tolerance", Codec.scalar.write o.gradientTolerance),
      ("relative_gradient_tolerance", .option Codec.scalar.write o.relativeGradientTolerance),
      ("function_tolerance", .option Codec.scalar.write o.functionTolerance),
      ("step_tolerance", .option Codec.scalar.write o.stepTolerance),
      ("trust_region_initial_radius", .option Codec.scalar.write o.trustRegionInitialRadius),
      ("lbfgs_memory", .nat o.lbfgsMemory),
      ("line_search_max_trials", .nat o.lineSearchMaxTrials),
      ("max_consecutive_rejections", .nat o.maxConsecutiveRejections),
      ("max_consecutive_evaluation_failures", .nat o.maxConsecutiveEvaluationFailures)]

def CurvatureCondition.codec : Codec CurvatureCondition :=
  .choice CurvatureCondition.all CurvatureCondition.name

def LineSearchKind.codec : Codec LineSearchKind := .choice LineSearchKind.all LineSearchKind.name

def LineSearchParams.codec : Codec (LineSearchParams α) where
  read json := do
    let fs ← Codec.fields ["max_step_size", "min_step_size", "max_trials", "c1", "c2", "rho",
      "condition", "max_evaluation_failures"] false json
    return {
      maxStepSize := ← Codec.scalar.required fs "max_step_size"
      minStepSize := ← Codec.scalar.required fs "min_step_size"
      maxTrials := ← Codec.nat.required fs "max_trials"
      c1 := ← Codec.scalar.required fs "c1"
      c2 := ← Codec.scalar.required fs "c2"
      rho := ← Codec.scalar.required fs "rho"
      condition := ← CurvatureCondition.codec.required fs "condition"
      maxEvaluationFailures := ← Codec.nat.required fs "max_evaluation_failures" }
  write p := .object
    [("max_step_size", Codec.scalar.write p.maxStepSize),
      ("min_step_size", Codec.scalar.write p.minStepSize),
      ("max_trials", .nat p.maxTrials),
      ("c1", Codec.scalar.write p.c1),
      ("c2", Codec.scalar.write p.c2),
      ("rho", Codec.scalar.write p.rho),
      ("condition", CurvatureCondition.codec.write p.condition),
      ("max_evaluation_failures", .nat p.maxEvaluationFailures)]

def Backend.codec : Codec Backend := .choice Backend.all Backend.name

def Subproblem.codec : Codec Subproblem where
  read
    | .string (some "TruncatedCg") | .object [("TruncatedCg", .null)] => some .truncatedCg
    | .object [("Direct", backend)] => (Backend.codec.read backend).map .direct
    | _ => none
  write
    | .truncatedCg => .str "TruncatedCg"
    | .direct backend => .object [("Direct", Backend.codec.write backend)]

def TruncatedCg.Config.codec : Codec (TruncatedCg.Config α) where
  read json := do
    let fs ← Codec.fields ["relative_tolerance", "max_iterations"] false json
    return {
      relativeTolerance := ← Codec.scalar.required fs "relative_tolerance"
      maxIterations := ← Codec.nat.optional fs "max_iterations" }
  write c := .object
    [("relative_tolerance", Codec.scalar.write c.relativeTolerance),
      ("max_iterations", .option .nat c.maxIterations)]

def TrustRegion.Config.codec : Codec (TrustRegion.Config α) where
  read json := do
    let fs ← Codec.fields ["max_radius", "acceptance_ratio", "decrease_threshold",
      "increase_threshold", "decrease_factor", "increase_factor", "subproblem", "cg"] false json
    return {
      maxRadius := ← Codec.scalar.required fs "max_radius"
      acceptanceRatio := ← Codec.scalar.required fs "acceptance_ratio"
      decreaseThreshold := ← Codec.scalar.required fs "decrease_threshold"
      increaseThreshold := ← Codec.scalar.required fs "increase_threshold"
      decreaseFactor := ← Codec.scalar.required fs "decrease_factor"
      increaseFactor := ← Codec.scalar.required fs "increase_factor"
      subproblem := ← Subproblem.codec.required fs "subproblem"
      cg := ← TruncatedCg.Config.codec.required fs "cg" }
  write c := .object
    [("max_radius", Codec.scalar.write c.maxRadius),
      ("acceptance_ratio", Codec.scalar.write c.acceptanceRatio),
      ("decrease_threshold", Codec.scalar.write c.decreaseThreshold),
      ("increase_threshold", Codec.scalar.write c.increaseThreshold),
      ("decrease_factor", Codec.scalar.write c.decreaseFactor),
      ("increase_factor", Codec.scalar.write c.increaseFactor),
      ("subproblem", Subproblem.codec.write c.subproblem),
      ("cg", TruncatedCg.Config.codec.write c.cg)]

def Lbfgs.Config.codec : Codec (Lbfgs.Config α) where
  read json := do
    let fs ← Codec.fields ["line_search", "line_search_params", "initial_step_size"] false json
    return {
      lineSearch := ← LineSearchKind.codec.required fs "line_search"
      lineSearchParams := ← LineSearchParams.codec.optional fs "line_search_params"
      initialStepSize := ← Codec.scalar.required fs "initial_step_size" }
  write c := .object
    [("line_search", LineSearchKind.codec.write c.lineSearch),
      ("line_search_params", .option LineSearchParams.codec.write c.lineSearchParams),
      ("initial_step_size", Codec.scalar.write c.initialStepSize)]

def Algorithm.codec : Codec Algorithm := .choice Algorithm.all Algorithm.name

def Status.codec : Codec Status := .choice Status.all Status.name

def StepKind.codec : Codec StepKind := .choice StepKind.all StepKind.name

def Derivatives.Kind.codec : Codec Derivatives.Kind :=
  .choice Derivatives.Kind.all Derivatives.Kind.name

def Counts.codec : Codec Counts where
  read json := do
    let fs ← Codec.fields ["objective", "gradient", "hessian_vector", "hessian"] false json
    return {
      objective := ← Codec.nat.required fs "objective"
      gradient := ← Codec.nat.required fs "gradient"
      hessianVector := ← Codec.nat.required fs "hessian_vector"
      hessian := ← Codec.nat.required fs "hessian" }
  write c := .object
    [("objective", .nat c.objective), ("gradient", .nat c.gradient),
      ("hessian_vector", .nat c.hessianVector), ("hessian", .nat c.hessian)]

def Derivatives.Entry.codec : Codec (Derivatives.Entry α) where
  read json := do
    let fs ← Codec.fields ["index", "analytic", "numeric", "relative_error"] false json
    return {
      index := ← Codec.nat.required fs "index"
      analytic := ← Codec.scalar.required fs "analytic"
      numeric := ← Codec.scalar.required fs "numeric"
      relativeError := ← Codec.scalar.required fs "relative_error" }
  write e := .object
    [("index", .nat e.index), ("analytic", Codec.scalar.write e.analytic),
      ("numeric", Codec.scalar.write e.numeric),
      ("relative_error", Codec.scalar.write e.relativeError)]

def Derivatives.Report.codec : Codec (Derivatives.Report α) where
  read json := do
    let fs ← Codec.fields ["kind", "entries", "errors", "tolerance"] false json
    return {
      kind := ← Derivatives.Kind.codec.required fs "kind"
      entries := ← Derivatives.Entry.codec.list.required fs "entries"
      errors := ← Codec.text.list.required fs "errors"
      tolerance := ← Codec.scalar.required fs "tolerance" }
  write r := .object
    [("kind", Derivatives.Kind.codec.write r.kind),
      ("entries", Derivatives.Entry.codec.list.write r.entries),
      ("errors", Codec.text.list.write r.errors),
      ("tolerance", Codec.scalar.write r.tolerance)]

end Descent
