import Descent.Error
import Descent.Scalar

/-!
# Solver options

Budgets, tolerances and the few settings that all algorithms share, with the values used if nothing
is said and the check that every solve makes.
-/

set_option autoImplicit false

namespace Descent

/-- A span of time in seconds and nanoseconds, the latter below a second. -/
structure Duration where
  seconds : Nat
  nanoseconds : Nat
deriving DecidableEq, Repr

namespace Duration

def zero : Duration := ⟨0, 0⟩

def ofNanoseconds (n : Nat) : Duration := ⟨n / 1000000000, n % 1000000000⟩

def total (d : Duration) : Nat := d.seconds * 1000000000 + d.nanoseconds

def toFloat (d : Duration) : Float := Float.ofNat d.seconds + Float.ofNat d.nanoseconds / 1e9

end Duration

/-- Refuses a setting with its name and its value. -/
def refuse {β : Type} (reason parameter value : String) : Except SolverError β :=
  .error (.invalidConfiguration reason parameter value)

structure Options (α : Type) [Scalar α] where
  /-- The most outer iterations. -/
  maxIterations : Nat := 1000
  /-- The most objective and gradient evaluations. -/
  maxEvaluations : Option Nat := none
  /-- The most time. -/
  maxTime : Option Duration := none
  /-- The norm of the projected gradient that counts as zero. -/
  gradientTolerance : α := Scalar.gradientTolerance
  /-- The same relative to the norm at the start. -/
  relativeGradientTolerance : Option α := none
  /-- The relative decrease of the objective that ends a solve. -/
  functionTolerance : Option α := none
  /-- The relative length of an accepted step that ends a solve. -/
  stepTolerance : Option α := none
  /-- The first trust-region radius; without one, the norm of the projected gradient. -/
  trustRegionInitialRadius : Option α := none
  /-- The number of correction pairs that are remembered. -/
  lbfgsMemory : Nat := 10
  /-- The most trial points of one line search. -/
  lineSearchMaxTrials : Nat := 20
  /-- The most rejected steps in a row. -/
  maxConsecutiveRejections : Nat := 30
  /-- The most failed evaluations in a row. -/
  maxConsecutiveEvaluationFailures : Nat := 10

namespace Options

variable {α : Type} [Scalar α]

def checkPositive (name : String) (value : α) : Except SolverError Unit :=
  if decide (0 < value) && Scalar.isFinite value then .ok ()
  else refuse (name ++ " must be positive and finite") name (Scalar.text value)

def checkNonNegative (name : String) (value : α) : Except SolverError Unit :=
  if decide (0 ≤ value) && Scalar.isFinite value then .ok ()
  else refuse (name ++ " must be non-negative and finite") name (Scalar.text value)

def checkAtLeastOne (name : String) (value : Nat) : Except SolverError Unit :=
  if value = 0 then refuse (name ++ " must be at least 1") name "0" else .ok ()

def checkOption (check : α → Except SolverError Unit) : Option α → Except SolverError Unit
  | some value => check value
  | none => .ok ()

/-- Checks every option; the first one out of range is reported. -/
def validate (o : Options α) : Except SolverError Unit := do
  checkNonNegative "gradient_tolerance" o.gradientTolerance
  checkOption (checkNonNegative "relative_gradient_tolerance") o.relativeGradientTolerance
  checkOption (checkNonNegative "function_tolerance") o.functionTolerance
  checkOption (checkNonNegative "step_tolerance") o.stepTolerance
  checkOption (checkPositive "trust_region_initial_radius") o.trustRegionInitialRadius
  checkAtLeastOne "lbfgs_memory" o.lbfgsMemory
  checkAtLeastOne "line_search_max_trials" o.lineSearchMaxTrials
  checkAtLeastOne "max_consecutive_rejections" o.maxConsecutiveRejections
  checkAtLeastOne "max_consecutive_evaluation_failures" o.maxConsecutiveEvaluationFailures

end Options

end Descent
