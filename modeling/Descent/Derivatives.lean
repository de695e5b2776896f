import Descent.Model
import Descent.Random

/-!
# Derivative checks

Compares the derivatives that a model claims with central differences: the gradient with differences
of the objective, products with the Hessian with differences of the gradient. A check never fails;
evaluations that do are listed in its report.
-/

set_option autoImplicit false

namespace Descent

namespace Derivatives

inductive Kind where
  | gradient
  /-- The product of the Hessian with one vector. -/
  | hessianVector
  /-- All entries of the Hessian, column by column. -/
  | hessian
deriving DecidableEq, Repr

namespace Kind

def all : List Kind := [.gradient, .hessianVector, .hessian]

def name : Kind → String
  | gradient => "Gradient"
  | hessianVector => "HessianVector"
  | hessian => "Hessian"

def text : Kind → String
  | gradient => "gradient"
  | hessianVector => "Hessian-vector product"
  | hessian => "Hessian"

end Kind

structure Entry (α : Type) where
  /-- The place of the component; row by row in a Hessian. -/
  index : Nat
  /-- What the model claims. -/
  analytic : α
  /-- The central difference. -/
  numeric : α
  /-- The distance of both over the greater of 1 and the claimed magnitude. -/
  relativeError : α

variable {α σ : Type} [Scalar α]

/-- The comparison of two values; a distance that is not finite counts as infinite. -/
def Entry.compare (index : Nat) (analytic numeric : α) : Entry α :=
  let distance := Scalar.abs (analytic - numeric)
  { index, analytic, numeric
    relativeError :=
      if Scalar.isFinite distance then distance / Scalar.maxNum 1 (Scalar.abs analytic)
      else Scalar.infinity }

structure Report (α : Type) where
  kind : Kind
  entries : List (Entry α) := []
  /-- Evaluations that failed, and results of the wrong length. -/
  errors : List String := []
  /-- The greatest relative error that passes. -/
  tolerance : α

namespace Report

def accepts (r : Report α) (e : Entry α) : Bool := decide (e.relativeError ≤ r.tolerance)

/-- Every entry is within the tolerance and there are no errors. -/
def passed (r : Report α) : Bool := r.errors.isEmpty && r.entries.all r.accepts

/-- The greatest relative error; zero without entries. -/
def maxRelativeError (r : Report α) : α :=
  r.entries.foldl (fun greatest e => Scalar.maxNum greatest e.relativeError) 0

def failures (r : Report α) : List (Entry α) := r.entries.filter fun e => !r.accepts e

def scientificTo (places : Nat) (a : α) : String :=
  (Binary.ofFloat (Scalar.toFloat a)).scientificTo places

def failureLine (e : Entry α) : String :=
  "  [" ++ padLeft 4 (toString e.index) ++ "] analytic " ++ padLeft 14 (scientificTo 7 e.analytic)
    ++ "  numeric " ++ padLeft 14 (scientificTo 7 e.numeric)
    ++ "  rel. error " ++ scientificTo 3 e.relativeError ++ "\n"

/-- The report in lines: a summary, the failed entries, the errors. -/
def text (r : Report α) : String :=
  r.kind.text ++ " check: " ++ (if r.passed then "passed" else "FAILED")
    ++ " (" ++ toString r.entries.length ++ " entries, max relative error "
    ++ scientificTo 3 r.maxRelativeError ++ ", tolerance " ++ scientificTo 1 r.tolerance ++ ")\n"
    ++ String.join (r.failures.map failureLine)
    ++ String.join (r.errors.map fun e => "  error: " ++ e ++ "\n")

end Report

structure Checker (α : Type) [Scalar α] where
  tolerance : α := Scalar.checkTolerance
  /-- The step of all differences; without one, it grows with the point. -/
  step : Option α := none
  /-- The seed of the random direction. -/
  seed : UInt64 := 0x5eed

namespace Checker

def stepFor (c : Checker α) (magnitude : α) : α :=
  c.step.getD (Scalar.cbrtEpsilon * Scalar.maxNum 1 (Scalar.abs magnitude))

def failed (c : Checker α) (kind : Kind) (error : String) : Report α :=
  { kind, errors := [error], tolerance := c.tolerance }

/-- What is wrong with the length of a vector, if it is not the expected one. -/
def lengthError (what : String) (actual expected : Nat) : Option String :=
  if actual = expected then none
  else some (s!"{what} has length {actual}, expected {expected}")

def note (m : Model α σ) (r : Report α) : Run σ Unit :=
  if r.passed then
    emit (.derivativesAgree m.name r.kind.text (Scalar.toFloat r.maxRelativeError))
  else emit (.derivativesDisagree m.name r.text)

/-- The difference of the objective along coordinate `i`: an entry, or the first error of the two
evaluations, which are both made. -/
def checkCoordinate (c : Checker α) (m : Model α σ) (x g : Vec α) (i : Nat) :
    Run σ (Except String (Entry α)) := do
  let a ← entryAt x i
  let h := c.stepFor a
  let forward ← Run.outcome (m.objective (x.set i (a + h)))
  let backward ← Run.outcome (m.objective (x.set i (a - h)))
  match forward, backward with
  | .ok ahead, .ok behind =>
    return .ok (.compare i (← entryAt g i) ((ahead - behind) / (2.0 * h)))
  | .error e, _ | _, .error e => return .error (s!"coordinate {i}: " ++ e.message)

def addComponent (r : Report α) : Except String (Entry α) → Report α
  | .ok e => { r with entries := r.entries ++ [e] }
  | .error e => { r with errors := r.errors ++ [e] }

def checkGradient (c : Checker α) (m : Model α σ) (x : Vec α) : Run σ (Report α) := do
  match ← Run.outcome (m.gradient x) with
  | .error e => return c.failed .gradient e.message
  | .ok g =>
    if let some e := lengthError "gradient" g.length x.length then
      return c.failed .gradient e
    let components ← (List.range x.length).mapM fun i => c.checkCoordinate m x g i
    let report : Report α :=
      components.foldl addComponent { kind := .gradient, tolerance := c.tolerance }
    note m report
    return report

/-- The comparison of two vectors component by component. -/
def compareAll (analytic numeric : Vec α) : List (Entry α) :=
  ((analytic.zip numeric).zipIdx).map fun p => .compare p.2 p.1.1 p.1.2

/-- Compares a product with the Hessian with the difference of the gradient along the vector; along
no direction at all it is compared with zero. -/
def compareProduct (c : Checker α) (m : Model α σ) (x v : Vec α) (kind : Kind) :
    Run σ (Report α) := do
  if let some e := lengthError "direction" v.length x.length then
    return c.failed kind e
  match ← Run.outcome (m.hessianVector x v) with
  | .error e => return c.failed kind e.message
  | .ok analytic =>
    if let some e := lengthError "Hessian-vector product" analytic.length x.length then
      return c.failed kind e
    let length := Vec.norm v
    if length == 0 then
      return {
        kind, tolerance := c.tolerance
        entries := compareAll analytic (Vec.zeros analytic.length) }
    let step := c.stepFor (Vec.norm x) / length
    let forward ← Run.outcome (m.gradient (← Vec.along x v step))
    let backward ← Run.outcome (m.gradient (← Vec.sub x (Vec.scale v step)))
    match forward, backward with
    | .ok ahead, .ok behind =>
      let wrong := (lengthError "gradient" ahead.length x.length).or
        (lengthError "gradient" behind.length x.length)
      if let some e := wrong then
        return c.failed kind e
      let numeric := Vec.divide (← Vec.sub ahead behind) (2.0 * step)
      return { kind, tolerance := c.tolerance, entries := compareAll analytic numeric }
    | .error e, _ | _, .error e => return c.failed kind e.message

def checkHessianVector (c : Checker α) (m : Model α σ) (x v : Vec α) : Run σ (Report α) := do
  let report ← c.compareProduct m x v .hessianVector
  note m report
  return report

def checkRandomDirection (c : Checker α) (m : Model α σ) (x : Vec α) : Run σ (Report α) :=
  c.checkHessianVector m x ((Random.signedUnits c.seed x.length).map Scalar.ofFloat)

/-- Adds the report on column `j` of a Hessian of `n` columns. -/
def addColumn (n : Nat) (r : Report α) (column : Report α × Nat) : Report α :=
  let (part, j) := column
  { r with
    entries := r.entries ++ part.entries.map fun e => { e with index := e.index * n + j }
    errors := r.errors ++ part.errors.map fun e => s!"column {j}: {e}" }

def checkHessian (c : Checker α) (m : Model α σ) (x : Vec α) : Run σ (Report α) := do
  let n := x.length
  let columns ← (List.range n).mapM fun j => c.compareProduct m x (Vec.unit n j) .hessian
  let report : Report α :=
    columns.zipIdx.foldl (addColumn n) { kind := .hessian, tolerance := c.tolerance }
  note m report
  return report

end Checker

end Derivatives

end Descent
