import Descent.Observer

/-!
# Solves

What all algorithms share: a solve starts with the checks of its options and of the starting point,
goes through outer iterations until a test or a budget ends it, and yields one record. An algorithm
supplies its rounds; everything an observer hears is said here.

Only a refused solve is an error. Every other end, failures included, is a record with a status.
-/

set_option autoImplicit false

namespace Descent

/-- The computations of an algorithm: its model counts evaluations, and a failure ends the solve. -/
abbrev Working (σ β : Type) := ExceptT SolverError (Run (Counts × σ)) β

/-- The computations of a solve, which has an observer beside the model. -/
abbrev Solving (σ ω β : Type) := Run ((Counts × σ) × ω) β

/-- Where an algorithm stands between two rounds. -/
structure Progress (α μ : Type) where
  iterate : Iterate α
  /-- The norm of the projected gradient. -/
  gradientNorm : α
  /-- What else the algorithm remembers. -/
  memory : μ

structure Round (α μ : Type) where
  iteration : Iteration α
  progress : Progress α μ
  /-- A tolerance that the step met. -/
  verdict : Option Status

/-- A solve: who solves what, under which options and under whose eyes. -/
structure Solve (α σ ω : Type) [Scalar α] where
  /-- What messages call the algorithm. -/
  solver : String
  model : Model α σ
  options : Options α
  observer : Observer α ω
  /-- The time since the start after a number of iterations. -/
  clock : Nat → Duration

namespace Solve

variable {α σ ω μ : Type} [Scalar α]

/-- Checks the options and the length of the starting point, and then tells the observer. -/
def start (s : Solve α σ ω) (x₀ : Vec α) : ExceptT SolverError (Run ((Counts × σ) × ω)) Unit := do
  s.options.validate
  if x₀.length ≠ s.model.dimension then
    throw (.ofLengths s.model.dimension x₀.length)
  (Run.onSnd (ExceptT.lift (s.observer.onStart s.solver s.model.name)) : Solving σ ω Unit)
  emit (.started s.solver s.model.name s.model.dimension)

/-- The objective and the gradient at the starting point, which have to be finite. -/
def evaluateStart (s : Solve α σ ω) (x : Vec α) : Evaluation (Counts × σ) (α × Vec α) := do
  let (f, g) ← s.model.counted.objectiveAndGradient x
  if Scalar.isFinite f && Vec.allFinite g then
    return (f, g)
  else
    throw (.evaluation "non-finite value at the starting point")

/-- The norm of the projected gradient that counts as zero, if it is `initial` at the start. -/
def threshold (s : Solve α σ ω) (initial : α) : α :=
  match s.options.relativeGradientTolerance with
  | some rtol => Scalar.maxNum s.options.gradientTolerance (rtol * initial)
  | none => s.options.gradientTolerance

/-- The budget of evaluations or of time that is used up, if one is. -/
def exhausted (s : Solve α σ ω) (counts : Counts) (iterations : Nat) : Option Status :=
  if s.options.maxEvaluations.any fun most => decide (most ≤ counts.functionEvaluations) then
    some .evaluationLimit
  else if s.options.maxTime.any fun most => decide (most.total ≤ (s.clock iterations).total) then
    some .timeLimit
  else none

/-- The tolerance that an accepted step meets, if it meets one. -/
def stepVerdict (s : Solve α σ ω) (fOld fNew stepNorm xNorm : α) : Option Status :=
  if s.options.functionTolerance.any fun ftol =>
      decide (Scalar.abs (fOld - fNew) ≤ ftol * Scalar.maxNum 1 (Scalar.abs fOld)) then
    some .functionTolerance
  else if s.options.stepTolerance.any fun stol =>
      decide (stepNorm ≤ stol * Scalar.maxNum 1 xNorm) then
    some .stepTolerance
  else none

/-- Reports an iteration; the answer `false` asks to stop. -/
def notify (s : Solve α σ ω) (i : Iteration α) : Solving σ ω Bool := do
  emit (.iterated s.solver i.figures)
  Run.onSnd (ExceptT.lift (s.observer.onIteration i))

/-- Draws up the record and shows it to the observer. -/
def finish (s : Solve α σ ω) (status : Status) (iterate : Iterate α) (gradientNorm : α)
    (iterations : Nat) (error : Option SolverError) : Solving σ ω (Record α) := do
  let ((counts, _), _) ← get
  let record : Record α :=
    { solver := s.solver, model := s.model.name, status, iterate, gradientNorm, iterations, counts
      elapsed := s.clock iterations, error }
  emit (.finished record.text)
  Run.onSnd (ExceptT.lift (s.observer.onFinish record))
  return record

/-- The record of a solve whose starting point has no values. -/
def finishAtStart (s : Solve α σ ω) (x : Vec α) (error : ModelError) :
    Solving σ ω (Record α) :=
  s.finish .evaluationFailure
    (.free x Scalar.nan (Vec.constant x.length Scalar.nan) 0) Scalar.nan 0
    (some (.evaluationFailures 1 error.message))

/-- Goes on from a progress: the gradient test first, then the budgets, then a round. `remaining` is
what is left of the budget of iterations. -/
def loop (s : Solve α σ ω) (threshold : α)
    (round : Nat → Progress α μ → Working σ (Round α μ)) :
    (remaining iterations : Nat) → Progress α μ → Solving σ ω (Record α)
  | remaining, iterations, p => do
    if p.gradientNorm ≤ threshold then
      return ← s.finish .gradientTolerance p.iterate p.gradientNorm iterations none
    match remaining with
    | 0 => s.finish .iterationLimit p.iterate p.gradientNorm iterations none
    | remaining + 1 =>
      let ((counts, _), _) ← get
      if let some status := s.exhausted counts iterations then
        return ← s.finish status p.iterate p.gradientNorm iterations none
      match ← Run.onFst (Run.outcome (round (iterations + 1) p)) with
      | .error e =>
        s.finish (.ofError e) p.iterate p.gradientNorm (iterations + 1) (some e)
      | .ok r =>
        let goOn ← s.notify r.iteration
        if !goOn then
          return ← s.finish .userRequested r.progress.iterate r.progress.gradientNorm
            (iterations + 1) none
        if let some status := r.verdict then
          return ← s.finish status r.progress.iterate r.progress.gradientNorm (iterations + 1)
            none
        s.loop threshold round remaining (iterations + 1) r.progress

def iterate (s : Solve α σ ω) (round : Nat → Progress α μ → Working σ (Round α μ))
    (p : Progress α μ) : Solving σ ω (Record α) :=
  s.loop (s.threshold p.gradientNorm) round s.options.maxIterations 0 p

end Solve

end Descent
