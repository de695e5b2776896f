import Descent.TrustRegion

/-!
# The projected Newton method

A trust-region Newton method for problems with bounds. Each trial step is made in three stages:

1. a step along the projected steepest-descent path `P(x - a g) - x` that stays inside the radius
   and has a fraction of the decrease that the linear term promises (the Cauchy step);
2. a Newton step on the variables that the Cauchy point leaves off their bounds;
3. a search back from there to the Cauchy point, on the projected segment, for a point that does at
   least as well on the quadratic model.
-/

set_option autoImplicit false

namespace Descent

namespace ProjectedNewton

variable {α σ ω : Type} [Scalar α]

/-! ## The Cauchy step -/

structure Path (α σ : Type) where
  operator : Operator α σ
  box : Box α
  x : Vec α
  g : Vec α
  radius : α

/-- The most changes of the length of the Cauchy step. -/
def cauchyTrials : Nat := 20

/-- The step at length `a` of the projected path, and whether it is good enough: inside the radius,
with a hundredth of the decrease that the linear term promises. -/
def Path.trial (p : Path α σ) (a : α) : Evaluation σ (Vec α × Bool) := do
  let s ← Vec.sub (← p.box.project (← Vec.sub p.x (Vec.scale p.g a))) p.x
  if p.radius < Vec.norm s then
    return (s, false)
  let q ← p.operator.quadratic p.g s
  return (s, decide (q ≤ 0.01 * (← Vec.dot p.g s)))

/-- The computations that move the length of the Cauchy step; a failure hands back the length
reached. -/
abbrev Lengthwise (α σ β : Type) := ExceptT (ModelError × α) (Run σ) β

/-- An evaluation while the length is `a`. -/
def atLength {β : Type} (a : α) (evaluation : Evaluation σ β) : Lengthwise α σ β :=
  ExceptT.adapt (fun e => (e, a)) evaluation

/-- Makes the step ten times longer as long as it stays good enough and still changes. -/
def Path.extrapolate (p : Path α σ) : Nat → α → Vec α → Lengthwise α σ (Vec α × α)
  | 0, a, s => return (s, a)
  | n + 1, a, s => do
    let longer := a * 10.0
    let (next, good) ← atLength a (p.trial longer)
    if !good || next == s then return (s, a) else p.extrapolate n longer next

/-- Makes the step ten times shorter until it is good enough. -/
def Path.interpolate (p : Path α σ) : Nat → α → Vec α → Lengthwise α σ (Vec α × α)
  | 0, a, s => return (s, a)
  | n + 1, a, _ => do
    let shorter := a * 0.1
    let (next, good) ← atLength shorter (p.trial shorter)
    if good then return (next, shorter) else p.interpolate n shorter next

/-- The Cauchy step and its length, searched for from the length `a`. -/
def Path.cauchyStep (p : Path α σ) (a : α) : Lengthwise α σ (Vec α × α) := do
  let (s, good) ← atLength a (p.trial a)
  if good then p.extrapolate cauchyTrials a s else p.interpolate cauchyTrials a s

/-! ## The trial step -/

def projectedTrials : Nat := 10

/-- Looks for a point `P(x_c + b w)` that does as well on the quadratic model as `bound` says, with
`b` halved from one to the next. -/
def projectedSearch (op : Operator α σ) (box : Box α) (x g cauchyPoint w : Vec α) (bound : α)
    (kind : StepKind) : Nat → α → Evaluation σ (Option (TrustRegion.Trial α))
  | 0, _ => return none
  | n + 1, b => do
    let point ← box.project (← Vec.along cauchyPoint w b)
    let step ← Vec.sub point x
    let q ← op.quadratic g step
    if q ≤ bound then return some ⟨point, step, -q, kind⟩
    else projectedSearch op box x g cauchyPoint w bound kind n (b * 0.5)

/-- The Newton step on the free variables from the Cauchy step on. -/
def faceStep (linear : Option (LinearSolver α)) (cg : TruncatedCg.Config α)
    (curvature : Curvature α σ) (g : Vec α) (free : List Bool) (cauchy : Vec α)
    (radius gradientNorm : α) : ExceptT SolverError (Run σ) (Vec α × StepKind) :=
  match linear with
  | some solver => do
    let hessian ← Evaluation.required curvature.toDense
    Run.ofChecked (TrustRegion.directStep solver hessian g free cauchy radius)
  | none => do
    let solution ← Evaluation.required (TruncatedCg.solveFrom cg (curvature.operator.masked free) g
      radius cauchy (cg.toleranceAt gradientNorm))
    emit (.faceStep (freeCount free) solution.iterations solution.kind)
    return (solution.step, solution.kind)

def fromCauchy (linear : Option (LinearSolver α)) (cg : TruncatedCg.Config α)
    (curvature : Curvature α σ) (box : Box α) (iterate : Iterate α) (radius gradientNorm : α)
    (cauchy : Vec α) : ExceptT SolverError (Run σ) (TrustRegion.Trial α) := do
  let op := curvature.operator
  let q ← Evaluation.required (op.quadratic iterate.g cauchy)
  let cauchyPoint ← Vec.add iterate.x cauchy
  let free := (← Box.bindingMask 0 box cauchyPoint).map not
  let fallback : TrustRegion.Trial α := ⟨cauchyPoint, cauchy, -q, .cauchy⟩
  if !free.any id then
    return fallback
  let slope ← Vec.add iterate.g (← Evaluation.required (op.apply cauchy))
  let (w, kind) ← faceStep linear cg curvature (← Vec.restrict free slope) free cauchy radius
    gradientNorm
  let bound := q + Scalar.epsilon * Scalar.maxNum 1 (Scalar.abs q)
  match ← Evaluation.required
      (projectedSearch op box iterate.x iterate.g cauchyPoint w bound kind projectedTrials 1) with
  | some trial => return trial
  | none =>
    emit .projectedSearchFailed
    return fallback

/-- The stepper; it remembers the length of the last Cauchy step. -/
def stepper (linear : Option (LinearSolver α)) (cg : TruncatedCg.Config α) :
    TrustRegion.Stepper α σ α where
  fresh := 1
  propose m box iterate radius gradientNorm length := do
    let curvature ← ExceptT.adapt (fun e => (.model e, length)) (Curvature.ofModel m iterate.x)
    let path : Path α σ := ⟨curvature.operator, box, iterate.x, iterate.g, radius⟩
    let (cauchy, length) ←
      ExceptT.adapt (fun (e, a) => (SolverError.model e, a)) (path.cauchyStep length)
    let trial ← ExceptT.adapt (fun e => (e, length))
      (fromCauchy linear cg curvature box iterate radius gradientNorm cauchy)
    return (trial, length)

def name : String := "TRON"

def minimize (c : TrustRegion.Config α) (m : Model α σ) (x₀ : Vec α) (o : Options α)
    (observer : Observer α ω) (clock : Nat → Duration) :
    ExceptT SolverError (Run ((Counts × σ) × ω)) (Record α) :=
  TrustRegion.minimize ⟨name, m, o, observer, clock⟩ (stepper c.subproblem.linearSolver c.cg) c x₀

end ProjectedNewton

end Descent
