import Descent.Factor.Lu
import Descent.Model

/-!
# Classic problems

Problems with known derivatives and solutions: the extended Rosenbrock function, quadratics, a
logarithmic barrier, and a problem that has no value anywhere. Sums of many terms start at negative
zero, which no term changes.
-/

set_option autoImplicit false

namespace Descent

namespace Classic

variable {α : Type} [Scalar α]

/-- The sum of terms from the left. -/
def sum (terms : List α) : α := terms.foldl (fun s t => s + t) (-0)

def square (a : α) : α := a * a

/-! ## The extended Rosenbrock function -/

/-- `Σ 100 (x₂ᵢ - x₂ᵢ₋₁²)² + (1 - x₂ᵢ₋₁)²` in an even number of variables, with bounds. -/
structure Rosenbrock (α : Type) where
  n : Nat
  lower : Vec α
  upper : Vec α

namespace Rosenbrock

/-- The function without bounds; a fault unless `n` is even and at least 2. -/
def make (n : Nat) : Checked (Rosenbrock α) :=
  if 2 ≤ n ∧ n % 2 = 0 then
    .ok ⟨n, Vec.constant n (-Scalar.infinity), Vec.constant n Scalar.infinity⟩
  else .error (.unsupportedDimension n)

def terms : Vec α → List α
  | a :: b :: x => (100.0 * square (b - a * a) + square (1 - a)) :: terms x
  | _ => []

def slopes : Vec α → Vec α
  | a :: b :: x =>
    let r := b - a * a
    (-400.0 * a * r - 2.0 * (1 - a)) :: (200.0 * r) :: slopes x
  | _ => []

/-- The Hessian at the first vector times the second, pair by pair. -/
def curvatures : Vec α → Vec α → Vec α
  | a :: b :: x, u :: w :: v =>
    let h₁₁ := 1200.0 * a * a - 400.0 * b + 2.0
    let h₁₂ := -400.0 * a
    (h₁₁ * u + h₁₂ * w) :: (h₁₂ * u + 200.0 * w) :: curvatures x v
  | _, _ => []

/-- The usual start `(-1.2, 1, -1.2, 1, …)`. -/
def startingPoint (n : Nat) : Vec α :=
  (List.range n).map fun i => if i % 2 = 0 then -1.2 else 1

def model {σ : Type} (p : Rosenbrock α) : Model α σ where
  dimension := p.n
  name := "rosenbrock"
  objective x := do
    ModelError.checkLength p.n x
    return sum (terms x)
  gradient x := do
    ModelError.checkLength p.n x
    return slopes x
  hessianVector x v := do
    ModelError.checkLength p.n x
    ModelError.checkLength p.n v
    return curvatures x v
  sides := (p.lower, p.upper)
  initialPoint := some (startingPoint p.n)

end Rosenbrock

/-! ## Quadratics -/

/-- `½ xᵀAx - bᵀx` with bounds; `sparse` offers the Hessian as a sparse matrix. -/
structure Quadratic (α : Type) where
  a : Matrix α
  b : Vec α
  lower : Vec α
  upper : Vec α
  sparse : Bool := false

namespace Quadratic

/-- The quadratic without bounds; `a` is used as given. -/
def make (a : Matrix α) (b : Vec α) : Quadratic α where
  a := a
  b := b
  lower := Vec.constant b.length (-Scalar.infinity)
  upper := Vec.constant b.length Scalar.infinity

/-- The quadratic `½ Σ dᵢ xᵢ² - bᵀx`. -/
def diagonal (d b : Vec α) : Quadratic α := make (Matrix.diagonal d) b

/-- The quadratic of the second difference matrix, 2 on the diagonal and -1 beside it, with a
right-hand side of ones. -/
def laplacian (n : Nat) : Quadratic α :=
  make (Matrix.ofFn n n fun i j =>
    if i = j then 2.0 else if i = j + 1 ∨ j = i + 1 then -1 else 0) (Vec.constant n 1)

/-- The solution of `A x = b`; `none` if `A` has no inverse. The sizes must fit. -/
def minimizer (q : Quadratic α) : Checked (Option (Vec α)) :=
  if q.a.isSquare ∧ q.a.nrows = q.b.length then
    let f := Lu.factor q.a
    .ok (if f.isInvertible then some (f.solve q.b) else none)
  else .error (.lengthMismatch q.a.nrows q.b.length)

def model {σ : Type} (q : Quadratic α) : Model α σ where
  dimension := q.b.length
  name := "quadratic"
  objective x := do
    ModelError.checkLength q.b.length x
    let ax ← q.a.times x
    return 0.5 * (← Vec.dot x ax) - (← Vec.dot q.b x)
  gradient x := do
    ModelError.checkLength q.b.length x
    let ax ← q.a.times x
    Vec.sub ax q.b
  hessianVector _ v := do
    ModelError.checkLength q.b.length v
    q.a.times v
  hessian _ := return q.a
  sparseHessian _ := return if q.sparse then some (Sparse.ofDense q.a 0) else none
  sides := (q.lower, q.upper)
  initialPoint := some (Vec.zeros q.b.length)

end Quadratic

/-! ## A logarithmic barrier -/

namespace LogBarrier

/-- Refuses the first coordinate, counted from `k`, that is not above zero. -/
def checkDomain (k : Nat) : Vec α → Except ModelError Unit
  | [] => .ok ()
  | a :: x =>
    if 0 < a then checkDomain (k + 1) x
    else .error (.evaluation (s!"x[{k}] = " ++ Scalar.text a ++ " outside the domain"))

/-- `Σ xᵢ - ln xᵢ` in `n` variables, which has no value where a coordinate is not above zero. -/
def model {σ : Type} [Scalar.Elementary α] (n : Nat) : Model α σ where
  dimension := n
  name := "log-barrier"
  objective x := do
    ModelError.checkLength n x
    checkDomain 0 x
    return sum (x.map fun a => a - Scalar.Elementary.ln a)
  gradient x := do
    ModelError.checkLength n x
    checkDomain 0 x
    return x.map fun a => 1 - 1 / a
  hessianVector x v := do
    ModelError.checkLength n v
    checkDomain 0 x
    Vec.combine (fun u a => u / (a * a)) v x
  initialPoint := some (Vec.constant n 0.05)

end LogBarrier

/-! ## No values at all -/

def unevaluable {σ : Type} : Model α σ where
  dimension := 2
  objective _ := throw (.evaluation "objective unavailable")
  gradient _ := throw (.evaluation "gradient unavailable")

end Classic

end Descent
