import Descent.Error
import Descent.Run
import Descent.Vec

/-!
# Curvature histories

A `History` keeps the last pairs `(s, y)` of a step and the change of the gradient along it, those
with safely positive `sᵀy` only. The pairs stand for a positive definite approximation of the
Hessian: `applyInverse` multiplies with its inverse by the two-loop recursion, `apply` with the
approximation itself by replaying the BFGS updates.
-/

set_option autoImplicit false

namespace Descent

/-- A step, the change of the gradient along it, and `1 / sᵀy`. -/
structure Correction (α : Type) where
  s : Vec α
  y : Vec α
  rho : α

/-- The last correction pairs, oldest first, at most `capacity` of them. -/
structure History (α : Type) where
  capacity : Nat
  pairs : List (Correction α)

namespace History

variable {α : Type} [Scalar α]

omit [Scalar α] in
/-- The empty history; its capacity must not be zero. -/
def empty (capacity : Nat) : Except SolverError (History α) :=
  if capacity = 0 then
    .error (.invalidConfiguration "L-BFGS memory must be at least 1" "lbfgs_memory" "0")
  else .ok ⟨capacity, []⟩

omit [Scalar α] in
def clear (h : History α) : History α := { h with pairs := [] }

/-- Whether a pair with the curvature `c = sᵀy` is kept: `c` is finite and above `ε ‖s‖ ‖y‖`. -/
def admits (s y : Vec α) (c : α) : Bool :=
  decide (Scalar.epsilon * Vec.norm s * Vec.norm y < c) && Scalar.isFinite c

/-- The history with one more pair, whose curvature is `c`; the oldest pair makes room. -/
def store (h : History α) (s y : Vec α) (c : α) : History α :=
  let kept := if h.pairs.length = h.capacity then h.pairs.drop 1 else h.pairs
  { h with pairs := kept ++ [⟨s, y, 1 / c⟩] }

/-- Stores a pair if its curvature is safely positive, and tells whether it did. -/
def tryPush (s y : Vec α) : Run (History α) Bool := do
  let c ← Vec.dot s y
  if admits s y c then
    modify fun h => h.store s y c
    return true
  else
    emit (.pairSkipped (Scalar.toFloat c))
    return false

/-- The scale `sᵀy / yᵀy` of the newest pair; 1 if there is none or its `y` vanishes. -/
def gamma (h : History α) : α :=
  match h.pairs.getLast? with
  | none => 1
  | some p =>
    let yy := Vec.normSquared p.y
    if 0 < yy then Vec.inner p.s p.y / yy else 1

/-- The first loop of the recursion, newest pair first: `q` with each pair taken out of it, and the
coefficients that were used, the oldest pair's first. -/
def takeOut : List (Correction α) → Vec α → List α → Checked (Vec α × List α)
  | [], q, alphas => .ok (q, alphas)
  | p :: older, q, alphas => do
    let alpha := p.rho * (← Vec.dot p.s q)
    takeOut older (← Vec.addMultiple q (-alpha) p.y) (alpha :: alphas)

/-- The second loop, oldest pair first: `q` with each pair put back. -/
def putBack : List (Correction α) → List α → Vec α → Checked (Vec α)
  | p :: newer, alpha :: alphas, q => do
    let beta := p.rho * (← Vec.dot p.y q)
    putBack newer alphas (← Vec.addMultiple q (alpha - beta) p.s)
  | _, _, q => .ok q

/-- The inverse approximation times `v`. -/
def applyInverse (h : History α) (v : Vec α) : Checked (Vec α) := do
  let (q, alphas) ← takeOut h.pairs.reverse v []
  putBack h.pairs alphas (Vec.scale q h.gamma)

/-- Adds to `w = B u` the update of `B` by a pair whose `B s` is given. -/
def update (u w : Vec α) (t : Correction α × Vec α) : Checked (Vec α) := do
  let (p, bs) := t
  let sbs ← Vec.dot p.s bs
  let w ← if 0 < sbs then do Vec.addMultiple w (-((← Vec.dot bs u) / sbs)) bs else pure w
  Vec.addMultiple w ((← Vec.dot p.y u) * p.rho) p.y

/-- `B u`, where `B` starts as `b₀` times the identity and absorbs the given pairs in order. -/
def product (b₀ : α) (absorbed : List (Correction α × Vec α)) (u : Vec α) : Checked (Vec α) :=
  absorbed.foldlM (update u) (Vec.scale u b₀)

/-- Each pair with `B s`, where `B` has absorbed the pairs before it. -/
def images (b₀ : α) (pairs : List (Correction α)) : Checked (List (Correction α × Vec α)) :=
  pairs.foldlM (fun absorbed p => do return absorbed ++ [(p, ← product b₀ absorbed p.s)]) []

/-- The approximation times `v`. -/
def apply (h : History α) (v : Vec α) : Checked (Vec α) := do
  let b₀ := 1 / h.gamma
  product b₀ (← images b₀ h.pairs) v

end History

end Descent
