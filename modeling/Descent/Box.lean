import Descent.Error
import Descent.Vec

/-!
# Boxes

The feasible set of a bound-constrained problem: for each variable an interval, either end of which
may be infinite. A box projects points onto itself, tells which bounds are active, and measures
optimality by the projected gradient.

A vector that has more coordinates than the box has intervals is a fault where an interval is
needed; the doc comments say where that is not at once.
-/

set_option autoImplicit false

namespace Descent

/-- The values that one variable may take. -/
structure Interval (α : Type) where
  lower : α
  upper : α

namespace Interval

variable {α : Type} [Scalar α]

/-- No end is a NaN and the lower one is not above the upper one. -/
def isValid (i : Interval α) : Bool :=
  !(Scalar.isNaN i.lower || Scalar.isNaN i.upper || decide (i.upper < i.lower))

/-- The value of the interval nearest to `a`. -/
def clamp (i : Interval α) (a : α) : α := Scalar.minNum (Scalar.maxNum a i.lower) i.upper

def contains (i : Interval α) (a : α) : Bool := decide (i.lower ≤ a) && decide (a ≤ i.upper)

def isBounded (i : Interval α) : Bool := Scalar.isFinite i.lower || Scalar.isFinite i.upper

/-- Whether `a` is at most `tol` above a finite lower end. -/
def atLower (i : Interval α) (a tol : α) : Bool :=
  Scalar.isFinite i.lower && decide (a ≤ i.lower + tol)

def atUpper (i : Interval α) (a tol : α) : Bool :=
  Scalar.isFinite i.upper && decide (i.upper - tol ≤ a)

end Interval

abbrev Box (α : Type) := List (Interval α)

namespace Box

variable {α : Type} [Scalar α]

def unbounded (n : Nat) : Box α := List.replicate n ⟨-Scalar.infinity, Scalar.infinity⟩

/-- Refuses the first interval that is not valid; the first one of the list is that of variable
`k`. -/
def checkFrom (k : Nat) : Box α → Except ModelError Unit
  | [] => .ok ()
  | i :: b =>
    if i.isValid then checkFrom (k + 1) b
    else .error (.invalidParameter ("invalid bounds [" ++ Scalar.text i.lower ++ ", "
      ++ Scalar.text i.upper ++ s!"] for variable {k}"))

/-- The box with the given sides, which must be equally long and make valid intervals. -/
def ofSides (lower upper : Vec α) : Except ModelError (Box α) := do
  ModelError.checkLength lower.length upper
  let b := List.zipWith Interval.mk lower upper
  checkFrom 0 b
  return b

def lower (b : Box α) : Vec α := b.map Interval.lower

def upper (b : Box α) : Vec α := b.map Interval.upper

def isBounded (b : Box α) : Bool := b.any Interval.isBounded

/-- The point of the box nearest to `x`. -/
def project (b : Box α) (x : Vec α) : Checked (Vec α) := Vec.combine Interval.clamp b x

/-- Whether `x` lies in the box; decided by the first coordinate that does not. -/
def contains : Box α → Vec α → Checked Bool
  | _, [] => .ok true
  | [], _ :: _ => .error .missingEntry
  | i :: b, a :: x => if i.contains a then contains b x else .ok false

/-- The variables within `tol` of a finite bound, whatever the gradient. -/
def bindingMask (tol : α) : Box α → Vec α → Checked (List Bool)
  | _, [] => .ok []
  | [], _ :: _ => .error .missingEntry
  | i :: b, a :: x => do
    return (i.atLower a tol || i.atUpper a tol) :: (← bindingMask tol b x)

/-- The active variables: those within `tol` of a bound with a gradient that does not point back
into the box. The gradient is read only at variables near a bound. -/
def activeMask (tol : α) : Box α → Vec α → Vec α → Checked (List Bool)
  | _, [], _ => .ok []
  | [], _ :: _, _ => .error .missingEntry
  | i :: b, a :: x, g => do
    let active ←
      if i.atLower a tol || i.atUpper a tol then do
        let slope ← entryAt g 0
        pure (i.atLower a tol && decide (0 ≤ slope) || i.atUpper a tol && decide (slope ≤ 0))
      else pure false
    return active :: (← activeMask tol b x g.tail)

/-- The vector `g` with zeros where the mask holds; it must reach as far as the mask. -/
def zeroWhere : List Bool → Vec α → Checked (Vec α)
  | [], _ => .ok []
  | true :: mask, g => do return 0 :: (← zeroWhere mask g.tail)
  | false :: mask, g => do return (← entryAt g 0) :: (← zeroWhere mask g.tail)

/-- The gradient with zeros at the active variables. Its norm is the first-order measure of
optimality. -/
def projectedGradient (b : Box α) (x g : Vec α) : Checked (Vec α) := do
  zeroWhere (← activeMask 0 b x g) g

/-- The least of `alpha` and the steps at which `x + t · d` meets a finite bound. A bound is looked
at only where `d` moves towards it. -/
def firstExit : Box α → Vec α → Vec α → α → Checked α
  | _, [], _, alpha => .ok alpha
  | _, _ :: _, [], _ => .error .missingEntry
  | b, a :: x, c :: d, alpha =>
    if 0 < c then do
      let i ← entryAt b 0
      firstExit b.tail x d
        (if Scalar.isFinite i.upper then Scalar.minNum alpha ((i.upper - a) / c) else alpha)
    else if c < 0 then do
      let i ← entryAt b 0
      firstExit b.tail x d
        (if Scalar.isFinite i.lower then Scalar.minNum alpha ((i.lower - a) / c) else alpha)
    else firstExit b.tail x d alpha

/-- The greatest `t ≥ 0` with `x + t · d` in the box; infinite if `d` never leaves it. -/
def maxFeasibleStep (b : Box α) (x d : Vec α) : Checked α := do
  return Scalar.maxNum (← firstExit b x d Scalar.infinity) 0

end Box

end Descent
