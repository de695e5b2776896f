import Descent.Error
import Descent.Vec

/-!
# Formulas

Expressions in the coordinates of a point and of a direction. Operands are evaluated from left to
right, and the first failure is the result; of a choice only the branch taken is evaluated.
-/

set_option autoImplicit false

namespace Descent

/-- An expression in the coordinates of a point and of a direction. -/
inductive Formula (α : Type) where
  | const (a : α)
  /-- Coordinate `i` of the point. -/
  | point (i : Nat)
  /-- Coordinate `i` of the direction. -/
  | direction (i : Nat)
  | neg (a : Formula α)
  | add (a b : Formula α)
  | sub (a b : Formula α)
  | mul (a b : Formula α)
  | div (a b : Formula α)
  | sqrt (a : Formula α)
  | exp (a : Formula α)
  | ln (a : Formula α)
  | abs (a : Formula α)
  /-- The third operand if the first is below the second, else the fourth. -/
  | ifLess (a b c d : Formula α)
  /-- No value. -/
  | fail (error : ModelError)

namespace Formula

variable {α : Type} [Scalar α] [Scalar.Elementary α]

/-- The value at a point and a direction. A coordinate that is not there is a NaN. -/
def eval (x v : Vec α) : Formula α → Except ModelError α
  | const a => .ok a
  | point i => .ok (x.getD i Scalar.nan)
  | direction i => .ok (v.getD i Scalar.nan)
  | neg a => do return -(← eval x v a)
  | add a b => do return (← eval x v a) + (← eval x v b)
  | sub a b => do return (← eval x v a) - (← eval x v b)
  | mul a b => do return (← eval x v a) * (← eval x v b)
  | div a b => do return (← eval x v a) / (← eval x v b)
  | sqrt a => do return Scalar.sqrt (← eval x v a)
  | exp a => do return Scalar.Elementary.exp (← eval x v a)
  | ln a => do return Scalar.Elementary.ln (← eval x v a)
  | abs a => do return Scalar.abs (← eval x v a)
  | ifLess a b c d => do
    let left ← eval x v a
    let right ← eval x v b
    if left < right then eval x v c else eval x v d
  | fail e => .error e

def evalAll (fs : List (Formula α)) (x v : Vec α) : Except ModelError (Vec α) :=
  fs.mapM (eval x v)

end Formula

end Descent
