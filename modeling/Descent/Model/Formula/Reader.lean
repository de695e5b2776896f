import Descent.Json
import Descent.Model.Formula

/-!
# Formulas in files

The JSON form of a formula: a number stands for itself, and an array applies the operator that it
begins with to the items after it. The operators of arithmetic take any number of operands, from the
left.
-/

set_option autoImplicit false

namespace Descent

namespace Formula

def failure (reason : String) : String → Option ModelError
  | "evaluation" => some (.evaluation reason)
  | "not_implemented" => some (.notImplemented reason)
  | "invalid_parameter" => some (.invalidParameter reason)
  | _ => none

variable {α : Type} [Scalar α]

def apply : String → List (Formula α) → Option (Formula α)
  | "-", [a] => some (neg a)
  | "+", a :: operands => some (operands.foldl add a)
  | "-", a :: operands => some (operands.foldl sub a)
  | "*", a :: operands => some (operands.foldl mul a)
  | "/", a :: operands => some (operands.foldl div a)
  | "sqrt", [a] => some (sqrt a)
  | "exp", [a] => some (exp a)
  | "ln", [a] => some (ln a)
  | "abs", [a] => some (abs a)
  | "lt", [a, b, c, d] => some (ifLess a b c d)
  | _, _ => none

mutual

def ofJson? : Json → Option (Formula α)
  | .array [.string (some "x"), .number i] => i.toNat?.map point
  | .array [.string (some "v"), .number i] => i.toNat?.map direction
  | .array [.string (some "fail"), .string (some kind), .string (some reason)] =>
    (failure reason kind).map fail
  | .array (.string (some operator) :: operands) => do apply operator (← listOfJson? operands)
  | json => json.toFloat?.map fun x => const (Scalar.ofFloat x)

def listOfJson? : List Json → Option (List (Formula α))
  | [] => some []
  | json :: rest => do return (← ofJson? json) :: (← listOfJson? rest)

end

end Formula

end Descent
