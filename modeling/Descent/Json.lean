import Descent.Scalar

/-!
# JSON values

The values of the JSON data format. Numbers are kept as they were written, digits and exponent, so
that each reader rounds them once and in its own way; members of an object stay in order, repeated
names included.
-/

set_option autoImplicit false

namespace Descent

/-- A number as it is written: a sign, digits and a power of ten. -/
structure Numeral where
  negative : Bool
  decimal : Decimal
  /-- Written with digits only, neither a point nor an exponent. -/
  isInteger : Bool
deriving DecidableEq

namespace Numeral

def ofNat (n : Nat) : Numeral := ⟨false, ⟨n, 0⟩, true⟩

/-- The value as a natural number, if it is written as one and has no sign. -/
def toNat? (n : Numeral) : Option Nat :=
  if n.isInteger && !n.negative then some n.decimal.digits else none

/-- The nearest scalar: the exact value is rounded once, to the precision asked for. A magnitude
beyond all scalars is infinite and one below all of them is zero; powers of ten far out of range are
not computed. -/
def nearest {α : Type} [Scalar α] (n : Numeral) : α :=
  let d := n.decimal
  let magnitude : α :=
    if d.digits = 0 ∨ d.position < -400 then 0
    else if 400 < d.position then Scalar.infinity
    else OfScientific.ofScientific d.digits (decide (d.exponent < 0)) d.exponent.natAbs
  if n.negative then -magnitude else magnitude

def toFloat (n : Numeral) : Float := n.nearest

/-- The text of the numeral: plain digits, or scientific notation. -/
def text (n : Numeral) : String :=
  (if n.negative then "-" else "")
    ++ (if n.isInteger then n.decimal.plainText else n.decimal.scientificText)

end Numeral

inductive Json where
  | null
  | bool (b : Bool)
  | number (n : Numeral)
  /-- A string; `none` if it holds half of a surrogate pair, which no text can. -/
  | string (s : Option String)
  | array (items : List Json)
  | object (members : List (String × Json))
  /-- An object with a name that holds half of a surrogate pair, so that no text is its name. -/
  | misnamed

namespace Json

def str (s : String) : Json := .string (some s)

def nat (n : Nat) : Json := .number (.ofNat n)

/-- A double with its shortest digits. Negative zero loses its sign, and what is not finite is
written as a text. -/
def float (x : Float) : Json :=
  match Binary.ofFloat x with
  | .nan => str "nan"
  | .infinite negative => str (if negative then "-inf" else "inf")
  | .finite negative v =>
    .number ⟨negative && v.mantissa != 0, Decimal.shortest v, false⟩

/-- The double that a value stands for: the nearest one to a number, or one that is not finite. -/
def toFloat? : Json → Option Float
  | number n => some n.toFloat
  | string (some "nan") => some (0 / 0)
  | string (some "inf") => some (1 / 0)
  | string (some "-inf") => some (-1 / 0)
  | _ => none

def option {β : Type} (write : β → Json) : Option β → Json
  | some b => write b
  | none => null

def list {β : Type} (write : β → Json) (bs : List β) : Json := .array (bs.map write)

def member? (name : String) : Json → Option Json
  | object members => members.lookup name
  | _ => none

end Json

end Descent
