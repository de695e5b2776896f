import Descent.Decimal.Notation

/-!
# Scalars

`Scalar α` is what an algorithm of this library asks of its numbers: the field operations, the
comparisons, an infinity and a not-a-number, the constants that depend on the precision, and the
texts that messages need. Every algorithm is written once over it. `Float` and `Float32` are the
instances that run; each operation of theirs is a single correctly rounded one.

Comparisons are those of the floating-point standard: every one with a NaN is false, so `a < b` and
`¬ b ≤ a` are different tests, and the definitions of this library keep them apart.
-/

set_option autoImplicit false

namespace Descent

/-- The arithmetic, the comparisons, the constants and the texts that the algorithms use. -/
class Scalar (α : Type) extends Add α, Sub α, Mul α, Div α, Neg α, Zero α, One α,
    OfScientific α, BEq α, LT α, LE α where
  decLt : DecidableLT α
  decLe : DecidableLE α
  abs : α → α
  sqrt : α → α
  /-- Neither infinite nor NaN. -/
  isFinite : α → Bool
  infinity : α
  nan : α
  /-- The gap between 1 and the next greater number. -/
  epsilon : α
  /-- The cube root of `epsilon`, the step scale of central differences. -/
  cbrtEpsilon : α
  /-- Tolerance of general convergence tests. -/
  defaultTolerance : α
  /-- Tolerance on the norm of the projected gradient. -/
  gradientTolerance : α
  /-- Relative error up to which a derivative check passes. -/
  checkTolerance : α
  /-- The shortest step that a line search tries. -/
  minStepSize : α
  /-- The nearest scalar to a double; infinite when the double is out of range. -/
  ofFloat : Float → α
  /-- The scalar as a double, for messages. -/
  toFloat : α → Float
  /-- The nearest scalar to a count. -/
  ofCount : Nat → α
  /-- The shortest digits that read back as the scalar, without an exponent. -/
  text : α → String

/-- The transcendental functions that some models need. -/
class Scalar.Elementary (α : Type) where
  exp : α → α
  ln : α → α

namespace Scalar

variable {α : Type} [Scalar α]

instance : DecidableLT α := decLt

instance : DecidableLE α := decLe

/-- A number that differs from itself. -/
def isNaN (a : α) : Bool := !(a == a)

/-- The smaller of two scalars; of a scalar and a NaN the scalar. -/
def minNum (a b : α) : α := if a ≤ b then a else if isNaN b then a else b

/-- The greater of two scalars; of a scalar and a NaN the scalar. -/
def maxNum (a b : α) : α := if b ≤ a then a else if isNaN b then a else b

/-- The square root of `epsilon`, the step scale of forward differences. -/
def sqrtEpsilon : α := sqrt epsilon

end Scalar

instance : Scalar Float where
  decLt := inferInstance
  decLe := inferInstance
  zero := 0
  one := 1
  abs := Float.abs
  sqrt := Float.sqrt
  isFinite := Float.isFinite
  infinity := 1 / 0
  nan := 0 / 0
  epsilon := 2.220446049250313e-16
  cbrtEpsilon := 6.0554544523933395e-6
  defaultTolerance := 1e-8
  gradientTolerance := 1e-6
  checkTolerance := 1e-4
  minStepSize := 1e-16
  ofFloat := id
  toFloat := id
  ofCount := Float.ofNat
  text x := (Binary.ofFloat x).plain

instance : Scalar Float32 where
  decLt := inferInstance
  decLe := inferInstance
  zero := 0
  one := 1
  abs := Float32.abs
  sqrt := Float32.sqrt
  isFinite := Float32.isFinite
  infinity := 1 / 0
  nan := 0 / 0
  epsilon := 1.1920928955078125e-7
  cbrtEpsilon := 4.921566694974899e-3
  defaultTolerance := 1e-4
  gradientTolerance := 1e-4
  checkTolerance := 1e-2
  minStepSize := 1e-10
  ofFloat := Float.toFloat32
  toFloat := Float32.toFloat
  ofCount := Float32.ofNat
  text x := (Binary.ofFloat32 x).plain

instance : Scalar.Elementary Float := ⟨Float.exp, Float.log⟩

instance : Scalar.Elementary Float32 := ⟨Float32.exp, Float32.log⟩

end Descent
