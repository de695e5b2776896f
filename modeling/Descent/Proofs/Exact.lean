import Mathlib.Analysis.Real.Sqrt
import Mathlib.Data.Real.Basic
import Descent.Scalar

/-!
# Exact arithmetic

The algorithms are written over any `Scalar`. Here the real numbers become one, so that a
statement about `ℝ` is a statement about the same definitions without rounding. Every operation is
the one of the reals; no number is a NaN and all are finite. What the reals do not settle (the
machine constants, and the texts and doubles that messages are made of) is left open by
`RealConstants`: a theorem over it holds for every precision.
-/

set_option autoImplicit false

namespace Descent

/-- The constants of a precision and the conversions of its numbers, which exact arithmetic does
not determine. Only the gap `epsilon` has to be positive. -/
class RealConstants where
  epsilon : ℝ
  epsilon_pos : 0 < epsilon
  cbrtEpsilon : ℝ
  defaultTolerance : ℝ
  gradientTolerance : ℝ
  checkTolerance : ℝ
  minStepSize : ℝ
  /-- What stands for an infinity; there is none among the reals. -/
  infinity : ℝ
  /-- What stands for a NaN; it equals itself. -/
  nan : ℝ
  ofFloat : Float → ℝ
  toFloat : ℝ → Float
  text : ℝ → String

noncomputable instance RealConstants.scalar [RealConstants] : Scalar ℝ where
  beq a b := decide (a = b)
  decLt := inferInstance
  decLe := inferInstance
  abs a := |a|
  sqrt := Real.sqrt
  isFinite _ := true
  infinity := RealConstants.infinity
  nan := RealConstants.nan
  epsilon := RealConstants.epsilon
  cbrtEpsilon := RealConstants.cbrtEpsilon
  defaultTolerance := RealConstants.defaultTolerance
  gradientTolerance := RealConstants.gradientTolerance
  checkTolerance := RealConstants.checkTolerance
  minStepSize := RealConstants.minStepSize
  ofFloat := RealConstants.ofFloat
  toFloat := RealConstants.toFloat
  ofCount n := n
  text := RealConstants.text

/-- The constants of the double format; the conversions are blank. -/
@[reducible] noncomputable def RealConstants.double : RealConstants where
  epsilon := 2.220446049250313e-16
  epsilon_pos := by norm_num
  cbrtEpsilon := 6.0554544523933395e-6
  defaultTolerance := 1e-8
  gradientTolerance := 1e-6
  checkTolerance := 1e-4
  minStepSize := 1e-16
  infinity := 0
  nan := 0
  ofFloat _ := 0
  toFloat _ := 0
  text _ := ""

namespace Scalar

variable [RealConstants]

@[simp] theorem real_beq (a b : ℝ) : (a == b) = decide (a = b) := rfl

@[simp] theorem real_sqrt (a : ℝ) : Scalar.sqrt a = √a := rfl

@[simp] theorem real_abs (a : ℝ) : Scalar.abs a = |a| := rfl

@[simp] theorem real_isFinite (a : ℝ) : Scalar.isFinite a = true := rfl

@[simp] theorem real_isNaN (a : ℝ) : Scalar.isNaN a = false := by
  simp [Scalar.isNaN]

/-- Without a NaN the lesser of two scalars is their minimum. -/
@[simp] theorem real_minNum (a b : ℝ) : Scalar.minNum a b = min a b := by
  simp [Scalar.minNum, min_def]

/-- Without a NaN the greater of two scalars is their maximum. -/
@[simp] theorem real_maxNum (a b : ℝ) : Scalar.maxNum a b = max a b := by
  rw [max_comm, max_def]
  simp [Scalar.maxNum]

end Scalar

end Descent
