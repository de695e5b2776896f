import Descent.Proofs.Ordered

/-!
# Exact arithmetic with infinities

The arithmetic of the floating-point standard without rounding: the real numbers, two infinities and
a NaN. The methods ask which numbers are finite, and read an infinite bound as none, so that a
statement about exact runs of whole solves is one about `Extended` and not about `ℝ`, in which
nothing is infinite. On real numbers every operation is the exact one (`real_add`, `real_mul` and
so on), but for the quotient by zero and the root of a negative number. There is one zero, which
counts as positive where a sign is asked for.
-/

set_option autoImplicit false

namespace Descent

/-- A real number, an infinity or no number. -/
inductive Extended where
  | nan
  | bottom
  | top
  | real (r : ℝ)

namespace Extended

/-! ## Operations -/

/-- The product of a real number and `∞`. -/
noncomputable def infinite (r : ℝ) : Extended :=
  if 0 < r then top else if r < 0 then bottom else nan

theorem infinite_pos {r : ℝ} (hr : 0 < r) : infinite r = top := if_pos hr

theorem infinite_neg {r : ℝ} (hr : r < 0) : infinite r = bottom := by
  rw [infinite, if_neg (not_lt.mpr hr.le), if_pos hr]

/-- The sum; infinities of different signs have none. -/
noncomputable def sum : Extended → Extended → Extended
  | real a, real b => real (a + b)
  | real _, top | top, real _ | top, top => top
  | real _, bottom | bottom, real _ | bottom, bottom => bottom
  | _, _ => nan

noncomputable def opposite : Extended → Extended
  | real a => real (-a)
  | top => bottom
  | bottom => top
  | nan => nan

/-- The product; zero and an infinity have none. -/
noncomputable def product : Extended → Extended → Extended
  | real a, real b => real (a * b)
  | real a, top | top, real a => infinite a
  | real a, bottom | bottom, real a => infinite (-a)
  | top, top | bottom, bottom => top
  | top, bottom | bottom, top => bottom
  | _, _ => nan

/-- The quotient; two zeros and two infinities have none. -/
noncomputable def quotient : Extended → Extended → Extended
  | real a, real b => if b = 0 then infinite a else real (a / b)
  | real _, top | real _, bottom => real 0
  | top, real b => if 0 ≤ b then top else bottom
  | bottom, real b => if 0 ≤ b then bottom else top
  | _, _ => nan

noncomputable def root : Extended → Extended
  | real a => if a < 0 then nan else real √a
  | top => top
  | _ => nan

noncomputable def size : Extended → Extended
  | real a => real |a|
  | nan => nan
  | _ => top

noncomputable def same : Extended → Extended → Bool
  | real a, real b => decide (a = b)
  | top, top | bottom, bottom => true
  | _, _ => false

def Below : Extended → Extended → Prop
  | real a, real b => a < b
  | real _, top | bottom, real _ | bottom, top => True
  | _, _ => False

def AtMost : Extended → Extended → Prop
  | real a, real b => a ≤ b
  | real _, top | bottom, real _ | bottom, top | top, top | bottom, bottom => True
  | _, _ => False

def isReal : Extended → Bool
  | real _ => true
  | _ => false

noncomputable instance scalar [RealConstants] : Scalar Extended where
  add := sum
  sub a b := sum a (opposite b)
  mul := product
  div := quotient
  neg := opposite
  zero := real 0
  one := real 1
  ofScientific m s e := real (OfScientific.ofScientific m s e)
  beq := same
  lt := Below
  le := AtMost
  decLt _ _ := Classical.propDecidable _
  decLe _ _ := Classical.propDecidable _
  abs := size
  sqrt := root
  isFinite := isReal
  infinity := top
  nan := nan
  epsilon := real RealConstants.epsilon
  cbrtEpsilon := real RealConstants.cbrtEpsilon
  defaultTolerance := real RealConstants.defaultTolerance
  gradientTolerance := real RealConstants.gradientTolerance
  checkTolerance := real RealConstants.checkTolerance
  minStepSize := real RealConstants.minStepSize
  ofFloat x :=
    if x.isNaN then nan
    else if x.isInf then (if 0 < x then top else bottom)
    else real (RealConstants.ofFloat x)
  toFloat
    | real a => RealConstants.toFloat a
    | top => 1 / 0
    | bottom => -1 / 0
    | nan => 0 / 0
  ofCount n := real n
  text
    | real a => RealConstants.text a
    | top => "inf"
    | bottom => "-inf"
    | nan => "NaN"

variable [RealConstants] {a b c : Extended} {r s : ℝ}

/-! ## Real numbers -/

@[simp] theorem real_zero : (0 : Extended) = real 0 := rfl

@[simp] theorem real_one : (1 : Extended) = real 1 := rfl

@[simp] theorem real_ofScientific (m : Nat) (s : Bool) (e : Nat) :
    (OfScientific.ofScientific m s e : Extended) = real (OfScientific.ofScientific m s e) := rfl

@[simp] theorem real_add (r s : ℝ) : real r + real s = real (r + s) := rfl

@[simp] theorem real_sub (r s : ℝ) : real r - real s = real (r - s) :=
  congrArg real (sub_eq_add_neg r s).symm

@[simp] theorem real_mul (r s : ℝ) : real r * real s = real (r * s) := rfl

theorem real_div (hs : s ≠ 0) : real r / real s = real (r / s) := if_neg hs

theorem real_sqrt (hr : 0 ≤ r) : Scalar.sqrt (real r) = real √r := if_neg (not_lt.mpr hr)

@[simp] theorem real_lt : real r < real s ↔ r < s := Iff.rfl

@[simp] theorem real_le : real r ≤ real s ↔ r ≤ s := Iff.rfl

@[simp] theorem real_beq : (real r == real s) = decide (r = s) := rfl

@[simp] theorem isNaN_real : Scalar.isNaN (real r) = false := by
  show (!decide (r = r)) = false
  simp

@[simp] theorem isNaN_eq_false : Scalar.isNaN a = false ↔ a ≠ nan := by
  cases a with
  | real r => simp
  | nan => exact ⟨fun h => Bool.noConfusion h, fun h => absurd rfl h⟩
  | _ => exact ⟨fun _ h => Extended.noConfusion h, fun _ => rfl⟩

@[simp] theorem real_minNum : Scalar.minNum (real r) (real s) = real (min r s) := by
  simp only [Scalar.minNum, isNaN_real, real_le, min_def]
  split <;> rfl

@[simp] theorem real_maxNum : Scalar.maxNum (real r) (real s) = real (max r s) := by
  rw [max_comm]
  simp only [Scalar.maxNum, isNaN_real, real_le, max_def]
  split <;> rfl

/-! ## Finite numbers -/

@[simp] theorem isFinite_real : Scalar.isFinite (real r) = true := rfl

theorem exists_real (h : Scalar.isFinite a = true) : ∃ r, a = real r := by
  cases a with
  | real r => exact ⟨r, rfl⟩
  | _ => cases h

theorem isNaN_of_isFinite (h : Scalar.isFinite a = true) : Scalar.isNaN a = false := by
  obtain ⟨r, rfl⟩ := exists_real h
  exact isNaN_real

/-- A sum is finite only if both terms are. -/
theorem isFinite_of_add (h : Scalar.isFinite (a + b) = true) :
    Scalar.isFinite a = true ∧ Scalar.isFinite b = true := by
  cases a <;> cases b <;> first | exact ⟨rfl, rfl⟩ | cases h

theorem isFinite_infinite (r : ℝ) : Scalar.isFinite (infinite r) = false := by
  unfold infinite
  split
  · rfl
  · split <;> rfl

/-- A product is finite only if both factors are. -/
theorem isFinite_of_mul (h : Scalar.isFinite (a * b) = true) :
    Scalar.isFinite a = true ∧ Scalar.isFinite b = true := by
  cases a <;> cases b <;>
    first
    | exact ⟨rfl, rfl⟩
    | cases h
    | exact absurd h (Bool.eq_false_iff.mp (isFinite_infinite _))

/-! ## Infinite products -/

theorem real_mul_top (hr : 0 < r) : real r * top = top := infinite_pos hr

theorem top_mul_real (hr : r < 0) : top * real r = bottom := infinite_neg hr

theorem isNaN_add_real (ha : Scalar.isNaN a = false) : Scalar.isNaN (a + real r) = false := by
  cases a with
  | nan => exact ha
  | real => exact isNaN_real
  | _ => rfl

theorem real_mul_comm : real r * a = a * real r := by
  cases a with
  | real s => exact congrArg real (mul_comm r s)
  | _ => rfl

/-- A positive factor makes no NaN. -/
theorem isNaN_mul_real (hr : 0 < r) (ha : Scalar.isNaN a = false) :
    Scalar.isNaN (a * real r) = false := by
  cases a with
  | nan => exact ha
  | bottom =>
      show Scalar.isNaN (infinite (-r)) = false
      rw [infinite_neg (neg_lt_zero.mpr hr)]
      rfl
  | top =>
      show Scalar.isNaN (infinite r) = false
      rw [infinite_pos hr]
      rfl
  | real => exact isNaN_real

/-! ## Numbers from numbers -/

theorem isNaN_of_add (h : Scalar.isNaN (a + b) = false) :
    Scalar.isNaN a = false ∧ Scalar.isNaN b = false := by
  rw [isNaN_eq_false] at h
  constructor
  · rw [isNaN_eq_false]
    rintro rfl
    exact h rfl
  · rw [isNaN_eq_false]
    rintro rfl
    cases a <;> exact h rfl

theorem isNaN_of_mul (h : Scalar.isNaN (a * b) = false) :
    Scalar.isNaN a = false ∧ Scalar.isNaN b = false := by
  rw [isNaN_eq_false] at h
  constructor
  · rw [isNaN_eq_false]
    rintro rfl
    exact h rfl
  · rw [isNaN_eq_false]
    rintro rfl
    cases a <;> exact h rfl

/-- From an infinity no real number leads back. -/
theorem isFinite_of_back (h : Scalar.isNaN (a + real r - a) = false) :
    Scalar.isFinite a = true := by
  rw [isNaN_eq_false] at h
  cases a with
  | real => rfl
  | _ => exact absurd rfl h

theorem isNaN_of_sqrt (h : Scalar.isNaN (Scalar.sqrt a) = false) : Scalar.isNaN a = false := by
  rw [isNaN_eq_false] at h ⊢
  rintro rfl
  exact h rfl

/-! ## The order -/

/-- What lies between two others is real. -/
theorem exists_real_of_between (hab : a < b) (hbc : b < c) : ∃ r, b = real r := by
  cases b with
  | real r => exact ⟨r, rfl⟩
  | nan => cases a <;> cases hab
  | bottom => cases a <;> cases hab
  | top => cases c <;> cases hbc

theorem pos_cases (h : 0 < a) : a = top ∨ ∃ r, a = real r ∧ 0 < r := by
  cases a with
  | real r => exact .inr ⟨r, rfl, h⟩
  | top => exact .inl rfl
  | _ => cases h

theorem le_trans (hab : a ≤ b) (hbc : b ≤ c) : a ≤ c := by
  cases a <;> cases b <;> try cases hab
  all_goals cases c <;>
    first | trivial | cases hbc | exact (real_le.mp hab).trans (real_le.mp hbc)

theorem le_of_lt (h : a < b) : a ≤ b := by
  cases a <;> cases b <;> first | trivial | cases h | exact (real_lt.mp h).le

theorem lt_of_le_of_lt (hab : a ≤ b) (hbc : b < c) : a < c := by
  cases a <;> cases b <;> try cases hab
  all_goals cases c <;>
    first | trivial | cases hbc | exact (real_le.mp hab).trans_lt (real_lt.mp hbc)

theorem lt_of_lt_of_le (hab : a < b) (hbc : b ≤ c) : a < c := by
  cases a <;> cases b <;> try cases hab
  all_goals cases c <;>
    first | trivial | cases hbc | exact (real_lt.mp hab).trans_le (real_le.mp hbc)

theorem not_lt_of_le (h : a ≤ b) : ¬ b < a := by
  cases a <;> cases b <;> try cases h
  all_goals first | exact not_lt.mpr (real_le.mp h) | exact id

/-- A positive factor keeps the order. -/
theorem real_mul_le_real_mul (hr : 0 < r) (h : a ≤ b) : real r * a ≤ real r * b := by
  have htop : real r * top = top := real_mul_top hr
  have hbottom : real r * bottom = bottom := infinite_neg (neg_lt_zero.mpr hr)
  cases a <;> cases b <;> try cases h
  case real.real => exact real_le.mpr (mul_le_mul_of_nonneg_left (real_le.mp h) hr.le)
  all_goals
    simp only [htop, hbottom]
    trivial

/-- Only numbers compare. -/
theorem isNaN_of_lt (h : a < b) : Scalar.isNaN a = false ∧ Scalar.isNaN b = false := by
  constructor
  · rw [isNaN_eq_false]
    rintro rfl
    cases b <;> exact h
  · rw [isNaN_eq_false]
    rintro rfl
    cases a <;> exact h

instance : Scalar.Ordered Extended where
  lt_irrefl a h := by
    cases a with
    | real r => exact absurd rfl (real_lt.mp h).ne
    | _ => cases h
  le_of_not_lt {a b} ha hb h := by
    cases a <;> cases b <;>
      first
      | trivial
      | exact absurd trivial h
      | exact real_le.mpr (not_lt.mp (mt real_lt.mpr h))

theorem le_of_not_le (ha : Scalar.isNaN a = false) (hb : Scalar.isNaN b = false) (h : ¬ a ≤ b) :
    b ≤ a :=
  Scalar.Ordered.le_of_not_lt hb ha fun hab => h (le_of_lt hab)

/-! ## Extremes -/

theorem minNum_le_left (ha : Scalar.isNaN a = false) : Scalar.minNum a b ≤ a := by
  unfold Scalar.minNum
  split
  · exact Scalar.Ordered.le_refl ha
  · next hab =>
      split
      · exact Scalar.Ordered.le_refl ha
      · next hb => exact le_of_not_le ha (Bool.eq_false_iff.mpr hb) hab

theorem minNum_le_right (hb : Scalar.isNaN b = false) : Scalar.minNum a b ≤ b := by
  unfold Scalar.minNum
  split
  · assumption
  · rw [hb]
    exact Scalar.Ordered.le_refl hb

theorem le_maxNum_left (ha : Scalar.isNaN a = false) : a ≤ Scalar.maxNum a b := by
  unfold Scalar.maxNum
  split
  · exact Scalar.Ordered.le_refl ha
  · next hba =>
      split
      · exact Scalar.Ordered.le_refl ha
      · next hb => exact le_of_not_le (Bool.eq_false_iff.mpr hb) ha hba

/-- The greater of two scalars is the first only if that is not below the second. -/
theorem maxNum_cases (hb : Scalar.isNaN b = false) :
    b ≤ a ∧ Scalar.maxNum a b = a ∨ Scalar.maxNum a b = b := by
  unfold Scalar.maxNum
  split
  · next hba => exact .inl ⟨hba, rfl⟩
  · rw [hb]
    exact .inr rfl

theorem product_pos (ha : 0 < a) (hb : 0 < b) : 0 < a * b := by
  rcases pos_cases ha with rfl | ⟨r, rfl, hr⟩
  · rcases pos_cases hb with rfl | ⟨s, rfl, hs⟩
    · trivial
    · rw [← real_mul_comm, real_mul_top hs]
      trivial
  · rcases pos_cases hb with rfl | ⟨s, rfl, hs⟩
    · rw [real_mul_top hr]
      trivial
    · exact real_lt.mpr (mul_pos hr hs)

/-- A real number cuts everything from above, but `-∞`, to a real number. -/
theorem minNum_real (a : Extended) (s : ℝ) :
    Scalar.minNum a (real s) = bottom ∨ ∃ t, Scalar.minNum a (real s) = real t ∧ t ≤ s := by
  have habove : ¬ a ≤ real s → Scalar.minNum a (real s) = real s := by
    intro h
    rw [Scalar.minNum, if_neg h, isNaN_real]
    rfl
  cases a with
  | real r => exact .inr ⟨min r s, real_minNum, min_le_right r s⟩
  | bottom => exact .inl (if_pos trivial)
  | top => exact .inr ⟨s, habove id, le_rfl⟩
  | nan => exact .inr ⟨s, habove id, le_rfl⟩

/-- Whatever is clamped between two real numbers is a real number between them. -/
theorem exists_real_of_clamp (a : Extended) (h : r ≤ s) :
    ∃ t, Scalar.maxNum (real r) (Scalar.minNum a (real s)) = real t ∧ r ≤ t ∧ t ≤ s := by
  rcases minNum_real a s with hmin | ⟨t, hmin, ht⟩
  · rw [hmin]
    exact ⟨r, if_pos trivial, le_rfl, h⟩
  · rw [hmin]
    exact ⟨max r t, real_maxNum, le_max_left r t, max_le h ht⟩

/-- The same with the maximum taken the other way round. -/
theorem exists_real_of_clamp' (a : Extended) (h : r ≤ s) :
    ∃ t, Scalar.maxNum (Scalar.minNum a (real s)) (real r) = real t ∧ r ≤ t ∧ t ≤ s := by
  rcases minNum_real a s with hmin | ⟨t, hmin, ht⟩
  · rw [hmin]
    refine ⟨r, ?_, le_rfl, h⟩
    have hbelow : ¬ real r ≤ bottom := id
    rw [Scalar.maxNum, if_neg hbelow, isNaN_real]
    rfl
  · rw [hmin]
    exact ⟨max t r, real_maxNum, le_max_right t r, max_le ht h⟩

end Extended

end Descent
