import Descent.Fault
import Descent.Scalar

/-!
# Vectors

A vector is the list of its coordinates. Operations that join two vectors ask for equal lengths and
are `Checked`; those on one vector are plain functions. The order of the floating-point operations
is part of each definition:

* `laneSum` adds products in eight lanes, block by block, and then what is left one by one;
* `inner`, `normSquared` and `norm` are built on it.
-/

set_option autoImplicit false

namespace Descent

abbrev Vec (α : Type) := List α

namespace Vec

variable {α : Type} [Scalar α]

def constant (n : Nat) (a : α) : Vec α := List.replicate n a

def zeros (n : Nat) : Vec α := constant n 0

/-- The coordinate vector of length `n` that is 1 at `i`. -/
def unit (n i : Nat) : Vec α := (zeros n).set i 1

def negate (x : Vec α) : Vec α := x.map fun a => -a

/-- `x · c`, coordinate by coordinate. -/
def scale (x : Vec α) (c : α) : Vec α := x.map fun a => a * c

def divide (x : Vec α) (c : α) : Vec α := x.map fun a => a / c

def combine {β γ δ : Type} (f : β → γ → δ) (x : Vec β) (y : Vec γ) : Checked (Vec δ) :=
  if x.length = y.length then .ok (List.zipWith f x y)
  else .error (.lengthMismatch x.length y.length)

def add (x y : Vec α) : Checked (Vec α) := combine (fun a b => a + b) x y

def sub (x y : Vec α) : Checked (Vec α) := combine (fun a b => a - b) x y

/-- `c · x + y`, the product first. -/
def addMultiple (y : Vec α) (c : α) (x : Vec α) : Checked (Vec α) :=
  combine (fun b a => c * a + b) y x

/-- `a - Σ uᵢ vᵢ`, a term at a time from the left: `-uᵢ · vᵢ` is added to what is there. -/
def eliminate (u v : Vec α) (a : α) : α := (u.zip v).foldl (fun rest t => -t.1 * t.2 + rest) a

structure Lanes (α : Type) where
  l0 : α
  l1 : α
  l2 : α
  l3 : α
  l4 : α
  l5 : α
  l6 : α
  l7 : α

/-- The lanes in the order in which they are joined: each with the one four further on. -/
def Lanes.total (l : Lanes α) : α :=
  0 + (l.l0 + l.l4) + (l.l1 + l.l5) + (l.l2 + l.l6) + (l.l3 + l.l7)

/-- Adds full blocks of eight lane by lane; the lanes are then joined and the last terms, fewer than
eight, added one by one. -/
def laneSum (l : Lanes α) : List α → α
  | a0 :: a1 :: a2 :: a3 :: a4 :: a5 :: a6 :: a7 :: rest =>
    laneSum ⟨l.l0 + a0, l.l1 + a1, l.l2 + a2, l.l3 + a3,
      l.l4 + a4, l.l5 + a5, l.l6 + a6, l.l7 + a7⟩ rest
  | rest => rest.foldl (fun sum a => sum + a) l.total

/-- The sum of a list of terms, in eight lanes that start at zero. -/
def sumTerms (terms : List α) : α := laneSum ⟨0, 0, 0, 0, 0, 0, 0, 0⟩ terms

/-- The inner product of the common part of two vectors. -/
def inner (x y : Vec α) : α := sumTerms (List.zipWith (fun a b => a * b) x y)

def dot (x y : Vec α) : Checked α :=
  if x.length = y.length then .ok (inner x y) else .error (.lengthMismatch x.length y.length)

def normSquared (x : Vec α) : α := inner x x

def norm (x : Vec α) : α := Scalar.sqrt (normSquared x)

def allFinite (x : Vec α) : Bool := x.all Scalar.isFinite

def along (x d : Vec α) (c : α) : Checked (Vec α) := add x (scale d c)

/-! ## Lengths -/

omit [Scalar α] in
@[simp] theorem length_constant (n : Nat) (a : α) : (constant n a).length = n :=
  List.length_replicate

@[simp] theorem length_zeros (n : Nat) : (zeros n : Vec α).length = n := length_constant n 0

@[simp] theorem length_unit (n i : Nat) : (unit n i : Vec α).length = n := by simp [unit]

@[simp] theorem length_negate (x : Vec α) : (negate x).length = x.length := List.length_map ..

@[simp] theorem length_scale (x : Vec α) (c : α) : (scale x c).length = x.length :=
  List.length_map ..

@[simp] theorem length_divide (x : Vec α) (c : α) : (divide x c).length = x.length :=
  List.length_map ..

/-- A joined vector is as long as both parts, which were equally long. -/
theorem length_combine {β γ δ : Type} {f : β → γ → δ} {x : Vec β} {y : Vec γ} {z : Vec δ}
    (h : combine f x y = .ok z) : z.length = x.length ∧ x.length = y.length := by
  unfold combine at h
  split at h
  · next hxy => cases h; simp [hxy]
  · cases h

end Vec

end Descent
