import Descent.Model

/-!
# Linear operators

What the Newton subproblem needs of the Hessian is the product with a vector. A `Curvature` is the
Hessian of a model at a point in one of three forms, and each is an `Operator`. A masked operator
works on the free variables only: fixed coordinates of its argument are ignored and those of its
value are zero.
-/

set_option autoImplicit false

namespace Descent

/-- The vector with zeros where the mask does not hold; the mask must reach as far as the vector. -/
def Vec.restrict {α : Type} [Scalar α] : List Bool → Vec α → Checked (Vec α)
  | _, [] => .ok []
  | [], _ :: _ => .error .missingEntry
  | free :: mask, a :: v => do return (if free then a else 0) :: (← Vec.restrict mask v)

structure Operator (α σ : Type) where
  dimension : Nat
  apply : Vec α → Evaluation σ (Vec α)

namespace Operator

variable {α σ : Type} [Scalar α]

def ofMatrix (a : Matrix α) : Operator α σ where
  dimension := a.nrows
  apply v := do
    ModelError.checkLength a.ncols v
    a.times v

def ofSparse (a : Sparse α) : Operator α σ where
  dimension := a.nrows
  apply v := a.times v

def masked (op : Operator α σ) (free : List Bool) : Operator α σ where
  dimension := op.dimension
  apply v := do
    ModelError.checkLength free.length v
    let hv ← op.apply (← Vec.restrict free v)
    Vec.restrict free hv

/-- The value `gᵀs + ½ sᵀHs` of a quadratic model. -/
def quadratic (op : Operator α σ) (g s : Vec α) : Evaluation σ α := do
  let hs ← op.apply s
  return (← Vec.dot g s) + (← Vec.dot s hs) * 0.5

end Operator

def freeCount (free : List Bool) : Nat := free.countP id

inductive Curvature (α σ : Type) [Scalar α] where
  /-- Products that the model computes at a point. -/
  | products (model : Model α σ) (x : Vec α)
  | sparse (h : Sparse α)
  | dense (h : Matrix α)

namespace Curvature

variable {α σ : Type} [Scalar α]

/-- The sparse Hessian of the model at `x` if it has one, else its products. -/
def ofModel (m : Model α σ) (x : Vec α) : Evaluation σ (Curvature α σ) := do
  match ← m.sparseHessian x with
  | some h => return sparse h
  | none => return products m x

def isExplicit : Curvature α σ → Bool
  | products .. => false
  | sparse _ | dense _ => true

def dimension : Curvature α σ → Nat
  | products _ x => x.length
  | sparse h => h.nrows
  | dense h => h.nrows

def apply : Curvature α σ → Vec α → Evaluation σ (Vec α)
  | products m x, v => m.hessianVector x v
  | sparse h, v => (Operator.ofSparse h).apply v
  | dense h, v => (Operator.ofMatrix h).apply v

def operator (c : Curvature α σ) : Operator α σ := ⟨c.dimension, c.apply⟩

def toDense : Curvature α σ → Evaluation σ (Matrix α)
  | products m x => m.hessian x
  | sparse h => return h.toDense
  | dense h => return h

def describe : Curvature α σ → String
  | products _ x => "HessianOperator::Products(n=" ++ toString x.length ++ ")"
  | sparse h =>
    "HessianOperator::Sparse(n=" ++ toString h.nrows ++ ", nnz=" ++ toString h.nnz ++ ")"
  | dense h => "HessianOperator::Dense(n=" ++ toString h.nrows ++ ")"

end Curvature

end Descent
