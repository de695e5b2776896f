import Descent.Matrix

/-!
# Cholesky factorization

`A = L Lᵀ` with a lower triangular `L` for a symmetric positive definite `A`, of which only the
lower triangle is read. The rows of `L` are computed one after another. The factorization fails at a
pivot that is not above zero.
-/

set_option autoImplicit false

namespace Descent

/-- The rows of a lower triangular matrix: each the entries left of the diagonal and the one on
it. -/
structure Cholesky (α : Type) where
  rows : List (Vec α × α)

namespace Cholesky

variable {α : Type} [Scalar α]

/-- The entries of a new row left of the diagonal, from the rows above and the entries of `A`. -/
def leftPart : List (Vec α × α) → Vec α → Vec α → Vec α
  | (l, d) :: above, a :: as, left => leftPart above as (left ++ [Vec.eliminate l left a / d])
  | _, _, left => left

/-- The row below the given ones, from its entries in `A`; `none` if its pivot is not above zero. -/
def nextRow (above : List (Vec α × α)) (row : Vec α) : Option (Vec α × α) :=
  let left := leftPart above row []
  let pivot := Vec.eliminate left left (row.getD above.length 0)
  if 0 ≤ pivot then
    if pivot == 0 then none else some (left, Scalar.sqrt pivot)
  else none

def factor? (a : Matrix α) : Option (Cholesky α) := do
  return ⟨← a.rows.foldlM (fun above row => do return above ++ [← nextRow above row]) []⟩

/-- The solution `y` of `L y = b`, appended to its first entries. -/
def forward : List (Vec α × α) → Vec α → Vec α → Vec α
  | (l, d) :: rows, b :: bs, y => forward rows bs (y ++ [Vec.eliminate y l b / d])
  | _, _, y => y

/-- The solution `x` of `Lᵀ x = y`, for the variables from `k` on. -/
def backward (k : Nat) : List (Vec α × α) → Vec α → Vec α
  | (_, d) :: rows, y :: ys =>
    let x := backward (k + 1) rows ys
    (y - Vec.inner (rows.map fun row => row.1.getD k 0) x) / d :: x
  | _, _ => []

/-- The solution of `A x = b` for a right-hand side as long as the factor. -/
def solve (c : Cholesky α) (b : Vec α) : Vec α := backward 0 c.rows (forward c.rows b [])

end Cholesky

end Descent
