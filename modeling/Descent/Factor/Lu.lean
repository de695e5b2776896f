import Descent.Matrix

/-!
# LU factorization

`P A = L U` with row exchanges `P`, a unit lower triangular `L` and an upper triangular `U`. Each
column takes its greatest entry on or below the diagonal as pivot; a column of zeros there is passed
over, which leaves a zero on the diagonal of `U`. Both factors share the rows of one matrix.
-/

set_option autoImplicit false

namespace Descent

/-- The rows of both factors, each with the number of the row of `A` that it comes from. -/
structure Lu (α : Type) where
  rows : List (Nat × Vec α)

namespace Lu

variable {α : Type} [Scalar α]

/-- The place of the greatest magnitude in column `i`, the first of equals: `best` stands at `at₀`
and the given rows start at `k`. -/
def pivotFrom (i : Nat) (best : α) (at₀ k : Nat) : List (Nat × Vec α) → Nat
  | [] => at₀
  | (_, row) :: rows =>
    let a := Scalar.abs (row.getD i 0)
    if best < a then pivotFrom i a k (k + 1) rows else pivotFrom i best at₀ (k + 1) rows

/-- The first row exchanged with the one at place `p`. -/
def exchange (p : Nat) (first : Nat × Vec α) (rows : List (Nat × Vec α)) :
    (Nat × Vec α) × List (Nat × Vec α) :=
  match p with
  | 0 => (first, rows)
  | p + 1 => (rows.getD p first, rows.set p first)

/-- The row with the pivot row taken out of it: the factor stands in column `i`, the entries after
it are reduced. -/
def reduce (i : Nat) (inv : α) (pivotRow row : Vec α) : Vec α :=
  let m := row.getD i 0 * inv
  row.take i ++ m ::
    List.zipWith (fun u a => -u * m + a) (pivotRow.drop (i + 1)) (row.drop (i + 1))

/-- Eliminates column after column from `i` on; the first row of the list is row `i`. -/
def eliminateFrom (i : Nat) : Nat → List (Nat × Vec α) → List (Nat × Vec α)
  | 0, rows => rows
  | _, [] => []
  | n + 1, first :: rest =>
    let p := pivotFrom i (Scalar.abs (first.2.getD i 0)) 0 1 rest
    let (pivotRow, below) := exchange p first rest
    let pivot := pivotRow.2.getD i 0
    if pivot == 0 then first :: eliminateFrom (i + 1) n rest
    else
      pivotRow :: eliminateFrom (i + 1) n
        (below.map fun row => (row.1, reduce i (1 / pivot) pivotRow.2 row.2))

def factor (a : Matrix α) : Lu α :=
  ⟨eliminateFrom 0 a.nrows (a.rows.zipIdx.map fun row => (row.2, row.1))⟩

def isInvertible (f : Lu α) : Bool :=
  f.rows.zipIdx.all fun row => !(row.1.2.getD row.2 0 == 0)

/-- The right-hand side with the row exchanges of the factorization. -/
def permute (f : Lu α) (b : Vec α) : Vec α := f.rows.map fun row => b.getD row.1 0

/-- The solution `y` of `L y = b`, appended to its first entries. -/
def forward : List (Nat × Vec α) → Vec α → Vec α → Vec α
  | (_, row) :: rows, b :: bs, y => forward rows bs (y ++ [Vec.eliminate y row b])
  | _, _, y => y

/-- The solution `x` of `U x = y`, for the variables from `k` on. The last variable is taken out
first. -/
def backward (k : Nat) : List (Nat × Vec α) → Vec α → Vec α
  | (_, row) :: rows, y :: ys =>
    let x := backward (k + 1) rows ys
    Vec.eliminate x.reverse (row.drop (k + 1)).reverse y / row.getD k 0 :: x
  | _, _ => []

/-- The solution of `A x = b` for an invertible `A` and a right-hand side of its size. -/
def solve (f : Lu α) (b : Vec α) : Vec α :=
  backward 0 f.rows (forward f.rows (f.permute b) [])

end Lu

end Descent
