import Descent.Error
import Descent.Matrix

/-!
# Sparse matrices

A sparse matrix by compressed rows: the stored cells, each a column and a value, row after row, and
for each row the place of its first cell. The checks of `ofArrays` are proof fields of the type, so
no operation has to repeat them. Nothing is asked of the place of the first row: cells before it
belong to no row.

Cells of one row may name a column twice. A product adds both; the dense form keeps the last.
-/

set_option autoImplicit false

namespace Descent

structure Sparse (α : Type) where
  nrows : Nat
  ncols : Nat
  /-- Where the cells of each row start, and where those of the last row end. -/
  starts : List Nat
  /-- The column and the value of each stored entry. -/
  cells : List (Nat × α)
  length_starts : starts.length = nrows + 1
  last_start : starts[nrows]? = some cells.length
  starts_le : starts.Pairwise (· ≤ ·)
  column_lt : ∀ c ∈ cells, c.1 < ncols

namespace Sparse

variable {α : Type}

def values (a : Sparse α) : List α := a.cells.map Prod.snd

def columns (a : Sparse α) : List Nat := a.cells.map Prod.fst

def nnz (a : Sparse α) : Nat := a.cells.length

/-- The place of the first cell of row `i`; the end of the last row for `i = nrows`. -/
def start (a : Sparse α) (i : Nat) : Nat := a.starts.getD i 0

def row (a : Sparse α) (i : Nat) : List (Nat × α) :=
  (a.cells.drop (a.start i)).take (a.start (i + 1) - a.start i)

/-- The entries that belong to a row, as row, column and value, row after row. -/
def entries (a : Sparse α) : List (Nat × Nat × α) :=
  (List.range a.nrows).flatMap fun i => (a.row i).map fun c => (i, c.1, c.2)

/-- The matrix with the given row starts, columns and values. Refused, in this order: a wrong number
of starts; columns or values that are not as many as the last start says; starts that decrease; a
column that does not exist. -/
def ofArrays (nrows ncols : Nat) (starts columns : List Nat) (values : List α) :
    Except ModelError (Sparse α) :=
  let stored := starts.getD nrows 0
  let cells := columns.zip values
  if hs : starts.length = nrows + 1 then
    if hc : columns.length = stored ∧ values.length = stored then
      if ho : starts.Pairwise (· ≤ ·) then
        match hm : columns.find? (fun j => decide (ncols ≤ j)) with
        | some j => .error (.invalidParameter
            s!"column index {j} out of range for {ncols} columns")
        | none => .ok
          { nrows, ncols, starts, cells
            length_starts := hs
            last_start := by
              have hlen : cells.length = stored := by simp [cells, hc.1, hc.2]
              have hlt : nrows < starts.length := by omega
              simp [hlen, stored, hlt]
            starts_le := ho
            column_lt := by
              intro c hcell
              have hmem : c.1 ∈ columns := (List.of_mem_zip hcell).1
              have := List.find?_eq_none.mp hm c.1 hmem
              simpa using this }
      else .error (.invalidParameter "row pointers must be non-decreasing")
    else .error (.dimensionMismatch (toString stored ++ " column indices and values")
      (toString columns.length ++ " column indices, " ++ toString values.length ++ " values"))
  else .error (.dimensionMismatch ("row_ptr length " ++ toString (nrows + 1))
    ("row_ptr length " ++ toString starts.length))

/-- The triplets of a matrix, each followed by the one across the diagonal if the matrix is
symmetric and the triplet off the diagonal; refused at the first one outside the matrix. -/
def placed (nrows ncols : Nat) (symmetric : Bool) :
    List (Nat × Nat × α) → Except ModelError (List (Nat × Nat × α))
  | [] => .ok []
  | (i, j, v) :: rest => do
    if nrows ≤ i ∨ ncols ≤ j then
      throw (.invalidParameter s!"entry ({i}, {j}) outside a {nrows}x{ncols} matrix")
    if symmetric ∧ i ≠ j then
      if nrows ≤ j ∨ ncols ≤ i then
        throw (.invalidParameter s!"mirrored entry ({j}, {i}) outside a {nrows}x{ncols} matrix")
      return (i, j, v) :: (j, i, v) :: (← placed nrows ncols symmetric rest)
    return (i, j, v) :: (← placed nrows ncols symmetric rest)

def positionLe (a b : Nat × Nat × α) : Bool :=
  decide (a.1 < b.1) || (a.1 == b.1 && decide (a.2.1 ≤ b.2.1))

variable [Scalar α]

/-- Adds up neighbours at the same position, from the left. -/
def joinNeighbours : List (Nat × Nat × α) → List (Nat × Nat × α)
  | (i, j, v) :: (i', j', v') :: rest =>
    if i = i' ∧ j = j' then joinNeighbours ((i, j, v + v') :: rest)
    else (i, j, v) :: joinNeighbours ((i', j', v') :: rest)
  | short => short
termination_by l => l.length

/-- The matrix with the given triplets (row, column, value), given as three lists. Triplets at the
same position are added up in their order. -/
def ofTriplets (nrows ncols : Nat) (rows cols : List Nat) (vals : List α) (symmetric : Bool) :
    Except ModelError (Sparse α) := do
  if rows.length ≠ cols.length ∨ rows.length ≠ vals.length then
    throw (.dimensionMismatch (toString vals.length ++ " rows, columns and values")
      (toString rows.length ++ " rows, " ++ toString cols.length ++ " columns"))
  let triplets ← placed nrows ncols symmetric (rows.zip (cols.zip vals))
  let stored := joinNeighbours (triplets.mergeSort positionLe)
  let starts := (List.range (nrows + 1)).map fun r => stored.countP fun e => decide (e.1 < r)
  ofArrays nrows ncols starts (stored.map fun e => e.2.1) (stored.map fun e => e.2.2)

/-- The cells of a dense row whose magnitude is above the tolerance. -/
def largeCells (tolerance : α) (row : Vec α) : List (Nat × α) :=
  (row.zipIdx.filter fun c => decide (tolerance < Scalar.abs c.1)).map fun c => (c.2, c.1)

omit [Scalar α] in
/-- The number of cells of the first `r` of the given rows grows with `r`. -/
theorem cellsBefore_mono (rows : List (List (Nat × α))) {r s : Nat} (h : r ≤ s) :
    ((rows.take r).flatten).length ≤ ((rows.take s).flatten).length := by
  obtain ⟨k, rfl⟩ := Nat.exists_eq_add_of_le h
  simp [List.take_add]

/-- The matrix that stores the entries of a dense one whose magnitude is above the tolerance. -/
def ofDense (a : Matrix α) (tolerance : α) : Sparse α :=
  let rows := a.rows.map (largeCells tolerance)
  { nrows := a.nrows
    ncols := a.ncols
    starts := (List.range (a.nrows + 1)).map fun r => ((rows.take r).flatten).length
    cells := rows.flatten
    length_starts := by simp
    last_start := by
      have hlen : rows.length = a.nrows := by simp [rows, Matrix.nrows]
      have htake : rows.take a.nrows = rows := by rw [← hlen, List.take_length]
      rw [List.getElem?_map, List.getElem?_range (Nat.lt_succ_self _), Option.map_some, htake]
    starts_le := by
      rw [List.pairwise_map]
      exact (List.pairwise_lt_range).imp fun h => cellsBefore_mono rows (Nat.le_of_lt h)
    column_lt := by
      intro c hc
      obtain ⟨cells, hcells, hmem⟩ := List.mem_flatten.mp hc
      obtain ⟨row, hrow, rfl⟩ := List.mem_map.mp hcells
      obtain ⟨p, hp, rfl⟩ := List.mem_map.mp hmem
      have hz := List.mem_zipIdx (List.mem_filter.mp hp).1
      have hw := a.width row hrow
      simp only
      omega }

/-- The dense form: the last stored value at each position, zero where there is none. -/
def toDense (a : Sparse α) : Matrix α :=
  Matrix.ofFn a.nrows a.ncols fun i j =>
    (((a.row i).reverse.find? fun c => c.1 == j).map Prod.snd).getD 0

def scale (a : Sparse α) (c : α) : Sparse α where
  nrows := a.nrows
  ncols := a.ncols
  starts := a.starts
  cells := a.cells.map fun p => (p.1, p.2 * c)
  length_starts := a.length_starts
  last_start := by simp [a.last_start]
  starts_le := a.starts_le
  column_lt := by
    intro p hp
    obtain ⟨q, hq, rfl⟩ := List.mem_map.mp hp
    exact a.column_lt q hq

def rowTimes (cells : List (Nat × α)) (x : Vec α) : α :=
  cells.foldl (fun sum c => sum + c.2 * x.getD c.1 0) 0

def checkArgument (a : Sparse α) (x : Vec α) : Except ModelError Unit :=
  if x.length = a.ncols then .ok ()
  else .error (.dimensionMismatch ("vector length " ++ toString a.ncols)
    ("vector length " ++ toString x.length))

def checkResult (a : Sparse α) (y : Vec α) : Except ModelError Unit :=
  if y.length = a.nrows then .ok ()
  else .error (.dimensionMismatch ("result length " ++ toString a.nrows)
    ("result length " ++ toString y.length))

def times (a : Sparse α) (x : Vec α) : Except ModelError (Vec α) := do
  a.checkArgument x
  return (List.range a.nrows).map fun i => rowTimes (a.row i) x

/-- The product in place of the entries of `y`, which must have room for it. -/
def timesInto (a : Sparse α) (x y : Vec α) : Except ModelError (Vec α) := do
  a.checkArgument x
  a.checkResult y
  a.times x

/-- Equal sizes, row starts, columns and values, the values compared as numbers. -/
def same (a b : Sparse α) : Bool :=
  a.nrows == b.nrows && a.ncols == b.ncols && a.starts == b.starts && a.columns == b.columns
    && a.values == b.values

end Sparse

end Descent
