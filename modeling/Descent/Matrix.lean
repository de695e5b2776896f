import Descent.Vec

/-!
# Dense matrices

A matrix is the list of its rows, all of one width. The width is kept beside the rows, so that a
matrix without rows still has columns.
-/

set_option autoImplicit false

namespace Descent

structure Matrix (α : Type) where
  ncols : Nat
  rows : List (Vec α)
  width : ∀ row ∈ rows, row.length = ncols

namespace Matrix

variable {α : Type}

def nrows (a : Matrix α) : Nat := a.rows.length

def isSquare (a : Matrix α) : Bool := a.nrows == a.ncols

/-- The matrix with the given rows, if they are equally long; no rows are a matrix without
columns. -/
def ofRows? (rows : List (Vec α)) : Option (Matrix α) :=
  let ncols := (rows.head?.map List.length).getD 0
  if h : ∀ row ∈ rows, row.length = ncols then some ⟨ncols, rows, h⟩ else none

def ofFn (nrows ncols : Nat) (f : Nat → Nat → α) : Matrix α where
  ncols := ncols
  rows := (List.range nrows).map fun i => (List.range ncols).map (f i)
  width := by simp +contextual

/-- A matrix is given by the entries within its size. -/
theorem ofFn_congr {nrows ncols : Nat} {f g : Nat → Nat → α}
    (h : ∀ i < nrows, ∀ j < ncols, f i j = g i j) : ofFn nrows ncols f = ofFn nrows ncols g := by
  have hrows : ∀ i ∈ List.range nrows,
      (List.range ncols).map (f i) = (List.range ncols).map (g i) := fun i hi =>
    List.map_inj_left.mpr fun j hj => h i (List.mem_range.mp hi) j (List.mem_range.mp hj)
  simp only [ofFn, mk.injEq, true_and]
  exact List.map_inj_left.mpr hrows

def entry (a : Matrix α) (i j : Nat) : Checked α := do entryAt (← entryAt a.rows i) j

def map {β : Type} (f : α → β) (a : Matrix α) : Matrix β where
  ncols := a.ncols
  rows := a.rows.map (List.map f)
  width := by
    intro row h
    obtain ⟨r, hr, rfl⟩ := List.mem_map.mp h
    simp [a.width r hr]

variable [Scalar α]

def zeros (nrows ncols : Nat) : Matrix α := ofFn nrows ncols fun _ _ => 0

def diagonal (d : Vec α) : Matrix α :=
  ofFn d.length d.length fun i j => if i = j then d.getD i 0 else 0

def scale (a : Matrix α) (c : α) : Matrix α := a.map fun v => v * c

/-- A row times a vector: the first product, then each further product added to what is there. -/
def rowTimes : Vec α → Vec α → α
  | a :: as, x :: xs => (List.zipWith (fun b y => (b, y)) as xs).foldl (fun s p => p.1 * p.2 + s)
      (a * x)
  | _, _ => 0

def times (a : Matrix α) (x : Vec α) : Checked (Vec α) :=
  if a.ncols = x.length then .ok (a.rows.map fun row => rowTimes row x)
  else .error (.lengthMismatch a.ncols x.length)

/-- `½ (H + Hᵀ)` for the square matrix `H` with the given columns, each of length
`n = columns.length`: the entry in row `i` and column `j` is half the sum of the entries of column
`j` at `i` and of column `i` at `j`. -/
def symmetricPart (columns : List (Vec α)) : Matrix α :=
  ofFn columns.length columns.length fun i j =>
    let at' (c r : Nat) : α := (columns.getD c []).getD r 0
    (at' j i + at' i j) * 0.5

end Matrix

end Descent
