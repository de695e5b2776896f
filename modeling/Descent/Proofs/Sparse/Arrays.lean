import Descent.Proofs.Sparse.Entries

/-!
# Compressed arrays read place by place

The rows of a sparse matrix are slices of its cells, which are there whatever the starts say. Here
the arrays are read one place after another instead, and a place beyond the end of an array is a
fault. Arrays that are accepted (`ofArrays`) are read without one, and what is read are the entries
of the matrix, its dense form and its products (`read_ofArrays`).

Nothing is said of the place of the first start. The cells before it belong to no row, so that the
entries are all that was given exactly if the first start is zero.
-/

set_option autoImplicit false

namespace Descent

namespace Sparse

variable {α : Type}

/-! ## Reading -/

/-- The cells at `n` places from `first` on. -/
def readCells (columns : List Nat) (values : List α) (first n : Nat) :
    Checked (List (Nat × α)) :=
  (List.range' first n).mapM fun k => do
    let j ← entryAt columns k
    let v ← entryAt values k
    return (j, v)

/-- The cells of row `i`, between its start and the next one. -/
def readRow (starts columns : List Nat) (values : List α) (i : Nat) :
    Checked (List (Nat × α)) := do
  let first ← entryAt starts i
  let next ← entryAt starts (i + 1)
  readCells columns values first (next - first)

def readEntries (nrows : Nat) (starts columns : List Nat) (values : List α) :
    Checked (List (Nat × Nat × α)) := do
  let rows ← (List.range nrows).mapM fun i => do
    let cells ← readRow starts columns values i
    return cells.map fun c => (i, c.1, c.2)
  return rows.flatten

def writeAt (rows : List (Vec α)) (e : Nat × Nat × α) : Checked (List (Vec α)) := do
  let row ← entryAt rows e.1
  let _ ← entryAt row e.2.1
  return rows.set e.1 (row.set e.2.1 e.2.2)

variable [Scalar α]

/-- The dense form: zeros, into which one entry after the other is written. -/
def readDense (nrows ncols : Nat) (starts columns : List Nat) (values : List α) :
    Checked (List (Vec α)) := do
  let entries ← readEntries nrows starts columns values
  entries.foldlM writeAt (Matrix.zeros nrows ncols).rows

/-- The cells of a row times a vector, added up from zero. -/
def readSum (cells : List (Nat × α)) (x : Vec α) : Checked α :=
  cells.foldlM (fun sum c => do
    let a ← entryAt x c.1
    return sum + c.2 * a) 0

/-- The product with `x` in place of the entries of `y`. -/
def readTimes (nrows : Nat) (starts columns : List Nat) (values : List α) (x y : Vec α) :
    Checked (Vec α) :=
  (List.range nrows).foldlM (fun y i => do
    let cells ← readRow starts columns values i
    let sum ← readSum cells x
    let _ ← entryAt y i
    return y.set i sum) y

/-! ## Accepted arrays -/

/-- The arrays of a matrix, with a column and a value for each cell. -/
structure MadeOf (a : Sparse α) (starts columns : List Nat) (values : List α) : Prop where
  starts_eq : a.starts = starts
  cells_eq : a.cells = columns.zip values
  length_columns : columns.length = a.nnz
  length_values : values.length = a.nnz

section MadeOf

omit [Scalar α]

variable {a : Sparse α} {nrows ncols : Nat} {starts columns : List Nat} {values : List α}

theorem madeOf_ofArrays (h : ofArrays nrows ncols starts columns values = .ok a) :
    a.MadeOf starts columns values := by
  obtain ⟨-, -, hstarts, hcells⟩ := eq_of_ofArrays h
  have hlengths : columns.length = values.length := by
    simp only [ofArrays] at h
    split at h
    · split at h
      · next hstored => exact hstored.1.trans hstored.2.symm
      · cases h
    · cases h
  have hcolumns : columns.length = a.nnz := by rw [nnz, hcells]; simp [hlengths]
  exact ⟨hstarts, hcells, hcolumns, hlengths ▸ hcolumns⟩

/-- What is read at places within both arrays is a slice of the cells. -/
theorem readCells_eq {first n : Nat} (hcolumns : first + n ≤ columns.length)
    (hvalues : first + n ≤ values.length) :
    readCells columns values first n = .ok (((columns.zip values).drop first).take n) := by
  induction n generalizing first with
  | zero => rfl
  | succ n ih =>
      have hrest : readCells columns values (first + 1) n
          = .ok (((columns.zip values).drop (first + 1)).take n) := ih (by omega) (by omega)
      have hcell : first < (columns.zip values).length := by simp; omega
      rw [readCells] at hrest
      rw [readCells, List.range'_succ, List.mapM_cons, hrest, entryAt_of_lt (by omega),
        entryAt_of_lt (by omega), List.drop_eq_getElem_cons hcell, List.take_succ_cons,
        List.getElem_zip]
      rfl

namespace MadeOf

/-- The starts of a row are there, and so are the places between them. -/
theorem readRow_eq (h : a.MadeOf starts columns values) {i : Nat} (hi : i < a.nrows) :
    readRow starts columns values i = .ok (a.row i) := by
  have hlength := a.length_starts
  have hfirst : i < a.starts.length := by omega
  have hnext : i + 1 < a.starts.length := by omega
  have hle : a.start i ≤ a.start (i + 1) := start_le_start (by omega) hi
  have hend : a.start (i + 1) ≤ a.nnz := start_le_length hi
  have hcolumns := h.length_columns
  have hvalues := h.length_values
  rw [readRow, ← h.starts_eq, entryAt_of_lt hfirst, entryAt_of_lt hnext,
    ← start_eq_getElem hfirst, ← start_eq_getElem hnext, Checked.ok_bind, Checked.ok_bind,
    readCells_eq (by omega) (by omega), ← h.cells_eq]
  rfl

theorem readEntries_eq (h : a.MadeOf starts columns values) :
    readEntries a.nrows starts columns values = .ok a.entries := by
  have hrows : ∀ i ∈ List.range a.nrows, (do
      let cells ← readRow starts columns values i
      return cells.map fun c => (i, c.1, c.2) : Checked (List (Nat × Nat × α)))
        = .ok ((a.row i).map fun c => (i, c.1, c.2)) := by
    intro i hi
    rw [h.readRow_eq (List.mem_range.mp hi)]
    rfl
  rw [readEntries, Checked.mapM_eq_ok hrows]
  rfl

/-- The columns and the values of the entries, one after the other, are those given exactly if none
is before the first start. -/
theorem entries_iff (h : a.MadeOf starts columns values) :
    (a.entries.length = a.nnz ∧ (a.entries.map fun e => e.2.1) = columns ∧
      (a.entries.map fun e => e.2.2) = values) ↔ a.start 0 = 0 := by
  have hlength : a.entries.length = a.nnz - a.start 0 := by
    rw [← List.length_map Prod.snd, map_snd_entries, List.length_drop, nnz]
  constructor
  · rintro ⟨hall, -, -⟩
    have hfirst : a.start 0 ≤ a.nnz := start_le_length (Nat.zero_le _)
    omega
  · intro hfirst
    have hcells : a.entries.map Prod.snd = columns.zip values := by
      rw [map_snd_entries, hfirst, List.drop_zero, h.cells_eq]
    have hlengths : columns.length = values.length :=
      h.length_columns.trans h.length_values.symm
    refine ⟨by omega, ?_, ?_⟩
    · have := congrArg (List.map Prod.fst) hcells
      rwa [List.map_map, List.map_fst_zip (by omega)] at this
    · have := congrArg (List.map Prod.snd) hcells
      rwa [List.map_map, List.map_snd_zip (by omega)] at this

end MadeOf

end MadeOf

/-! ## The dense form -/

def overwrite (f : Nat → Nat → α) (e : Nat × Nat × α) (i j : Nat) : α :=
  if e.1 = i ∧ e.2.1 = j then e.2.2 else f i j

omit [Scalar α] in
theorem writeAt_ofFn {nrows ncols : Nat} (f : Nat → Nat → α) {e : Nat × Nat × α}
    (hrow : e.1 < nrows) (hcol : e.2.1 < ncols) :
    writeAt (Matrix.ofFn nrows ncols f).rows e
      = .ok (Matrix.ofFn nrows ncols (overwrite f e)).rows := by
  have hi : e.1 < (Matrix.ofFn nrows ncols f).rows.length := by simpa [Matrix.ofFn] using hrow
  have hj : e.2.1 < (Matrix.ofFn nrows ncols f).rows[e.1].length := by
    simpa [Matrix.ofFn] using hcol
  rw [writeAt, entryAt_of_lt hi, Checked.ok_bind, entryAt_of_lt hj, Checked.ok_bind]
  refine congrArg Except.ok (List.ext_getElem (by simp [Matrix.ofFn]) fun i hi' _ => ?_)
  refine List.ext_getElem ?_ fun j hj' _ => ?_
  · simp [Matrix.ofFn, List.getElem_set, apply_ite List.length]
  · simp only [Matrix.ofFn, List.getElem_set, List.getElem_map, List.getElem_range, overwrite]
    grind

omit [Scalar α] in
/-- Writing one after the other leaves the last one at each position. -/
theorem foldl_overwrite (l : List (Nat × Nat × α)) (f : Nat → Nat → α) (i j : Nat) :
    l.foldl overwrite f i j = (valuesAt l i j).getLast?.getD (f i j) := by
  induction l generalizing f with
  | nil => rfl
  | cons e l ih =>
      rw [List.foldl_cons, ih, valuesAt, valuesAt, overwrite]
      by_cases he : e.1 = i ∧ e.2.1 = j
      · rw [List.filter_cons_of_pos (by simpa using he), if_pos he, List.map_cons,
          List.getLast?_cons, Option.getD_some]
      · rw [List.filter_cons_of_neg (by simpa using he), if_neg he]

omit [Scalar α] in
theorem foldlM_writeAt {nrows ncols : Nat} {l : List (Nat × Nat × α)} (f : Nat → Nat → α)
    (h : ∀ e ∈ l, e.1 < nrows ∧ e.2.1 < ncols) :
    l.foldlM writeAt (Matrix.ofFn nrows ncols f).rows
      = .ok (Matrix.ofFn nrows ncols (l.foldl overwrite f)).rows := by
  induction l generalizing f with
  | nil => rfl
  | cons e l ih =>
      obtain ⟨he, hl⟩ := List.forall_mem_cons.mp h
      rw [List.foldlM_cons, writeAt_ofFn f he.1 he.2, Checked.ok_bind, ih _ hl, List.foldl_cons]

theorem MadeOf.readDense_eq {a : Sparse α} {starts columns : List Nat} {values : List α}
    (h : a.MadeOf starts columns values) :
    readDense a.nrows a.ncols starts columns values = .ok a.toDense.rows := by
  have hwithin : ∀ e ∈ a.entries, e.1 < a.nrows ∧ e.2.1 < a.ncols := by
    intro e he
    obtain ⟨hrow, hcell⟩ := mem_entries.mp he
    exact ⟨hrow, column_lt_of_mem_row hcell⟩
  rw [readDense, h.readEntries_eq, Checked.ok_bind, Matrix.zeros, foldlM_writeAt _ hwithin,
    toDense_eq]
  refine congrArg (Except.ok ∘ Matrix.rows) (Matrix.ofFn_congr fun i hi j _ => ?_)
  rw [foldl_overwrite, valuesAt_entries hi]

/-! ## Products -/

theorem readSum_eq {cells : List (Nat × α)} {x : Vec α} (h : ∀ c ∈ cells, c.1 < x.length) :
    readSum cells x = .ok (rowTimes cells x) := by
  have hfold : ∀ (cells : List (Nat × α)) (sum : α), (∀ c ∈ cells, c.1 < x.length) →
      cells.foldlM (fun sum c => do
        let a ← entryAt x c.1
        return sum + c.2 * a : α → Nat × α → Checked α) sum
        = .ok (cells.foldl (fun sum c => sum + c.2 * x.getD c.1 0) sum) := by
    intro cells
    induction cells with
    | nil => exact fun _ _ => rfl
    | cons c cells ih =>
        intro sum hin
        obtain ⟨hc, hrest⟩ := List.forall_mem_cons.mp hin
        rw [List.foldlM_cons, entryAt_of_lt hc, List.foldl_cons, List.getD_eq_getElem?_getD,
          List.getElem?_eq_getElem hc]
        exact ih _ hrest
  exact hfold cells 0 h

omit [Scalar α] in
/-- Writing the first entries one after the other. -/
theorem foldlM_set {g : Nat → α} {f : Vec α → Nat → Checked (Vec α)} {r : Nat} {y : Vec α}
    (hr : r ≤ y.length) (hf : ∀ i < r, ∀ y : Vec α, i < y.length → f y i = .ok (y.set i (g i))) :
    (List.range r).foldlM f y = .ok ((List.range r).map g ++ y.drop r) := by
  induction r with
  | zero => rfl
  | succ r ih =>
      have hwritten : ((List.range r).map g ++ y.drop r).length = y.length := by simp; omega
      have hrest : y.drop r = y[r] :: y.drop (r + 1) := List.drop_eq_getElem_cons (by omega)
      rw [List.range_succ, List.foldlM_append, ih (by omega) fun i hi => hf i (by omega),
        Checked.ok_bind, List.foldlM_cons, hf r (by omega) _ (by omega), List.map_append,
        List.set_append_right r _ (by simp), hrest, List.length_map, List.length_range,
        Nat.sub_self, List.set_cons_zero, List.append_assoc]
      rfl

theorem MadeOf.readTimes_eq {a : Sparse α} {starts columns : List Nat} {values : List α}
    (h : a.MadeOf starts columns values) {x y : Vec α} (hx : x.length = a.ncols)
    (hy : y.length = a.nrows) :
    readTimes a.nrows starts columns values x y
      = .ok ((List.range a.nrows).map fun i => rowTimes (a.row i) x) := by
  have hstep : ∀ i < a.nrows, ∀ y : Vec α, i < y.length → (do
      let cells ← readRow starts columns values i
      let sum ← readSum cells x
      let _ ← entryAt y i
      return y.set i sum : Checked (Vec α)) = .ok (y.set i (rowTimes (a.row i) x)) := by
    intro i hi y hin
    have hwithin : ∀ c ∈ a.row i, c.1 < x.length := fun c hc => hx ▸ column_lt_of_mem_row hc
    rw [h.readRow_eq hi, Checked.ok_bind, readSum_eq hwithin, Checked.ok_bind, entryAt_of_lt hin]
    rfl
  rw [readTimes, foldlM_set (Nat.le_of_eq hy.symm) hstep, List.drop_of_length_le (by omega),
    List.append_nil]

/-! ## Accepted arrays -/

/-- **Accepted arrays are read without a fault**: the entries, the dense form, and the product with
a vector of the right length. The entries are all the columns and values that were given, in order,
exactly if the first start is zero. -/
theorem read_ofArrays {nrows ncols : Nat} {starts columns : List Nat} {values : List α}
    {a : Sparse α} (h : ofArrays nrows ncols starts columns values = .ok a) :
    readEntries nrows starts columns values = .ok a.entries ∧
    readDense nrows ncols starts columns values = .ok a.toDense.rows ∧
    (∀ x y : Vec α, x.length = ncols → y.length = nrows → ∃ z,
      readTimes nrows starts columns values x y = .ok z ∧ a.timesInto x y = .ok z) ∧
    ((a.entries.length = a.nnz ∧ (a.entries.map fun e => e.2.1) = columns ∧
      (a.entries.map fun e => e.2.2) = values) ↔ starts.head? = some 0) := by
  have made := madeOf_ofArrays h
  obtain ⟨rfl, rfl, hstarts, -⟩ := eq_of_ofArrays h
  refine ⟨made.readEntries_eq, made.readDense_eq, fun x y hx hy => ?_, ?_⟩
  · refine ⟨_, made.readTimes_eq hx hy, ?_⟩
    simp only [timesInto, times, checkArgument, checkResult, if_pos hx, if_pos hy]
    rfl
  · have hhead : starts.head? = some (a.start 0) := by
      have hlength := a.length_starts
      rw [← hstarts, start_eq_getElem (by omega), List.head?_eq_getElem?,
        List.getElem?_eq_getElem (by omega)]
    rw [made.entries_iff, hhead, Option.some_inj]

/-- Three cells in two rows. -/
theorem read_ofArrays_lower :
    ∃ a, ofArrays 2 2 [0, 1, 3] [0, 0, 1] [(4 : Float), 1, 3] = .ok a ∧
      readEntries 2 [0, 1, 3] [0, 0, 1] [(4 : Float), 1, 3]
        = .ok [(0, 0, 4), (1, 0, 1), (1, 1, 3)] ∧
      (∃ z, readTimes 2 [0, 1, 3] [0, 0, 1] [(4 : Float), 1, 3] [1, -1] [0, 0] = .ok z ∧
        a.times [1, -1] = .ok z) ∧ a.entries.length = a.nnz := by
  have made : ofArrays 2 2 [0, 1, 3] [0, 0, 1] [(4 : Float), 1, 3] = .ok _ := rfl
  obtain ⟨hentries, -, hproduct, hall⟩ := read_ofArrays made
  exact ⟨_, made, hentries, hproduct [1, -1] [0, 0] rfl rfl, (hall.mpr rfl).1⟩

/-- A cell before the first start is accepted, and no entry is made of it. -/
theorem unread_cell :
    ∃ a, ofArrays 1 1 [1, 1] [0] [(1 : Float)] = .ok a ∧ a.nnz = 1 ∧ a.entries = [] :=
  ⟨_, rfl, rfl, rfl⟩

end Sparse

end Descent
