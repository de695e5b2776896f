import Mathlib.Tactic.Set
import Descent.Proofs.Outcome
import Descent.Sparse

/-!
# The rows of a sparse matrix

What each way to build a sparse matrix puts into its rows. From triplets a row gets those of its
own, sorted and joined (`row_ofTriplets`); from a dense matrix it gets the large entries of the
dense row (`row_ofDense`). In both cases no column is named twice (`StoresOnce`), which compressed
arrays may do: `ofArrays` keeps them as they are (`eq_of_ofArrays`).
-/

set_option autoImplicit false

namespace Descent

namespace Sparse

variable {α : Type}

/-- The values stored in row `i` and column `j`, in their order. -/
def stored (a : Sparse α) (i j : Nat) : List α := ((a.row i).filter fun c => c.1 == j).map Prod.snd

/-- No row names a column twice. -/
def StoresOnce (a : Sparse α) : Prop :=
  ∀ i < a.nrows, (a.row i).Pairwise fun c d => c.1 ≠ d.1

theorem mem_cells_of_mem_row {a : Sparse α} {i : Nat} {c : Nat × α} (h : c ∈ a.row i) :
    c ∈ a.cells :=
  List.mem_of_mem_drop (List.mem_of_mem_take h)

/-- The cells of a row lie in the columns of the matrix. -/
theorem column_lt_of_mem_row {a : Sparse α} {i : Nat} {c : Nat × α} (h : c ∈ a.row i) :
    c.1 < a.ncols :=
  a.column_lt c (mem_cells_of_mem_row h)

/-- Where nothing is stored twice, a position has one stored value or none. -/
theorem StoresOnce.length_stored_le {a : Sparse α} (h : a.StoresOnce) {i : Nat} (hi : i < a.nrows)
    (j : Nat) : (a.stored i j).length ≤ 1 := by
  have apart : ((a.row i).filter fun c => c.1 == j).Pairwise fun c d => c.1 ≠ d.1 :=
    (h i hi).filter _
  have here : ∀ c ∈ (a.row i).filter fun c => c.1 == j, c.1 = j := by simp
  rw [stored, List.length_map]
  generalize (a.row i).filter (fun c => c.1 == j) = cells at apart here
  match cells with
  | [] | [_] => simp
  | c :: d :: rest =>
      have hne : c.1 ≠ d.1 := List.rel_of_pairwise_cons apart (List.mem_cons_self ..)
      exact absurd ((here c (by simp)).trans (here d (by simp)).symm) hne

/-- An entry of the dense form is the last value stored there. -/
theorem toDense_eq [Scalar α] (a : Sparse α) :
    a.toDense = Matrix.ofFn a.nrows a.ncols fun i j => (a.stored i j).getLast?.getD 0 := by
  refine congrArg (Matrix.ofFn a.nrows a.ncols) (funext fun i => funext fun j => ?_)
  rw [← List.head?_filter, List.filter_reverse, List.head?_reverse, stored, List.getLast?_map]

/-! ## Compressed arrays -/

/-- The arrays that are accepted are kept. -/
theorem eq_of_ofArrays {nrows ncols : Nat} {starts columns : List Nat} {values : List α}
    {a : Sparse α} (h : ofArrays nrows ncols starts columns values = .ok a) :
    a.nrows = nrows ∧ a.ncols = ncols ∧ a.starts = starts ∧ a.cells = columns.zip values := by
  simp only [ofArrays] at h
  split at h
  · split at h
    · split at h
      · split at h
        · cases h
        · cases h; exact ⟨rfl, rfl, rfl, rfl⟩
      · cases h
    · cases h
  · cases h

/-! ## Triplets -/

/-- The one position comes before the other. -/
def Before (a b : Nat × Nat × α) : Prop := a.1 < b.1 ∨ a.1 = b.1 ∧ a.2.1 < b.2.1

theorem positionLe_iff {a b : Nat × Nat × α} :
    positionLe a b = true ↔ a.1 < b.1 ∨ a.1 = b.1 ∧ a.2.1 ≤ b.2.1 := by
  simp [positionLe]

theorem pairwise_mergeSort_positionLe (l : List (Nat × Nat × α)) :
    (l.mergeSort positionLe).Pairwise fun a b => positionLe a b = true := by
  refine List.pairwise_mergeSort ?_ ?_ l
  · intro a b c
    simp only [positionLe_iff]
    omega
  · intro a b
    simp only [Bool.or_eq_true, positionLe_iff]
    omega

variable [Scalar α]

/-- Joining makes up no position. -/
theorem exists_mem_of_mem_joinNeighbours {l : List (Nat × Nat × α)} {e : Nat × Nat × α}
    (h : e ∈ joinNeighbours l) : ∃ d ∈ l, d.1 = e.1 ∧ d.2.1 = e.2.1 := by
  fun_induction joinNeighbours l with
  | case1 i j v i' j' v' rest hij ih =>
      obtain ⟨d, hd, hpos⟩ := ih h
      rcases List.mem_cons.mp hd with rfl | hd
      · exact ⟨(i, j, v), by simp, hpos⟩
      · exact ⟨d, by simp [hd], hpos⟩
  | case2 i j v i' j' v' rest hij ih =>
      rcases List.mem_cons.mp h with rfl | h
      · exact ⟨(i, j, v), by simp, rfl, rfl⟩
      · obtain ⟨d, hd, hpos⟩ := ih h
        exact ⟨d, List.mem_cons_of_mem _ hd, hpos⟩
  | case3 l _ => exact ⟨e, h, rfl, rfl⟩

/-- Sorted triplets are joined to one at each position. -/
theorem pairwise_joinNeighbours {l : List (Nat × Nat × α)}
    (h : l.Pairwise fun a b => positionLe a b = true) : (joinNeighbours l).Pairwise Before := by
  fun_induction joinNeighbours l with
  | case1 i j v i' j' v' rest hij ih =>
      obtain ⟨rfl, rfl⟩ := hij
      refine ih ?_
      obtain ⟨hfirst, hrest⟩ := List.pairwise_cons.mp h
      refine List.pairwise_cons.mpr ⟨fun e he => ?_, (List.pairwise_cons.mp hrest).2⟩
      have := hfirst e (List.mem_cons_of_mem _ he)
      simpa only [positionLe_iff] using this
  | case2 i j v i' j' v' rest hij ih =>
      obtain ⟨hfirst, hrest⟩ := List.pairwise_cons.mp h
      refine List.pairwise_cons.mpr ⟨fun e he => ?_, ih hrest⟩
      obtain ⟨d, hd, hrow, hcol⟩ := exists_mem_of_mem_joinNeighbours he
      have hstrict : i < i' ∨ i = i' ∧ j < j' := by
        have := positionLe_iff.mp (hfirst (i', j', v') (List.mem_cons_self ..))
        simp only at this
        omega
      have hnext : i' < d.1 ∨ i' = d.1 ∧ j' ≤ d.2.1 := by
        rcases List.mem_cons.mp hd with rfl | hd
        · simp
        · exact positionLe_iff.mp ((List.pairwise_cons.mp hrest).1 d hd)
      simp only [Before]
      omega
  | case3 l hshort =>
      match l, hshort with
      | [], _ => exact .nil
      | [e], _ => exact List.pairwise_singleton _ e
      | (i, j, v) :: (i', j', v') :: rest, hshort => exact absurd rfl (hshort i j v i' j' v' rest)

omit [Scalar α] in
/-- In a list sorted by a key the entries below a bound come first. -/
theorem take_countP_lt {β : Type} {key : β → Nat} {l : List β}
    (h : l.Pairwise fun a b => key a ≤ key b) (r : Nat) :
    l.take (l.countP fun e => decide (key e < r)) = l.filter fun e => decide (key e < r) := by
  induction l with
  | nil => rfl
  | cons e l ih =>
      obtain ⟨hfirst, hrest⟩ := List.pairwise_cons.mp h
      by_cases he : key e < r
      · simp [he, ih hrest]
      · have hnone : ∀ d ∈ l, ¬ key d < r := fun d hd => by have := hfirst d hd; omega
        have hcount : l.countP (fun e => decide (key e < r)) = 0 := by
          rw [List.countP_eq_zero]; simpa using hnone
        simpa [he, hcount] using hnone

omit [Scalar α] in
theorem drop_countP_lt {β : Type} {key : β → Nat} {l : List β}
    (h : l.Pairwise fun a b => key a ≤ key b) (r : Nat) :
    l.drop (l.countP fun e => decide (key e < r)) = l.filter fun e => decide (r ≤ key e) := by
  induction l with
  | nil => rfl
  | cons e l ih =>
      obtain ⟨hfirst, hrest⟩ := List.pairwise_cons.mp h
      by_cases he : key e < r
      · simp [he, Nat.not_le.mpr he, ih hrest]
      · have hall : ∀ d ∈ l, r ≤ key d := fun d hd => by have := hfirst d hd; omega
        have hcount : l.countP (fun e => decide (key e < r)) = 0 := by
          rw [List.countP_eq_zero]; intro d hd; simpa using hall d hd
        have hkeep : l.filter (fun e => decide (r ≤ key e)) = l :=
          List.filter_eq_self.mpr fun d hd => by simpa using hall d hd
        simp [he, hcount, Nat.le_of_not_lt he, hkeep]

omit [Scalar α] in
/-- In a list sorted by a key the entries with the key `r` stand between those below `r` and those
above. -/
theorem take_drop_countP {β : Type} {key : β → Nat} {l : List β}
    (h : l.Pairwise fun a b => key a ≤ key b) (r : Nat) :
    (l.drop (l.countP fun e => decide (key e < r))).take
        (l.countP (fun e => decide (key e < r + 1)) - l.countP fun e => decide (key e < r))
      = l.filter fun e => decide (key e = r) := by
  have hcount : l.countP (fun e => decide (key e < r + 1)) =
      l.countP (fun e => decide (key e < r))
        + (l.filter fun e => decide (r ≤ key e)).countP fun e => decide (key e < r + 1) := by
    rw [List.countP_eq_countP_filter_add l _ fun e => decide (key e < r), List.countP_filter]
    congr 1
    · exact List.countP_congr fun e _ => by simp only [Bool.and_eq_true, decide_eq_true_eq]; omega
    · congr 1
      exact List.filter_congr fun e _ => by rw [← decide_not]; exact decide_eq_decide.mpr Nat.not_lt
  rw [drop_countP_lt h, hcount, Nat.add_sub_cancel_left, take_countP_lt (h.filter _),
    List.filter_filter]
  exact List.filter_congr fun e _ => by
    rw [Bool.eq_iff_iff]; simp only [Bool.and_eq_true, decide_eq_true_eq]; omega

/-- A matrix made of triplets holds in row `i` those of its own, sorted and joined. -/
theorem row_ofTriplets {nrows ncols : Nat} {rows cols : List Nat} {vals : List α}
    {symmetric : Bool} {a : Sparse α}
    (h : ofTriplets nrows ncols rows cols vals symmetric = .ok a) :
    ∃ triplets, placed nrows ncols symmetric (rows.zip (cols.zip vals)) = .ok triplets ∧
      ∀ i < a.nrows, a.row i = ((joinNeighbours (triplets.mergeSort positionLe)).filter
        fun e => decide (e.1 = i)).map Prod.snd := by
  unfold ofTriplets at h
  split at h
  · cases h
  obtain ⟨triplets, hplaced, h⟩ := exists_of_bind_ok h
  refine ⟨triplets, hplaced, fun i hi => ?_⟩
  obtain ⟨rfl, -, hstarts, hcells⟩ := eq_of_ofArrays h
  set joined := joinNeighbours (triplets.mergeSort positionLe) with hjoined
  have hstart : ∀ r ≤ a.nrows, a.start r = joined.countP fun e => decide (e.1 < r) := by
    intro r hr
    simp [start, hstarts, Nat.lt_succ_of_le hr]
  have hsorted : joined.Pairwise fun d e => d.1 ≤ e.1 :=
    (pairwise_joinNeighbours (pairwise_mergeSort_positionLe triplets)).imp fun h => by
      simp only [Before] at h; omega
  rw [row, hstart i (Nat.le_of_lt hi), hstart (i + 1) hi, hcells, List.zip_map',
    ← take_drop_countP hsorted, List.map_take, List.map_drop]

/-- In a matrix made of triplets the columns increase in each row. -/
theorem increasing_ofTriplets {nrows ncols : Nat} {rows cols : List Nat} {vals : List α}
    {symmetric : Bool} {a : Sparse α}
    (h : ofTriplets nrows ncols rows cols vals symmetric = .ok a) :
    ∀ i < a.nrows, (a.row i).Pairwise fun c d => c.1 < d.1 := by
  obtain ⟨triplets, -, hrow⟩ := row_ofTriplets h
  intro i hi
  rw [hrow i hi, List.pairwise_map, List.pairwise_filter]
  refine (pairwise_joinNeighbours (pairwise_mergeSort_positionLe triplets)).imp ?_
  intro d e hbefore hd he
  simp only [Before, decide_eq_true_eq] at hbefore hd he
  omega

/-- A matrix made of triplets stores nothing twice. -/
theorem storesOnce_ofTriplets {nrows ncols : Nat} {rows cols : List Nat} {vals : List α}
    {symmetric : Bool} {a : Sparse α}
    (h : ofTriplets nrows ncols rows cols vals symmetric = .ok a) : a.StoresOnce :=
  fun i hi => (increasing_ofTriplets h i hi).imp Nat.ne_of_lt

/-! ## Dense matrices -/

omit [Scalar α] in
/-- The cells of row `i` in the list of all rows one after another. -/
theorem take_drop_flatten {β : Type} (rows : List (List β)) {i : Nat} (hi : i < rows.length) :
    (rows.flatten.drop ((rows.take i).flatten).length).take
      (((rows.take (i + 1)).flatten).length - ((rows.take i).flatten).length) = rows[i] := by
  have hsplit : rows.flatten
      = (rows.take i).flatten ++ (rows[i] ++ (rows.drop (i + 1)).flatten) := by
    rw [← List.flatten_cons, List.getElem_cons_drop, ← List.flatten_append, List.take_append_drop]
  have hnext : ((rows.take (i + 1)).flatten).length
      = ((rows.take i).flatten).length + rows[i].length := by
    rw [← List.take_append_getElem hi, List.flatten_append, List.length_append,
      List.flatten_singleton]
  rw [hsplit, List.drop_left, hnext, Nat.add_sub_cancel_left, List.take_left]

/-- A matrix made of a dense one holds in row `i` the large entries of its row `i`. -/
theorem row_ofDense (d : Matrix α) (tolerance : α) {i : Nat} (hi : i < d.rows.length) :
    (ofDense d tolerance).row i = largeCells tolerance d.rows[i] := by
  have hstart : ∀ r ≤ d.rows.length, (ofDense d tolerance).start r
      = (((d.rows.map (largeCells tolerance)).take r).flatten).length := by
    intro r hr
    simp [start, ofDense, Matrix.nrows, Nat.lt_succ_of_le hr]
  have hslice := take_drop_flatten (d.rows.map (largeCells tolerance)) (by simpa using hi)
  rw [List.getElem_map] at hslice
  rw [row, hstart i (Nat.le_of_lt hi), hstart (i + 1) hi]
  exact hslice

/-- The columns of the large entries of a dense row, in their order. -/
theorem pairwise_largeCells (tolerance : α) (v : Vec α) :
    (largeCells tolerance v).Pairwise fun c d => c.1 < d.1 := by
  have hcolumns : (v.zipIdx.map Prod.snd).Pairwise fun i j => i < j := by
    rw [List.zipIdx_map_snd]
    exact List.pairwise_lt_range'
  rw [largeCells, List.pairwise_map]
  exact (List.pairwise_map.mp hcolumns).filter _

/-- A matrix made of a dense one stores nothing twice. -/
theorem storesOnce_ofDense (d : Matrix α) (tolerance : α) :
    (ofDense d tolerance).StoresOnce := by
  intro i hi
  rw [row_ofDense d tolerance hi]
  exact (pairwise_largeCells tolerance _).imp fun h => Nat.ne_of_lt h

end Sparse

end Descent
