import Descent.Proofs.Sparse.Triplets

/-!
# Round trips between sparse matrices, triplets and dense matrices

A matrix made of triplets or of a dense matrix is canonical (`Built.isCanonical`), and a canonical
matrix is given back by its entries: they are sorted and at different positions, so that sorting and
joining leave them alone (`joined_eq_self`, `ofTriplets_entries`). The dense form of a matrix made
of a dense one has the large entries of that, and zeros (`toDense_ofDense`). The other way round the
dense form gives the matrix back if no zero is stored (`ofDense_toDense`).
-/

set_option autoImplicit false

namespace Descent

namespace Sparse

variable {α : Type} {a b : Sparse α}

/-! ## Entries as triplets -/

/-- Sorted triplets at different positions are left alone. -/
theorem joinNeighbours_eq_self [Scalar α] {l : List (Nat × Nat × α)} (h : l.Pairwise Before) :
    joinNeighbours l = l := by
  fun_induction joinNeighbours l with
  | case1 i j v i' j' v' rest hij ih =>
      -- neighbours at one position are not in this order
      have hbefore : Before (i, j, v) (i', j', v') :=
        List.rel_of_pairwise_cons h (List.mem_cons_self ..)
      simp only [Before] at hbefore
      omega
  | case2 i j v i' j' v' rest hij ih => rw [ih (List.pairwise_cons.mp h).2]
  | case3 l _ => rfl

theorem joined_eq_self [Scalar α] {l : List (Nat × Nat × α)} (h : l.Pairwise Before) :
    joined l = l := by
  have hsorted : l.mergeSort positionLe = l :=
    List.mergeSort_of_pairwise (h.imp fun {d e} hbefore => by
      rw [positionLe_iff]
      simp only [Before] at hbefore
      omega)
  rw [joined, hsorted, joinNeighbours_eq_self h]

theorem zip_entries (a : Sparse α) :
    (a.entries.map fun e => e.1).zip
      ((a.entries.map fun e => e.2.1).zip (a.entries.map fun e => e.2.2)) = a.entries := by
  rw [List.zip_map', List.zip_map']
  exact List.map_id' _

theorem flatMap_mirrored_false (ts : List (Nat × Nat × α)) : ts.flatMap (mirrored false) = ts := by
  have hnone : mirrored (α := α) false = fun t => [t] := rfl
  rw [hnone, List.flatMap_singleton']

/-- A canonical matrix is made of its entries. -/
theorem ofTriplets_entries [Scalar α] (h : a.IsCanonical) :
    ofTriplets a.nrows a.ncols (a.entries.map fun e => e.1) (a.entries.map fun e => e.2.1)
      (a.entries.map fun e => e.2.2) false = .ok a := by
  have hin : ∀ t ∈ a.entries, InRange a.nrows a.ncols false t := by
    intro t ht
    obtain ⟨hrow, hcell⟩ := mem_entries.mp ht
    exact ⟨hrow, column_lt_of_mem_row hcell, nofun⟩
  obtain ⟨b, hb⟩ : ∃ b, ofTriplets a.nrows a.ncols (a.entries.map fun e => e.1)
      (a.entries.map fun e => e.2.1) (a.entries.map fun e => e.2.2) false = .ok b :=
    exists_ofTriplets (by simp) (by rwa [zip_entries])
  obtain ⟨hrows, hcols, hfirst⟩ := size_ofTriplets hb
  have hentries : b.entries = a.entries := by
    rw [entries_ofTriplets hb, zip_entries, flatMap_mirrored_false, joined_eq_self h.sorted]
  rw [hb, ext_entries hrows hcols hfirst h.first hentries]

/-- Matrices made of dense matrices and of triplets. -/
inductive Built [Scalar α] : Sparse α → Prop where
  | ofDense (d : Matrix α) (tolerance : α) : Built (ofDense d tolerance)
  | ofTriplets {nrows ncols : Nat} {rows cols : List Nat} {vals : List α} {symmetric : Bool}
      {a : Sparse α} (h : ofTriplets nrows ncols rows cols vals symmetric = .ok a) : Built a

theorem Built.isCanonical [Scalar α] (h : a.Built) : a.IsCanonical := by
  cases h with
  | ofDense d tolerance => exact isCanonical_ofDense d tolerance
  | ofTriplets h => exact isCanonical_ofTriplets h

/-! ## Dense matrices -/

theorem mem_stored {i j : Nat} {v : α} : v ∈ a.stored i j ↔ (j, v) ∈ a.row i := by
  simp [stored]

/-- Where nothing is stored twice, the last value stored at a position is the one of the cell
there. -/
theorem StoresOnce.getLast?_stored (h : a.StoresOnce) {i : Nat} (hi : i < a.nrows) {j : Nat}
    {v : α} : (a.stored i j).getLast? = some v ↔ (j, v) ∈ a.row i := by
  have honce := h.length_stored_le hi j
  rw [← mem_stored]
  generalize a.stored i j = l at honce
  match l, honce with
  | [], _ => simp
  | [w], _ => simp [eq_comm]

section Dense

variable [Scalar α]

theorem mem_largeCells {tolerance : α} {row : Vec α} {j : Nat} {v : α} :
    (j, v) ∈ largeCells tolerance row ↔ row[j]? = some v ∧ tolerance < Scalar.abs v := by
  simp [largeCells, List.mem_zipIdx_iff_getElem?]

/-- The dense form has the large entries of the matrix it was made of, and zeros. -/
theorem toDense_ofDense (d : Matrix α) (tolerance : α) :
    (ofDense d tolerance).toDense
      = d.map fun v => if tolerance < Scalar.abs v then v else 0 := by
  have hentry : ∀ i (hi : i < d.rows.length), ∀ j (hj : j < d.rows[i].length),
      ((ofDense d tolerance).stored i j).getLast?.getD 0
        = if tolerance < Scalar.abs d.rows[i][j] then d.rows[i][j] else 0 := by
    intro i hi j hj
    have hlast : ∀ v, ((ofDense d tolerance).stored i j).getLast? = some v ↔
        d.rows[i][j] = v ∧ tolerance < Scalar.abs v := by
      intro v
      rw [(storesOnce_ofDense d tolerance).getLast?_stored hi, row_ofDense d tolerance hi,
        mem_largeCells, List.getElem?_eq_getElem hj, Option.some_inj]
    split
    · next hlarge => rw [(hlast _).mpr ⟨rfl, hlarge⟩, Option.getD_some]
    · next hsmall =>
        have hnone : ((ofDense d tolerance).stored i j).getLast? = none := by
          refine Option.eq_none_iff_forall_ne_some.mpr fun v hv => hsmall ?_
          obtain ⟨rfl, hlarge⟩ := (hlast v).mp hv
          exact hlarge
        rw [hnone, Option.getD_none]
  rw [toDense_eq, Matrix.map, Matrix.ofFn]
  simp only [Matrix.mk.injEq]
  refine ⟨rfl, List.ext_getElem (by simp [ofDense, Matrix.nrows]) fun i hi hi' => ?_⟩
  rw [List.length_map] at hi'
  have hwidth : d.rows[i].length = d.ncols := d.width _ (List.getElem_mem hi')
  refine List.ext_getElem (by simp [ofDense, hwidth]) fun j hj hj' => ?_
  simp only [List.getElem_map, List.length_map] at hj'
  simp only [List.getElem_map, List.getElem_range]
  exact hentry i hi' j hj'

end Dense

section Exact

variable [RealConstants]

/-- Without a tolerance nothing is lost. -/
theorem toDense_ofDense_zero (d : Matrix ℝ) : (ofDense d 0).toDense = d := by
  have hkept : (fun v : ℝ => if 0 < Scalar.abs v then v else 0) = id := by
    funext v
    split
    · rfl
    · next hzero => exact (abs_nonpos_iff.mp (not_lt.mp hzero)).symm
  rw [toDense_ofDense, hkept]
  simp [Matrix.map]

/-- A canonical matrix without stored zeros is made of its dense form. -/
theorem ofDense_toDense {a : Sparse ℝ} (h : a.IsCanonical) (hvalues : ∀ v ∈ a.values, v ≠ 0) :
    ofDense a.toDense 0 = a := by
  have hrows : (ofDense a.toDense 0).nrows = a.nrows := by
    simp [ofDense, toDense, Matrix.ofFn, Matrix.nrows]
  refine (isCanonical_ofDense a.toDense 0).ext h hrows rfl fun i hi => ?_
  rintro ⟨j, v⟩
  have hi' : i < a.toDense.rows.length := hi
  have hrow : a.toDense.rows[i]
      = (List.range a.ncols).map fun j => (a.stored i j).getLast?.getD 0 := by
    simp [toDense_eq, Matrix.ofFn]
  have hcell : (j, v) ∈ a.row i ↔ (a.stored i j).getLast? = some v :=
    (h.storesOnce.getLast?_stored (hrows ▸ hi)).symm
  rw [row_ofDense a.toDense 0 hi', mem_largeCells, hrow, List.getElem?_map]
  constructor
  · rintro ⟨hvalue, hlarge⟩
    have hne : v ≠ 0 := abs_pos.mp hlarge
    have hj : j < a.ncols := by
      by_contra hj
      rw [List.getElem?_eq_none (by simpa using hj)] at hvalue
      cases hvalue
    rw [List.getElem?_range hj, Option.map_some, Option.some_inj] at hvalue
    -- zero is read where nothing is stored, and it is no large entry
    cases hlast : (a.stored i j).getLast? with
    | none => exact absurd (by rw [← hvalue, hlast, Option.getD_none]) hne
    | some w =>
        rw [hlast, Option.getD_some] at hvalue
        exact hcell.mpr (hvalue ▸ hlast)
  · intro hmem
    have hj : j < a.ncols := column_lt_of_mem_row hmem
    have hv : v ∈ a.values := List.mem_map_of_mem (mem_cells_of_mem_row hmem)
    rw [List.getElem?_range hj, Option.map_some, hcell.mp hmem, Option.getD_some]
    exact ⟨rfl, abs_pos.mpr (hvalues v hv)⟩

/-- In exact arithmetic matrices that compare as equal are equal. -/
theorem same_iff {a b : Sparse ℝ} : a.same b = true ↔ a = b := by
  have : LawfulBEq ℝ := ⟨fun h => of_decide_eq_true h⟩
  constructor
  · intro h
    simp only [same, Bool.and_eq_true, beq_iff_eq] at h
    obtain ⟨⟨⟨⟨hrows, hcols⟩, hstarts⟩, hcolumns⟩, hvalues⟩ := h
    have hcells : ∀ c : Sparse ℝ, c.cells = c.columns.zip c.values := fun c => by
      rw [columns, values, List.zip_map']
      exact (List.map_id' _).symm
    have : a.cells = b.cells := by rw [hcells a, hcells b, hcolumns, hvalues]
    cases a
    cases b
    simp_all
  · rintro rfl
    simp [same]

/-- **The conversions go there and back.** A matrix made of a dense matrix or of triplets is made
again of its own entries. The dense form of a matrix made of a dense one keeps the entries above the
tolerance and has zeros elsewhere. A matrix made of triplets without a stored zero is made again of
its dense form. In exact arithmetic it is the same whether matrices are equal or compare as
equal. -/
theorem conversions_round_trip :
    (∀ a : Sparse ℝ, a.Built →
      ofTriplets a.nrows a.ncols (a.entries.map fun e => e.1) (a.entries.map fun e => e.2.1)
        (a.entries.map fun e => e.2.2) false = .ok a) ∧
    (∀ (d : Matrix ℝ) (tolerance : ℝ),
      (ofDense d tolerance).toDense = d.map fun v => if tolerance < |v| then v else 0) ∧
    (∀ (nrows ncols : Nat) (rows cols : List Nat) (vals : List ℝ) (symmetric : Bool)
      (a : Sparse ℝ), ofTriplets nrows ncols rows cols vals symmetric = .ok a →
        (∀ v ∈ a.values, v ≠ 0) → ofDense a.toDense 0 = a) ∧
    (∀ a b : Sparse ℝ, a.same b = true ↔ a = b) := by
  refine ⟨fun a h => ofTriplets_entries h.isCanonical, toDense_ofDense, ?_, fun _ _ => same_iff⟩
  intro nrows ncols rows cols vals symmetric a h hvalues
  exact ofDense_toDense (isCanonical_ofTriplets h) hvalues

end Exact

section Upper

attribute [local instance] RealConstants.double

/-- An upper triangle without zeros. -/
def upper : Sparse ℝ :=
  ⟨2, 2, [0, 2, 3], [(0, 1), (1, -1), (1, 1)], rfl, rfl, by decide, by decide⟩

theorem isCanonical_upper : upper.IsCanonical where
  first := rfl
  increasing i hi := by
    have hi' : i < 2 := hi
    interval_cases i
    · simp [upper, row, start]
    · simp [upper, row, start]

theorem conversions_round_trip_upper :
    ofTriplets 2 2 [0, 0, 1] [0, 1, 1] [(1 : ℝ), -1, 1] false = .ok upper ∧
      ofTriplets upper.nrows upper.ncols (upper.entries.map fun e => e.1)
        (upper.entries.map fun e => e.2.1) (upper.entries.map fun e => e.2.2) false = .ok upper ∧
      (∀ v ∈ upper.values, v ≠ 0) ∧ ofDense upper.toDense 0 = upper := by
  have made : ofTriplets 2 2 [0, 0, 1] [0, 1, 1] [(1 : ℝ), -1, 1] false = .ok upper :=
    ofTriplets_entries isCanonical_upper
  have hvalues : ∀ v ∈ upper.values, v ≠ 0 := by simp [upper, values]
  obtain ⟨entries, -, dense, -⟩ := conversions_round_trip
  exact ⟨made, entries upper (.ofTriplets made), hvalues, dense _ _ _ _ _ _ _ made hvalues⟩

end Upper

end Sparse

end Descent
