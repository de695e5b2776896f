import Mathlib.Data.List.Sort
import Descent.Proofs.Sparse.Rows

/-!
# The entries of a sparse matrix

The entries are the cells from the first start on (`map_snd_entries`), and the starts count them row
by row (`start_eq`). So a matrix that starts at its first cell is given by its size and its entries
(`ext_entries`). It is canonical if moreover the columns increase in each row; then the entries
increase strictly from position to position (`IsCanonical.sorted`). Matrices made of triplets and of
dense matrices are canonical, and compressed arrays need not be.
-/

set_option autoImplicit false

namespace Descent

namespace Sparse

variable {α : Type} {a b : Sparse α}

/-! ## Starts -/

theorem start_eq_getElem {i : Nat} (hi : i < a.starts.length) : a.start i = a.starts[i] := by
  simp [start, hi]

@[simp] theorem start_nrows (a : Sparse α) : a.start a.nrows = a.cells.length := by
  simp [start, a.last_start]

theorem start_le_start {i j : Nat} (hij : i ≤ j) (hj : j ≤ a.nrows) : a.start i ≤ a.start j := by
  have hlength := a.length_starts
  rw [start_eq_getElem (by omega), start_eq_getElem (by omega)]
  rcases Nat.eq_or_lt_of_le hij with rfl | hlt
  · exact Nat.le_refl _
  · exact List.pairwise_iff_getElem.mp a.starts_le i j _ _ hlt

theorem start_le_length {i : Nat} (hi : i ≤ a.nrows) : a.start i ≤ a.cells.length :=
  a.start_nrows ▸ start_le_start hi (Nat.le_refl _)

/-! ## Entries -/

/-- The first rows hold the cells from the first start on. -/
theorem flatMap_row {r : Nat} (hr : r ≤ a.nrows) :
    (List.range r).flatMap a.row = (a.cells.drop (a.start 0)).take (a.start r - a.start 0) := by
  induction r with
  | zero => simp
  | succ r ih =>
      have hfirst : a.start 0 ≤ a.start r := start_le_start (Nat.zero_le r) (by omega)
      have hnext : a.start r ≤ a.start (r + 1) := start_le_start (by omega) hr
      have hcells : a.start (r + 1) - a.start 0
          = (a.start r - a.start 0) + (a.start (r + 1) - a.start r) := by omega
      rw [List.range_succ, List.flatMap_append, ih (by omega), hcells, List.take_add,
        List.drop_drop, Nat.add_sub_of_le hfirst, List.flatMap_singleton]
      rfl

/-- The cells of the entries are those from the first start on. -/
theorem map_snd_entries (a : Sparse α) : a.entries.map Prod.snd = a.cells.drop (a.start 0) := by
  have hcells : a.entries.map Prod.snd = (List.range a.nrows).flatMap a.row := by
    simp [entries, List.map_flatMap, Function.comp_def]
  rw [hcells, flatMap_row (Nat.le_refl _), start_nrows]
  exact List.take_of_length_le (by simp)

theorem mem_entries {e : Nat × Nat × α} : e ∈ a.entries ↔ e.1 < a.nrows ∧ e.2 ∈ a.row e.1 := by
  simp only [entries, List.mem_flatMap, List.mem_range, List.mem_map]
  constructor
  · rintro ⟨i, hi, c, hc, rfl⟩
    exact ⟨hi, hc⟩
  · rintro ⟨hi, hc⟩
    exact ⟨e.1, hi, e.2, hc, rfl⟩

/-- Each start counts the entries of the rows above. -/
theorem start_eq {r : Nat} (hr : r ≤ a.nrows) :
    a.start r = a.start 0 + a.entries.countP fun e => decide (e.1 < r) := by
  have hsplit : List.range a.nrows = List.range r ++ (List.range (a.nrows - r)).map (r + ·) := by
    rw [← List.range_add, Nat.add_sub_of_le hr]
  set above := (List.range r).flatMap fun i => (a.row i).map fun c => (i, c.1, c.2) with habove
  set below := ((List.range (a.nrows - r)).map (r + ·)).flatMap
    fun i => (a.row i).map fun c => (i, c.1, c.2) with hbelow
  have hentries : a.entries = above ++ below := by
    rw [entries, hsplit, List.flatMap_append]
  have hall : above.countP (fun e => decide (e.1 < r)) = above.length := by
    rw [List.countP_eq_length]
    intro e he
    obtain ⟨i, hi, c, -, rfl⟩ := by
      simpa only [habove, List.mem_flatMap, List.mem_map] using he
    simpa using hi
  have hnone : below.countP (fun e => decide (e.1 < r)) = 0 := by
    rw [List.countP_eq_zero]
    intro e he
    obtain ⟨i, hi, c, -, rfl⟩ := by
      simpa only [hbelow, List.mem_flatMap, List.mem_map] using he
    simp only [List.mem_range] at hi
    simp only [decide_eq_true_eq]
    omega
  have hlength : above.length = a.start r - a.start 0 := by
    have hrows : above.map Prod.snd = (List.range r).flatMap a.row := by
      simp [habove, List.map_flatMap, Function.comp_def]
    have hend := start_le_length hr
    rw [← List.length_map Prod.snd, hrows, flatMap_row hr, List.length_take, List.length_drop]
    omega
  have hfirst : a.start 0 ≤ a.start r := start_le_start (Nat.zero_le r) hr
  rw [hentries, List.countP_append, hall, hnone, hlength]
  omega

def valuesAt (l : List (Nat × Nat × α)) (i j : Nat) : List α :=
  (l.filter fun e => e.1 == i && e.2.1 == j).map fun e => e.2.2

theorem flatMap_range_single {β : Type} {n i : Nat} (hi : i < n) (l : List β) :
    ((List.range n).flatMap fun k => if k = i then l else []) = l := by
  induction n with
  | zero => omega
  | succ n ih =>
      rw [List.range_succ, List.flatMap_append, List.flatMap_singleton]
      rcases Nat.eq_or_lt_of_le (Nat.le_of_lt_succ hi) with rfl | hlt
      · have hnone : ((List.range i).flatMap fun k => if k = i then l else []) = [] := by
          rw [List.flatMap_eq_nil_iff]
          intro k hk
          exact if_neg (Nat.ne_of_lt (List.mem_range.mp hk))
        rw [hnone, if_pos rfl, List.nil_append]
      · rw [ih hlt, if_neg (Nat.ne_of_gt hlt), List.append_nil]

/-- The values of the entries at a position are those stored there. -/
theorem valuesAt_entries {i : Nat} (hi : i < a.nrows) (j : Nat) :
    valuesAt a.entries i j = a.stored i j := by
  have hrow : ∀ k, ((a.row k).map fun c => (k, c.1, c.2)).filter
      (fun e => e.1 == i && e.2.1 == j)
        = if k = i then ((a.row i).filter fun c => c.1 == j).map fun c => (i, c.1, c.2)
          else [] := by
    intro k
    rw [List.filter_map]
    by_cases hk : k = i
    · subst hk
      simp [Function.comp_def]
    · simp [hk, Function.comp_def]
  rw [valuesAt, entries, List.filter_flatMap]
  simp only [hrow, flatMap_range_single hi, List.map_map, stored]
  rfl

/-- A matrix that starts at its first cell is given by its size and its entries. -/
theorem ext_entries (hrows : a.nrows = b.nrows) (hcols : a.ncols = b.ncols) (ha : a.start 0 = 0)
    (hb : b.start 0 = 0) (h : a.entries = b.entries) : a = b := by
  have hcells : a.cells = b.cells := by
    have hdrop := congrArg (List.map Prod.snd) h
    rwa [map_snd_entries, map_snd_entries, ha, hb, List.drop_zero, List.drop_zero] at hdrop
  have hstarts : a.starts = b.starts := by
    refine List.ext_getElem ?_ fun r hr hr' => ?_
    · rw [a.length_starts, b.length_starts, hrows]
    · have hle : r ≤ a.nrows := by have := a.length_starts; omega
      have hleft : a.start r = a.start 0 + _ := start_eq hle
      have hright : b.start r = b.start 0 + _ := start_eq (hrows ▸ hle)
      rw [← start_eq_getElem hr, ← start_eq_getElem hr', hleft, hright, ha, hb, h]
  cases a
  cases b
  simp_all

/-! ## The order of the entries -/

instance : Std.Irrefl (Before (α := α)) where
  irrefl e h := by
    simp only [Before] at h
    omega

instance : Std.Antisymm (Before (α := α)) where
  antisymm d e h h' := by
    simp only [Before] at h h'
    omega

/-- The first row starts at the first cell, and in each row the columns increase. -/
structure IsCanonical (a : Sparse α) : Prop where
  first : a.start 0 = 0
  increasing : ∀ i < a.nrows, (a.row i).Pairwise fun c d => c.1 < d.1

namespace IsCanonical

theorem sorted (h : a.IsCanonical) : a.entries.Pairwise Before := by
  rw [entries, List.pairwise_flatMap]
  constructor
  · intro i hi
    rw [List.pairwise_map]
    exact (h.increasing i (List.mem_range.mp hi)).imp fun hcd => .inr ⟨rfl, hcd⟩
  · refine List.pairwise_lt_range.imp fun {i j} hij d hd e he => ?_
    obtain ⟨c, -, rfl⟩ := List.mem_map.mp hd
    obtain ⟨c', -, rfl⟩ := List.mem_map.mp he
    exact .inl hij

theorem storesOnce (h : a.IsCanonical) : a.StoresOnce :=
  fun i hi => (h.increasing i hi).imp Nat.ne_of_lt

/-- All cells belong to entries. -/
theorem map_snd (h : a.IsCanonical) : a.entries.map Prod.snd = a.cells := by
  rw [map_snd_entries, h.first, List.drop_zero]

/-- Canonical matrices of one size with the same cells in each row are equal. -/
theorem ext (ha : a.IsCanonical) (hb : b.IsCanonical) (hrows : a.nrows = b.nrows)
    (hcols : a.ncols = b.ncols) (h : ∀ i < a.nrows, ∀ c, c ∈ a.row i ↔ c ∈ b.row i) : a = b := by
  refine ext_entries hrows hcols ha.first hb.first ?_
  refine ha.sorted.eq_of_mem_iff hb.sorted fun e => ?_
  rw [mem_entries, mem_entries, ← hrows]
  exact and_congr_right fun hi => h e.1 hi e.2

end IsCanonical

variable [Scalar α]

theorem isCanonical_ofDense (d : Matrix α) (tolerance : α) : (ofDense d tolerance).IsCanonical where
  first := by simp [start, ofDense]
  increasing i hi := by
    rw [row_ofDense d tolerance hi]
    exact pairwise_largeCells tolerance _

end Sparse

end Descent
