import Mathlib.Algebra.BigOperators.Group.List.Basic
import Mathlib.Data.Set.Card
import Descent.Proofs.Sparse.Entries
import Descent.Proofs.Sparse.Product

/-!
# Sparse matrices from triplets

Triplets are accepted if the three lists are equally long and every triplet lies in the matrix, with
the one across the diagonal if that is filled in (`exists_ofTriplets`), and only then
(`inRange_of_ofTriplets`). The entries are then the triplets with their mirror images, sorted and
joined (`entries_ofTriplets`). Sorting and joining leave the sum of the values at a position alone
(`sum_valuesAt_joined`) and keep the positions (`positions_joined`), so that in exact arithmetic the
dense form holds the sums, and there is one cell for each position that is hit
(`ofTriplets_assembles`).
-/

set_option autoImplicit false

namespace Descent

namespace Sparse

variable {α : Type} {nrows ncols : Nat} {rows cols : List Nat} {vals : List α} {symmetric : Bool}
  {a : Sparse α}

/-! ## Triplets that are accepted -/

def position (t : Nat × Nat × α) : Nat × Nat := (t.1, t.2.1)

/-- A triplet with its mirror image: the one across the diagonal, if the matrix is symmetric and the
triplet is off the diagonal. -/
def mirrored (symmetric : Bool) (t : Nat × Nat × α) : List (Nat × Nat × α) :=
  if symmetric = true ∧ t.1 ≠ t.2.1 then [t, (t.2.1, t.1, t.2.2)] else [t]

/-- The triplet lies in the matrix, and so does its mirror image. -/
structure InRange (nrows ncols : Nat) (symmetric : Bool) (t : Nat × Nat × α) : Prop where
  row : t.1 < nrows
  col : t.2.1 < ncols
  mirror : symmetric = true → t.1 ≠ t.2.1 → t.2.1 < nrows ∧ t.1 < ncols

theorem InRange.mem_mirrored {t e : Nat × Nat × α} (h : InRange nrows ncols symmetric t)
    (he : e ∈ mirrored symmetric t) : e.1 < nrows ∧ e.2.1 < ncols := by
  unfold mirrored at he
  split at he
  · next hm =>
      rcases List.mem_pair.mp he with rfl | rfl
      · exact ⟨h.row, h.col⟩
      · exact h.mirror hm.1 hm.2
  · obtain rfl := List.mem_singleton.mp he
    exact ⟨h.row, h.col⟩

theorem placed_cons {t : Nat × Nat × α} (h : InRange nrows ncols symmetric t)
    (ts : List (Nat × Nat × α)) : placed nrows ncols symmetric (t :: ts)
      = (placed nrows ncols symmetric ts).map (mirrored symmetric t ++ ·) := by
  obtain ⟨i, j, v⟩ := t
  have hin : ¬ (nrows ≤ i ∨ ncols ≤ j) := not_or.mpr ⟨not_le.mpr h.row, not_le.mpr h.col⟩
  rw [placed, if_neg hin, mirrored]
  by_cases hm : symmetric = true ∧ i ≠ j
  · have hmirror := h.mirror hm.1 hm.2
    have hacross : ¬ (nrows ≤ j ∨ ncols ≤ i) :=
      not_or.mpr ⟨not_le.mpr hmirror.1, not_le.mpr hmirror.2⟩
    rw [if_pos hm, if_pos hm, if_neg hacross]
    rfl
  · rw [if_neg hm, if_neg hm]
    rfl

theorem placed_cons_error {t : Nat × Nat × α} (h : ¬ InRange nrows ncols symmetric t)
    (ts : List (Nat × Nat × α)) : ∃ e, placed nrows ncols symmetric (t :: ts) = .error e := by
  obtain ⟨i, j, v⟩ := t
  rw [placed]
  by_cases hin : nrows ≤ i ∨ ncols ≤ j
  · rw [if_pos hin]
    exact ⟨_, rfl⟩
  · obtain ⟨hrow, hcol⟩ := not_or.mp hin
    have hm : symmetric = true ∧ i ≠ j := by
      by_contra hm
      exact h ⟨not_le.mp hrow, not_le.mp hcol, fun hs hne => absurd ⟨hs, hne⟩ hm⟩
    have hacross : nrows ≤ j ∨ ncols ≤ i := by
      by_contra hacross
      obtain ⟨hrow', hcol'⟩ := not_or.mp hacross
      exact h ⟨not_le.mp hrow, not_le.mp hcol, fun _ _ => ⟨not_le.mp hrow', not_le.mp hcol'⟩⟩
    rw [if_neg hin, if_pos hm, if_pos hacross]
    exact ⟨_, rfl⟩

/-- Each triplet is placed with its mirror image, if all of them lie in the matrix. -/
theorem placed_eq_ok_iff {ts placements : List (Nat × Nat × α)} :
    placed nrows ncols symmetric ts = .ok placements ↔
      (∀ t ∈ ts, InRange nrows ncols symmetric t) ∧
        placements = ts.flatMap (mirrored symmetric) := by
  induction ts generalizing placements with
  | nil => simp [placed, eq_comm]
  | cons t ts ih =>
      rw [List.forall_mem_cons, List.flatMap_cons]
      by_cases ht : InRange nrows ncols symmetric t
      · rw [placed_cons ht]
        cases hrest : placed nrows ncols symmetric ts with
        | error e =>
            have hno : ¬ ∀ t ∈ ts, InRange nrows ncols symmetric t := fun hall => by
              rw [ih.mpr ⟨hall, rfl⟩] at hrest
              cases hrest
            exact ⟨nofun, fun h => absurd h.1.2 hno⟩
        | ok rest =>
            obtain ⟨hall, rfl⟩ := ih.mp hrest
            rw [Except.map, Except.ok.injEq, eq_comm]
            exact (and_iff_right ⟨ht, hall⟩).symm
      · obtain ⟨e, he⟩ := placed_cons_error ht ts
        rw [he]
        exact ⟨nofun, fun h => absurd h.1.1 ht⟩

theorem InRange.mem_flatMap {ts : List (Nat × Nat × α)}
    (h : ∀ t ∈ ts, InRange nrows ncols symmetric t) {e : Nat × Nat × α}
    (he : e ∈ ts.flatMap (mirrored symmetric)) : e.1 < nrows ∧ e.2.1 < ncols := by
  obtain ⟨t, ht, he⟩ := List.mem_flatMap.mp he
  exact (h t ht).mem_mirrored he

/-! ## The matrix made of them -/

/-- Arrays that fit together are accepted. -/
theorem exists_ofArrays {starts columns : List Nat} {values : List α}
    (hstarts : starts.length = nrows + 1)
    (hstored : columns.length = starts.getD nrows 0 ∧ values.length = starts.getD nrows 0)
    (horder : starts.Pairwise (· ≤ ·)) (hcolumns : ∀ j ∈ columns, j < ncols) :
    ∃ a, ofArrays nrows ncols starts columns values = .ok a := by
  simp only [ofArrays, dif_pos hstarts, dif_pos hstored, dif_pos horder]
  split
  · next j hj =>
      have hlt := hcolumns j (List.mem_of_find?_eq_some hj)
      have hge := List.find?_some hj
      exact absurd (of_decide_eq_true hge) (not_le.mpr hlt)
  · exact ⟨_, rfl⟩

section Joined

variable [Scalar α]

/-- What is stored of triplets: they are sorted and joined. -/
def joined (placements : List (Nat × Nat × α)) : List (Nat × Nat × α) :=
  joinNeighbours (placements.mergeSort positionLe)

theorem pairwise_joined (placements : List (Nat × Nat × α)) :
    (joined placements).Pairwise Before :=
  pairwise_joinNeighbours (pairwise_mergeSort_positionLe placements)

theorem exists_mem_of_mem_joined {placements : List (Nat × Nat × α)} {e : Nat × Nat × α}
    (h : e ∈ joined placements) : ∃ d ∈ placements, d.1 = e.1 ∧ d.2.1 = e.2.1 := by
  obtain ⟨d, hd, hposition⟩ := exists_mem_of_mem_joinNeighbours h
  exact ⟨d, List.mem_mergeSort.mp hd, hposition⟩

/-- Triplets in the matrix fit together when they are counted row by row. -/
theorem exists_ofArrays_joined {placements : List (Nat × Nat × α)}
    (h : ∀ e ∈ placements, e.1 < nrows ∧ e.2.1 < ncols) :
    ∃ a, ofArrays nrows ncols
      ((List.range (nrows + 1)).map fun r => (joined placements).countP fun e => decide (e.1 < r))
      ((joined placements).map fun e => e.2.1) ((joined placements).map fun e => e.2.2)
        = .ok a := by
  have hin : ∀ e ∈ joined placements, e.1 < nrows ∧ e.2.1 < ncols := by
    intro e he
    obtain ⟨d, hd, hrow, hcol⟩ := exists_mem_of_mem_joined he
    exact hrow ▸ hcol ▸ h d hd
  have hall : (joined placements).countP (fun e => decide (e.1 < nrows))
      = (joined placements).length :=
    List.countP_eq_length.mpr fun e he => decide_eq_true (hin e he).1
  refine exists_ofArrays (by simp) ?_ ?_ ?_
  · simp [hall]
  · rw [List.pairwise_map]
    refine List.pairwise_lt_range.imp fun {r s} hrs => List.countP_mono_left fun e _ he => ?_
    simp only [decide_eq_true_eq] at he ⊢
    omega
  · intro j hj
    obtain ⟨e, he, rfl⟩ := List.mem_map.mp hj
    exact (hin e he).2

theorem exists_ofTriplets
    (hlengths : rows.length = cols.length ∧ rows.length = vals.length)
    (h : ∀ t ∈ rows.zip (cols.zip vals), InRange nrows ncols symmetric t) :
    ∃ a, ofTriplets nrows ncols rows cols vals symmetric = .ok a := by
  have hplaced : placed nrows ncols symmetric (rows.zip (cols.zip vals)) = .ok _ :=
    placed_eq_ok_iff.mpr ⟨h, rfl⟩
  obtain ⟨a, ha⟩ := exists_ofArrays_joined fun e he => InRange.mem_flatMap h he
  refine ⟨a, ?_⟩
  rw [ofTriplets, if_neg (by omega), hplaced]
  exact ha

/-- Triplets that are accepted are as many rows, columns and values, all within the matrix. -/
theorem inRange_of_ofTriplets (h : ofTriplets nrows ncols rows cols vals symmetric = .ok a) :
    (rows.length = cols.length ∧ rows.length = vals.length) ∧
      ∀ t ∈ rows.zip (cols.zip vals), InRange nrows ncols symmetric t := by
  unfold ofTriplets at h
  split at h
  · cases h
  next hlengths =>
    obtain ⟨placements, hplaced, -⟩ := exists_of_bind_ok h
    exact ⟨by omega, (placed_eq_ok_iff.mp hplaced).1⟩

theorem size_ofTriplets (h : ofTriplets nrows ncols rows cols vals symmetric = .ok a) :
    a.nrows = nrows ∧ a.ncols = ncols ∧ a.start 0 = 0 := by
  unfold ofTriplets at h
  split at h
  · cases h
  obtain ⟨placements, -, h⟩ := exists_of_bind_ok h
  obtain ⟨hrows, hcols, hstarts, -⟩ := eq_of_ofArrays h
  exact ⟨hrows, hcols, by simp [start, hstarts]⟩

/-- The cells of a row are the stored triplets of that row. -/
theorem mem_row_ofTriplets (h : ofTriplets nrows ncols rows cols vals symmetric = .ok a) {i : Nat}
    (hi : i < a.nrows) {c : Nat × α} : c ∈ a.row i ↔
      (i, c) ∈ joined ((rows.zip (cols.zip vals)).flatMap (mirrored symmetric)) := by
  obtain ⟨placements, hplaced, hrow⟩ := row_ofTriplets h
  obtain ⟨-, rfl⟩ := placed_eq_ok_iff.mp hplaced
  rw [hrow i hi, List.mem_map, joined]
  constructor
  · rintro ⟨e, he, rfl⟩
    obtain ⟨hmem, hkey⟩ := List.mem_filter.mp he
    exact of_decide_eq_true hkey ▸ hmem
  · intro hmem
    exact ⟨(i, c), List.mem_filter.mpr ⟨hmem, decide_eq_true rfl⟩, rfl⟩

theorem isCanonical_ofTriplets (h : ofTriplets nrows ncols rows cols vals symmetric = .ok a) :
    a.IsCanonical where
  first := (size_ofTriplets h).2.2
  increasing := increasing_ofTriplets h

/-- The entries are the triplets with their mirror images, sorted and joined. -/
theorem entries_ofTriplets (h : ofTriplets nrows ncols rows cols vals symmetric = .ok a) :
    a.entries = joined ((rows.zip (cols.zip vals)).flatMap (mirrored symmetric)) := by
  refine (isCanonical_ofTriplets h).sorted.eq_of_mem_iff (pairwise_joined _) fun e => ?_
  rw [mem_entries]
  constructor
  · rintro ⟨hi, hc⟩
    exact (mem_row_ofTriplets h hi).mp hc
  · intro he
    obtain ⟨d, hd, hrow, -⟩ := exists_mem_of_mem_joined he
    have hin := InRange.mem_flatMap (inRange_of_ofTriplets h).2 hd
    have hi : e.1 < a.nrows := (size_ofTriplets h).1 ▸ hrow ▸ hin.1
    exact ⟨hi, (mem_row_ofTriplets h hi).mpr he⟩

/-! ## Positions -/

/-- Joining keeps the positions. -/
theorem positions_joinNeighbours (l : List (Nat × Nat × α)) :
    ((joinNeighbours l).map position).toFinset = (l.map position).toFinset := by
  fun_induction joinNeighbours l with
  | case1 i j v i' j' v' rest hij ih =>
      obtain ⟨rfl, rfl⟩ := hij
      rw [ih]
      simp [position]
  | case2 i j v i' j' v' rest hij ih =>
      rw [List.map_cons, List.toFinset_cons, ih, ← List.toFinset_cons, ← List.map_cons]
  | case3 l _ => rfl

theorem positions_joined (placements : List (Nat × Nat × α)) :
    ((joined placements).map position).toFinset = (placements.map position).toFinset := by
  rw [joined, positions_joinNeighbours]
  exact List.toFinset_eq_of_perm _ _ ((List.mergeSort_perm placements positionLe).map position)

/-- There is one stored triplet for each position. -/
theorem length_joined (placements : List (Nat × Nat × α)) :
    (joined placements).length = (placements.map position).toFinset.card := by
  have hnodup : ((joined placements).map position).Nodup := by
    rw [List.Nodup, List.pairwise_map]
    refine (pairwise_joined placements).imp fun {d e} hbefore hsame => ?_
    obtain ⟨hrow, hcol⟩ := Prod.mk.inj hsame
    simp only [Before] at hbefore
    omega
  rw [← positions_joined, List.toFinset_card_of_nodup hnodup, List.length_map]

end Joined

/-- A position is hit by the triplets there, and in a symmetric matrix by those across the
diagonal. -/
def IsHit (symmetric : Bool) (ts : List (Nat × Nat × α)) (p : Nat × Nat) : Prop :=
  ∃ t ∈ ts, position t = p ∨ symmetric = true ∧ position t = p.swap

theorem position_mem_mirrored {t : Nat × Nat × α} {p : Nat × Nat} :
    p ∈ (mirrored symmetric t).map position ↔
      position t = p ∨ symmetric = true ∧ position t = p.swap := by
  obtain ⟨i, j, v⟩ := t
  obtain ⟨k, l⟩ := p
  unfold mirrored
  split
  · next hm => simp [position, hm.1, eq_comm, and_comm]
  · next hm =>
      simp only [position, List.map_cons, List.map_nil, List.mem_singleton, Prod.mk.injEq,
        Prod.swap_prod_mk]
      constructor
      · rintro ⟨rfl, rfl⟩
        exact .inl ⟨rfl, rfl⟩
      · rintro (⟨rfl, rfl⟩ | ⟨hs, rfl, rfl⟩)
        · exact ⟨rfl, rfl⟩
        · -- on the diagonal the triplet is its own mirror image
          obtain rfl : i = j := by_contra fun hne => hm ⟨hs, hne⟩
          exact ⟨rfl, rfl⟩

theorem coe_positions_flatMap (ts : List (Nat × Nat × α)) :
    (((ts.flatMap (mirrored symmetric)).map position).toFinset : Set (Nat × Nat))
      = {p | IsHit symmetric ts p} := by
  ext p
  simp only [List.coe_toFinset, List.map_flatMap, List.mem_flatMap, position_mem_mirrored,
    Set.mem_ofPred_eq, IsHit]

/-! ## Sums -/

def share (t : Nat × Nat × ℝ) (i j : Nat) : ℝ := if t.1 = i ∧ t.2.1 = j then t.2.2 else 0

theorem sum_valuesAt_cons (t : Nat × Nat × ℝ) (l : List (Nat × Nat × ℝ)) (i j : Nat) :
    (valuesAt (t :: l) i j).sum = share t i j + (valuesAt l i j).sum := by
  by_cases ht : t.1 = i ∧ t.2.1 = j
  · rw [valuesAt, List.filter_cons_of_pos (by simpa using ht), List.map_cons, List.sum_cons, share,
      if_pos ht, valuesAt]
  · rw [valuesAt, List.filter_cons_of_neg (by simpa using ht), share, if_neg ht, zero_add, valuesAt]

section Sums

variable [RealConstants]

/-- Joining leaves the sum at each position alone. -/
theorem sum_valuesAt_joinNeighbours (l : List (Nat × Nat × ℝ)) (i j : Nat) :
    (valuesAt (joinNeighbours l) i j).sum = (valuesAt l i j).sum := by
  fun_induction joinNeighbours l with
  | case1 i₁ j₁ v i' j' v' rest hij ih =>
      obtain ⟨rfl, rfl⟩ := hij
      have hshare : share (i₁, j₁, v + v') i j
          = share (i₁, j₁, v) i j + share (i₁, j₁, v') i j := by
        unfold share
        split
        · rfl
        · exact (add_zero 0).symm
      rw [ih, sum_valuesAt_cons, sum_valuesAt_cons, sum_valuesAt_cons, hshare, add_assoc]
  | case2 i₁ j₁ v i' j' v' rest hij ih =>
      rw [sum_valuesAt_cons, ih, ← sum_valuesAt_cons]
  | case3 l _ => rfl

theorem sum_valuesAt_joined (placements : List (Nat × Nat × ℝ)) (i j : Nat) :
    (valuesAt (joined placements) i j).sum = (valuesAt placements i j).sum := by
  rw [joined, sum_valuesAt_joinNeighbours]
  exact (((List.mergeSort_perm placements positionLe).filter _).map _).sum_eq

end Sums

/-- A mirror image adds across the diagonal what the triplet adds at its position. -/
theorem sum_valuesAt_mirrored_append (t : Nat × Nat × ℝ) (l : List (Nat × Nat × ℝ)) (i j : Nat) :
    (valuesAt (mirrored symmetric t ++ l) i j).sum
      = share t i j + (if symmetric = true ∧ i ≠ j then share t j i else 0)
        + (valuesAt l i j).sum := by
  unfold mirrored
  split
  · next hm =>
      have himage : share (t.2.1, t.1, t.2.2) i j
          = if symmetric = true ∧ i ≠ j then share t j i else 0 := by
        unfold share
        grind
      rw [List.cons_append, List.singleton_append, sum_valuesAt_cons, sum_valuesAt_cons, himage,
        add_assoc]
  · next hm =>
      have himage : (if symmetric = true ∧ i ≠ j then share t j i else 0) = 0 := by
        unfold share
        grind
      rw [List.singleton_append, sum_valuesAt_cons, himage, add_zero]

/-- With their mirror images the triplets add up at a position to the values given there and, if
the matrix is symmetric and the position off the diagonal, across it. -/
theorem sum_valuesAt_flatMap_mirrored (ts : List (Nat × Nat × ℝ)) (i j : Nat) :
    (valuesAt (ts.flatMap (mirrored symmetric)) i j).sum
      = (valuesAt ts i j).sum
        + if symmetric = true ∧ i ≠ j then (valuesAt ts j i).sum else 0 := by
  induction ts with
  | nil => simp [valuesAt]
  | cons t ts ih =>
      rw [List.flatMap_cons, sum_valuesAt_mirrored_append, ih, sum_valuesAt_cons,
        sum_valuesAt_cons]
      split
      · ring
      · ring

/-! ## The dense form -/

/-- **Triplets are assembled.** They are accepted exactly if there are as many rows, columns and
values, and all of them lie in the matrix. The dense form then holds at each position the sum of the
values given there, and if the matrix is symmetric of those given across the diagonal. The columns
increase in each row, and there is one cell for each position that is hit. -/
theorem ofTriplets_assembles [RealConstants] (nrows ncols : Nat) (rows cols : List Nat)
    (vals : List ℝ) (symmetric : Bool) :
    let ts := rows.zip (cols.zip vals)
    ((∃ a, ofTriplets nrows ncols rows cols vals symmetric = .ok a) ↔
      (rows.length = cols.length ∧ rows.length = vals.length) ∧
        ∀ t ∈ ts, InRange nrows ncols symmetric t) ∧
    ∀ a, ofTriplets nrows ncols rows cols vals symmetric = .ok a →
      (a.toDense = Matrix.ofFn nrows ncols fun i j => (valuesAt ts i j).sum
        + if symmetric = true ∧ i ≠ j then (valuesAt ts j i).sum else 0) ∧
      (∀ i < nrows, (a.row i).Pairwise fun c d => c.1 < d.1) ∧
      a.nnz = {p | IsHit symmetric ts p}.ncard := by
  intro ts
  refine ⟨⟨fun ⟨a, h⟩ => inRange_of_ofTriplets h, fun h => exists_ofTriplets h.1 h.2⟩, ?_⟩
  intro a h
  have canonical := isCanonical_ofTriplets h
  have hentries := entries_ofTriplets h
  obtain ⟨rfl, rfl, -⟩ := size_ofTriplets h
  refine ⟨?_, canonical.increasing, ?_⟩
  · have hentry : ∀ i < a.nrows, ∀ j, (a.stored i j).getLast?.getD 0 = (valuesAt ts i j).sum
        + if symmetric = true ∧ i ≠ j then (valuesAt ts j i).sum else 0 := by
      intro i hi j
      have honce : (a.stored i j).length ≤ 1 := canonical.storesOnce.length_stored_le hi j
      rw [← sum_eq_last_of_length_le honce, ← valuesAt_entries hi, hentries, sum_valuesAt_joined,
        sum_valuesAt_flatMap_mirrored]
    rw [toDense_eq]
    exact Matrix.ofFn_congr fun i hi j _ => hentry i hi j
  · rw [← coe_positions_flatMap, Set.ncard_coe_finset, ← length_joined, ← hentries,
      ← List.length_map Prod.snd, canonical.map_snd, nnz]

section Lower

attribute [local instance] RealConstants.double

/-- The lower triangle of a symmetric matrix, with a diagonal entry in two parts. -/
theorem ofTriplets_assembles_lower :
    ∃ a, ofTriplets 2 2 [0, 1, 1, 0] [0, 0, 1, 0] [(3 : ℝ), 1, 3, 1] true = .ok a ∧
      a.toDense.rows = [[4, 1], [1, 3]] ∧ a.nnz = 4 := by
  obtain ⟨haccepted, hmade⟩ :=
    ofTriplets_assembles 2 2 [0, 1, 1, 0] [0, 0, 1, 0] [(3 : ℝ), 1, 3, 1] true
  obtain ⟨a, ha⟩ := haccepted.mpr ⟨⟨rfl, rfl⟩, by
    rintro t ht
    simp only [List.zip_cons_cons, List.zip_nil_right, List.mem_cons, List.not_mem_nil,
      or_false] at ht
    rcases ht with rfl | rfl | rfl | rfl
    all_goals exact ⟨by decide, by decide, by decide⟩⟩
  obtain ⟨hdense, -, hnnz⟩ := hmade a ha
  refine ⟨a, ha, ?_, ?_⟩
  · rw [hdense]
    norm_num [Matrix.ofFn, List.range_succ, valuesAt]
  · rw [hnnz, ← coe_positions_flatMap, Set.ncard_coe_finset]
    rfl

end Lower

end Sparse

end Descent
