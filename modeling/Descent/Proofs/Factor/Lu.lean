import Mathlib.Analysis.InnerProductSpace.PiL2
import Descent.Proofs.Safe.Sizes
import Descent.Proofs.Sparse.Product

/-!
# LU factorization is exact

In exact arithmetic the solution by an LU factorization solves the system, whatever rows have been
exchanged (`Lu.times_solve`). The proof goes column by column (`Lu.solves_from`). At column `i` the
entries of a row before `i` are factors and meet the solution `y` of the lower system, those from
`i` on meet the solution `x` of the upper one. Elimination of a column leaves the sum of both as it
was, so that it is the right-hand side in every row of the matrix.
-/

set_option autoImplicit false

namespace Descent

variable [RealConstants]

/-! ## Rows times vectors -/

namespace Matrix

theorem rowTimes_append {l y : Vec ℝ} (h : l.length = y.length) (t x : Vec ℝ) :
    rowTimes (l ++ t) (y ++ x) = rowTimes l y + rowTimes t x := by
  rw [rowTimes_eq_sum, rowTimes_eq_sum, rowTimes_eq_sum, List.zipWith_append h, List.sum_append]

theorem rowTimes_cons (a b : ℝ) (t x : Vec ℝ) :
    rowTimes (a :: t) (b :: x) = a * b + rowTimes t x := by
  rw [rowTimes_eq_sum, rowTimes_eq_sum, List.zipWith_cons_cons, List.sum_cons]

/-- What a row reaches beyond a vector does not count. -/
theorem rowTimes_prefix {l y : Vec ℝ} (h : l.length = y.length) (t : Vec ℝ) :
    rowTimes (l ++ t) y = rowTimes l y := by
  have hsum := rowTimes_append h t []
  rwa [List.append_nil, show rowTimes t [] = 0 by cases t <;> rfl, add_zero] at hsum

theorem rowTimes_reverse {t x : Vec ℝ} (h : t.length = x.length) :
    rowTimes t.reverse x.reverse = rowTimes t x := by
  rw [rowTimes_eq_sum, rowTimes_eq_sum, ← List.reverse_zipWith h, List.sum_reverse]

/-- A multiple of one row taken out of another. -/
theorem rowTimes_zipWith_sub (m : ℝ) {u t : Vec ℝ} (h : u.length = t.length) (x : Vec ℝ) :
    rowTimes (List.zipWith (fun u a => -u * m + a) u t) x = rowTimes t x - m * rowTimes u x := by
  rw [rowTimes_eq_sum, rowTimes_eq_sum, rowTimes_eq_sum]
  induction u generalizing t x with
  | nil =>
      rw [List.length_eq_zero_iff.mp h.symm]
      simp
  | cons c u ih =>
      match t, h with
      | a :: t, h =>
          cases x with
          | nil => simp
          | cons b x =>
              have hrest := ih (t := t) (by simpa using h) x
              simp only [List.zipWith_cons_cons, List.sum_cons, hrest]
              ring

end Matrix

open Descent.Matrix

/-- Elimination takes out the row times the unknowns. -/
theorem Vec.eliminate_eq (u v : Vec ℝ) (a : ℝ) : eliminate u v a = a - rowTimes v u := by
  have hfold : ∀ (l : List (ℝ × ℝ)) (init : ℝ),
      l.foldl (fun rest t => -t.1 * t.2 + rest) init = init - (l.map fun t => t.2 * t.1).sum := by
    intro l
    induction l with
    | nil => simp
    | cons t l ih =>
        intro init
        rw [List.foldl_cons, ih, List.map_cons, List.sum_cons]
        ring
  rw [eliminate, hfold, rowTimes_eq_sum, List.zip, List.map_zipWith, List.zipWith_comm]

namespace Lu

/-! ## Pivots -/

/-- The pivot is where the search begins, or a row with a greater entry. -/
theorem pivotFrom_cases (i : Nat) (best : ℝ) (at₀ k : Nat) (rows : List (Nat × Vec ℝ)) :
    pivotFrom i best at₀ k rows = at₀ ∨
      ∃ j, pivotFrom i best at₀ k rows = k + j ∧
        ∃ row, rows[j]? = some row ∧ best < |row.2.getD i 0| := by
  induction rows generalizing best at₀ k with
  | nil => exact .inl rfl
  | cons row rows ih =>
      rw [pivotFrom]
      split
      · next hgreater =>
          refine .inr ?_
          rcases ih _ k (k + 1) with h | ⟨j, h, other, hj, hbest⟩
          · exact ⟨0, h, row, rfl, hgreater⟩
          · exact ⟨j + 1, by rw [h]; omega, other, hj, lt_trans hgreater hbest⟩
      · rcases ih best at₀ (k + 1) with h | ⟨j, h, other, hj, hbest⟩
        · exact .inl h
        · exact .inr ⟨j + 1, by rw [h]; omega, other, hj, hbest⟩

/-- The pivot is not zero if the entry on the diagonal is not. -/
theorem pivot_ne {i : Nat} {first : Nat × Vec ℝ} (rows : List (Nat × Vec ℝ))
    (h : first.2.getD i 0 ≠ 0) :
    (exchange (pivotFrom i (Scalar.abs (first.2.getD i 0)) 0 1 rows) first rows).1.2.getD i 0
      ≠ 0 := by
  rcases pivotFrom_cases i (Scalar.abs (first.2.getD i 0)) 0 1 rows with
    hp | ⟨j, hp, row, hj, hbest⟩
  · rw [hp]
    exact h
  · rw [hp, Nat.add_comm, exchange, show rows.getD j first = row by simp [hj]]
    exact abs_pos.mp (lt_of_le_of_lt (abs_nonneg _) hbest)

omit [RealConstants] in
/-- An exchange of rows loses none. -/
theorem exchange_perm (p : Nat) (first : Nat × Vec ℝ) (rows : List (Nat × Vec ℝ)) :
    ((exchange p first rows).1 :: (exchange p first rows).2).Perm (first :: rows) := by
  match p with
  | 0 => exact .refl _
  | p + 1 =>
      show (rows.getD p first :: rows.set p first).Perm (first :: rows)
      rcases lt_or_ge p rows.length with hp | hp
      · have hset := (List.set_perm_cons_eraseIdx hp first).cons rows[p]
        have hback := (List.getElem_cons_eraseIdx_perm hp).cons first
        rw [show rows.getD p first = rows[p] by simp [hp]]
        exact hset.trans ((List.Perm.swap first rows[p] _).trans hback)
      · rw [show rows.getD p first = first by simp [hp], List.set_eq_of_length_le hp]

/-! ## One column

A row is what stands before the column, the entry in it and what stands after it. -/

section Column

variable {i m : Nat} {l l' t t' x y : Vec ℝ} {c c' e b : ℝ}

omit [RealConstants] in
theorem exists_split {row : Vec ℝ} (h : row.length = i + (m + 1)) :
    ∃ l c t, row = l ++ c :: t ∧ l.length = i ∧ t.length = m := by
  refine ⟨row.take i, row[i], row.drop (i + 1), ?_, by simp; omega, by simp; omega⟩
  rw [← List.drop_eq_getElem_cons, List.take_append_drop]

omit [RealConstants] in
theorem getD_split (h : l.length = i) : (l ++ c :: t).getD i 0 = c := by
  subst h
  simp

omit [RealConstants] in
theorem drop_split (h : l.length = i) : (l ++ c :: t).drop (i + 1) = t := by
  subst h
  simp

theorem reduce_split (hl : l.length = i) (hl' : l'.length = i) (inv : ℝ) :
    reduce i inv (l ++ c :: t) (l' ++ c' :: t')
      = l' ++ c' * inv :: List.zipWith (fun u a => -u * (c' * inv) + a) t t' := by
  have htake : (l' ++ c' :: t').take i = l' := by rw [← hl', List.take_left]
  rw [reduce, getD_split hl', htake, drop_split hl, drop_split hl']

theorem length_reduce {v w : Vec ℝ} (hv : v.length = i + (m + 1)) (hw : w.length = i + (m + 1))
    (inv : ℝ) : (reduce i inv v w).length = i + 1 + m := by
  obtain ⟨l, c, t, rfl, hl, ht⟩ := exists_split hv
  obtain ⟨l', c', t', rfl, hl', ht'⟩ := exists_split hw
  rw [reduce_split hl hl']
  simp only [List.length_append, List.length_cons, List.length_zipWith, ht, ht', hl']
  omega

/-- The solution of the lower system goes on with what the factors leave of the right-hand side. -/
theorem forward_split (h : l.length = y.length) (s : Nat) (rows : List (Nat × Vec ℝ)) (bs : Vec ℝ) :
    forward ((s, l ++ c :: t) :: rows) (b :: bs) y = forward rows bs (y ++ [b - rowTimes l y]) := by
  rw [forward, Vec.eliminate_eq, rowTimes_prefix h]

/-- The solution of the upper system begins with the quotient by the pivot. -/
theorem backward_split (hl : l.length = i) (s : Nat) (rows : List (Nat × Vec ℝ)) (ys : Vec ℝ)
    (ht : t.length = (backward (i + 1) rows ys).length) :
    backward i ((s, l ++ c :: t) :: rows) (e :: ys)
      = (e - rowTimes t (backward (i + 1) rows ys)) / c :: backward (i + 1) rows ys := by
  rw [backward, getD_split hl, drop_split hl, Vec.eliminate_eq, rowTimes_reverse ht]

/-- The pivot row meets its right-hand side. -/
theorem pivotRow_times (hc : c ≠ 0) (h : l.length = y.length) (he : e = b - rowTimes l y) :
    rowTimes (l ++ c :: t) (y ++ (e - rowTimes t x) / c :: x) = b := by
  rw [rowTimes_append h, rowTimes_cons, mul_div_cancel₀ _ hc, he]
  ring

/-- A row comes to the same before and after its reduction. -/
theorem row_times (hc : c ≠ 0) (hl : l.length = i) (hl' : l'.length = i) (hy : y.length = i)
    (ht : t.length = t'.length) :
    rowTimes (l' ++ c' :: t') (y ++ (e - rowTimes t x) / c :: x)
      = rowTimes (reduce i (1 / c) (l ++ c :: t) (l' ++ c' :: t')) (y ++ e :: x) := by
  rw [reduce_split hl hl', rowTimes_append (hl'.trans hy.symm), rowTimes_append (hl'.trans hy.symm),
    rowTimes_cons, rowTimes_cons, rowTimes_zipWith_sub _ ht]
  field_simp
  ring

end Column

/-! ## All columns -/

/-- No zero on the diagonal, from row `i` on. -/
def Pivots (i : Nat) (rows : List (Nat × Vec ℝ)) : Prop :=
  ∀ r ∈ rows.zipIdx i, r.1.2.getD r.2 0 ≠ 0

omit [RealConstants] in
theorem pivots_cons {i : Nat} {row : Nat × Vec ℝ} {rows : List (Nat × Vec ℝ)} :
    Pivots i (row :: rows) ↔ row.2.getD i 0 ≠ 0 ∧ Pivots (i + 1) rows := by
  rw [Pivots, List.zipIdx_cons, List.forall_mem_cons]
  rfl

/-- What the elimination of a column does, if no pivot is zero: a row with the pivot `c` comes
first, and the others are reduced by it. -/
theorem eliminateFrom_succ {i m : Nat} {first : Nat × Vec ℝ} {rest : List (Nat × Vec ℝ)}
    (hwidth : ∀ r ∈ first :: rest, r.2.length = i + (m + 1))
    (hpivots : Pivots i (eliminateFrom i (m + 1) (first :: rest))) :
    ∃ s l c t below, l.length = i ∧ c ≠ 0 ∧ t.length = m ∧
      ((s, l ++ c :: t) :: below).Perm (first :: rest) ∧
      eliminateFrom i (m + 1) (first :: rest) = (s, l ++ c :: t) ::
        eliminateFrom (i + 1) m (below.map fun r => (r.1, reduce i (1 / c) (l ++ c :: t) r.2)) := by
  have hperm := exchange_perm (pivotFrom i (Scalar.abs (first.2.getD i 0)) 0 1 rest) first rest
  have hne : first.2.getD i 0 ≠ 0 → _ := pivot_ne rest
  rw [eliminateFrom] at hpivots ⊢
  dsimp only at hpivots ⊢
  generalize exchange (pivotFrom i (Scalar.abs (first.2.getD i 0)) 0 1 rest) first rest = out
    at hpivots hperm hne ⊢
  obtain ⟨⟨s, pivotRow⟩, below⟩ := out
  dsimp only at hpivots hperm hne ⊢
  split at hpivots
  -- with a zero for a pivot the first row would stay where it is, a zero on the diagonal
  · next hzero => exact absurd (by simpa using hzero) (hne (pivots_cons.mp hpivots).1)
  · next hpivot =>
      obtain ⟨l, c, t, rfl, hl, ht⟩ := exists_split (hwidth _ (hperm.subset List.mem_cons_self))
      rw [if_neg hpivot]
      rw [getD_split hl] at hpivot ⊢
      exact ⟨s, l, c, t, below, hl, by simpa using hpivot, ht, hperm, rfl⟩

/-- With the solution of the lower system before column `i` and that of the upper one from there on,
each row that is left meets its right-hand side. -/
theorem solves_from (rhs : Nat → ℝ) (m i : Nat) (rows : List (Nat × Vec ℝ)) (hm : rows.length = m)
    (hwidth : ∀ r ∈ rows, r.2.length = i + m) (hpivots : Pivots i (eliminateFrom i m rows))
    (y : Vec ℝ) (hy : y.length = i) :
    let f := eliminateFrom i m rows
    ∃ y', forward f (f.map fun r => rhs r.1) y = y ++ y' ∧ (backward i f y').length = m ∧
      ∀ r ∈ rows, rowTimes r.2 (y ++ backward i f y') = rhs r.1 := by
  induction m generalizing i rows y with
  | zero =>
      rw [List.length_eq_zero_iff.mp hm]
      exact ⟨[], by simp [eliminateFrom, forward], rfl, by simp⟩
  | succ m ih =>
      obtain ⟨first, rest, rfl⟩ := List.exists_cons_of_length_eq_add_one hm
      obtain ⟨s, l, c, t, below, hl, hc, ht, hperm, heliminate⟩ :=
        eliminateFrom_succ hwidth hpivots
      rw [heliminate] at hpivots ⊢
      have hall : ∀ r ∈ (s, l ++ c :: t) :: below, r.2.length = i + (m + 1) := fun r hr =>
        hwidth r (hperm.subset hr)
      obtain ⟨hrow, hbelow⟩ := List.forall_mem_cons.mp hall
      have hcount : below.length = m := by simpa [hm] using hperm.length_eq
      obtain ⟨y', hforward, hlength, hsolves⟩ :=
        ih (i + 1) (below.map fun r => (r.1, reduce i (1 / c) (l ++ c :: t) r.2))
          (by simpa using hcount)
          (List.forall_mem_map.mpr fun r hr => length_reduce hrow (hbelow r hr) _)
          (pivots_cons.mp hpivots).2 (y ++ [rhs s - rowTimes l y]) (by simp [hy])
      refine ⟨(rhs s - rowTimes l y) :: y', ?_, ?_, fun r hr => ?_⟩
      · rw [List.map_cons, forward_split (hl.trans hy.symm), hforward, List.append_assoc]
        rfl
      · rw [backward_split hl _ _ _ (ht.trans hlength.symm), List.length_cons, hlength]
      · rw [backward_split hl _ _ _ (ht.trans hlength.symm)]
        rcases List.mem_cons.mp (hperm.symm.subset hr) with rfl | hr
        · exact pivotRow_times hc (hl.trans hy.symm) rfl
        · obtain ⟨l', c', t', hsplit, hl', ht'⟩ := exists_split (hbelow r hr)
          have hreduced := List.forall_mem_map.mp hsolves r hr
          rw [hsplit, List.append_assoc] at hreduced
          rw [hsplit, row_times hc hl hl' hy (ht.trans ht'.symm)]
          exact hreduced

/-- **The solution by the factors solves the system.** -/
theorem times_solve {a : Matrix ℝ} (hsquare : a.ncols = a.nrows)
    (hinvertible : (factor a).isInvertible = true) {b : Vec ℝ} (hb : b.length = a.nrows) :
    a.times ((factor a).solve b) = .ok b := by
  have hpivots : Pivots 0 (factor a).rows := by
    intro r hr
    simpa using List.all_eq_true.mp hinvertible r hr
  have hwidth : ∀ r ∈ a.rows.zipIdx.map fun row : Vec ℝ × Nat => (row.2, row.1),
      r.2.length = 0 + a.nrows := by
    refine List.forall_mem_map.mpr fun row hrow => ?_
    rw [Nat.zero_add, ← hsquare]
    exact a.width _ (List.fst_mem_of_mem_zipIdx hrow)
  obtain ⟨y, hforward, hlength, hsolves⟩ :
      ∃ y, forward (factor a).rows ((factor a).permute b) [] = y ∧
        (backward 0 (factor a).rows y).length = a.nrows ∧
        ∀ r ∈ a.rows.zipIdx.map fun row : Vec ℝ × Nat => (row.2, row.1),
          rowTimes r.2 (backward 0 (factor a).rows y) = b.getD r.1 0 :=
    solves_from (fun k => b.getD k 0) a.nrows 0 _ (by simp [Matrix.nrows]) hwidth hpivots [] rfl
  rw [solve, hforward, times, if_pos (hsquare.trans hlength.symm), Except.ok.injEq]
  refine List.ext_getElem (by simpa [Matrix.nrows] using hb.symm) fun k hk hk' => ?_
  have hin : k < a.rows.length := by simpa using hk
  have hrow := List.forall_mem_map.mp hsolves (a.rows[k], k)
    (List.mem_zipIdx_iff_getElem?.mpr (by simp))
  simpa [hk'] using hrow

end Lu

namespace LinearSolver

/-- Whatever is found for the matrix as a solution, it is one. -/
def Exact (solver : LinearSolver ℝ) (a : Matrix ℝ) : Prop :=
  ∀ b x, solver.solveOnce a b = pure x → a.times x = .ok b

omit [RealConstants] in
/-- What is solved has been factorized. -/
theorem of_solveOnce {α : Type} {solver : LinearSolver α} {a : Matrix α} {b x : Vec α}
    (h : solver.solveOnce a b = pure x) :
    a.isSquare = true ∧ ∃ f, solver.factor a = .ok f ∧ solver.solveWith f b = pure x := by
  by_cases ha : a.isSquare = true
  · have hsquare : checkSquare a = .ok () := if_pos ha
    rw [solveOnce, hsquare] at h
    cases hf : solver.factor a with
    | error e =>
        rw [hf] at h
        cases h
    | ok f =>
        rw [hf] at h
        exact ⟨ha, f, rfl, h⟩
  · have hsquare : checkSquare a = .error _ := if_neg ha
    rw [solveOnce, hsquare] at h
    cases h

/-- LU factorization finds exact solutions only. -/
theorem exact_lu (a : Matrix ℝ) : lu.Exact a := by
  intro b x h
  obtain ⟨ha, f, hf, hx⟩ := of_solveOnce h
  have hsquare : a.ncols = a.nrows := (beq_iff_eq.mp ha).symm
  unfold lu at hf hx
  dsimp only at hf hx
  split at hf
  · next hinvertible =>
      cases hf
      split at hx
      · next hb =>
          cases hx
          exact Lu.times_solve hsquare hinvertible (hb.trans (Lu.length_factor a))
      · cases hx
  · cases hf

omit [RealConstants] in
/-- A system with an invertible matrix is solved. -/
theorem solveOnce_lu {α : Type} [Scalar α] {a : Matrix α} (ha : a.isSquare = true)
    (hinvertible : (Lu.factor a).isInvertible = true) {b : Vec α} (hb : b.length = a.nrows) :
    lu.solveOnce a b = pure ((Lu.factor a).solve b) := by
  have hfactor : lu.factor a = .ok (Lu.factor a) := if_pos hinvertible
  rw [solveOnce, show checkSquare a = .ok () from if_pos ha, hfactor]
  exact if_pos (hb.trans (Lu.length_factor a).symm)

end LinearSolver

end Descent
