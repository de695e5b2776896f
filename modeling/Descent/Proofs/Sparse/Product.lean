import Descent.Operator
import Descent.Proofs.Euclid
import Descent.Proofs.Sparse.Rows

/-!
# Products with a sparse matrix and with its dense form

In exact arithmetic a product with a sparse matrix weighs each coordinate with the sum of the values
that are stored in its column (`times_coords`), and a product with the dense form weighs it with the
last of them (`toDense_times_coords`). The two agree on all vectors exactly if at every position
the values add up to the last one (`times_eq_toDense_times`). That is so if nothing is stored twice,
as in every matrix made of triplets or of a dense matrix. Compressed arrays are accepted without it
(`times_ne_toDense_times`).
-/

set_option autoImplicit false

namespace Descent

section Agreement

variable [RealConstants]

/-! ## Weighted sums -/

/-- A row times a vector, as a sum of products. -/
theorem Matrix.rowTimes_eq_sum (row x : Vec ℝ) :
    Matrix.rowTimes row x = (List.zipWith (fun a b => a * b) row x).sum := by
  have hfold : ∀ (l : List (ℝ × ℝ)) (init : ℝ),
      l.foldl (fun s p => p.1 * p.2 + s) init = init + (l.map fun p => p.1 * p.2).sum := by
    intro l
    induction l with
    | nil => simp
    | cons p l ih =>
        intro init
        rw [List.foldl_cons, ih, List.map_cons, List.sum_cons]
        ring
  match row, x with
  | [], _ => rfl
  | _ :: _, [] => rfl
  | a :: as, x :: xs =>
      rw [rowTimes, hfold, List.zipWith_cons_cons, List.sum_cons, List.map_zipWith]

/-- The row `w` of a matrix times a point. -/
theorem Matrix.rowTimes_coords {n : Nat} (w : Nat → ℝ) (x : Point n) :
    Matrix.rowTimes ((List.range n).map w) (coords x) = ∑ j : Fin n, w j * x j := by
  have hrow : (List.range n).map w = coords (pointOf fun j : Fin n => w j) := by
    rw [coords_pointOf, List.ofFn_eq_map, ← List.map_coe_finRange_eq_range, List.map_map]
    rfl
  rw [hrow, rowTimes_eq_sum, zipWith_coords, List.sum_ofFn]
  rfl

/-- The matrix with the entries `w i j` times a point. -/
theorem Matrix.ofFn_times_coords {n : Nat} (nrows : Nat) (w : Nat → Nat → ℝ) (x : Point n) :
    (Matrix.ofFn nrows n w).times (coords x)
      = .ok ((List.range nrows).map fun i => ∑ j : Fin n, w i j * x j) := by
  have hwidth : (Matrix.ofFn nrows n w).ncols = (coords x).length := (length_coords x).symm
  rw [Matrix.times, if_pos hwidth, Matrix.ofFn, List.map_map]
  simp only [Function.comp_def, Matrix.rowTimes_coords]

namespace Sparse

/-- The cells of a row times a vector, as a sum of products. -/
theorem rowTimes_eq_sum (cells : List (Nat × ℝ)) (x : Vec ℝ) :
    rowTimes cells x = (cells.map fun c => c.2 * x.getD c.1 0).sum := by
  have hfold := Vec.foldl_add (cells.map fun c => c.2 * x.getD c.1 0) 0
  rw [List.foldl_map, zero_add] at hfold
  exact hfold

/-- The cells of a row times a point: each coordinate is weighed with all values in its column. -/
theorem rowTimes_coords {n : Nat} {cells : List (Nat × ℝ)} (h : ∀ c ∈ cells, c.1 < n)
    (x : Point n) :
    rowTimes cells (coords x)
      = ∑ j : Fin n, ((cells.filter fun c => c.1 == j.val).map Prod.snd).sum * x j := by
  rw [rowTimes_eq_sum]
  induction cells with
  | nil => simp
  | cons c cells ih =>
      have hc : c.1 < n := h c (List.mem_cons_self ..)
      rw [List.map_cons, List.sum_cons, ih fun d hd => h d (List.mem_cons_of_mem _ hd)]
      have hweight : ∀ j : Fin n,
          (((c :: cells).filter fun d => d.1 == j.val).map Prod.snd).sum * x j
            = (if ⟨c.1, hc⟩ = j then c.2 * x j else 0)
              + ((cells.filter fun d => d.1 == j.val).map Prod.snd).sum * x j := by
        intro j
        by_cases hj : c.1 = j.val
        · have hj' : (⟨c.1, hc⟩ : Fin n) = j := Fin.ext hj
          rw [List.filter_cons_of_pos (by simpa using hj), if_pos hj', List.map_cons,
            List.sum_cons, add_mul]
        · have hj' : ¬ (⟨c.1, hc⟩ : Fin n) = j := fun e => hj (congrArg Fin.val e)
          rw [List.filter_cons_of_neg (by simpa using hj), if_neg hj', zero_add]
      rw [Finset.sum_congr rfl fun j _ => hweight j, Finset.sum_add_distrib, Finset.sum_ite_eq,
        if_pos (Finset.mem_univ _)]
      simp [coords, hc]

/-! ## The two products -/

theorem times_coords (a : Sparse ℝ) (x : Point a.ncols) :
    a.times (coords x)
      = .ok ((List.range a.nrows).map fun i => ∑ j : Fin a.ncols, (a.stored i j).sum * x j) := by
  have hrows : ∀ i, rowTimes (a.row i) (coords x) = ∑ j : Fin a.ncols, (a.stored i j).sum * x j :=
    fun i => rowTimes_coords (fun _ => column_lt_of_mem_row) x
  simp only [times, checkArgument, length_coords, hrows]
  rfl

theorem toDense_times_coords (a : Sparse ℝ) (x : Point a.ncols) :
    a.toDense.times (coords x)
      = .ok ((List.range a.nrows).map fun i =>
          ∑ j : Fin a.ncols, (a.stored i j).getLast?.getD 0 * x j) := by
  rw [toDense_eq, Matrix.ofFn_times_coords]

/-- A product with the matrix is the product with its dense form, whatever the vector. -/
def MultipliesAsDense (a : Sparse ℝ) : Prop :=
  ∀ x : Vec ℝ, x.length = a.ncols → ∃ y, a.times x = .ok y ∧ a.toDense.times x = .ok y

/-- That is so exactly if at every position the stored values add up to the last one. -/
theorem multipliesAsDense_iff (a : Sparse ℝ) :
    a.MultipliesAsDense ↔ ∀ i < a.nrows, ∀ j < a.ncols,
      (a.stored i j).sum = (a.stored i j).getLast?.getD 0 := by
  constructor
  · intro h i hi j hj
    obtain ⟨y, hsparse, hdense⟩ := h (coords (EuclideanSpace.single ⟨j, hj⟩ 1)) (length_coords _)
    rw [times_coords, Except.ok.injEq] at hsparse
    rw [toDense_times_coords, Except.ok.injEq, ← hsparse, List.map_inj_left] at hdense
    simpa using (hdense i (List.mem_range.mpr hi)).symm
  · intro h x hx
    obtain ⟨p, rfl⟩ := exists_coords hx
    refine ⟨_, times_coords a p, ?_⟩
    rw [toDense_times_coords, Except.ok.injEq, List.map_inj_left]
    intro i hi
    exact Finset.sum_congr rfl fun j _ => by rw [h i (List.mem_range.mp hi) j j.isLt]

omit [RealConstants] in
theorem sum_eq_last_of_length_le {l : List ℝ} (h : l.length ≤ 1) : l.sum = l.getLast?.getD 0 := by
  match l, h with
  | [], _ => rfl
  | [v], _ => simp

/-- It is so if nothing is stored twice. -/
theorem StoresOnce.multipliesAsDense {a : Sparse ℝ} (h : a.StoresOnce) : a.MultipliesAsDense :=
  (multipliesAsDense_iff a).mpr fun _ hi j _ => sum_eq_last_of_length_le (h.length_stored_le hi j)

/-- The Hessian that truncated conjugate gradients multiply with is then the one that is
factorized. -/
theorem MultipliesAsDense.curvature {σ : Type} {h : Sparse ℝ} (agree : h.MultipliesAsDense)
    {v : Vec ℝ} (hv : v.length = h.ncols) :
    ∃ d y, (Curvature.sparse h : Curvature ℝ σ).toDense = pure d ∧
      (Curvature.sparse h : Curvature ℝ σ).apply v = pure y ∧ d.times v = .ok y := by
  obtain ⟨y, hsparse, hdense⟩ := agree v hv
  refine ⟨h.toDense, y, rfl, ?_, hdense⟩
  show (liftM (h.times v) : Evaluation σ (Vec ℝ)) = pure y
  rw [hsparse]
  rfl

/-- Where a product is the product with the dense form: exactly where at every position the stored
values add up to the last one. So it is for every matrix made of triplets or of a dense matrix, and
for the Hessian in its two uses. -/
theorem times_eq_toDense_times (σ : Type) :
    (∀ a : Sparse ℝ, a.MultipliesAsDense ↔ ∀ i < a.nrows, ∀ j < a.ncols,
      (a.stored i j).sum = (a.stored i j).getLast?.getD 0) ∧
    (∀ a : Sparse ℝ, a.StoresOnce → a.MultipliesAsDense) ∧
    (∀ (nrows ncols : Nat) (rows cols : List Nat) (vals : List ℝ) (symmetric : Bool)
      (a : Sparse ℝ), ofTriplets nrows ncols rows cols vals symmetric = .ok a →
        a.MultipliesAsDense) ∧
    (∀ (d : Matrix ℝ) (tolerance : ℝ), (ofDense d tolerance).MultipliesAsDense) ∧
    (∀ h : Sparse ℝ, h.MultipliesAsDense → ∀ v : Vec ℝ, v.length = h.ncols →
      ∃ d y, (Curvature.sparse h : Curvature ℝ σ).toDense = pure d ∧
        (Curvature.sparse h : Curvature ℝ σ).apply v = pure y ∧ d.times v = .ok y) := by
  refine ⟨multipliesAsDense_iff, fun _ => StoresOnce.multipliesAsDense, ?_, ?_, ?_⟩
  · intro nrows ncols rows cols vals symmetric a h
    exact (storesOnce_ofTriplets h).multipliesAsDense
  · intro d tolerance
    exact (storesOnce_ofDense d tolerance).multipliesAsDense
  · intro h agree v hv
    exact agree.curvature hv

end Sparse

end Agreement

/-! ## Two matrices with one position -/

namespace Sparse

attribute [local instance] RealConstants.double

/-- One position, at which the given cells are stored. -/
def single (cells : List (Nat × ℝ)) (h : ∀ c ∈ cells, c.1 < 1) : Sparse ℝ :=
  ⟨1, 1, [0, cells.length], cells, rfl, rfl, by simp, h⟩

/-- Two triplets at one position, which are joined. -/
theorem times_eq_toDense_times_joined :
    ∃ a : Sparse ℝ, ofTriplets 1 1 [0, 0] [0, 0] [1, 1] false = .ok a ∧ a.times [1] = .ok [2] ∧
      a.toDense.times [1] = .ok [2] := by
  have hsorted : [(0, 0, (1 : ℝ)), (0, 0, 1)].mergeSort positionLe = [(0, 0, 1), (0, 0, 1)] :=
    List.mergeSort_of_pairwise (by simp [positionLe])
  have hjoined : joinNeighbours [(0, 0, (1 : ℝ)), (0, 0, 1)] = [(0, 0, 1 + 1)] := by
    simp [joinNeighbours]
  have hmade : ofTriplets 1 1 [0, 0] [0, 0] [(1 : ℝ), 1] false
      = .ok (single [(0, 1 + 1)] (by simp)) := by
    have hplaced : placed 1 1 false [(0, 0, (1 : ℝ)), (0, 0, 1)] = .ok [(0, 0, 1), (0, 0, 1)] := rfl
    simp only [ofTriplets, List.zip_cons_cons, List.zip_nil_right, hplaced]
    simp only [bind, Except.bind, hsorted, hjoined]
    rfl
  have hvalue : (single [(0, (1 : ℝ) + 1)] (by simp)).times [1] = .ok [2] := by
    simp [single, times, checkArgument, row, start, rowTimes]
    norm_num
  obtain ⟨-, -, triplets, -, -⟩ := times_eq_toDense_times Unit
  obtain ⟨y, hsparse, hdense⟩ := triplets _ _ _ _ _ _ _ hmade [1] rfl
  rw [hvalue, Except.ok.injEq] at hsparse
  exact ⟨_, hmade, hvalue, hsparse ▸ hdense⟩

/-- Compressed arrays may name a column twice. The product then adds both values, and the dense form
has the last one alone. -/
theorem times_ne_toDense_times :
    ∃ a : Sparse ℝ, ofArrays 1 1 [0, 2] [0, 0] [1, 1] = .ok a ∧ a.times [1] = .ok [2] ∧
      a.toDense.times [1] = .ok [1] ∧ ¬ a.MultipliesAsDense := by
  have hmade : ofArrays 1 1 [0, 2] [0, 0] [(1 : ℝ), 1] = .ok (single [(0, 1), (0, 1)] (by simp)) :=
    rfl
  have hsparse : (single [(0, (1 : ℝ)), (0, 1)] (by simp)).times [1] = .ok [2] := by
    simp [single, times, checkArgument, row, start, rowTimes]
    norm_num
  have hdense : (single [(0, (1 : ℝ)), (0, 1)] (by simp)).toDense.times [1] = .ok [1] := by
    simp [single, toDense, row, start, Matrix.times, Matrix.ofFn, Matrix.rowTimes]
  refine ⟨_, hmade, hsparse, hdense, fun agree => ?_⟩
  obtain ⟨y, hy, hy'⟩ := agree [1] rfl
  rw [hsparse, Except.ok.injEq] at hy
  rw [hdense, Except.ok.injEq, ← hy] at hy'
  norm_num at hy'

end Sparse

end Descent
