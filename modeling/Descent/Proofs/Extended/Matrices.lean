import Descent.Proofs.Extended.Vectors
import Descent.Proofs.Sparse.Product

/-!
# Real matrices among the extended ones

A product of real numbers among the extended ones is the product of the real numbers
(`Matrix.times_embed`). A matrix that stores the entries of a dense one other than zero multiplies
as the dense one does, since the entries left out add nothing (`Sparse.times_ofDense_embed`). A real
square matrix is a linear map on the points (`Matrix.toMap`, `Matrix.times_coords`), and one with
equal entries across the diagonal is symmetric there (`Matrix.IsSymmetric.toMap`).
-/

set_option autoImplicit false

open scoped RealInnerProductSpace

namespace Descent

open Extended Vec

/-! ## Matrices as linear maps -/

namespace Matrix

/-- The entry in row `i` and column `j`, zero outside. -/
def coeff (a : Matrix ℝ) (i j : Nat) : ℝ := (a.rows.getD i []).getD j 0

/-- A square matrix of `n` rows whose entries across the diagonal are equal. -/
structure IsSymmetric (n : Nat) (a : Matrix ℝ) : Prop where
  nrows : a.nrows = n
  ncols : a.ncols = n
  entry : ∀ i j, i < n → j < n → a.entry i j = a.entry j i

/-- A matrix is given by its entries. -/
theorem eq_ofFn (a : Matrix ℝ) : a = ofFn a.nrows a.ncols a.coeff := by
  obtain ⟨ncols, rows, width⟩ := a
  have hrows : rows = (List.range rows.length).map fun i =>
      (List.range ncols).map fun j => (rows.getD i []).getD j 0 := by
    refine List.ext_getElem (by simp) fun i hi _ => ?_
    have hrow : rows[i].length = ncols := width _ (List.getElem_mem hi)
    refine List.ext_getElem (by simp [hrow]) fun j hj _ => ?_
    simp [hi, hj]
  simp only [ofFn, mk.injEq, true_and]
  exact hrows

theorem entry_eq (a : Matrix ℝ) {i j : Nat} (hi : i < a.nrows) (hj : j < a.ncols) :
    a.entry i j = .ok (a.coeff i j) := by
  have hrow : a.rows[i].length = a.ncols := a.width _ (List.getElem_mem hi)
  have hi' : i < a.rows.length := hi
  have hj' : j < a.rows[i].length := hrow ▸ hj
  rw [entry, entryAt_of_lt hi', Checked.ok_bind, entryAt_of_lt hj', coeff,
    List.getD_eq_getElem?_getD, List.getD_eq_getElem?_getD, List.getElem?_eq_getElem hi',
    Option.getD_some, List.getElem?_eq_getElem hj', Option.getD_some]

noncomputable def toMap (n : Nat) (a : Matrix ℝ) : Point n →ₗ[ℝ] Point n where
  toFun x := pointOf fun i => ∑ j : Fin n, a.coeff i j * x j
  map_add' x y := by
    ext i
    simp [pointOf, mul_add, Finset.sum_add_distrib]
  map_smul' c x := by
    ext i
    simp only [pointOf, PiLp.smul_apply, smul_eq_mul, RingHom.id_apply, Finset.mul_sum]
    exact Finset.sum_congr rfl fun j _ => mul_left_comm _ _ _

variable {n : Nat} {a : Matrix ℝ}

theorem coords_toMap (a : Matrix ℝ) (x : Point n) :
    coords (a.toMap n x) = (List.range n).map fun i => ∑ j : Fin n, a.coeff i j * x j := by
  show List.ofFn (fun i : Fin n => ∑ j : Fin n, a.coeff i j * x j) = _
  rw [List.ofFn_eq_map, ← List.map_coe_finRange_eq_range, List.map_map]
  rfl

theorem isSymmetric_ofFn {f : Nat → Nat → ℝ} (h : ∀ i j, f i j = f j i) :
    (ofFn n n f).IsSymmetric n where
  nrows := by simp [nrows, ofFn]
  ncols := rfl
  entry i j hi hj := by
    have hentry : ∀ i j, i < n → j < n → (ofFn n n f).entry i j = .ok (f i j) := by
      intro i j hi hj
      rw [entry_eq _ (by simpa [nrows, ofFn] using hi) hj]
      simp [coeff, ofFn, hi, hj]
    rw [hentry i j hi hj, hentry j i hj hi, h]

theorem IsSymmetric.coeff_comm (h : a.IsSymmetric n) {i j : Nat} (hi : i < n) (hj : j < n) :
    a.coeff i j = a.coeff j i := by
  have hentry := h.entry i j hi hj
  rw [entry_eq a (h.nrows ▸ hi) (h.ncols ▸ hj), entry_eq a (h.nrows ▸ hj) (h.ncols ▸ hi)] at hentry
  exact Except.ok.inj hentry

theorem IsSymmetric.toMap (h : a.IsSymmetric n) : (a.toMap n).IsSymmetric := by
  have hinner : ∀ x y : Point n,
      ⟪x, a.toMap n y⟫ = ∑ i : Fin n, ∑ j : Fin n, a.coeff i j * y j * x i := by
    intro x y
    rw [PiLp.inner_apply]
    refine Finset.sum_congr rfl fun i _ => ?_
    show (∑ j : Fin n, a.coeff i j * y j) * x i = _
    rw [Finset.sum_mul]
  intro x y
  rw [real_inner_comm, hinner, hinner, Finset.sum_comm]
  refine Finset.sum_congr rfl fun i _ => Finset.sum_congr rfl fun j _ => ?_
  rw [h.coeff_comm j.isLt i.isLt]
  ring

variable [RealConstants]

/-- The product with the coordinates of a point is the value of the linear map. -/
theorem times_coords (hrows : a.nrows = n) (hcols : a.ncols = n) (x : Point n) :
    a.times (coords x) = .ok (coords (a.toMap n x)) := by
  have h := ofFn_times_coords n a.coeff x
  have ha : a = ofFn n n a.coeff := by
    conv_lhs => rw [eq_ofFn a, hrows, hcols]
  rw [coords_toMap, ← h, ← ha]

/-! ## Products -/

theorem rowTimes_embed (row x : Vec ℝ) :
    rowTimes (embed row) (embed x) = real (rowTimes row x) := by
  have hfold : ∀ (l : List (ℝ × ℝ)) (init : ℝ),
      (l.map fun p => (real p.1, real p.2)).foldl (fun s p => p.1 * p.2 + s) (real init)
        = real (l.foldl (fun s p => p.1 * p.2 + s) init) := by
    intro l
    induction l with
    | nil => exact fun _ => rfl
    | cons p l ih => exact fun init => ih _
  match row, x with
  | [], _ => rfl
  | _ :: _, [] => rfl
  | a :: as, x :: xs =>
      have hpairs : List.zipWith (fun b y => (b, y)) (embed as) (embed xs)
          = (List.zipWith (fun b y => (b, y)) as xs).map fun p => (real p.1, real p.2) := by
        rw [embed, embed, List.zipWith_map, List.map_zipWith]
      show ((List.zipWith (fun b y => (b, y)) (embed as) (embed xs)).foldl _ (real (a * x))) = _
      rw [hpairs, hfold]
      rfl

/-- A product of real numbers is the product of the real numbers. -/
theorem times_embed (a : Matrix ℝ) (x : Vec ℝ) :
    (a.map real).times (embed x) = (a.times x).map embed := by
  have hrows : (a.rows.map (List.map real)).map (fun row => rowTimes row (embed x))
      = embed (a.rows.map fun row => rowTimes row x) := by
    simp only [embed, List.map_map]
    exact List.map_congr_left fun row _ => rowTimes_embed row x
  show (if a.ncols = (embed x).length then _ else _)
    = Except.map embed (if a.ncols = x.length then _ else _)
  rw [length_embed]
  split
  · exact congrArg Except.ok hrows
  · rfl

end Matrix

namespace Sparse

variable [RealConstants]

theorem rowTimes_embed (cells : List (Nat × ℝ)) (x : Vec ℝ) :
    rowTimes (cells.map fun c => (c.1, real c.2)) (embed x) = real (rowTimes cells x) := by
  have hcoordinate : ∀ j, (embed x).getD j 0 = real (x.getD j 0) := by
    intro j
    simp only [embed, real_zero, List.getD_eq_getElem?_getD, List.getElem?_map]
    cases x[j]? <;> rfl
  have hfold : ∀ init : ℝ, (cells.map fun c => (c.1, real c.2)).foldl
      (fun sum c => sum + c.2 * (embed x).getD c.1 0) (real init)
        = real (cells.foldl (fun sum c => sum + c.2 * x.getD c.1 0) init) := by
    induction cells with
    | nil => exact fun _ => rfl
    | cons c cells ih =>
        intro init
        rw [List.map_cons, List.foldl_cons, List.foldl_cons, hcoordinate, real_mul, real_add]
        exact ih _
  exact hfold 0

theorem largeCells_embed (row : Vec ℝ) :
    largeCells 0 (embed row) = (largeCells 0 row).map fun c => (c.1, real c.2) := by
  rw [largeCells, largeCells, embed, List.zipIdx_map, List.filter_map, List.map_map, List.map_map]
  rfl

/-- The entries that are left out add nothing. -/
theorem rowTimes_largeCells {row x : Vec ℝ} (h : row.length = x.length) :
    rowTimes (largeCells 0 row) x = Matrix.rowTimes row x := by
  have hdropped : ∀ l : List (ℝ × Nat),
      ((l.filter fun c => decide (0 < Scalar.abs c.1)).map fun c => c.1 * x.getD c.2 0).sum
        = (l.map fun c => c.1 * x.getD c.2 0).sum := by
    intro l
    induction l with
    | nil => rfl
    | cons c l ih =>
        by_cases hc : 0 < |c.1|
        · rw [List.filter_cons_of_pos (by simpa using hc), List.map_cons, List.map_cons,
            List.sum_cons, List.sum_cons, ih]
        · have hzero : c.1 = 0 := by simpa using hc
          rw [List.filter_cons_of_neg (by simpa using hc), ih, List.map_cons, List.sum_cons, hzero,
            zero_mul, zero_add]
  have hterms : row.zipIdx.map (fun c => c.1 * x.getD c.2 0)
      = List.zipWith (fun a b => a * b) row x := by
    refine List.ext_getElem (by simp [h]) fun i hi _ => ?_
    have hx : i < x.length := by simpa [h] using hi
    simp [hx]
  rw [rowTimes_eq_sum, largeCells, List.map_map, Matrix.rowTimes_eq_sum, ← hterms, ← hdropped]
  rfl

/-- The matrix that stores the entries of a real matrix other than zero multiplies as that does. -/
theorem times_ofDense_embed {n : Nat} {a : Matrix ℝ} (hrows : a.nrows = n) (hcols : a.ncols = n)
    (x : Point n) :
    (ofDense (a.map real) 0).times (embed (coords x)) = .ok (embed (coords (a.toMap n x))) := by
  have hdense := Matrix.times_coords hrows hcols x
  rw [Matrix.times, if_pos (by simpa using hcols), Except.ok.injEq] at hdense
  have hargument : (ofDense (a.map real) 0).checkArgument (embed (coords x)) = .ok () :=
    if_pos (by simpa [ofDense, Matrix.map] using hcols.symm)
  rw [times, hargument, ← hdense]
  show Except.ok _ = Except.ok _
  refine congrArg Except.ok
    (List.ext_getElem (by simp [ofDense, Matrix.nrows, Matrix.map]) fun i hi _ => ?_)
  have hi' : i < a.rows.length := by simpa [ofDense, Matrix.nrows, Matrix.map] using hi
  have hrow : (ofDense (a.map real) 0).row i = largeCells 0 (embed a.rows[i]) := by
    rw [row_ofDense (a.map real) 0 (by simpa [Matrix.map] using hi')]
    simp [Matrix.map, embed]
  have hwidth : a.rows[i].length = (coords x).length := by
    rw [a.width _ (List.getElem_mem hi'), hcols, length_coords]
  simp only [List.getElem_map, List.getElem_range, hrow, largeCells_embed, rowTimes_embed,
    rowTimes_largeCells hwidth]
  simp only [embed, List.getElem_map]

end Sparse

end Descent
