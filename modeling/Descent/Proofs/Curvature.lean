import Descent.Model.Classic
import Descent.Proofs.Extended.Matrices
import Descent.Proofs.Safe
import Descent.Proofs.Sparse.RoundTrip

/-!
# The sources of curvature

The Hessian comes as products of the model, as a sparse matrix or as a dense one, and the products
may in turn come from differences of the gradient. In exact arithmetic it makes no difference which
one is taken. A dense Hessian that is put together from products with the coordinate vectors is the
matrix that the products multiply with, if that is symmetric (`hessianByColumns_answers`). A sparse
one has lost zeros only. And a gradient that is affine has a difference quotient along a vector
that does not depend on the length of the step (`forwardDifference_answers`).
-/

set_option autoImplicit false

namespace Descent

open Run

/-! ## Answers -/

namespace Run

variable {σ β γ ε : Type} {K : σ → Prop}

/-- From states with `K`, to which it leads back, the computation has the value `b`. -/
def Answers (K : σ → Prop) (m : ExceptT ε (Run σ) β) (b : β) : Prop :=
  Succeeds K m fun c t => K t ∧ c = b

namespace Answers

theorem pure (b : β) : Answers K (Pure.pure b : ExceptT ε (Run σ) β) b :=
  Settles.pure fun _ ht => ⟨ht, rfl⟩

theorem bind {m : ExceptT ε (Run σ) β} {f : β → ExceptT ε (Run σ) γ} {b : β} {c : γ}
    (h : Answers K m b) (hf : Answers K (f b) c) : Answers K (m >>= f) c := by
  refine Settles.bind h fun b' => Settles.assume ?_
  rintro rfl
  exact hf

theorem checked {x : Checked β} {b : β} (h : x = .ok b) :
    Answers K (liftM x : ExceptT ε (Run σ) β) b := by
  subst h
  exact fun _ _ ht => ⟨ht, rfl⟩

theorem ofExcept {x : Except ε β} {b : β} (h : x = .ok b) :
    Answers K (liftM x : ExceptT ε (Run σ) β) b :=
  Succeeds.ofExcept h

/-- The answer as the outcome of a computation. -/
theorem outcome {m : ExceptT ε (Run σ) β} {b : β} {F : σ → Prop} (h : Answers K m b) :
    Triple K (Run.outcome m) (fun r s => K s ∧ r = .ok b) F := by
  refine Triple.mono h (fun _ hs => hs) ?_ fun _ hs => hs.elim
  rintro (e | b') s hs
  · exact hs.elim
  · exact ⟨hs.1, congrArg Except.ok hs.2⟩

/-- One answer for each entry of a list. -/
theorem mapM {f : β → ExceptT ε (Run σ) γ} {g : β → γ} {l : List β}
    (h : ∀ b ∈ l, Answers K (f b) (g b)) : Answers K (l.mapM f) (l.map g) := by
  induction l with
  | nil => exact pure _
  | cons b l ih =>
      rw [List.mapM_cons]
      refine bind (h b (List.mem_cons_self ..)) ?_
      exact bind (ih fun b' hb' => h b' (List.mem_cons_of_mem _ hb')) (pure _)

end Answers

end Run

section Exact

variable {σ : Type} {K : σ → Prop} {n : Nat} {a : Matrix ℝ} [RealConstants]

/-! ## Products with the coordinate vectors -/

namespace Matrix

omit [RealConstants] in
/-- The product with a coordinate vector is a column. -/
theorem coords_toMap_single {j : Nat} (hj : j < n) :
    coords (a.toMap n (EuclideanSpace.single ⟨j, hj⟩ 1))
      = (List.range n).map fun i => a.coeff i j := by
  rw [coords_toMap]
  simp

/-- A symmetric matrix is the symmetric part of itself. -/
theorem symmetricPart_columns (ha : a.IsSymmetric n) :
    symmetricPart ((List.range n).map fun j => (List.range n).map fun i => a.coeff i j) = a := by
  have hhalf : ∀ r : ℝ, (r + r) * 0.5 = r := fun r => by norm_num; ring
  rw [symmetricPart]
  conv_rhs => rw [eq_ofFn a, ha.nrows, ha.ncols]
  simp only [List.length_map, List.length_range]
  refine ofFn_congr fun i hi j hj => ?_
  simp only [List.getD_eq_getElem?_getD, List.getElem?_map, List.getElem?_range hi,
    List.getElem?_range hj, Option.map_some, Option.getD_some]
  rw [ha.coeff_comm hj hi]
  exact hhalf (a.coeff i j)

end Matrix

/-- The Hessian from products is the matrix that they multiply with. -/
theorem hessianByColumns_answers (ha : a.IsSymmetric n)
    {hessianVector : Vec ℝ → Vec ℝ → Evaluation σ (Vec ℝ)} {x : Vec ℝ}
    (hproduct : ∀ v : Point n,
      Answers K (hessianVector x (coords v)) (coords (a.toMap n v))) :
    Answers K (hessianByColumns n hessianVector x) a := by
  have hcolumns : ∀ j ∈ List.range n, Answers K (do
      let column ← hessianVector x (Vec.unit n j)
      if column.length ≠ n then
        throwThe Fault (.lengthMismatch n column.length)
      return column : Evaluation σ (Vec ℝ)) ((List.range n).map fun i => a.coeff i j) := by
    intro j hj
    rw [Vec.unit_eq (List.mem_range.mp hj), ← Matrix.coords_toMap_single (List.mem_range.mp hj)]
    refine Answers.bind (hproduct _) ?_
    -- a column is as long as the list of variables, so none is refused
    rw [if_neg (not_not_intro (length_coords _))]
    exact Answers.pure _
  refine Answers.bind (Answers.mapM hcolumns) ?_
  rw [Matrix.symmetricPart_columns ha]
  exact Answers.pure a

/-! ## Differences of the gradient -/

/-- The difference quotient of an affine gradient along a vector is the product with it; along no
direction at all both are zero. -/
theorem forwardDifference_answers {gradient : Vec ℝ → Evaluation σ (Vec ℝ)}
    {H : Point n →ₗ[ℝ] Point n} {b : Point n}
    (hgradient : ∀ x : Point n, Answers K (gradient (coords x)) (coords (H x - b)))
    (x v : Point n) :
    Answers K (forwardDifference gradient (coords x) (coords v)) (coords (H v)) := by
  unfold forwardDifference
  rw [Vec.norm_coords, Vec.norm_coords]
  by_cases hv : v = 0
  · have hzero : (‖v‖ == 0) = true := by simp [hv]
    rw [if_pos hzero, length_coords, Vec.zeros_eq, hv, map_zero]
    exact Answers.pure _
  · have hnonzero : ¬ (‖v‖ == 0) = true := by simpa using hv
    rw [if_neg hnonzero]
    dsimp only
    -- the length of the step is of no account as long as it is not zero
    set step : ℝ := Scalar.sqrtEpsilon * Scalar.maxNum 1 ‖x‖ / ‖v‖ with hstep
    have hpos : step ≠ 0 := ne_of_gt (by
      have hscale : 0 < Scalar.maxNum 1 ‖x‖ := by
        rw [Scalar.real_maxNum]
        exact lt_max_of_lt_left one_pos
      have hepsilon : (0 : ℝ) < Scalar.sqrtEpsilon := Real.sqrt_pos.mpr RealConstants.epsilon_pos
      exact div_pos (mul_pos hepsilon hscale) (norm_pos_iff.mpr hv))
    have hquotient : step⁻¹ • ((H (x + step • v) - b) - (H x - b)) = H v := by
      rw [map_add, map_smul, sub_sub_sub_cancel_right, add_sub_cancel_left, inv_smul_smul₀ hpos]
    refine Answers.bind (Answers.checked (Vec.along_coords x v step)) ?_
    refine Answers.bind (hgradient x) ?_
    refine Answers.bind (hgradient (x + step • v)) ?_
    refine Answers.bind (Answers.checked (Vec.sub_coords _ _)) ?_
    rw [Vec.divide_coords, hquotient]
    exact Answers.pure _

/-! ## Three forms of the Hessian -/

omit [RealConstants] in
theorem checkLength_coords (v : Point n) : ModelError.checkLength n (coords v) = .ok () :=
  if_pos (length_coords v)

/-- The Hessian is the matrix `a`, as an operator and as a matrix. -/
structure Curvature.Represents (c : Curvature ℝ σ) (K : σ → Prop) (n : Nat) (a : Matrix ℝ) :
    Prop where
  apply : ∀ v : Point n, Answers K (c.apply (coords v)) (coords (a.toMap n v))
  toDense : Answers K c.toDense a

namespace Curvature

/-- The products of a model, and the dense Hessian that it makes of them. -/
theorem represents_products (ha : a.IsSymmetric n) {m : Model ℝ σ} (hdimension : m.dimension = n)
    (hessian : m.hessian = hessianByColumns m.dimension m.hessianVector) {x : Vec ℝ}
    (hproduct : ∀ v : Point n, Answers K (m.hessianVector x (coords v)) (coords (a.toMap n v))) :
    (products m x).Represents K n a where
  apply := hproduct
  toDense := by
    rw [toDense, hessian, hdimension]
    exact hessianByColumns_answers ha hproduct

theorem represents_dense (hrows : a.nrows = n) (hcols : a.ncols = n) :
    (dense a : Curvature ℝ σ).Represents K n a where
  apply v := by
    have hfits : ModelError.checkLength a.ncols (coords v) = .ok () := by
      rw [hcols]
      exact checkLength_coords v
    refine Answers.bind (Answers.ofExcept hfits) ?_
    exact Answers.checked (Matrix.times_coords hrows hcols v)
  toDense := Answers.pure a

/-- The sparse matrix of the entries other than zero. -/
theorem represents_sparse (hrows : a.nrows = n) (hcols : a.ncols = n) :
    (sparse (Sparse.ofDense a 0) : Curvature ℝ σ).Represents K n a where
  apply v := by
    have hlength : (coords v).length = (Sparse.ofDense a 0).ncols := by
      rw [length_coords]
      exact hcols.symm
    obtain ⟨y, hsparse, hdense⟩ :=
      (Sparse.storesOnce_ofDense a 0).multipliesAsDense (coords v) hlength
    rw [Sparse.toDense_ofDense_zero, Matrix.times_coords hrows hcols, Except.ok.injEq] at hdense
    rw [hdense]
    exact Answers.ofExcept hsparse
  toDense := by
    show Answers K (Pure.pure (Sparse.ofDense a 0).toDense : Evaluation σ (Matrix ℝ)) a
    rw [Sparse.toDense_ofDense_zero]
    exact Answers.pure a

/-- **All sources of curvature agree.** If a model multiplies with a symmetric matrix and makes its
dense Hessian of the products, then its products, the sparse matrix of the entries other than zero
and the matrix itself have the same products and the same dense form. If moreover the gradient is
affine, its difference quotients are those products too. -/
theorem sources_agree (ha : a.IsSymmetric n) {m : Model ℝ σ} (hdimension : m.dimension = n)
    (hessian : m.hessian = hessianByColumns m.dimension m.hessianVector)
    (hproduct : ∀ x v : Point n,
      Answers K (m.hessianVector (coords x) (coords v)) (coords (a.toMap n v))) :
    (∀ x : Point n, ∀ c ∈ [products m (coords x), sparse (Sparse.ofDense a 0), dense a],
      c.Represents K n a) ∧
    ∀ b : Point n,
      (∀ x : Point n, Answers K (m.gradient (coords x)) (coords (a.toMap n x - b))) →
      ∀ x v : Point n, Answers K (forwardDifference m.gradient (coords x) (coords v))
        (coords (a.toMap n v)) := by
  refine ⟨fun x c hc => ?_, fun b hgradient => forwardDifference_answers hgradient⟩
  simp only [List.mem_cons, List.not_mem_nil, or_false] at hc
  rcases hc with rfl | rfl | rfl
  · exact represents_products ha hdimension hessian (hproduct x)
  · exact represents_sparse ha.nrows ha.ncols
  · exact represents_dense ha.nrows ha.ncols

end Curvature

end Exact

section Tilted

attribute [local instance] RealConstants.double

/-- The curvature of a valley along the rising diagonal. -/
def tilted : Matrix ℝ := Matrix.ofFn 2 2 fun i j => if i = j then 1 else -1

/-- The quadratic with this curvature as a model that makes its dense Hessian of the products. -/
noncomputable def tiltedModel : Model ℝ Unit :=
  let m := (Classic.Quadratic.make tilted [1, 0]).model
  { m with hessian := hessianByColumns m.dimension m.hessianVector }

theorem tilted_isSymmetric : tilted.IsSymmetric 2 :=
  Matrix.isSymmetric_ofFn fun i j => by simp only [eq_comm]

theorem tiltedModel_product (x v : Point 2) : Answers (fun _ => True)
    (tiltedModel.hessianVector (coords x) (coords v)) (coords (tilted.toMap 2 v)) := by
  refine Answers.bind (Answers.ofExcept (checkLength_coords v)) ?_
  exact Answers.checked (Matrix.times_coords tilted_isSymmetric.nrows tilted_isSymmetric.ncols v)

theorem tiltedModel_gradient (x : Point 2) : Answers (fun _ => True)
    (tiltedModel.gradient (coords x)) (coords (tilted.toMap 2 x - pointOf ![1, 0])) := by
  refine Answers.bind (Answers.ofExcept (checkLength_coords x)) ?_
  refine Answers.bind (Answers.checked
    (Matrix.times_coords tilted_isSymmetric.nrows tilted_isSymmetric.ncols x)) ?_
  exact Answers.checked (Vec.sub_coords _ (pointOf ![1, 0]))

/-- The product with the falling diagonal is twice that. -/
theorem sources_agree_tilted :
    (∀ c ∈ [Curvature.products tiltedModel [0, 0], .sparse (Sparse.ofDense tilted 0),
        .dense tilted],
      Answers (fun _ => True) (c.apply [1, -1]) [2, -2] ∧
        Answers (fun _ => True) c.toDense tilted) ∧
    Answers (fun _ => True) (forwardDifference tiltedModel.gradient [0, 0] [1, -1]) [2, -2] := by
  have hx : coords (pointOf ![0, 0]) = [0, 0] := by simp
  have hv : coords (pointOf ![1, -1]) = [1, -1] := by simp
  have hproduct : coords (tilted.toMap 2 (pointOf ![1, -1])) = [2, -2] := by
    rw [Matrix.coords_toMap]
    simp [List.range_succ, Matrix.coeff, tilted, Matrix.ofFn, pointOf]
    norm_num
  obtain ⟨forms, differences⟩ :=
    Curvature.sources_agree tilted_isSymmetric rfl rfl tiltedModel_product
  constructor
  · intro c hc
    have h := forms (pointOf ![0, 0]) c (hx ▸ hc)
    have happly := h.apply (pointOf ![1, -1])
    rw [hv, hproduct] at happly
    exact ⟨happly, h.toDense⟩
  · have h := differences (pointOf ![1, 0]) tiltedModel_gradient (pointOf ![0, 0])
      (pointOf ![1, -1])
    rwa [hx, hv, hproduct] at h

end Tilted

end Descent
