import Descent.Model.Classic
import Descent.Model.Counted
import Descent.Proofs.Extended.Matrices
import Descent.Proofs.TruncatedCg.Embedded

/-!
# Quadratic objectives

A model is quadratic on real points (`Model.IsQuadratic`) if its answers there are those of
`½ xᵀHx - βᵀx` for a linear map `H`, whether it offers products with the Hessian or a sparse matrix.
So is the quadratic of a real matrix and a real vector (`Classic.Quadratic.isQuadratic_ofReal`). For
such an objective the quadratic model at a point is no approximation: it is the change of the
objective (`quadraticValue_add`).

A counted model is asked for the objective and the gradient alone; products with the Hessian are not
among the counts here (`Model.Asked`).
-/

set_option autoImplicit false

open scoped RealInnerProductSpace

namespace Descent

open Run Extended Vec

/-! ## The function -/

section Value

variable {E : Type*} [NormedAddCommGroup E] [InnerProductSpace ℝ E] {H : E →ₗ[ℝ] E}

noncomputable def quadraticValue (H : E →ₗ[ℝ] E) (β x : E) : ℝ := 0.5 * ⟪x, H x⟫ - ⟪β, x⟫

/-- The quadratic model at `x` is the change of the function. -/
theorem quadraticValue_add (hH : H.IsSymmetric) (β x w : E) :
    quadraticValue H β (x + w) = quadraticValue H β x + modelValue H (H x - β) w := by
  have hcross : ⟪x, H w⟫ = ⟪H x, w⟫ := (hH x w).symm
  simp only [quadraticValue, modelValue, map_add, inner_add_left, inner_add_right, inner_sub_left,
    hcross, real_inner_comm w (H x)]
  ring

end Value

variable {σ : Type} {n : Nat} {H : Point n →ₗ[ℝ] Point n} {β x w : Point n}

variable [RealConstants]

/-! ## Models -/

/-- The answers of the model on real points are those of a quadratic without bounds. -/
structure Model.IsQuadratic (m : Model Extended σ) (H : Point n →ₗ[ℝ] Point n) (β : Point n) :
    Prop where
  dimension : m.dimension = n
  sides : m.sides = (constant n (-Scalar.infinity), constant n Scalar.infinity)
  objective : ∀ x, m.objective (embed (coords x)) = pure (real (quadraticValue H β x))
  gradient : ∀ x, m.gradient (embed (coords x)) = pure (embed (coords (H x - β)))
  objectiveAndGradient : ∀ x : Point n, m.objectiveAndGradient (embed (coords x))
    = pure (real (quadraticValue H β x), embed (coords (H x - β)))
  hessianVector : ∀ x d : Point n, m.hessianVector (embed (coords x)) (embed (coords d))
    = pure (embed (coords (H d)))
  sparseHessian : ∀ x : Point n, ∃ h, m.sparseHessian (embed (coords x)) = pure h ∧
    ∀ a, h = some a → ∀ d : Point n, a.times (embed (coords d)) = .ok (embed (coords (H d)))
  acceptStep : ∀ s y, m.acceptStep s y = pure ()

noncomputable def Classic.Quadratic.ofReal (a : Matrix ℝ) (b : Vec ℝ) (sparse : Bool) :
    Classic.Quadratic Extended :=
  { make (a.map real) (embed b) with sparse }

theorem Classic.Quadratic.isQuadratic_ofReal {a : Matrix ℝ} (hrows : a.nrows = n)
    (hcols : a.ncols = n) (β : Point n) (sparse : Bool) :
    (ofReal a (coords β) sparse).model.IsQuadratic (σ := σ) (a.toMap n) β := by
  have hlength : (embed (coords β)).length = n := by simp
  have hfits : ∀ x : Point n, (liftM (ModelError.checkLength (embed (coords β)).length
      (embed (coords x))) : Evaluation σ Unit) = pure () := by
    intro x
    rw [ModelError.checkLength, if_pos (by simp)]
    rfl
  have hproduct : ∀ x : Point n,
      (a.map real).times (embed (coords x)) = .ok (embed (coords (a.toMap n x))) := by
    intro x
    rw [Matrix.times_embed, Matrix.times_coords hrows hcols]
    rfl
  have hobjective : ∀ x : Point n, (ofReal a (coords β) sparse).model.objective (embed (coords x))
      = (pure (real (quadraticValue (a.toMap n) β x)) : Evaluation σ Extended) := by
    intro x
    simp only [model, ofReal, make, hfits, hproduct, dot_embed, liftM_ok, pure_bind]
    rw [quadraticValue, ← real_sub, ← real_mul]
    rfl
  have hgradient : ∀ x : Point n, (ofReal a (coords β) sparse).model.gradient (embed (coords x))
      = (pure (embed (coords (a.toMap n x - β))) : Evaluation σ (Vec Extended)) := by
    intro x
    simp only [model, ofReal, make, hfits, hproduct, sub_embed, liftM_ok, pure_bind]
  exact {
    dimension := hlength
    sides := by simp only [model, ofReal, make, hlength]
    objective := hobjective
    gradient := hgradient
    objectiveAndGradient := by
      intro x
      show (do
        let f ← (ofReal a (coords β) sparse).model.objective (embed (coords x))
        let g ← (ofReal a (coords β) sparse).model.gradient (embed (coords x))
        return (f, g) : Evaluation σ _) = _
      rw [hobjective, hgradient]
      rfl
    hessianVector := by
      intro x d
      simp only [model, ofReal, make, hfits, hproduct, liftM_ok, pure_bind]
    sparseHessian := by
      intro x
      refine ⟨_, rfl, ?_⟩
      rintro h hh d
      cases sparse with
      | false => cases hh
      | true =>
          cases hh
          exact Sparse.times_ofDense_embed hrows hcols d
    acceptStep := fun _ _ => rfl }

/-! ## Counted answers -/

namespace Model

/-- The objective has been evaluated `f` times and the gradient `g` times. -/
def Asked (f g : Nat) (t : Counts × σ) : Prop := t.1.objective = f ∧ t.1.gradient = g

variable {m : Model Extended σ} {f g : Nat}

theorem IsQuadratic.objective_succeeds (hm : m.IsQuadratic H β) (x : Point n) :
    Succeeds (Asked f g) (m.counted.objective (embed (coords x))) fun value t =>
      Asked (f + 1) g t ∧ value = real (quadraticValue H β x) := by
  show Succeeds _ (do
    count .addObjective
    Run.tryOnSnd (m.objective (embed (coords x)))) _
  rw [hm.objective]
  exact fun t _ ht => ⟨⟨congrArg (· + 1) ht.1, ht.2⟩, rfl⟩

theorem IsQuadratic.gradient_succeeds (hm : m.IsQuadratic H β) (x : Point n) :
    Succeeds (Asked f g) (m.counted.gradient (embed (coords x))) fun gradient t =>
      Asked f (g + 1) t ∧ gradient = embed (coords (H x - β)) := by
  show Succeeds _ (do
    count .addGradient
    Run.tryOnSnd (m.gradient (embed (coords x)))) _
  rw [hm.gradient]
  exact fun t _ ht => ⟨⟨ht.1, congrArg (· + 1) ht.2⟩, rfl⟩

theorem IsQuadratic.objectiveAndGradient_succeeds (hm : m.IsQuadratic H β) (x : Point n) :
    Succeeds (Asked f g) (m.counted.objectiveAndGradient (embed (coords x))) fun both t =>
      Asked (f + 1) (g + 1) t ∧
        both = (real (quadraticValue H β x), embed (coords (H x - β))) := by
  show Succeeds _ (do
    count .addObjective
    count .addGradient
    Run.tryOnSnd (m.objectiveAndGradient (embed (coords x)))) _
  rw [hm.objectiveAndGradient]
  exact fun t _ ht => ⟨⟨congrArg (· + 1) ht.1, congrArg (· + 1) ht.2⟩, rfl⟩

/-- The Hessian at a point, as products or as a matrix, is the linear map. -/
theorem IsQuadratic.curvature_succeeds (hm : m.IsQuadratic H β) (x : Point n) :
    Succeeds (Asked f g) (Curvature.ofModel m.counted (embed (coords x))) fun curvature t =>
      Asked f g t ∧ curvature.operator.Applies H (Asked f g) := by
  obtain ⟨h, hh, htimes⟩ := hm.sparseHessian x
  have hsparse : Succeeds (Asked f g) (m.counted.sparseHessian (embed (coords x)))
      fun h' t => Asked f g t ∧ h' = h := by
    show Succeeds _ (do
      let h ← Run.tryOnSnd (m.sparseHessian (embed (coords x)))
      if h.isSome then
        count .addHessian
      return h) _
    rw [hh]
    cases h with
    | none => exact fun t _ ht => ⟨ht, rfl⟩
    | some a => exact fun t _ ht => ⟨ht, rfl⟩
  refine Settles.bind hsparse fun h' => Settles.assume ?_
  rintro rfl
  cases h' with
  | none =>
      refine Settles.pure fun t ht => ⟨ht, fun d => ?_⟩
      show Succeeds _ (do
        count .addHessianVector
        Run.tryOnSnd (m.hessianVector (embed (coords x)) (embed (coords d)))) _
      rw [hm.hessianVector]
      exact fun t _ ht => ⟨ht, rfl⟩
  | some a =>
      refine Settles.pure fun t ht => ⟨ht, fun d => ?_⟩
      show Succeeds _ (liftM (a.times (embed (coords d))) : Evaluation (Counts × σ) _) _
      rw [htimes a rfl]
      exact fun t _ ht => ⟨ht, rfl⟩

end Model

end Descent
