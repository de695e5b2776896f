import Descent.Proofs.ExactModel.Objective

/-!
# Derivatives of the classic problems

The objective, the gradient and the product with the Hessian are written down separately. In exact
arithmetic they belong together: along every line the objective is a polynomial, and its slope and
its curvature at the start are what the gradient and the product say (`Model.ExpandsAlong`).

The Rosenbrock function is a sum over pairs of variables. Along a line each pair is a polynomial of
degree four (`Rosenbrock.pair_along`), and these add up by induction on the pairs
(`Rosenbrock.Paired`). A quadratic with a symmetric matrix changes along a line as its own quadratic
model does, so that nothing is left beyond the curvature.
-/

set_option autoImplicit false

open scoped RealInnerProductSpace

namespace Descent

variable {σ : Type} [RealConstants]

/-! ## Expansions along lines -/

namespace Model

/-- Along the line from `x` in the direction `v` the objective is a polynomial of degree four. The
gradient gives its slope `c₁` at `x`, and the product with the Hessian the curvature there, which is
twice the coefficient `c₂` of the square. -/
def ExpandsAlong (m : Model ℝ σ) (x v : Vec ℝ) (c₃ c₄ : ℝ) : Prop :=
  ∃ f g hv c₁ c₂, m.objective x = pure f ∧ m.gradient x = pure g ∧
    m.hessianVector x v = pure hv ∧ Vec.dot g v = .ok c₁ ∧ Vec.dot v hv = .ok (c₂ + c₂) ∧
    ∀ t, ∃ y, Vec.along x v t = .ok y ∧
      m.objective y = pure (f + c₁ * t + c₂ * t ^ 2 + c₃ * t ^ 3 + c₄ * t ^ 4)

/-- The products with the Hessian at `x` give `u` and `v` the same value in either order. -/
def SymmetricAt (m : Model ℝ σ) (x u v : Vec ℝ) : Prop :=
  ∃ hu hv b, m.hessianVector x u = pure hu ∧ m.hessianVector x v = pure hv ∧
    Vec.dot u hv = .ok b ∧ Vec.dot v hu = .ok b

end Model

omit [RealConstants] in
/-- A check that has passed. -/
theorem checkLength_passes {n : Nat} {x : Vec ℝ} (hx : x.length = n) :
    (liftM (ModelError.checkLength n x) : Evaluation σ Unit) = pure () := by
  rw [ModelError.checkLength, if_pos hx]
  rfl

namespace Vec

theorem inner_cons (a b : ℝ) (x y : Vec ℝ) : inner (a :: x) (b :: y) = a * b + inner x y := by
  rw [inner, inner, sumTerms_eq, sumTerms_eq]
  rfl

theorem inner_nil : inner ([] : Vec ℝ) [] = 0 := by
  rw [inner, sumTerms_eq]
  rfl

end Vec

namespace Classic

/-- The sum starts at zero. -/
theorem sum_eq (terms : List ℝ) : sum terms = terms.sum := by
  show terms.foldl (fun s t => s + t) (-0 : ℝ) = _
  rw [Vec.foldl_add, neg_zero, zero_add]

/-! ## The extended Rosenbrock function -/

namespace Rosenbrock

section Pairs

variable (a b u w : ℝ) (x v : Vec ℝ)

theorem terms_pair :
    terms (a :: b :: x) = (100 * (b - a ^ 2) ^ 2 + (1 - a) ^ 2) :: terms x := by
  have h₁₀₀ : (100.0 : ℝ) = 100 := by norm_num
  show (100.0 * ((b - a * a) * (b - a * a)) + (1 - a) * (1 - a)) :: terms x = _
  rw [h₁₀₀]
  refine congrArg₂ List.cons ?_ rfl
  ring

theorem slopes_pair : slopes (a :: b :: x)
    = (-400 * a * (b - a ^ 2) - 2 * (1 - a)) :: 200 * (b - a ^ 2) :: slopes x := by
  have h₂ : (2.0 : ℝ) = 2 := by norm_num
  have h₂₀₀ : (200.0 : ℝ) = 200 := by norm_num
  have h₄₀₀ : (400.0 : ℝ) = 400 := by norm_num
  show (-400.0 * a * (b - a * a) - 2.0 * (1 - a)) :: (200.0 * (b - a * a)) :: slopes x = _
  rw [h₂, h₂₀₀, h₄₀₀, pow_two]

theorem curvatures_pair : curvatures (a :: b :: x) (u :: w :: v)
    = ((1200 * a ^ 2 - 400 * b + 2) * u - 400 * a * w) :: (-400 * a * u + 200 * w)
      :: curvatures x v := by
  have h₂ : (2.0 : ℝ) = 2 := by norm_num
  have h₂₀₀ : (200.0 : ℝ) = 200 := by norm_num
  have h₄₀₀ : (400.0 : ℝ) = 400 := by norm_num
  have h₁₂₀₀ : (1200.0 : ℝ) = 1200 := by norm_num
  show ((1200.0 * a * a - 400.0 * b + 2.0) * u + -400.0 * a * w)
    :: (-400.0 * a * u + 200.0 * w) :: curvatures x v = _
  rw [h₂, h₂₀₀, h₄₀₀, h₁₂₀₀]
  refine congrArg₂ List.cons ?_ rfl
  ring

omit [RealConstants] in
/-- The term of a pair along a line. -/
theorem pair_along (t : ℝ) :
    100 * (b + w * t - (a + u * t) ^ 2) ^ 2 + (1 - (a + u * t)) ^ 2
      = 100 * (b - a ^ 2) ^ 2 + (1 - a) ^ 2
        + ((-400 * a * (b - a ^ 2) - 2 * (1 - a)) * u + 200 * (b - a ^ 2) * w) * t
        + ((600 * a ^ 2 - 200 * b + 1) * u ^ 2 - 400 * a * u * w + 100 * w ^ 2) * t ^ 2
        + 200 * u ^ 2 * (2 * a * u - w) * t ^ 3 + 100 * u ^ 4 * t ^ 4 := by
  ring

end Pairs

/-- Two vectors that are made of as many pairs. -/
inductive Paired : Vec ℝ → Vec ℝ → Prop
  | nil : Paired [] []
  | pair (a b u w : ℝ) {x v : Vec ℝ} (rest : Paired x v) : Paired (a :: b :: x) (u :: w :: v)

omit [RealConstants] in
theorem paired_of_even : ∀ {x v : Vec ℝ}, Even x.length → v.length = x.length → Paired x v
  | [], [], _, _ => .nil
  | [_], _, heven, _ => absurd heven Nat.not_even_one
  | a :: b :: x, u :: w :: v, heven, hlength =>
      .pair a b u w (paired_of_even (by simpa [Nat.even_add_one] using heven)
        (Nat.succ.inj (Nat.succ.inj hlength)))

variable {x u v : Vec ℝ}

theorem Paired.length_slopes (h : Paired x v) : (slopes x).length = v.length := by
  induction h with
  | nil => rfl
  | pair a b u w rest ih => simp [slopes_pair, ih]

theorem Paired.length_curvatures (h : Paired x v) : (curvatures x v).length = v.length := by
  induction h with
  | nil => rfl
  | pair a b u w rest ih => simp [curvatures_pair, ih]

/-- Along a line the sum of all terms is a polynomial of degree four. -/
theorem Paired.exists_terms_along (h : Paired x v) : ∃ c₂ c₃ c₄ : ℝ,
    Vec.inner v (curvatures x v) = c₂ + c₂ ∧
    ∀ t : ℝ, (terms (List.zipWith (fun a u => a + u) x (Vec.scale v t))).sum
      = (terms x).sum + Vec.inner (slopes x) v * t + c₂ * t ^ 2 + c₃ * t ^ 3 + c₄ * t ^ 4 := by
  induction h with
  | nil => exact ⟨0, 0, 0, by simp [curvatures, Vec.inner_nil], fun t => by
      simp [terms, slopes, Vec.inner_nil]⟩
  | @pair a b u w x v rest ih =>
      obtain ⟨c₂, c₃, c₄, curvature, along⟩ := ih
      refine ⟨(600 * a ^ 2 - 200 * b + 1) * u ^ 2 - 400 * a * u * w + 100 * w ^ 2 + c₂,
        200 * u ^ 2 * (2 * a * u - w) + c₃, 100 * u ^ 4 + c₄, ?_, fun t => ?_⟩
      · simp only [curvatures_pair, Vec.inner_cons, curvature]
        ring
      · show (terms ((a + u * t) :: (b + w * t)
          :: List.zipWith (fun a u => a + u) x (Vec.scale v t))).sum = _
        simp only [terms_pair, slopes_pair, Vec.inner_cons, List.sum_cons, along, pair_along]
        ring

/-- The products with the Hessian make a symmetric form. -/
theorem Paired.inner_curvatures_comm (hu : Paired x u) (hv : Paired x v) :
    Vec.inner u (curvatures x v) = Vec.inner v (curvatures x u) := by
  induction hu generalizing v with
  | nil =>
      cases hv
      rfl
  | pair a b u₁ u₂ rest ih =>
      obtain _ | ⟨_, _, v₁, v₂, hv⟩ := hv
      simp only [curvatures_pair, Vec.inner_cons, ih hv]
      ring

/-! ### The model -/

variable {p : Rosenbrock ℝ}

theorem objective_eq (hx : x.length = p.n) :
    (p.model : Model ℝ σ).objective x = pure (terms x).sum := by
  simp only [model]
  rw [checkLength_passes hx, pure_bind, sum_eq]

theorem gradient_eq (hx : x.length = p.n) :
    (p.model : Model ℝ σ).gradient x = pure (slopes x) := by
  simp only [model]
  rw [checkLength_passes hx, pure_bind]

theorem hessianVector_eq (hx : x.length = p.n) (hv : v.length = p.n) :
    (p.model : Model ℝ σ).hessianVector x v = pure (curvatures x v) := by
  simp only [model]
  rw [checkLength_passes hx, checkLength_passes hv, pure_bind, pure_bind]

theorem expandsAlong (hn : Even p.n) (hx : x.length = p.n) (hv : v.length = p.n) :
    ∃ c₃ c₄, (p.model : Model ℝ σ).ExpandsAlong x v c₃ c₄ := by
  have hpaired : Paired x v := paired_of_even (hx ▸ hn) (hv.trans hx.symm)
  obtain ⟨c₂, c₃, c₄, curvature, along⟩ := hpaired.exists_terms_along
  have hcurvature : Vec.dot v (curvatures x v) = .ok (c₂ + c₂) := by
    rw [← curvature]
    exact if_pos hpaired.length_curvatures.symm
  refine ⟨c₃, c₄, _, _, _, _, c₂, objective_eq hx, gradient_eq hx, hessianVector_eq hx hv,
    if_pos hpaired.length_slopes, hcurvature, fun t => ?_⟩
  refine ⟨_, if_pos ?_, ?_⟩
  · rw [Vec.length_scale, hx, hv]
  · rw [objective_eq (by simp [hx, hv]), along]

theorem symmetricAt (hn : Even p.n) (hx : x.length = p.n) (hu : u.length = p.n)
    (hv : v.length = p.n) : (p.model : Model ℝ σ).SymmetricAt x u v := by
  have hxu : Paired x u := paired_of_even (hx ▸ hn) (hu.trans hx.symm)
  have hxv : Paired x v := paired_of_even (hx ▸ hn) (hv.trans hx.symm)
  refine ⟨_, _, _, hessianVector_eq hx hu, hessianVector_eq hx hv, if_pos ?_, ?_⟩
  · rw [hxv.length_curvatures, hu, hv]
  · rw [hxu.inner_curvatures_comm hxv]
    exact if_pos (by rw [hxu.length_curvatures, hu, hv])

end Rosenbrock

/-! ## Quadratics -/

namespace Quadratic

variable {n : Nat} {q : Quadratic ℝ} {β : Point n}

theorem objective_eq (ha : q.a.IsSymmetric n) (hb : coords β = q.b) (x : Point n) :
    (q.model : Model ℝ σ).objective (coords x) = pure (quadraticValue (q.a.toMap n) β x) := by
  simp only [model]
  rw [← hb, checkLength_passes (by simp), Matrix.times_coords ha.nrows ha.ncols, Vec.dot_coords]
  simp only [Run.liftM_ok, pure_bind, Vec.dot_coords]
  rfl

theorem gradient_eq (ha : q.a.IsSymmetric n) (hb : coords β = q.b) (x : Point n) :
    (q.model : Model ℝ σ).gradient (coords x) = pure (coords (q.a.toMap n x - β)) := by
  simp only [model]
  rw [← hb, checkLength_passes (by simp), Matrix.times_coords ha.nrows ha.ncols]
  simp only [Run.liftM_ok, pure_bind, Vec.sub_coords]

theorem hessianVector_eq (ha : q.a.IsSymmetric n) (hb : coords β = q.b) (x : Vec ℝ)
    (v : Point n) :
    (q.model : Model ℝ σ).hessianVector x (coords v) = pure (coords (q.a.toMap n v)) := by
  simp only [model]
  rw [← hb, checkLength_passes (by simp), Matrix.times_coords ha.nrows ha.ncols]
  simp only [Run.liftM_ok, pure_bind]

theorem expandsAlong (ha : q.a.IsSymmetric n) (hb : coords β = q.b) (x v : Point n) :
    (q.model : Model ℝ σ).ExpandsAlong (coords x) (coords v) 0 0 := by
  refine ⟨_, _, _, _, 2⁻¹ * ⟪v, q.a.toMap n v⟫, objective_eq ha hb x, gradient_eq ha hb x,
    hessianVector_eq ha hb _ v, Vec.dot_coords _ _, ?_, fun t => ⟨_, Vec.along_coords x v t, ?_⟩⟩
  · rw [Vec.dot_coords]
    congr 1
    ring
  · rw [objective_eq ha hb, quadraticValue_add ha.toMap]
    simp only [modelValue, map_smul, real_inner_smul_left, real_inner_smul_right]
    congr 1
    ring

theorem symmetricAt (ha : q.a.IsSymmetric n) (hb : coords β = q.b) (x : Vec ℝ) (u v : Point n) :
    (q.model : Model ℝ σ).SymmetricAt x (coords u) (coords v) := by
  refine ⟨_, _, _, hessianVector_eq ha hb x u, hessianVector_eq ha hb x v, Vec.dot_coords _ _, ?_⟩
  rw [Vec.dot_coords, ← ha.toMap, real_inner_comm]

end Quadratic

/-- **The derivatives of the classic problems are the true ones.** At every point and along every
direction, the Rosenbrock function in an even number of variables is a polynomial of degree four and
a quadratic with a symmetric matrix one of degree two, with the slope and the curvature that the
gradient and the Hessian give. Either Hessian is symmetric. -/
theorem derivatives_expand :
    (∀ p : Rosenbrock ℝ, Even p.n → ∀ x u v : Vec ℝ, x.length = p.n → u.length = p.n →
      v.length = p.n →
        (∃ c₃ c₄, (p.model : Model ℝ σ).ExpandsAlong x v c₃ c₄) ∧
        (p.model : Model ℝ σ).SymmetricAt x u v) ∧
    ∀ q : Quadratic ℝ, q.a.IsSymmetric q.b.length → ∀ x u v : Vec ℝ, x.length = q.b.length →
      u.length = q.b.length → v.length = q.b.length →
        (q.model : Model ℝ σ).ExpandsAlong x v 0 0 ∧ (q.model : Model ℝ σ).SymmetricAt x u v := by
  refine ⟨fun p hn x u v hx hu hv => ⟨Rosenbrock.expandsAlong hn hx hv,
    Rosenbrock.symmetricAt hn hx hu hv⟩, fun q ha x u v hx hu hv => ?_⟩
  obtain ⟨n, hn⟩ : ∃ n, q.b.length = n := ⟨_, rfl⟩
  rw [hn] at ha hx hu hv
  obtain ⟨β, hb⟩ := exists_coords hn
  obtain ⟨x, rfl⟩ := exists_coords hx
  obtain ⟨u, rfl⟩ := exists_coords hu
  obtain ⟨v, rfl⟩ := exists_coords hv
  exact ⟨Quadratic.expandsAlong ha hb x v, Quadratic.symmetricAt ha hb _ u v⟩

section Example

attribute [local instance] RealConstants.double

theorem Quadratic.laplacian_isSymmetric (n : Nat) :
    (laplacian n : Quadratic ℝ).a.IsSymmetric n :=
  Matrix.isSymmetric_ofFn fun i j => by simp only [eq_comm, or_comm]

/-- At a point of the Rosenbrock function in two variables, and for three second differences. -/
theorem derivatives_expand_start :
    let p : Rosenbrock ℝ := ⟨2, [-2, -2], [2, 2]⟩
    let q : Quadratic ℝ := .laplacian 3
    (Even p.n ∧ (∃ c₃ c₄, (p.model : Model ℝ Unit).ExpandsAlong [-1, 2] [1, 2] c₃ c₄) ∧
        (p.model : Model ℝ Unit).SymmetricAt [-1, 2] [3, -1] [1, 2]) ∧
      q.a.IsSymmetric 3 ∧ (q.model : Model ℝ Unit).ExpandsAlong [0, 0, 1] [1, -1, 3] 0 0 ∧
        (q.model : Model ℝ Unit).SymmetricAt [0, 0, 1] [2, 0, 1] [1, -1, 3] := by
  intro p q
  obtain ⟨rosenbrock, quadratic⟩ := derivatives_expand (σ := Unit)
  have hsymmetric : q.a.IsSymmetric 3 := Quadratic.laplacian_isSymmetric 3
  exact ⟨⟨even_two, rosenbrock p even_two [-1, 2] [3, -1] [1, 2] rfl rfl rfl⟩, hsymmetric,
    quadratic q hsymmetric [0, 0, 1] [2, 0, 1] [1, -1, 3] rfl rfl rfl⟩

end Example

end Classic

end Descent
