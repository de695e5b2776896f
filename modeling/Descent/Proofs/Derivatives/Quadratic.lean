import Mathlib.Algebra.MvPolynomial.PDeriv
import Descent.Proofs.Curvature
import Descent.Proofs.Derivatives

/-!
# Derivative checks of quadratics

A central difference of a polynomial of degree at most 2 is its derivative, whatever the step
(`eval_central_difference`), and so is one of an affine gradient. In exact arithmetic a check
compares what the model claims with the derivatives themselves then: it rejects every claim that is
wrong by more than the tolerance, and no other (`Checker.exact_on_quadratics`).
-/

set_option autoImplicit false

namespace Descent

open Run

/-! ## Central differences -/

section Polynomial

open MvPolynomial

variable {n : Nat}

/-- Along one variable a monomial is a power times a number, and its partial derivative is the
derivative of the power times that number. -/
theorem exists_monomial_along (s : Fin n →₀ ℕ) (a : ℝ) (x : Point n) (i : Fin n) :
    ∃ r : ℝ, (∀ t : ℝ, eval (x + EuclideanSpace.single i t) (monomial s a) = r * (x i + t) ^ s i) ∧
      eval x (pderiv i (monomial s a)) = r * (s i * x i ^ (s i - 1)) := by
  refine ⟨a * ∏ j ∈ Finset.univ.erase i, x j ^ s j, fun t => ?_, ?_⟩
  · rw [eval_monomial, Finsupp.prod_fintype _ _ fun _ => pow_zero _,
      ← Finset.mul_prod_erase _ _ (Finset.mem_univ i)]
    have hother : ∏ j ∈ Finset.univ.erase i, (x + EuclideanSpace.single i t) j ^ s j
        = ∏ j ∈ Finset.univ.erase i, x j ^ s j :=
      Finset.prod_congr rfl fun j hj => by simp [Finset.ne_of_mem_erase hj]
    rw [hother]
    simp
    ring
  · rw [pderiv_monomial, eval_monomial, Finsupp.prod_fintype _ _ fun _ => pow_zero _,
      ← Finset.mul_prod_erase _ _ (Finset.mem_univ i)]
    have hother : ∏ j ∈ Finset.univ.erase i, x j ^ (s - Finsupp.single i 1 : Fin n →₀ ℕ) j
        = ∏ j ∈ Finset.univ.erase i, x j ^ s j :=
      Finset.prod_congr rfl fun j hj => by simp [Finset.ne_of_mem_erase hj]
    rw [hother]
    simp
    ring

theorem pow_central_difference {k : ℕ} (hk : k ≤ 2) (a h : ℝ) :
    (a + h) ^ k - (a + -h) ^ k = 2 * h * (k * a ^ (k - 1)) := by
  interval_cases k
  · simp
  · simp
    ring
  · simp
    ring

/-- The central difference of a quadratic polynomial along a variable is its partial derivative
there times the distance of the points. -/
theorem eval_central_difference {p : MvPolynomial (Fin n) ℝ} (hp : p.totalDegree ≤ 2) (x : Point n)
    (i : Fin n) (h : ℝ) :
    eval (x + EuclideanSpace.single i h) p - eval (x + EuclideanSpace.single i (-h)) p
      = 2 * h * eval x (pderiv i p) := by
  rw [p.as_sum]
  simp only [map_sum, ← Finset.sum_sub_distrib, Finset.mul_sum]
  refine Finset.sum_congr rfl fun s hs => ?_
  have hdegree : s i ≤ 2 :=
    ((monomial_le_degreeOf i hs).trans (degreeOf_le_totalDegree p i)).trans hp
  obtain ⟨r, hpower, hderivative⟩ := exists_monomial_along s (p.coeff s) x i
  rw [hpower, hpower, hderivative, ← mul_sub, pow_central_difference hdegree]
  ring

end Polynomial

/-- The central difference of an affine map along a vector is the image of the vector under its
linear part. -/
theorem affine_central_difference {n : Nat} (H : Point n →ₗ[ℝ] Point n) (b x v : Point n) {t : ℝ}
    (ht : t ≠ 0) : (2.0 * t)⁻¹ • ((H (x + t • v) + b) - (H (x - t • v) + b)) = H v := by
  have htwo : (2.0 * t : ℝ) ≠ 0 := mul_ne_zero (by norm_num) ht
  have hdouble : (H (x + t • v) + b) - (H (x - t • v) + b) = (2.0 * t) • H v := by
    rw [map_add, map_sub, map_smul]
    norm_num
    module
  rw [hdouble, inv_smul_smul₀ htwo]

theorem Matrix.toMap_single {n : Nat} (a : Matrix ℝ) (i j : Fin n) :
    a.toMap n (EuclideanSpace.single j 1) i = a.coeff i j := by
  simp [toMap, pointOf]

namespace Derivatives

/-- What is known of the outcome for each number below `n` makes the list of all of them. -/
theorem eq_ofFn_of_forall₂ {γ : Type} {n : Nat} {R : Nat → γ → Prop} {f : Fin n → γ} {l : List γ}
    (h : List.Forall₂ R (List.range n) l) (hR : ∀ (i : Fin n) c, R i c → c = f i) :
    l = List.ofFn f := by
  have hlength : l.length = n := by simpa using h.length_eq.symm
  refine List.ext_getElem (by simpa using hlength) fun i hi _ => ?_
  rw [List.getElem_ofFn]
  refine hR ⟨i, hlength ▸ hi⟩ _ ?_
  have hi' : i < (List.range n).length := by simpa using hlength ▸ hi
  simpa using h.get hi' hi

variable {σ : Type} {K F : σ → Prop} {n : Nat} [RealConstants] {c : Checker ℝ} {m : Model ℝ σ}

/-! ## Entries -/

/-- The relative error is within a tolerance if the distance is, relative to the greater of 1 and
the claimed magnitude. -/
theorem Entry.compare_le_iff (i : Nat) (a d tol : ℝ) :
    (Entry.compare i a d).relativeError ≤ tol ↔ |a - d| ≤ tol * max 1 |a| := by
  have hpos : (0 : ℝ) < max 1 |a| := lt_max_of_lt_left one_pos
  simp only [Entry.compare, Scalar.real_abs, Scalar.real_isFinite, Scalar.real_maxNum, if_true]
  exact div_le_iff₀ hpos

theorem compareAll_coords (u w : Point n) : Checker.compareAll (coords u) (coords w)
    = List.ofFn fun i : Fin n => Entry.compare i (u i) (w i) := by
  refine List.ext_getElem (by simp [Checker.compareAll]) fun i hi _ => ?_
  simp [Checker.compareAll, coords]

namespace Checker

/-- A step that is fixed, or scaled with the point, is not zero. -/
theorem stepFor_ne_zero (hstep : c.step.getD Scalar.cbrtEpsilon ≠ 0) (a : ℝ) : c.stepFor a ≠ 0 := by
  have hscale : max 1 |a| ≠ 0 := (lt_max_of_lt_left one_pos).ne'
  unfold stepFor
  cases hc : c.step with
  | some h => simpa [hc] using hstep
  | none =>
      rw [hc, Option.getD_none] at hstep
      simpa using mul_ne_zero hstep hscale

/-! ## The gradient -/

omit [RealConstants] in
theorem getD_coords (x : Point n) (i : Fin n) : (coords x).getD i 0 = x i := by
  simp [coords]

omit [RealConstants] in
theorem set_coords (x : Point n) (i : Fin n) (t : ℝ) :
    (coords x).set i (x i + t) = coords (x + EuclideanSpace.single i t) := by
  refine List.ext_getElem (by simp) fun k hk hk' => ?_
  rw [length_coords] at hk'
  by_cases hki : k = i
  · subst hki
    simp [coords]
  · have hne : (⟨k, hk'⟩ : Fin n) ≠ i := fun h => hki (congrArg Fin.val h)
    simp [coords, Ne.symm hki, hne]

theorem ahead_coords (c : Checker ℝ) (x : Point n) (i : Fin n) :
    c.ahead (coords x) i = coords (x + EuclideanSpace.single i (c.stepFor (x i))) := by
  rw [ahead, getD_coords, set_coords]

theorem behind_coords (c : Checker ℝ) (x : Point n) (i : Fin n) :
    c.behind (coords x) i = coords (x + EuclideanSpace.single i (-c.stepFor (x i))) := by
  rw [behind, getD_coords, sub_eq_add_neg, set_coords]

/-- The objective is a polynomial of degree at most 2: each coordinate is compared with the partial
derivative. -/
theorem checkCoordinate_quadratic (hstep : c.step.getD Scalar.cbrtEpsilon ≠ 0)
    {p : MvPolynomial (Fin n) ℝ} (hp : p.totalDegree ≤ 2)
    (hobjective : ∀ y : Point n, Answers K (m.objective (coords y)) (MvPolynomial.eval y p))
    (x g : Point n) (i : Fin n) :
    Triple K (c.checkCoordinate m (coords x) (coords g) i) (fun r s => K s ∧
      r = .ok (.compare i (g i) (MvPolynomial.eval x (MvPolynomial.pderiv i p)))) F := by
  set h := c.stepFor (x i) with hh
  have hahead := (hobjective (x + EuclideanSpace.single i h)).outcome (F := F)
  have hbehind := (hobjective (x + EuclideanSpace.single i (-h))).outcome (F := F)
  rw [hh, ← ahead_coords] at hahead
  rw [hh, ← behind_coords] at hbehind
  refine Triple.post (checkCoordinate_triple (by simp) (by simp) hahead hbehind) ?_
  rintro _ s ⟨hs, _, _, rfl, rfl, rfl⟩
  -- the step is the distance of the two points, which the quotient takes out again
  have htwo : (2.0 * h : ℝ) ≠ 0 := mul_ne_zero (by norm_num) (stepFor_ne_zero hstep _)
  have hquotient : 2 * h * MvPolynomial.eval x (MvPolynomial.pderiv i p) / (2.0 * h)
      = MvPolynomial.eval x (MvPolynomial.pderiv i p) := by
    rw [div_eq_iff htwo]
    norm_num
    ring
  refine ⟨hs, ?_⟩
  rw [component, getD_coords, getD_coords, ← hh, eval_central_difference hp, hquotient]

theorem checkGradient_quadratic (hstep : c.step.getD Scalar.cbrtEpsilon ≠ 0)
    {p : MvPolynomial (Fin n) ℝ} (hp : p.totalDegree ≤ 2)
    (hobjective : ∀ y : Point n, Answers K (m.objective (coords y)) (MvPolynomial.eval y p))
    {x g : Point n} (hgradient : Answers K (m.gradient (coords x)) (coords g)) :
    Triple K (c.checkGradient m (coords x)) (fun r s => K s ∧
      r = { kind := .gradient, tolerance := c.tolerance, entries := List.ofFn fun i : Fin n =>
        .compare i (g i) (MvPolynomial.eval x (MvPolynomial.pderiv i p)) }) F := by
  have hlength : Succeeds K (m.gradient (coords x)) fun v s =>
      (K s ∧ v = coords g) ∧ v.length = (coords x).length :=
    Settles.mono hgradient (fun _ hs => hs) (fun _ _ h => ⟨h, by simp [h.2]⟩)
      (fun _ _ h => h) fun _ h => h
  refine Triple.post (checkGradient_triple (I := fun _ => K) (G := fun v => v = coords g)
    (R := fun _ i r => ∀ hi : i < n, r = .ok (.compare i (g ⟨i, hi⟩)
      (MvPolynomial.eval x (MvPolynomial.pderiv ⟨i, hi⟩ p)))) hlength ?_) ?_
  · rintro _ rfl _ _ i hi
    have hi' : i < n := by simpa using hi
    exact Triple.post (checkCoordinate_quadratic hstep hp hobjective x g ⟨i, hi'⟩)
      fun r s h => ⟨h.1, fun _ => h.2⟩
  · rintro _ s ⟨hs, _, components, rfl, hcomponents, rfl⟩
    refine ⟨hs, ?_⟩
    rw [length_coords] at hcomponents
    rw [eq_ofFn_of_forall₂ hcomponents fun i r hr => hr i.isLt, ← Function.comp_def Except.ok,
      ← List.map_ofFn, gathered, values_map_ok, errors_map_ok]

/-! ## Products with the Hessian -/

/-- The gradient is affine: a product is compared with the product of its matrix. -/
theorem compareProduct_affine (hstep : c.step.getD Scalar.cbrtEpsilon ≠ 0)
    {H : Point n →ₗ[ℝ] Point n} {b : Point n}
    (hgradient : ∀ y : Point n, Answers K (m.gradient (coords y)) (coords (H y + b)))
    {x v w : Point n} (hproduct : Answers K (m.hessianVector (coords x) (coords v)) (coords w))
    (kind : Kind) :
    Triple K (c.compareProduct m (coords x) (coords v) kind) (fun r s => K s ∧
      r = c.single kind (.ok (compareAll (coords w) (coords (H v))))) F := by
  unfold compareProduct
  rw [length_coords, length_coords, lengthError_self]
  refine Triple.bind hproduct.outcome fun r => Triple.assume ?_
  rintro rfl
  dsimp only
  rw [length_coords, lengthError_self]
  dsimp only
  rw [Vec.norm_coords, Vec.norm_coords]
  by_cases hv : v = 0
  · have hzero : (‖v‖ == 0) = true := by simp [hv]
    rw [if_pos hzero, Vec.zeros_eq, hv, map_zero]
    exact Triple.pure fun s hs => ⟨hs, rfl⟩
  · have hnonzero : ¬ (‖v‖ == 0) = true := by simpa using hv
    rw [if_neg hnonzero, Vec.along_coords, Vec.scale_coords, Vec.sub_coords, ok_bind]
    set t : ℝ := c.stepFor ‖x‖ / ‖v‖
    have ht0 : t ≠ 0 := div_ne_zero (stepFor_ne_zero hstep _) (norm_ne_zero_iff.mpr hv)
    refine Triple.bind (hgradient (x + t • v)).outcome fun r => Triple.assume ?_
    rintro rfl
    rw [ok_bind]
    refine Triple.bind (hgradient (x - t • v)).outcome fun r => Triple.assume ?_
    rintro rfl
    dsimp only
    rw [length_coords, length_coords, lengthError_self]
    dsimp only [Option.or]
    rw [Vec.sub_coords, ok_bind, Vec.divide_coords, affine_central_difference H b x v ht0]
    exact Triple.pure fun s hs => ⟨hs, rfl⟩

/-- The entries of a Hessian, column by column, each with its place row by row. -/
noncomputable def hessianEntries (claimed actual : Fin n → Fin n → ℝ) : List (Entry ℝ) :=
  (List.ofFn fun j => List.ofFn fun i =>
    Entry.compare (i * n + j) (claimed i j) (actual i j)).flatten

theorem mem_hessianEntries {claimed actual : Fin n → Fin n → ℝ} {e : Entry ℝ} :
    e ∈ hessianEntries claimed actual ↔
      ∃ i j : Fin n, e = .compare (i * n + j) (claimed i j) (actual i j) := by
  simp only [hessianEntries, List.mem_flatten, List.mem_ofFn]
  constructor
  · rintro ⟨_, ⟨j, rfl⟩, he⟩
    obtain ⟨i, rfl⟩ := List.mem_ofFn.mp he
    exact ⟨i, j, rfl⟩
  · rintro ⟨i, j, rfl⟩
    exact ⟨_, ⟨j, rfl⟩, List.mem_ofFn.mpr ⟨i, rfl⟩⟩

/-- Every place occurs once. -/
theorem index_hessianEntries (claimed actual : Fin n → Fin n → ℝ) :
    ((hessianEntries claimed actual).map (·.index)).Perm (List.range (n * n)) := by
  -- there are `n * n` entries, and each place is that of one
  refine ((List.subperm_of_subset List.nodup_range fun k hk => ?_).perm_of_length_le ?_).symm
  · have hk : k < n * n := List.mem_range.mp hk
    have hn : 0 < n := Nat.pos_of_mul_pos_left (Nat.zero_lt_of_lt hk)
    let i : Fin n := ⟨k / n, Nat.div_lt_of_lt_mul hk⟩
    let j : Fin n := ⟨k % n, Nat.mod_lt k hn⟩
    refine List.mem_map.mpr ⟨_, mem_hessianEntries.mpr ⟨i, j, rfl⟩, ?_⟩
    exact Nat.div_add_mod' k n
  · simp [hessianEntries, Function.comp_def]

theorem checkHessian_affine (hstep : c.step.getD Scalar.cbrtEpsilon ≠ 0) {a : Matrix ℝ}
    {b : Point n}
    (hgradient : ∀ y : Point n, Answers K (m.gradient (coords y)) (coords (a.toMap n y + b)))
    {hv : Point n → Point n → Point n} (hproduct : ∀ y v : Point n,
      Answers K (m.hessianVector (coords y) (coords v)) (coords (hv y v)))
    (x : Point n) :
    Triple K (c.checkHessian m (coords x)) (fun r s => K s ∧
      r = { kind := .hessian, tolerance := c.tolerance
            entries := hessianEntries (fun i j => hv x (EuclideanSpace.single j 1) i)
              fun i j => a.coeff i j }) F := by
  have hcolumn : ∀ j < (coords x).length, Triple K
      (c.compareProduct m (coords x) (Vec.unit (coords x).length j) .hessian)
      (fun r s => K s ∧ ∃ o, (∀ hj : j < n, o = .ok (compareAll
          (coords (hv x (EuclideanSpace.single ⟨j, hj⟩ 1)))
          (coords (a.toMap n (EuclideanSpace.single ⟨j, hj⟩ 1))))) ∧
        r = c.single .hessian o) F := by
    intro j hj
    rw [length_coords] at hj ⊢
    rw [Vec.unit_eq hj]
    exact Triple.post (compareProduct_affine hstep hgradient (hproduct x _) .hessian)
      fun r s h => ⟨h.1, _, fun _ => rfl, h.2⟩
  refine Triple.post (checkHessian_triple hcolumn) ?_
  rintro _ s ⟨hs, products, hproducts, rfl⟩
  refine ⟨hs, ?_⟩
  rw [length_coords] at hproducts ⊢
  have hcolumns : (products.zipIdx.map (inColumn n)) = (List.ofFn fun j : Fin n =>
      List.ofFn fun i : Fin n => Entry.compare (i * n + j)
        (hv x (EuclideanSpace.single j 1) i) (a.coeff i j)).map Except.ok := by
    rw [eq_ofFn_of_forall₂ hproducts fun j o ho => ho j.isLt]
    refine List.ext_getElem (by simp) fun j hj _ => ?_
    simp [inColumn, compareAll_coords, Matrix.toMap_single, Entry.compare, Function.comp_def]
  rw [hcolumns, values_map_ok, errors_map_ok]
  rfl

/-- **On quadratics the checks are exact.** Let the step be fixed or scaled with the point, but not
zero. If the objective is a polynomial of degree at most 2, the check of any gradient compares each
of its components with the partial derivative; if the gradient is affine, the check of any products
with the Hessian compares each entry, in one place each, with that of the matrix. There is no error,
and a check passes exactly if all these differ by no more than the tolerance, relative to the
greater of 1 and the claimed magnitude. -/
theorem exact_on_quadratics (hstep : c.step.getD Scalar.cbrtEpsilon ≠ 0) (x : Point n) :
    (∀ (p : MvPolynomial (Fin n) ℝ) (g : Point n → Point n), p.totalDegree ≤ 2 →
      (∀ y : Point n, Answers K (m.objective (coords y)) (MvPolynomial.eval y p)) →
      (∀ y : Point n, Answers K (m.gradient (coords y)) (coords (g y))) →
      Triple K (c.checkGradient m (coords x)) (fun r s => K s ∧ r.errors = [] ∧
        r.entries = (List.ofFn fun i =>
          .compare i (g x i) (MvPolynomial.eval x (MvPolynomial.pderiv i p))) ∧
        (r.passed = true ↔ ∀ i, |g x i - MvPolynomial.eval x (MvPolynomial.pderiv i p)|
          ≤ c.tolerance * max 1 |g x i|)) fun _ => False) ∧
    ∀ (a : Matrix ℝ) (b : Point n) (hv : Point n → Point n → Point n),
      (∀ y : Point n, Answers K (m.gradient (coords y)) (coords (a.toMap n y + b))) →
      (∀ y v : Point n, Answers K (m.hessianVector (coords y) (coords v)) (coords (hv y v))) →
      Triple K (c.checkHessian m (coords x)) (fun r s => K s ∧ r.errors = [] ∧
        r.entries = (List.ofFn fun j => List.ofFn fun i =>
          .compare (i * n + j) (hv x (EuclideanSpace.single j 1) i) (a.coeff i j)).flatten ∧
        (r.entries.map (·.index)).Perm (List.range (n * n)) ∧
        (r.passed = true ↔ ∀ i j : Fin n, |hv x (EuclideanSpace.single j 1) i - a.coeff i j|
          ≤ c.tolerance * max 1 |hv x (EuclideanSpace.single j 1) i|)) fun _ => False := by
  refine ⟨fun p g hp hobjective hgradient => ?_, fun a b hv hgradient hproduct => ?_⟩
  · refine Triple.post (checkGradient_quadratic hstep hp hobjective (hgradient x)) ?_
    rintro _ s ⟨hs, rfl⟩
    refine ⟨hs, rfl, rfl, ?_⟩
    simp only [Report.passed_iff, true_and, List.forall_mem_ofFn_iff, Entry.compare_le_iff]
  · refine Triple.post (checkHessian_affine hstep hgradient hproduct x) ?_
    rintro _ s ⟨hs, rfl⟩
    refine ⟨hs, rfl, rfl, index_hessianEntries _ _, ?_⟩
    simp only [Report.passed_iff, true_and, mem_hessianEntries, forall_exists_index]
    constructor
    · exact fun h i j => (Entry.compare_le_iff ..).mp (h _ i j rfl)
    · rintro h _ i j rfl
      exact (Entry.compare_le_iff ..).mpr (h i j)

end Checker

end Derivatives

section HalfTold

open Derivatives

attribute [local instance] RealConstants.double

/-- The product of two variables, with a gradient that lacks its second component and the products
of a Hessian to match. -/
noncomputable def halfTold : Model ℝ Unit where
  dimension := 2
  objective x := pure (x.getD 0 0 * x.getD 1 0)
  gradient x := pure [x.getD 1 0, 0]
  hessianVector _ v := pure [v.getD 1 0, 0]

/-- The Hessian of the product of two variables without its second row. -/
def halfHessian : Matrix ℝ := Matrix.ofFn 2 2 fun i j => if i = 0 ∧ j = 1 then 1 else 0

theorem coords_halfHessian (y : Point 2) :
    coords (halfHessian.toMap 2 y) = [(coords y).getD 1 0, 0] := by
  rw [Matrix.coords_toMap]
  simp [List.range_succ, Matrix.coeff, halfHessian, Matrix.ofFn, coords]

theorem halfTold_objective (y : Point 2) : Answers (fun _ => True) (halfTold.objective (coords y))
    (MvPolynomial.eval y (MvPolynomial.X 0 * MvPolynomial.X 1)) := by
  rw [map_mul, MvPolynomial.eval_X, MvPolynomial.eval_X, ← Checker.getD_coords y 0,
    ← Checker.getD_coords y 1]
  exact Answers.pure _

theorem halfTold_gradient (y : Point 2) : Answers (fun _ => True) (halfTold.gradient (coords y))
    (coords (halfHessian.toMap 2 y)) := by
  rw [coords_halfHessian]
  exact Answers.pure _

/-- At `(2, 3)` the gradient is rejected. The Hessian passes, being that of the gradient. -/
theorem exact_on_halfTold :
    Triple (fun _ => True) (({} : Checker ℝ).checkGradient halfTold [2, 3])
      (fun r _ => r.errors = [] ∧ r.passed = false) (fun _ => False) ∧
    Triple (fun _ => True) (({} : Checker ℝ).checkHessian halfTold [2, 3])
      (fun r _ => r.errors = [] ∧ r.passed = true) fun _ => False := by
  have hx : coords (pointOf ![2, 3]) = [2, 3] := by simp
  have hstep : ({} : Checker ℝ).step.getD Scalar.cbrtEpsilon ≠ 0 := by
    show (6.0554544523933395e-6 : ℝ) ≠ 0
    norm_num
  have hdegree : (MvPolynomial.X 0 * MvPolynomial.X 1 : MvPolynomial (Fin 2) ℝ).totalDegree ≤ 2 :=
    (MvPolynomial.totalDegree_mul _ _).trans (by simp [MvPolynomial.totalDegree_X])
  obtain ⟨gradients, hessians⟩ := Checker.exact_on_quadratics (m := halfTold) (K := fun _ => True)
    hstep (pointOf ![2, 3])
  rw [hx] at gradients hessians
  constructor
  · have hgradient := gradients _ (halfHessian.toMap 2) hdegree halfTold_objective halfTold_gradient
    refine Triple.post hgradient ?_
    rintro r - ⟨-, herrors, -, hpassed⟩
    refine ⟨herrors, ?_⟩
    rw [← Bool.not_eq_true, hpassed, not_forall]
    refine ⟨1, ?_⟩
    have hclaimed : halfHessian.toMap 2 (pointOf ![2, 3]) 1 = 0 := by
      simp [Matrix.toMap, Matrix.coeff, halfHessian, Matrix.ofFn, pointOf]
    have hpartial : MvPolynomial.eval (pointOf ![(2 : ℝ), 3])
        (MvPolynomial.pderiv 1 (MvPolynomial.X 0 * MvPolynomial.X 1)) = 2 := by
      simp [pointOf, MvPolynomial.pderiv_X]
    rw [hpartial, hclaimed]
    show ¬ |(0 : ℝ) - 2| ≤ 1e-4 * max 1 |(0 : ℝ)|
    norm_num
  · have hhessian := hessians halfHessian 0 (fun _ v => halfHessian.toMap 2 v)
      (fun y => by rw [add_zero]; exact halfTold_gradient y)
      (fun _ v => by rw [coords_halfHessian]; exact Answers.pure _)
    refine Triple.post hhessian ?_
    rintro r - ⟨-, herrors, -, -, hpassed⟩
    refine ⟨herrors, hpassed.mpr fun i j => ?_⟩
    have htolerance : (0 : ℝ) ≤ ({} : Checker ℝ).tolerance := by
      show (0 : ℝ) ≤ 1e-4
      norm_num
    rw [Matrix.toMap_single, sub_self, abs_zero]
    positivity

end HalfTold

end Descent
