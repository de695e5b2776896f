import Descent.Model.QuasiNewton
import Descent.Model.Scaled
import Descent.Proofs.Curvature
import Descent.Proofs.History.Recursion

/-!
# Learned curvature under a scaling

A scaled model hands each accepted step on with the change of the gradient in the units of the model
inside, and multiplies what that answers by its factor. In exact arithmetic a positive factor leaves
the curvature of a pair positive, so that a history inside keeps the pair and the products with it
meet it, in scaled units (`Model.scaled_quasiNewton_learns`). A negative factor turns the sign
round: the history then refuses each pair that has positive curvature outside, and answers products
of negative curvature.
-/

set_option autoImplicit false

open scoped RealInnerProductSpace

namespace Descent

open Run

/-! ## One pair -/

namespace History

variable {n : Nat} [RealConstants]

def offered {α : Type} [Scalar α] (h : History α) (s y : Vec α) : History α :=
  if admits s y (Vec.inner s y) then h.store s y (Vec.inner s y) else h

theorem offered_coords (h : History ℝ) (s y : Point n) : h.offered (coords s) (coords y)
    = if admits (coords s) (coords y) ⟪s, y⟫ then h.store (coords s) (coords y) ⟪s, y⟫ else h := by
  rw [offered, Vec.inner_coords]

theorem admits_iff {s y : Point n} :
    admits (coords s) (coords y) ⟪s, y⟫ = true ↔ Scalar.epsilon * ‖s‖ * ‖y‖ < ⟪s, y⟫ := by
  simp [admits]

theorem inner_pos_of_curved {s y : Point n} (hcurved : Scalar.epsilon * ‖s‖ * ‖y‖ < ⟪s, y⟫) :
    0 < ⟪s, y⟫ :=
  curvature_pos_of_admits (admits_iff.mpr hcurved)

/-- A positive factor leaves the curvature of a pair safely positive. -/
theorem offered_of_pos (h : History ℝ) {r : ℝ} (hr : 0 < r) {s y : Point n}
    (hcurved : Scalar.epsilon * ‖s‖ * ‖y‖ < ⟪s, y⟫) :
    h.offered (coords s) (coords (r⁻¹ • y))
      = h.store (coords s) (coords (r⁻¹ • y)) ⟪s, r⁻¹ • y⟫ := by
  rw [offered_coords]
  refine if_pos (admits_iff.mpr ?_)
  rw [norm_smul, Real.norm_of_nonneg (inv_nonneg.mpr hr.le), real_inner_smul_right, mul_left_comm]
  exact mul_lt_mul_of_pos_left hcurved (inv_pos.mpr hr)

/-- A negative factor makes positive curvature negative. -/
theorem offered_of_neg (h : History ℝ) {r : ℝ} (hr : r < 0) {s y : Point n} (hsy : 0 < ⟪s, y⟫) :
    h.offered (coords s) (coords (r⁻¹ • y)) = h := by
  rw [offered_coords]
  refine if_neg fun hadmits => ?_
  have hinner := curvature_pos_of_admits hadmits
  rw [real_inner_smul_right] at hinner
  exact hinner.not_gt (mul_neg_of_neg_of_pos (inv_lt_zero.mpr hr) hsy)

theorem Curved.offered {h : History ℝ} (hh : Curved n h) (s y : Point n) :
    Curved n (h.offered (coords s) (coords y)) := by
  rw [offered_coords]
  split
  · next hadmits => exact hh.store ⟨s, y, curvature_pos_of_admits hadmits⟩
  · exact hh

/-- A history maps the step of a pair that it has just stored to the change of the gradient. -/
theorem Curved.apply_store {h : History ℝ} (hh : Curved n h) (p : Secant (Point n)) :
    (h.store (coords p.s) (coords p.y) ⟪p.s, p.y⟫).apply (coords p.s) = .ok (coords p.y) := by
  obtain ⟨kept, hkept⟩ : ∃ kept : List (Secant (Point n)),
      (if h.pairs.length = h.capacity then h.pairs.drop 1 else h.pairs) = corrections kept := by
    split
    · exact hh.drop 1
    · exact hh
  have hpairs : (h.store (coords p.s) (coords p.y) ⟪p.s, p.y⟫).pairs = corrections (p :: kept) := by
    rw [corrections_cons, ← hkept]
    rfl
  have inverses := inverses_absorb (gamma_pos hpairs) kept
  rw [apply_coords (gamma_pos hpairs) hpairs, absorbDirect,
    p.updateDirect_step (inverses.direct_positive _ p.s_ne_zero) inverses.direct_symmetric]

/-- The products of a history have positive curvature. -/
theorem Curved.exists_apply {h : History ℝ} (hh : Curved n h) {v : Point n} (hv : v ≠ 0) :
    ∃ w : Point n, h.apply (coords v) = .ok (coords w) ∧ 0 < ⟪v, w⟫ := by
  obtain ⟨pairs, hpairs⟩ := hh
  exact ⟨_, apply_coords (gamma_pos hpairs) hpairs v,
    (inverses_absorb (gamma_pos hpairs) pairs).direct_positive v hv⟩

theorem curved_of_empty {capacity : Nat} {h : History ℝ} (hempty : History.empty capacity = .ok h) :
    Curved n h :=
  (Reachable.empty hempty).curved

end History

/-! ## The two layers -/

namespace Model

variable {α σ : Type} [Scalar α]

def accept (m : Model α σ) (steps : List (Vec α × Vec α)) : Run σ Unit :=
  steps.forM fun p => m.acceptStep p.1 p.2

section Exact

variable {n : Nat} [RealConstants] {m : Model ℝ σ} {c : Scaling} {h : History ℝ}

/-- A quasi-Newton model offers each pair to its history. -/
theorem acceptStep_quasiNewton (hm : ∀ s y, Sure (m.acceptStep s y) fun _ => True) (s y : Point n) :
    Triple (fun t => t.1 = h) (m.quasiNewton.acceptStep (coords s) (coords y))
      (fun _ t => t.1 = h.offered (coords s) (coords y)) fun _ => False := by
  have hpush : Triple (fun h' => h' = h) (History.tryPush (coords s) (coords y))
      (fun _ h' => h' = h.offered (coords s) (coords y)) fun _ => False := by
    rintro _ journal rfl
    rw [History.tryPush_start (Vec.dot_coords s y), History.offered_coords]
    rfl
  refine Triple.bind (Triple.onFst hpush) fun _ => ?_
  -- the model inside does not see the history
  refine Triple.onSnd_at (P := fun h' _ => h' = h.offered (coords s) (coords y))
    (Q := fun _ h' _ => h' = h.offered (coords s) (coords y)) (F := fun _ _ => False) fun h' => ?_
  exact Triple.mono (Triple.frame (hm _ _)) (fun _ hh => ⟨hh, trivial⟩) (fun _ _ hh => hh.1)
    fun _ hh => hh.2

/-- A scaled one hands it on in the units of the model inside. -/
theorem acceptStep_scaled (hm : ∀ s y, Sure (m.acceptStep s y) fun _ => True)
    (hc : c.factorAs ℝ ≠ 0) (s y : Point n) :
    Triple (fun t => t.1 = h) ((m.quasiNewton.scaled c).acceptStep (coords s) (coords y))
      (fun _ t => t.1 = h.offered (coords s) (coords ((c.factorAs ℝ)⁻¹ • y))) fun _ => False := by
  have hpos : 0 < Scalar.abs (c.factorAs ℝ) := abs_pos.mpr hc
  show Triple _ (if 0 < Scalar.abs (c.factorAs ℝ) then _ else _) _ _
  rw [if_pos hpos, Vec.divide_coords]
  exact acceptStep_quasiNewton hm s _

theorem accept_scaled (hm : ∀ s y, Sure (m.acceptStep s y) fun _ => True)
    (hc : c.factorAs ℝ ≠ 0) (hh : History.Curved n h) (steps : List (Point n × Point n)) :
    Triple (fun t => t.1 = h) ((m.quasiNewton.scaled c).accept (steps.map History.coordsPair))
      (fun _ t => History.Curved n t.1) fun _ => False := by
  induction steps generalizing h with
  | nil => exact Triple.pure fun t ht => ht ▸ hh
  | cons p steps ih =>
      refine Triple.bind (acceptStep_scaled hm hc p.1 p.2) fun _ => ?_
      exact ih (hh.offered _ _)

/-- The products are those of the history, times the factor. -/
theorem hessianVector_scaled {t : History ℝ × σ} {v w : Point n}
    (happly : t.1.apply (coords v) = .ok (coords w)) (x : Vec ℝ) :
    Answers (· = t) ((m.quasiNewton.scaled c).hessianVector x (coords v))
      (coords (c.factorAs ℝ • w)) := by
  have hinside : Answers (· = t) (m.quasiNewton.hessianVector x (coords v)) (coords w) := by
    rintro t journal rfl
    show EndsIn _ _ (Run.start (liftM (t.1.apply (coords v)) : Evaluation _ _).run t journal).1
    rw [happly]
    exact ⟨rfl, rfl⟩
  refine Answers.bind hinside ?_
  rw [Vec.scale_coords]
  exact Answers.pure _

/-- Under a positive factor a pair of safely positive curvature is learned. -/
theorem hessianVector_of_pos (hh : History.Curved n h) (hc : 0 < c.factorAs ℝ) {s y : Point n}
    (hcurved : Scalar.epsilon * ‖s‖ * ‖y‖ < ⟪s, y⟫) {t : History ℝ × σ}
    (ht : t.1 = h.offered (coords s) (coords ((c.factorAs ℝ)⁻¹ • y))) (x : Vec ℝ) :
    Answers (· = t) ((m.quasiNewton.scaled c).hessianVector x (coords s)) (coords y) := by
  rw [History.offered_of_pos _ hc hcurved] at ht
  have hkept : 0 < ⟪s, (c.factorAs ℝ)⁻¹ • y⟫ := by
    rw [real_inner_smul_right]
    exact mul_pos (inv_pos.mpr hc) (History.inner_pos_of_curved hcurved)
  have happly : t.1.apply (coords s) = .ok (coords ((c.factorAs ℝ)⁻¹ • y)) := by
    rw [ht]
    exact hh.apply_store ⟨s, _, hkept⟩
  have hanswers := hessianVector_scaled (m := m) (c := c) happly x
  rwa [smul_inv_smul₀ hc.ne'] at hanswers

/-- Under a negative one a pair of positive curvature is refused, and the product with its step has
negative curvature. -/
theorem hessianVector_of_neg (hh : History.Curved n h) (hc : c.factorAs ℝ < 0) {s y : Point n}
    (hsy : 0 < ⟪s, y⟫) {t : History ℝ × σ}
    (ht : t.1 = h.offered (coords s) (coords ((c.factorAs ℝ)⁻¹ • y))) :
    t.1 = h ∧ ∃ w : Point n, ⟪s, w⟫ < 0 ∧ ∀ x,
      Answers (· = t) ((m.quasiNewton.scaled c).hessianVector x (coords s)) (coords w) := by
  rw [History.offered_of_neg _ hc hsy] at ht
  have hs : s ≠ 0 := fun hzero => by simp [hzero] at hsy
  obtain ⟨w, hw, hsw⟩ := hh.exists_apply hs
  refine ⟨ht, c.factorAs ℝ • w, ?_, hessianVector_scaled (ht ▸ hw)⟩
  rw [real_inner_smul_right]
  exact mul_neg_of_neg_of_pos hc hsw

/-- **Only a positive scaling leaves learned curvature alone.** Let a scaled quasi-Newton model that
started with an empty history have been told of any steps. If then a pair `(s, y)` is reported whose
curvature is safely positive in scaled units, the product with `s` at any point is `y`, unless the
objective is maximized. If it is, the pair is lost on the history, and the product with `s` has
negative curvature. -/
theorem scaled_quasiNewton_learns (hm : ∀ s y, Sure (m.acceptStep s y) fun _ => True)
    {capacity : Nat} {h₀ : History ℝ} (hempty : History.empty capacity = .ok h₀)
    (hscale : 0 < (Scalar.ofFloat c.scale : ℝ))
    (hnegative : (Scalar.ofFloat (-c.scale) : ℝ) = -Scalar.ofFloat c.scale)
    (steps : List (Point n × Point n)) {s y : Point n}
    (hcurved : Scalar.epsilon * ‖s‖ * ‖y‖ < ⟪s, y⟫) :
    Triple (fun t => t.1 = h₀) (do
        (m.quasiNewton.scaled c).accept (steps.map History.coordsPair)
        let (before, _) ← get
        (m.quasiNewton.scaled c).acceptStep (coords s) (coords y)
        return before)
      (fun before t => ∃ w : Point n,
        (∀ x, Answers (· = t) ((m.quasiNewton.scaled c).hessianVector x (coords s)) (coords w)) ∧
        (w = y ↔ c.maximize = false) ∧
        (c.maximize = true → t.1 = before ∧ ⟪s, w⟫ < 0)) fun _ => False := by
  have hsy : 0 < ⟪s, y⟫ := History.inner_pos_of_curved hcurved
  have hsign : if c.maximize then c.factorAs ℝ < 0 else 0 < c.factorAs ℝ := by
    unfold Scaling.factorAs Scaling.factor
    split
    · rw [hnegative]
      exact neg_lt_zero.mpr hscale
    · exact hscale
  have hc : c.factorAs ℝ ≠ 0 := by
    split at hsign
    · exact hsign.ne
    · exact hsign.ne'
  -- of the steps before, all that matters is that what they leave are secant pairs
  refine Triple.bind (accept_scaled hm hc (History.curved_of_empty hempty) steps) fun _ => ?_
  refine Triple.bind Triple.get_eq fun u => ?_
  refine Triple.pre (P := fun t => t.1 = u.1 ∧ History.Curved n u.1) (Triple.assume fun hh => ?_)
    (by rintro t ⟨rfl, hh⟩; exact ⟨rfl, hh⟩)
  refine Triple.bind (acceptStep_scaled hm hc s y) fun _ => Triple.pure fun t ht => ?_
  cases hmax : c.maximize with
  | false =>
      rw [hmax, if_neg Bool.false_ne_true] at hsign
      exact ⟨y, hessianVector_of_pos hh hsign hcurved ht, by simp, by simp⟩
  | true =>
      rw [hmax, if_pos rfl] at hsign
      obtain ⟨hsame, w, hdown, hanswers⟩ := hessianVector_of_neg (m := m) hh hsign hsy ht
      have hwy : w ≠ y := fun h => hdown.not_gt (h ▸ hsy)
      exact ⟨w, hanswers, by simpa using hwy, fun _ => ⟨hsame, hdown⟩⟩

end Exact

end Model

/-! ## A cap, turned round and not -/

section Cap

/-- The constants of the double format, and a conversion that is right for 1 and -1. -/
@[reducible] noncomputable def RealConstants.unitScales : RealConstants :=
  { RealConstants.double with ofFloat := fun x => if x = -1 then -1 else 1 }

attribute [local instance] RealConstants.unitScales

/-- The parabola `3 - x²`, which is greatest at zero. -/
def cap (α : Type) [Scalar α] : Model α Unit where
  dimension := 1
  objective x := pure (3.0 - Vec.normSquared x)
  gradient x := pure (Vec.scale x (-2.0))

theorem scales_unit : (Scalar.ofFloat 1 : ℝ) = 1 ∧ (Scalar.ofFloat (-1) : ℝ) = -1 := by
  have hne : (1 : Float) ≠ -1 := by decide +kernel
  exact ⟨if_neg hne, if_pos rfl⟩

theorem coords_units :
    coords (pointOf ![1]) = [1] ∧ coords (pointOf ![2]) = [2] ∧ coords (pointOf ![4]) = [4] := by
  simp

theorem inner_units : ⟪pointOf ![1], pointOf ![2]⟫ = 2 := by
  simp [pointOf, PiLp.inner_apply]

theorem curved_units :
    Scalar.epsilon * ‖pointOf ![1]‖ * ‖pointOf ![2]‖ < ⟪pointOf ![1], pointOf ![2]⟫ := by
  have hnorms : ‖pointOf ![1]‖ = 1 ∧ ‖pointOf ![2]‖ = 2 := by
    simp [pointOf, EuclideanSpace.norm_eq]
  rw [inner_units, hnorms.1, hnorms.2]
  show (2.220446049250313e-16 : ℝ) * 1 * 2 < 2
  norm_num

/-- With room for one pair, an earlier one makes way. -/
theorem scaled_quasiNewton_learns_cap :
    Triple (fun t => t.1 = ⟨1, []⟩) (do
        ((cap ℝ).quasiNewton.scaled {}).accept [([1], [4])]
        let (before, _) ← get
        ((cap ℝ).quasiNewton.scaled {}).acceptStep [1] [2]
        return before)
      (fun _ t => Answers (· = t) (((cap ℝ).quasiNewton.scaled {}).hessianVector [0] [1]) [2])
      fun _ => False := by
  have hempty : History.empty 1 = .ok (⟨1, []⟩ : History ℝ) := rfl
  have h := Model.scaled_quasiNewton_learns (m := cap ℝ) (c := {}) (fun _ _ => .pure trivial) hempty
    (by rw [scales_unit.1]; exact one_pos) (by rw [scales_unit.1, scales_unit.2])
    [(pointOf ![1], pointOf ![4])] curved_units
  simp only [List.map_cons, List.map_nil, History.coordsPair, coords_units] at h
  refine Triple.post h ?_
  rintro _ t ⟨w, hanswers, hw, -⟩
  have hanswer := hanswers [0]
  rwa [hw.mpr trivial, coords_units.2.1] at hanswer

/-- Of the cap that is maximized, `(1, 2)` is a pair of positive curvature. It is not kept, and the
product with 1 is -1 after it. -/
theorem maximized_pair_lost :
    Triple (fun t => t = (⟨1, []⟩, ())) (do
        ((cap ℝ).quasiNewton.scaled { maximize := true }).acceptStep [1] [2]
        Run.outcome (((cap ℝ).quasiNewton.scaled { maximize := true }).hessianVector [0] [1]))
      (fun r t => r = .ok [-1] ∧ t.1.pairs = []) (fun _ => False) ∧
    Scalar.epsilon * Vec.norm [1] * Vec.norm [2] < (2 : ℝ) ∧ Vec.dot [1] [2] = .ok (2 : ℝ) := by
  have hcurved := curved_units
  have hdot := Vec.dot_coords (pointOf ![1]) (pointOf ![2])
  rw [inner_units, ← Vec.norm_coords, ← Vec.norm_coords, coords_units.1, coords_units.2.1]
    at hcurved
  rw [inner_units, coords_units.1, coords_units.2.1] at hdot
  refine ⟨?_, hcurved, hdot⟩
  have hfactor : ({ maximize := true } : Scaling).factorAs ℝ = -1 := scales_unit.2
  have hsy : 0 < ⟪pointOf ![1], pointOf ![2]⟫ := by
    rw [inner_units]
    exact two_pos
  have hoffered := Model.acceptStep_scaled (m := cap ℝ) (c := { maximize := true }) (h := ⟨1, []⟩)
    (fun _ _ => .pure trivial) (by rw [hfactor]; norm_num) (pointOf ![1]) (pointOf ![2])
  rw [hfactor, History.offered_of_neg _ (by norm_num) hsy, coords_units.1, coords_units.2.1]
    at hoffered
  refine Triple.bind (Triple.pre hoffered fun t ht => congrArg Prod.fst ht) fun _ => ?_
  intro t journal ht
  have happly : t.1.apply (coords (pointOf ![1])) = .ok (coords (pointOf ![1])) := by
    rw [ht]
    show Except.ok (Vec.scale (coords (pointOf ![1])) (1 / 1)) = _
    rw [Vec.scale_coords, div_one, one_smul]
  have hanswers := Model.hessianVector_scaled (m := cap ℝ) (c := { maximize := true }) happly [0]
  have hproduct : coords (({ maximize := true } : Scaling).factorAs ℝ • pointOf ![1]) = [-1] := by
    rw [hfactor]
    simp [coords, pointOf]
  rw [hproduct, coords_units.1] at hanswers
  refine Triple.post hanswers.outcome ?_ t journal rfl
  rintro r _ ⟨rfl, hr⟩
  exact ⟨hr, by rw [ht]⟩

end Cap

end Descent
