import Descent.Proofs.ExactModel.Objective
import Descent.Proofs.Extended.Unbounded
import Descent.Proofs.Radius

/-!
# Rounds on a quadratic objective

On a quadratic objective the predicted decrease of a Newton-CG step is the decrease itself. It is
positive, since the truncated conjugate gradients lower the model, so that the ratio is 1 and the
step is accepted (`NewtonCg.propose_exact`, `TrustRegion.attempt_accepts`). The radius does not
shrink after it (`TrustRegion.update_keeps`). One round therefore leads from the exact values at a
point to the exact values at the next (`NewtonCg.round_exact`), with one evaluation of the objective
and one of the gradient.
-/

set_option autoImplicit false

open scoped RealInnerProductSpace

namespace Descent

open Run Extended Vec

variable {σ ω μ : Type} {n : Nat} {H : Point n →ₗ[ℝ] Point n} {β x w : Point n} [RealConstants]

/-! ## The radius -/

namespace TrustRegion

/-- The greatest radius or the factor of growth is a number, as all settings of real arithmetic are,
so that the radius stays one: no step leads to the boundary of an infinite ball. -/
def Config.Bounded (c : Config Extended) : Prop :=
  Scalar.isFinite c.maxRadius = true ∨ Scalar.isFinite c.increaseFactor = true

/-- The radius is a positive number, and not above the greatest. -/
def Config.Allows (c : Config Extended) (radius : Extended) : Prop :=
  ∃ Δ : ℝ, radius = real Δ ∧ 0 < Δ ∧ radius ≤ c.maxRadius

theorem exists_minNum {a b : Extended} (ha : 0 < a) (hb : 0 < b)
    (h : Scalar.isFinite a = true ∨ Scalar.isFinite b = true) :
    ∃ r : ℝ, Scalar.minNum a b = real r ∧ 0 < r := by
  rcases pos_cases ha with rfl | ⟨r, rfl, hr⟩
  · rcases pos_cases hb with rfl | ⟨s, rfl, hs⟩
    · rcases h with h | h
      · cases h
      · cases h
    · have habove : ¬ (top : Extended) ≤ real s := id
      exact ⟨s, by rw [Scalar.minNum, if_neg habove, isNaN_real, if_neg Bool.false_ne_true], hs⟩
  · rcases pos_cases hb with rfl | ⟨s, rfl, hs⟩
    · exact ⟨r, if_pos trivial, hr⟩
    · exact ⟨min r s, real_minNum, lt_min hr hs⟩

/-- The least of a positive number and the greatest radius is allowed. -/
theorem Config.allows_minNum {c : Config Extended} (hc : c.Valid) {a : Extended} (ha : 0 < a)
    (h : Scalar.isFinite a = true ∨ Scalar.isFinite c.maxRadius = true) :
    c.Allows (Scalar.minNum a c.maxRadius) := by
  obtain ⟨Δ, hΔ, hpos⟩ := exists_minNum ha hc.maxRadius h
  exact ⟨Δ, hΔ, hpos, minNum_le_right (isNaN_of_lt hc.maxRadius).2⟩

theorem allows_firstRadius {c : Config Extended} (hc : c.Valid) {o : Options Extended}
    (ho : o.Valid) (r : ℝ) : c.Allows (firstRadius o c (real r)) := by
  have hfinite : Scalar.isFinite
      (o.trustRegionInitialRadius.getD (if 0 < real r then real r else 1)) = true := by
    cases hradius : o.trustRegionInitialRadius with
    | some radius => exact (ho.initialRadius radius hradius).2
    | none =>
        show Scalar.isFinite (if 0 < real r then real r else 1) = true
        split <;> rfl
  exact Config.allows_minNum hc (initialRadius_pos ho (real r)) (.inl hfinite)

/-- After a step with the ratio 1 the radius is allowed and not less. -/
theorem update_keeps {c : Config Extended} (hc : c.Valid) (hbounded : c.Bounded)
    {s : State Extended} (hs : c.Allows s.radius) (stepNorm : Extended) (hit : Bool) :
    c.Allows (s.update c 1 stepNorm hit).radius ∧
      s.radius ≤ (s.update c 1 stepNorm hit).radius := by
  obtain ⟨Δ, hΔ, hpos, hmost⟩ := hs
  have hgood : ¬ (1 : Extended) < c.decreaseThreshold :=
    not_lt_of_le (le_trans hc.decreaseThreshold_le (le_of_lt hc.increaseThreshold_lt))
  have hradius : 0 < s.radius := hΔ ▸ real_lt.mpr hpos
  have hsame : s.radius ≤ s.radius := Scalar.Ordered.le_refl (isNaN_of_lt hradius).2
  unfold State.update
  -- the ratio 1 is above both thresholds, so that only the branch of growth remains
  rw [if_neg hgood]
  split
  · have hfinite : Scalar.isFinite c.increaseFactor = true →
        Scalar.isFinite (c.increaseFactor * s.radius) = true := by
      intro hfinite
      obtain ⟨φ, hφ⟩ := exists_real hfinite
      rw [hφ, hΔ]
      rfl
    have hgrown : 0 < c.increaseFactor * s.radius := product_pos hc.increaseFactor_pos hradius
    exact ⟨Config.allows_minNum hc hgrown (hbounded.symm.imp_left hfinite),
      Scalar.minNum_mem (s.radius ≤ ·) (le_increase hc hradius) hmost⟩
  · exact ⟨⟨Δ, hΔ, hpos, hmost⟩, hsame⟩

/-! ## Trial steps -/

/-- The trial step leads by `w` from the point `x`, and the predicted decrease is that of the
quadratic, which is positive. -/
structure Trial.IsExact (trial : Trial Extended) (H : Point n →ₗ[ℝ] Point n) (β x w : Point n) :
    Prop where
  point : trial.point = embed (coords (x + w))
  step : trial.step = embed (coords w)
  predicted : trial.predicted = real (-(modelValue H (H x - β) w))
  falls : modelValue H (H x - β) w < 0
  kind : trial.kind ≠ .lineSearch

/-- The actual decrease is the predicted one. -/
theorem Trial.IsExact.ratio {trial : Trial Extended} (h : trial.IsExact H β x w)
    (hH : H.IsSymmetric) :
    reductionRatio (real (quadraticValue H β x)) (real (quadraticValue H β (x + w)))
      trial.predicted = 1 := by
  have hne : -(modelValue H (H x - β) w) ≠ 0 := neg_ne_zero.mpr h.falls.ne
  have hdecrease : quadraticValue H β x - quadraticValue H β (x + w)
      = -(modelValue H (H x - β) w) := by
    rw [quadraticValue_add hH]
    ring
  have hpositive : (0 : Extended) < real (-(modelValue H (H x - β) w)) :=
    real_lt.mpr (neg_pos.mpr h.falls)
  rw [reductionRatio, h.predicted, if_pos hpositive, real_sub, hdecrease, real_div hne,
    div_self hne, real_one]

end TrustRegion

/-! ## Steps of the Newton-CG method -/

/-- The iterate stands at the point `x` with the values of the quadratic there. -/
structure Iterate.At (iterate : Iterate Extended) (H : Point n →ₗ[ℝ] Point n) (β x : Point n) :
    Prop where
  point : iterate.x = embed (coords x)
  value : iterate.f = real (quadraticValue H β x)
  gradient : iterate.g = embed (coords (H x - β))

/-- The computed value of the quadratic model is the model's. -/
theorem Operator.Applies.quadratic_succeeds {op : Operator Extended σ} {K : σ → Prop}
    (hop : op.Applies H K) (g w : Point n) :
    Succeeds K (op.quadratic (embed (coords g)) (embed (coords w))) fun q t =>
      K t ∧ q = real (modelValue H g w) := by
  refine Settles.bind (hop w) fun hw => Settles.assume ?_
  rintro rfl
  rw [dot_embed, dot_embed]
  exact Settles.pure fun _ ht => ⟨ht, rfl⟩

namespace NewtonCg

variable {cg : TruncatedCg.Config Extended} {iterate : Iterate Extended} {Δ : ℝ}

theorem exists_toleranceAt (hcg : cg.Valid) {r : ℝ} (hr : 0 ≤ r) :
    ∃ rtol : ℝ, cg.toleranceAt (real r) = real rtol ∧ 0 ≤ rtol := by
  obtain ⟨tol, htol⟩ := exists_real_of_between hcg.relativeTolerance_pos hcg.relativeTolerance_lt
  have hpos : 0 < tol := by simpa [htol] using hcg.relativeTolerance_pos
  refine ⟨min tol √r, ?_, le_min hpos.le (Real.sqrt_nonneg r)⟩
  rw [TruncatedCg.Config.toleranceAt, htol, real_sqrt hr, real_minNum]

theorem newtonStep_falls {K : σ → Prop} {curvature : Curvature Extended σ}
    (hcurvature : curvature.operator.Applies H K) (hH : H.IsSymmetric) (hcg : cg.Valid)
    (hiterate : iterate.At H β x) (hg : H x - β ≠ 0) (hΔ : 0 < Δ) :
    Succeeds K (newtonStep none cg curvature iterate (real Δ) (real ‖H x - β‖)) fun r t =>
      K t ∧ r.2 ≠ .lineSearch ∧
        ∃ w : Point n, r.1 = embed (coords w) ∧ modelValue H (H x - β) w < 0 := by
  obtain ⟨rtol, htolerance, hrtol⟩ := exists_toleranceAt hcg (norm_nonneg (H x - β))
  have hlength : iterate.x.length = n := by rw [hiterate.point, length_embed, length_coords]
  show Succeeds K (do
    let solution ← Evaluation.required (TruncatedCg.solveFrom cg curvature.operator iterate.g
      (real Δ) (zeros iterate.x.length) (cg.toleranceAt (real ‖H x - β‖)))
    emit (.newtonStep solution.iterations solution.kind)
    return (solution.step, solution.kind)) _
  rw [hlength, hiterate.gradient, htolerance]
  refine Settles.bind (Evaluation.required_succeeds
    (TruncatedCg.solveFrom_falls cg hH hcurvature hg hΔ hrtol)) fun solution => ?_
  exact Settles.bind Settles.emit fun _ => Settles.pure fun _ ht => ht

variable {m : Model Extended σ} {f g : Nat}

/-- The trial step lowers the quadratic by what is predicted. -/
theorem propose_exact (hm : m.IsQuadratic H β) (hH : H.IsSymmetric) (hcg : cg.Valid)
    (hiterate : iterate.At H β x) (hg : H x - β ≠ 0) (hΔ : 0 < Δ) :
    Succeeds (Model.Asked f g)
      (propose none cg m.counted iterate (real Δ) (real ‖H x - β‖)) fun trial t =>
        Model.Asked f g t ∧ ∃ w, trial.IsExact H β x w := by
  unfold propose
  rw [hiterate.point]
  refine Settles.bind (Evaluation.required_succeeds (hm.curvature_succeeds x)) fun curvature =>
    Settles.assume fun hcurvature => ?_
  refine Settles.bind (newtonStep_falls hcurvature hH hcg hiterate hg hΔ) ?_
  rintro ⟨step, kind⟩
  refine Settles.assume ?_
  rintro ⟨hkind, w, rfl, hfalls⟩
  rw [hiterate.gradient]
  refine Settles.bind (Evaluation.required_succeeds
    (hcurvature.quadratic_succeeds (H x - β) w)) fun q => Settles.assume ?_
  rintro rfl
  rw [add_embed]
  exact Settles.pure fun _ ht => ⟨ht, w, rfl, rfl, rfl, hfalls, hkind⟩

end NewtonCg

/-! ## Rounds -/

namespace TrustRegion

variable {m : Model Extended σ} {f g : Nat} {c : Config Extended} {iterate : Iterate Extended}

/-- The trial step is accepted. -/
theorem assess_accepts (hm : m.IsQuadratic H β) (hH : H.IsSymmetric) (hc : c.Valid)
    (hiterate : iterate.At H β x) {trial : Trial Extended} (htrial : trial.IsExact H β x w) :
    Succeeds (Model.Asked f g) (assess c m.counted iterate trial) fun outcome t =>
      Model.Asked (f + 1) (g + 1) t ∧ outcome = .accepted trial
        (real (quadraticValue H β (x + w))) (embed (coords (H (x + w) - β))) 1 := by
  have hgood : c.acceptanceRatio < 1 :=
    lt_of_lt_of_le hc.acceptanceRatio_lt
      (le_trans hc.decreaseThreshold_le (le_of_lt hc.increaseThreshold_lt))
  unfold assess
  rw [htrial.point]
  refine Settles.bind (Evaluation.usable_succeeds (hm.objective_succeeds (x + w)) rfl _) ?_
  intro r
  refine Settles.assume ?_
  rintro rfl
  dsimp only
  rw [hiterate.value, htrial.ratio hH, if_pos hgood]
  refine Settles.bind (Evaluation.usable_succeeds (hm.gradient_succeeds (x + w))
    (allFinite_embed _) _) ?_
  intro r
  refine Settles.assume ?_
  rintro rfl
  exact Settles.pure fun _ ht => ⟨ht, rfl⟩

/-- The move ends at the point, with the norm of the gradient there. -/
theorem moveTo_unbounded (hm : m.IsQuadratic H β) (hiterate : iterate.At H β x) (y γ : Point n)
    (value : Extended) (number : Nat) :
    Triple (Model.Asked f g) (moveTo m.counted (Box.unbounded n) iterate (embed (coords y)) value
      (embed (coords γ)) number) (fun r t => Model.Asked f g t ∧
        r = (⟨embed (coords y), value, embed (coords γ), List.replicate n false, number⟩,
          real ‖γ‖)) fun _ => False := by
  unfold moveTo
  rw [hiterate.point, hiterate.gradient, sub_embed, sub_embed,
    optimality_unbounded (by simp) (by simp), norm_embed]
  show Triple (Model.Asked f g) (do
    Run.onSnd (m.acceptStep (embed (coords (y - x))) (embed (coords (γ - (H x - β)))))
    return ((⟨embed (coords y), value, embed (coords γ), List.replicate n false, number⟩ :
      Iterate Extended), real ‖γ‖)) _ _
  rw [hm.acceptStep]
  exact fun _ _ ht => ⟨ht, rfl⟩

/-- The attempt is accepted with the ratio 1. -/
theorem attempt_accepts (hm : m.IsQuadratic H β) (hH : H.IsSymmetric) (hc : c.Valid)
    (hiterate : iterate.At H β x) (hg : H x - β ≠ 0) {Δ : ℝ} (hΔ : 0 < Δ)
    (params : Option (LineSearchParams Extended)) (box : Box Extended) :
    Succeeds (Model.Asked f g) (attempt (NewtonCg.stepper none c.cg params) c m.counted box iterate
        (real Δ) (real ‖H x - β‖) ()) fun r t =>
      Model.Asked (f + 1) (g + 1) t ∧ ∃ trial w, trial.IsExact H β x w ∧
        r = (.accepted trial (real (quadraticValue H β (x + w)))
          (embed (coords (H (x + w) - β))) 1, ()) := by
  have hpropose : Succeeds (Model.Asked f g) ((NewtonCg.stepper none c.cg params).propose m.counted
      box iterate (real Δ) (real ‖H x - β‖) ()) fun r t =>
        Model.Asked f g t ∧ ∃ w, r.1.IsExact H β x w :=
    Settles.bind (NewtonCg.propose_exact hm hH hc.cg hiterate hg hΔ).adapt fun trial =>
      Settles.pure fun _ ht => ht
  refine Settles.bind (Settles.caught hpropose) ?_
  rintro (e | ⟨trial, _⟩)
  · exact fun _ _ h => h.elim
  · refine Settles.assume ?_
    rintro ⟨w, htrial⟩
    refine Settles.bind (assess_accepts hm hH hc hiterate htrial) fun outcome => Settles.assume ?_
    rintro rfl
    exact Settles.pure fun _ ht => ⟨ht, trial, w, htrial, rfl⟩

/-- The solve stands at the point `x` with the values of the quadratic there, and the radius is
allowed. -/
structure Stands (H : Point n →ₗ[ℝ] Point n) (β : Point n) (c : Config Extended) (x : Point n)
    (p : Progress Extended (Memory Extended μ)) : Prop where
  iterate : p.iterate.At H β x
  gradientNorm : p.gradientNorm = real ‖H x - β‖
  radius : c.Allows p.memory.region.radius

end TrustRegion

/-- The step was accepted with the ratio 1, and not found by a line search. -/
structure Iteration.IsExact (i : Iteration Extended) : Prop where
  accepted : i.accepted = true
  ratio : i.ratio = some 1
  kind : i.kind ≠ .lineSearch

/-- From the radius `Δ` the round led to exact values at some point by an exact step, and the radius
is not less. -/
structure TrustRegion.Advances (H : Point n →ₗ[ℝ] Point n) (β : Point n) (c : Config Extended)
    (Δ : Extended) (r : Round Extended (Memory Extended μ)) : Prop where
  stands : ∃ y, Stands H β c y r.progress
  exact : r.iteration.IsExact
  radius_le : Δ ≤ r.iteration.radius
  radius_eq : r.progress.memory.region.radius = r.iteration.radius
  verdict : ∀ status, r.verdict = some status → status.isFailure = false

/-- **A round on a quadratic takes one exact step.** -/
theorem NewtonCg.round_exact {s : Solve Extended σ ω} (hm : s.model.IsQuadratic H β)
    (hH : H.IsSymmetric) {c : TrustRegion.Config Extended} (hc : c.Valid) (hbounded : c.Bounded)
    (params : Option (LineSearchParams Extended)) {f g : Nat} (number : Nat)
    {p : Progress Extended (TrustRegion.Memory Extended Unit)} (hp : TrustRegion.Stands H β c x p)
    (hg : H x - β ≠ 0) :
    Succeeds (Model.Asked f g)
      (TrustRegion.round s (stepper none c.cg params) c (Box.unbounded n) number p) fun r t =>
        Model.Asked (f + 1) (g + 1) t ∧
          TrustRegion.Advances H β c p.memory.region.radius r := by
  obtain ⟨Δ, hΔ, hpos, hmost⟩ := hp.radius
  -- the attempt is known at numbers: those of the progress are put back
  have hattempt := TrustRegion.attempt_accepts (f := f) (g := g) hm hH hc hp.iterate hg hpos params
    (Box.unbounded n)
  rw [← hΔ, ← hp.gradientNorm] at hattempt
  unfold TrustRegion.round
  refine Settles.bind hattempt ?_
  rintro ⟨outcome, _⟩
  refine Settles.assume ?_
  rintro ⟨trial, w, htrial, ⟨⟩⟩
  dsimp only
  rw [htrial.point]
  refine Settles.bind (Settles.lift
    (TrustRegion.moveTo_unbounded hm hp.iterate (x + w) _ _ number)) ?_
  rintro ⟨iterate, norm⟩
  refine Settles.assume ?_
  rintro ⟨⟩
  obtain ⟨hallows, hkeeps⟩ := TrustRegion.update_keeps hc hbounded hp.radius (norm trial.step)
    (TrustRegion.hitBoundary trial.kind (norm trial.step) p.memory.region.radius)
  exact Settles.pure fun t ht => ⟨ht, {
    stands := ⟨x + w, ⟨rfl, rfl, rfl⟩, rfl, hallows⟩
    exact := ⟨rfl, TrustRegion.update_ratio .., htrial.kind⟩
    radius_le := hkeeps
    radius_eq := rfl
    verdict := by
      intro status hstatus
      rcases Solve.stepVerdict_cases hstatus with ⟨rfl, -⟩ | ⟨rfl, -⟩ <;> rfl }⟩

end Descent
