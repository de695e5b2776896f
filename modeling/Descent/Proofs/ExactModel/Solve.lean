import Descent.Proofs.ExactModel.Step
import Descent.Proofs.Noted

/-!
# Solves of quadratic objectives

In exact arithmetic the Newton-CG method with truncated conjugate gradients never has to take a step
back on an unbounded quadratic, be it convex or not. A round takes one exact step and leads from
exact values to exact values (`NewtonCg.round_exact`); so does the loop, whatever ends it
(`NewtonCg.loop_exact`), and the checks before it pass. Every iteration that an observer hears of
was accepted with the ratio 1, the radius never shrinks, and the objective and the gradient are
evaluated once for each iteration and once at the start (`Method.newtonCg_exact_on_quadratics`).
-/

set_option autoImplicit false

namespace Descent

open Run Extended Vec

variable {σ ω : Type} {n : Nat}

/-! ## What a solve leaves -/

section Trail

variable [RealConstants]

/-- The first `k` iterations are exact, and the radius, which never shrinks after `first`, is
`radius` after them. -/
structure ExactTrail (first : Extended) (k : Nat) (radius : Extended)
    (seen : List (Iteration Extended)) : Prop where
  length : seen.length = k
  exact : ∀ i ∈ seen, i.IsExact
  grows : Stepwise Iteration.radius (fun Δ i => Δ ≤ i.radius) first seen
  last : lastFigure Iteration.radius first seen = radius

theorem ExactTrail.nil (first : Extended) : ExactTrail first 0 first [] :=
  ⟨rfl, fun _ hi => absurd hi List.not_mem_nil, trivial, rfl⟩

theorem ExactTrail.append {first radius : Extended} {k : Nat} {seen : List (Iteration Extended)}
    {i : Iteration Extended} (h : ExactTrail first k radius seen)
    (hi : i.IsExact) (hle : radius ≤ i.radius) :
    ExactTrail first (k + 1) i.radius (seen ++ [i]) where
  length := by rw [List.length_append, h.length, List.length_singleton]
  exact := by
    intro j hj
    rcases List.mem_append.mp hj with hj | hj
    · exact h.exact j hj
    · exact List.mem_singleton.mp hj ▸ hi
  grows := h.grows.append (by rwa [h.last])
  last := lastFigure_append ..

/-- The record is no failure, the observer has heard of exact steps only, after which the radius did
not shrink from `first` on, and the evaluations are one for each iteration and one at the start. -/
structure Record.IsExact (record : Record Extended) (first : Extended)
    (seen : List (Iteration Extended)) : Prop where
  noFailure : record.status.isFailure = false
  noError : record.error = none
  heard : seen.length = record.iterations
  exact : ∀ i ∈ seen, i.IsExact
  grows : Stepwise Iteration.radius (fun Δ i => Δ ≤ i.radius) first seen
  objective : record.counts.objective = record.iterations + 1
  gradient : record.counts.gradient = record.iterations + 1

end Trail

/-! ## The loop -/

section Loop

variable [RealConstants] {H : Point n →ₗ[ℝ] Point n} {β : Point n}

namespace Solve

/-- A gradient of the norm zero ends a solve. -/
theorem threshold_nonneg {s : Solve Extended σ ω} (h : s.options.Valid) (initial : Extended) :
    0 ≤ s.threshold initial := by
  unfold threshold
  split
  · have hnumber : Scalar.isNaN s.options.gradientTolerance = false := by
      rw [isNaN_eq_false]
      intro hnan
      exact (hnan ▸ h.gradientTolerance : (0 : Extended) ≤ nan)
    exact le_trans h.gradientTolerance (le_maxNum_left hnumber)
  · exact h.gradientTolerance

variable {s : Solve Extended σ (ω × List (Iteration Extended))} {o : Observer Extended ω}

/-- The record of a solve that ends after exact steps is exact. -/
theorem finish_exact (hs : s.observer = o.noting) {status : Status}
    (hstatus : status.isFailure = false) (iterate : Iterate Extended) (gradientNorm : Extended)
    (k : Nat) (first radius : Extended) :
    Triple (fun u => Model.Asked (k + 1) (k + 1) u.1 ∧ ExactTrail first k radius u.2.2)
      (s.finish status iterate gradientNorm k none) (fun record u => record.IsExact first u.2.2)
      fun _ => False := by
  refine Triple.post (finish_noted (K := fun t seen =>
    Model.Asked (k + 1) (k + 1) t ∧ ExactTrail first k radius seen) hs status iterate gradientNorm
    k none) ?_
  rintro record u ⟨⟨hasked, htrail⟩, hshows, hcounts⟩
  exact {
    noFailure := hshows.status ▸ hstatus
    noError := hshows.error
    heard := htrail.length.trans hshows.iterations.symm
    exact := htrail.exact
    grows := htrail.grows
    objective := by rw [hcounts, hshows.iterations, hasked.1]
    gradient := by rw [hcounts, hshows.iterations, hasked.2] }

end Solve

variable {s : Solve Extended σ (ω × List (Iteration Extended))} {o : Observer Extended ω}
  {c : TrustRegion.Config Extended}

/-- **From exact values on, a solve takes exact steps**, until a test or a budget ends it. -/
theorem NewtonCg.loop_exact (hs : s.observer = o.noting) (hm : s.model.IsQuadratic H β)
    (hH : H.IsSymmetric) (hc : c.Valid) (hbounded : c.Bounded) (hoptions : s.options.Valid)
    (params : Option (LineSearchParams Extended)) (initial first : Extended) (remaining k : Nat)
    (p : Progress Extended (TrustRegion.Memory Extended Unit)) :
    Triple (fun u => ((∃ x, TrustRegion.Stands H β c x p) ∧ Model.Asked (k + 1) (k + 1) u.1) ∧
        ExactTrail first k p.memory.region.radius u.2.2)
      (s.loop (s.threshold initial)
        (TrustRegion.round s (stepper none c.cg params) c (Box.unbounded n)) remaining k p)
      (fun record u => record.IsExact first u.2.2) fun _ => False := by
  refine Solve.loop_rounds
    (P := fun k p t (w : ω × List (Iteration Extended)) =>
      ((∃ x, TrustRegion.Stands H β c x p) ∧ Model.Asked (k + 1) (k + 1) t) ∧
        ExactTrail first k p.memory.region.radius w.2)
    (N := fun k r t w => (∀ status, r.verdict = some status → status.isFailure = false) ∧
      ((∃ x, TrustRegion.Stands H β c x r.progress) ∧ Model.Asked (k + 1) (k + 1) t) ∧
      ExactTrail first k r.progress.memory.region.radius (w.2 ++ [r.iteration]))
    (B := fun _ _ _ _ _ => False) (S := fun status => status.isFailure = false)
    (R := fun record _ w => record.IsExact first w.2) ?_ ?_ ?_ (fun _ h => h) ?_ ?_ remaining k p
  · -- the gradient is not zero, or the solve would have ended
    rintro k p w hlarge t journal ⟨⟨⟨⟨x, hp⟩, hasked⟩, htrail⟩, -⟩
    have hg : H x - β ≠ 0 := by
      intro hzero
      rw [hp.gradientNorm, hzero, norm_zero] at hlarge
      exact hlarge (Solve.threshold_nonneg hoptions initial)
    refine Settles.mono (round_exact hm hH hc hbounded params (k + 1) hp hg) (fun _ h => h) ?_
      (fun _ _ h => h) (fun _ h => h) t journal hasked
    rintro r t' ⟨hasked', h⟩
    refine ⟨h.verdict, ⟨h.stands, hasked'⟩, ?_⟩
    rw [h.radius_eq]
    exact htrail.append h.exact h.radius_le
  · intro k r
    exact Triple.pre (Solve.notify_noted (K := fun t seen =>
      ((∃ x, TrustRegion.Stands H β c x r.progress) ∧ Model.Asked (k + 1) (k + 1) t) ∧
        ExactTrail first k r.progress.memory.region.radius seen) hs r.iteration) fun _ hu => hu.2
  · exact fun k r t w status h => h.1 status
  · intro k p status hstatus
    exact Triple.pre (Solve.finish_exact hs hstatus p.iterate p.gradientNorm k first _)
      fun _ hu => ⟨hu.1.2, hu.2⟩
  -- no round fails
  · exact fun k p e _ _ h => h.elim

end Loop

/-! ## Whole solves -/

section Whole

variable [RealConstants] {H : Point n →ₗ[ℝ] Point n} {β : Point n}

/-- The values at the start are there and finite. -/
theorem Solve.evaluateStart_exact {s : Solve Extended σ ω} (hm : s.model.IsQuadratic H β)
    (x : Point n) : Succeeds (Model.Asked 0 0) (s.evaluateStart (embed (coords x))) fun both t =>
      Model.Asked 1 1 t ∧ both = (real (quadraticValue H β x), embed (coords (H x - β))) := by
  refine Settles.bind (hm.objectiveAndGradient_succeeds x) fun both => Settles.assume ?_
  rintro rfl
  dsimp only
  rw [isFinite_real, allFinite_embed]
  exact Settles.pure fun _ ht => ⟨ht, rfl⟩

variable {s : Solve Extended σ (ω × List (Iteration Extended))} {o : Observer Extended ω}
  {c : TrustRegion.Config Extended} {state : σ}

/-- From every real point a solve with valid settings takes exact steps. -/
theorem NewtonCg.region_minimize_exact (hs : s.observer = o.noting)
    (hm : s.model.IsQuadratic H β) (hH : H.IsSymmetric) (hc : c.validate = .ok ())
    (hbounded : c.Bounded) (hoptions : s.options.validate = .ok ())
    (params : Option (LineSearchParams Extended)) (x : Point n) :
    Succeeds (fun u => u.1 = ({}, state) ∧ u.2.2 = [])
      (TrustRegion.minimize s (stepper none c.cg params) c (embed (coords x)))
      fun record u =>
        record.IsExact (TrustRegion.firstRadius s.options c (real ‖H x - β‖)) u.2.2 := by
  have hvalid := TrustRegion.Config.valid_of_validate hc
  have hvalidOptions := Options.valid_of_validate hoptions
  have hlength : (embed (coords x)).length = s.model.dimension := by simp [hm.dimension]
  have hbox : s.model.box.mapError SolverError.model = .ok (Box.unbounded n) := by
    rw [Model.box_of_infinite (hm.dimension ▸ hm.sides), hm.dimension]
    rfl
  have hproject : (Box.unbounded n).project (embed (coords x)) = .ok (embed (coords x)) := by
    simpa using Box.project_unbounded (coords x)
  have hstarted : Triple (fun w => w.2 = [])
      (ExceptT.lift (s.observer.onStart s.solver s.model.name) :
        Run (ω × List (Iteration Extended)) Unit) (fun _ w => w.2 = []) fun _ => False := by
    rw [hs]
    exact fun _ _ hw => hw
  unfold TrustRegion.minimize
  -- all checks pass, and the start is its own projection
  refine Settles.bind (Succeeds.ofExcept hc) fun _ => Settles.assume fun _ => ?_
  refine Settles.bind (Settles.mono (Solve.start_settles _ hstarted) (fun _ hu => hu)
    (fun _ _ hu => hu) (fun _ _ hu => hu.1.1 ⟨hoptions, hlength⟩) fun _ hu => hu) fun _ =>
    Settles.assume fun _ => ?_
  refine Settles.bind (Succeeds.ofExcept hbox) fun box => Settles.assume ?_
  rintro rfl
  rw [hproject, liftM_ok, pure_bind]
  -- the model has values there, and has been asked once for each
  refine Settles.bind (Settles.lift (Triple.pre (Succeeds.outcome (K := fun w => w.2 = [])
    (Solve.evaluateStart_exact hm x)) fun u hu => ⟨?_, hu.2⟩)) fun r => Settles.assume ?_
  · rw [hu.1]
    exact ⟨rfl, rfl⟩
  rintro rfl
  dsimp only
  rw [TrustRegion.optimality_unbounded (by simp) (by simp), liftM_ok, pure_bind, norm_embed]
  refine Settles.bind Settles.emit fun _ => Settles.lift ?_
  -- what the loop asks for holds before the first round, of no iterations
  refine Triple.pre (loop_exact hs hm hH hvalid hbounded hvalidOptions params _ _ _ 0 _) ?_
  rintro u ⟨hasked, hseen⟩
  have hradius := TrustRegion.allows_firstRadius hvalid hvalidOptions ‖H x - β‖
  refine ⟨⟨⟨x, ⟨rfl, rfl, rfl⟩, rfl, hradius⟩, hasked⟩, ?_⟩
  rw [hseen]
  exact ExactTrail.nil _

/-- The parameters of the searches that rescue rejected steps are in range. -/
theorem NewtonCg.rescueParams_validate {o : Options Extended} (ho : o.Valid)
    (hpos : (0 : Extended) < Scalar.minStepSize) (hlt : (Scalar.minStepSize : Extended) < 1e10) :
    ((LineSearchKind.backtracking.params : LineSearchParams Extended).withBudgets o).validate
      = .ok () := by
  have hlong : ¬ (1e10 : Extended) ≤ Scalar.minStepSize := fun h => not_lt_of_le h hlt
  have hconstant : (0 : Extended) < 1e-4 ∧ (1e-4 : Extended) < 1 :=
    ⟨real_lt.mpr (by norm_num), real_lt.mpr (by norm_num)⟩
  have hcurvature : (1e-4 : Extended) < 0.9 ∧ (0.9 : Extended) < 1 :=
    ⟨real_lt.mpr (by norm_num), real_lt.mpr (by norm_num)⟩
  have hfactor : (0 : Extended) < 0.5 ∧ (0.5 : Extended) < 1 :=
    ⟨real_lt.mpr (by norm_num), real_lt.mpr (by norm_num)⟩
  refine refuse_ok_of_not (not_not.mpr hpos) ?_
  refine refuse_ok_of_not hlong ?_
  refine refuse_ok_of_not (not_not.mpr hconstant) ?_
  refine refuse_ok_of_not (not_not.mpr hcurvature) ?_
  refine refuse_ok_of_not (not_not.mpr hfactor) ?_
  refine refuse_ok_of_not ho.lineSearchMaxTrials.ne' ?_
  exact if_neg ho.maxConsecutiveEvaluationFailures.ne'

/-- The checks of the method itself pass too, with rescues or without. -/
theorem NewtonCg.minimize_exact {m : Model Extended σ} (hm : m.IsQuadratic H β)
    (hH : H.IsSymmetric) (hc : c.validate = .ok ()) (hcg : c.subproblem = .truncatedCg)
    (hbounded : c.Bounded) {options : Options Extended} (hoptions : options.validate = .ok ())
    {withRescue : Bool} (hrescue : withRescue = true →
      (0 : Extended) < Scalar.minStepSize ∧ (Scalar.minStepSize : Extended) < 1e10)
    (x : Point n) (observer : Observer Extended ω) (clock : Nat → Duration) :
    Succeeds (fun u => u.1 = ({}, state) ∧ u.2.2 = [])
      ((Method.newtonCg c withRescue).minimize m (embed (coords x)) options observer.noting clock)
      fun record u =>
        record.IsExact (TrustRegion.firstRadius options c (real ‖H x - β‖)) u.2.2 := by
  have hsolve : ∀ params, Succeeds (fun u => u.1 = ({}, state) ∧ u.2.2 = [])
      (TrustRegion.minimize ⟨name, m, options, observer.noting, clock⟩
        (stepper none c.cg params) c (embed (coords x)))
      fun record u =>
        record.IsExact (TrustRegion.firstRadius options c (real ‖H x - β‖)) u.2.2 :=
    fun params => region_minimize_exact rfl hm hH hc hbounded hoptions params x
  unfold Method.minimize minimize
  dsimp only
  rw [Model.hasBounds_of_infinite (hm.dimension ▸ hm.sides), hcg]
  cases withRescue with
  | false => exact hsolve none
  | true =>
      obtain ⟨hpos, hlt⟩ := hrescue rfl
      refine Settles.bind (Succeeds.ofExcept
        (rescueParams_validate (Options.valid_of_validate hoptions) hpos hlt)) fun _ =>
        Settles.assume fun _ => ?_
      exact hsolve (some _)

/-- The settings that a method has by itself are in range. -/
theorem TrustRegion.Config.standard_validate : ({} : Config Extended).validate = .ok () := by
  refine refuse_ok_of_not (not_not.mpr (real_lt.mpr (by norm_num))) ?_
  refine refuse_ok_of_not (not_not.mpr ⟨real_le.mpr (by norm_num), real_lt.mpr (by norm_num)⟩) ?_
  refine refuse_ok_of_not (not_not.mpr ⟨real_le.mpr (by norm_num), real_lt.mpr (by norm_num)⟩) ?_
  refine refuse_ok_of_not (not_not.mpr ⟨real_lt.mpr (by norm_num), real_lt.mpr (by norm_num)⟩) ?_
  refine refuse_ok_of_not (not_not.mpr (real_lt.mpr (by norm_num))) ?_
  refine refuse_ok_of_not (not_not.mpr ⟨real_lt.mpr (by norm_num), real_lt.mpr (by norm_num)⟩) ?_
  rfl

namespace Method

variable {a : Matrix ℝ} {b x₀ : Vec ℝ} {o : Options Extended}

/-- **On a quadratic the model is exact.** On `½ xᵀAx - bᵀx` with a symmetric matrix `A`, convex or
not, every solve by the Newton-CG method with valid settings ends with a record, and without a
failure. All iterations are accepted with the ratio 1, the radius does not shrink from the first one
on, and the objective and the gradient are each evaluated once for each iteration and once at the
start. Settings of real numbers are bounded. With rescues, the shortest step of a line search, a
constant of the arithmetic, is in the range that its check asks for. -/
theorem newtonCg_exact_on_quadratics (ha : a.IsSymmetric n) (hb : b.length = n)
    (hx : x₀.length = n) (hc : c.validate = .ok ()) (hcg : c.subproblem = .truncatedCg)
    (hbounded : c.Bounded) (ho : o.validate = .ok ()) (withRescue : Bool)
    (hrescue : withRescue = true →
      (0 : Extended) < Scalar.minStepSize ∧ (Scalar.minStepSize : Extended) < 1e10)
    (sparse : Bool) (observer : Observer Extended ω) (clock : Nat → Duration) (state : σ) (w : ω)
    (journal : Journal) :
    let model := (Classic.Quadratic.ofReal a b sparse).model
    ∃ g record seen, model.gradient (embed x₀) = (pure g : Evaluation σ (Vec Extended)) ∧
      solveNoted (newtonCg c withRescue) model (embed x₀) o observer clock state w journal
        = (.ok (.ok record), seen) ∧
      record.IsExact (TrustRegion.firstRadius o c (norm g)) seen := by
  intro model
  obtain ⟨β, rfl⟩ := exists_coords hb
  obtain ⟨x, rfl⟩ := exists_coords hx
  have hm : model.IsQuadratic (σ := σ) (a.toMap n) β :=
    Classic.Quadratic.isQuadratic_ofReal ha.nrows ha.ncols β sparse
  -- the list that the noting observer leaves is the one of the statement
  have hend := NewtonCg.minimize_exact hm ha.toMap hc hcg hbounded ho hrescue x
    observer clock (({}, state), (w, [])) journal ⟨rfl, rfl⟩
  refine ⟨embed (coords (a.toMap n x - β)), ?_⟩
  rw [solveNoted_eq, hm.gradient]
  generalize Run.start _ _ journal = out at hend ⊢
  rcases out with ⟨⟨_ | _ | record, u⟩, journal'⟩
  · exact hend.elim
  · exact hend.elim
  · exact ⟨record, u.2.2, rfl, rfl, norm_embed (x := a.toMap n x - β) ▸ hend⟩

end Method

end Whole

/-! ## A saddle -/

section Example

attribute [local instance] RealConstants.double

/-- The matrix of `x₀ x₁`, which has no minimum. -/
def saddle : Matrix ℝ := Matrix.ofFn 2 2 fun i j => if i = j then 0 else 1

theorem saddle_isSymmetric : saddle.IsSymmetric 2 :=
  Matrix.isSymmetric_ofFn fun _ _ => if_congr eq_comm rfl rfl

/-- The options that a solve has by itself are in range. -/
theorem Options.standard_validate : ({} : Options Extended).validate = .ok () := by
  have htolerance : (0 : Extended) ≤ Scalar.gradientTolerance :=
    real_le.mpr (by norm_num [RealConstants.gradientTolerance])
  have hcheck : checkNonNegative "gradient_tolerance" (Scalar.gradientTolerance : Extended)
      = .ok () := by
    rw [checkNonNegative, decide_eq_true htolerance]
    rfl
  rw [validate, hcheck]
  rfl

namespace Method

theorem newtonCg_exact_on_saddle :
    saddle.IsSymmetric 2 ∧ ({} : TrustRegion.Config Extended).validate = .ok () ∧
      ({} : TrustRegion.Config Extended).Bounded ∧ ({} : Options Extended).validate = .ok () ∧
      let model := (Classic.Quadratic.ofReal saddle [0, 0] false).model
      ∃ g record seen, model.gradient (embed [1, 0]) = (pure g : Evaluation Unit (Vec Extended)) ∧
        solveNoted (newtonCg {} true) model (embed [1, 0]) {} (Observer.silent : Observer _ Unit)
          (fun _ => .zero) () () #[] = (.ok (.ok record), seen) ∧
        record.IsExact (TrustRegion.firstRadius {} {} (norm g)) seen := by
  have hbounded : ({} : TrustRegion.Config Extended).Bounded := .inl rfl
  have hstep : (0 : Extended) < Scalar.minStepSize ∧ (Scalar.minStepSize : Extended) < 1e10 :=
    ⟨real_lt.mpr (by norm_num [RealConstants.minStepSize]),
      real_lt.mpr (by norm_num [RealConstants.minStepSize])⟩
  have hsettings := TrustRegion.Config.standard_validate
  exact ⟨saddle_isSymmetric, hsettings, hbounded, Options.standard_validate,
    newtonCg_exact_on_quadratics saddle_isSymmetric rfl rfl hsettings rfl hbounded
      Options.standard_validate true (fun _ => hstep) false Observer.silent _ () () #[]⟩

end Method

end Example

end Descent
