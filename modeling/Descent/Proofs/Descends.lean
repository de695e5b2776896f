import Descent.Proofs.Extended
import Descent.Proofs.Move
import Descent.Proofs.Valid

/-!
# Every method goes downhill

In exact arithmetic each test that a step has to pass asks for a lower objective: the ratio of a
trust region (`TrustRegion.descends_of_ratio`) and the sufficient decrease of a line search
(`LineSearch.Ray.descends`), also where the search has used up its budget or rescues a rejected
step. So the objective of the iterate falls with every accepted step and stays with every other one
(`Method.Opens.round_lowers`), along whole solves (`Method.solve_descends`).
-/

set_option autoImplicit false

namespace Descent

open Run Extended

/-! ## Objectives along a trail -/

section Objectives

variable {α σ : Type} [Scalar α]

/-- The iteration leads from the objective `f` to a lower one if its step was accepted, and else to
the same. -/
def Iteration.Lowers (i : Iteration α) (f : α) : Prop :=
  if i.accepted then i.objective < f else i.objective = f

/-- From the objective `f` on, each iteration lowers the objective or leaves it. -/
abbrev Falling : α → List (Iteration α) → Prop :=
  Stepwise Iteration.objective fun f i => i.Lowers f

abbrev lastObjective : α → List (Iteration α) → α := lastFigure Iteration.objective

variable {f : α} {i : Iteration α}

theorem Iteration.lowers_of_accepted (accepted : i.accepted = true) (h : i.objective < f) :
    i.Lowers f := by
  rw [Lowers, if_pos accepted]
  exact h

theorem Iteration.lowers_of_rejected (rejected : i.accepted = false) (h : i.objective = f) :
    i.Lowers f := by
  rw [Lowers, rejected]
  exact h

/-! ## The start -/

/-- A course begins with the objective at the starting point. -/
theorem Method.Opens.evaluates {s : Solve α σ Unit} {x₀ : Vec α} {state : σ} {method : Method α}
    {c : Course α σ} {start : Counts × σ} (opens : Method.Opens s x₀ state method c start) :
    ∃ x g, method.StartsAt s.model x₀ x ∧
      Leads (s.evaluateStart x) ({}, state) (c.first.iterate.f, g) start :=
  ⟨_, _, opens.starts⟩

end Objectives

variable {σ ω : Type} [RealConstants]

/-- What falls ends no higher than it starts. -/
theorem Falling.last_le {f : Extended} {seen : List (Iteration Extended)}
    (hf : Scalar.isNaN f = false) (h : Falling f seen) : lastObjective f seen ≤ f := by
  induction seen generalizing f with
  | nil => exact Scalar.Ordered.le_refl hf
  | cons i seen ih =>
      obtain ⟨hi, hrest⟩ := h
      unfold Iteration.Lowers at hi
      split at hi
      · exact le_trans (ih (isNaN_of_lt hi).1 hrest) (le_of_lt hi)
      · subst hi
        exact ih hf hrest

/-! ## The tests of a step -/

/-- A ratio above a threshold that is not negative comes from a decrease. -/
theorem TrustRegion.descends_of_ratio {least f value predicted : Extended} (hleast : 0 ≤ least)
    (hf : Scalar.isFinite f = true) (hvalue : Scalar.isFinite value = true)
    (h : least < reductionRatio f value predicted) : value < f := by
  obtain ⟨f, rfl⟩ := exists_real hf
  obtain ⟨v, rfl⟩ := exists_real hvalue
  have hpos := lt_of_le_of_lt hleast h
  unfold reductionRatio at hpos
  split at hpos
  · next hpredicted =>
      rcases pos_cases hpredicted with rfl | ⟨p, rfl, hp⟩
      · exact absurd hpos (Scalar.Ordered.lt_irrefl _)
      · rw [real_sub, real_div hp.ne', real_zero, real_lt] at hpos
        have hdecrease : 0 < f - v := (div_pos_iff_of_pos_right hp).mp hpos
        exact real_lt.mpr (sub_pos.mp hdecrease)
  · cases hpos

namespace LineSearch

variable {r : Ray Extended σ} {a value : Extended}

/-- Along a descent direction every value that is not above the bound is below the start. -/
theorem Ray.descends (hp : r.params.Valid) (hf : Scalar.isFinite r.f₀ = true) (hslope : r.slope < 0)
    (hfinite : Scalar.isFinite r.slope = true) (hlong : ¬ a < r.params.minStepSize)
    (ha : Scalar.isNaN a = false) (hvalue : Scalar.isFinite value = true)
    (h : ¬ r.armijoBound a < value) : value < r.f₀ := by
  obtain ⟨c, hc⟩ := exists_real_of_between hp.c1_pos hp.c1_lt
  obtain ⟨f, hf⟩ := exists_real hf
  obtain ⟨d, hd⟩ := exists_real hfinite
  obtain ⟨v, rfl⟩ := exists_real hvalue
  have hcpos : 0 < c := by simpa [hc] using hp.c1_pos
  have hdneg : d < 0 := by simpa [hd] using hslope
  have hmin := hp.minStepSize
  unfold Ray.armijoBound at h
  rw [hf, hc, hd] at h
  rw [hf]
  have hpos : 0 < a :=
    lt_of_lt_of_le hmin (Scalar.Ordered.le_of_not_lt (isNaN_of_lt hmin).2 ha hlong)
  rcases pos_cases hpos with rfl | ⟨a, rfl, hapos⟩
  · -- an infinite step would have to lower the objective by an infinite amount
    rw [real_mul_top hcpos, top_mul_real hdneg] at h
    exact absurd trivial h
  · have hbound : v ≤ f + c * a * d := not_lt.mp h
    have hneg : c * a * d < 0 := mul_neg_of_pos_of_neg (mul_pos hcpos hapos) hdneg
    exact real_lt.mpr (by linarith)

/-- A value that is not above the bound, in the form in which backtracking compares. -/
theorem Ray.descends_of_le (hp : r.params.Valid) (hf : Scalar.isFinite r.f₀ = true)
    (hslope : r.slope < 0) (hfinite : Scalar.isFinite r.slope = true)
    (hlong : ¬ a < r.params.minStepSize) (hvalue : Scalar.isFinite value = true)
    (h : value ≤ r.armijoBound a) : value < r.f₀ := by
  refine Ray.descends hp hf hslope hfinite hlong ?_ hvalue (not_lt_of_le h)
  rw [isNaN_eq_false]
  rintro rfl
  -- at no step length the bound is no number
  obtain ⟨f, hf⟩ := exists_real hf
  obtain ⟨d, hd⟩ := exists_real hfinite
  obtain ⟨c, hc⟩ := exists_real_of_between hp.c1_pos hp.c1_lt
  unfold Ray.armijoBound at h
  rw [hf, hc, hd] at h
  cases value <;> exact h

section Run

variable {m : Model Extended σ} {p : LineSearchParams Extended} {x g₀ direction : Vec Extended}
  {f₀ initialStep : Extended}

theorem run_backtracking_descends (hp : p.Valid) (hf : Scalar.isFinite f₀ = true) :
    Gives ((backtracking p).run m x f₀ g₀ direction initialStep) (fun found => found.value < f₀)
      (SolverError.EndsSearch p.maxEvaluationFailures) := by
  refine Gives.mono (run_backtracking_gives (P := fun _ => True) trivial (fun _ _ => trivial)
    fun _ _ _ _ => trivial) ?_ fun _ h => h
  rintro found ⟨slope, hslope, hlands, -, hdecrease⟩
  exact Ray.descends_of_le (r := ⟨p, m, x, f₀, direction, slope⟩) hp hf hslope.negative
    hslope.isFinite hlands.long hlands.evaluated.isFinite_value hdecrease

/-- All steps that bracketing tries are numbers. -/
theorem run_wolfe_descends (hp : p.Valid) (hf : Scalar.isFinite f₀ = true)
    (hinitial : Scalar.isNaN initialStep = false) :
    Gives ((wolfe p).run m x f₀ g₀ direction initialStep) (fun found => found.value < f₀)
      (SolverError.EndsSearch p.maxEvaluationFailures) := by
  refine Gives.mono (run_wolfe_gives (P := fun a => Scalar.isNaN a = false) isNaN_real
    (Scalar.isNaN_minNum hinitial) ?_ ?_) ?_ fun _ h => h
  · intro lower upper hlower hupper
    obtain ⟨u, rfl⟩ := exists_real hupper
    rw [real_ofScientific]
    exact isNaN_mul_real (by norm_num) (isNaN_add_real hlower)
  · intro a ha
    refine Scalar.isNaN_minNum ?_
    rw [real_ofScientific, real_mul_comm]
    exact isNaN_mul_real (by norm_num) ha
  · rintro found ⟨slope, hslope, hsuits⟩
    exact Ray.descends (r := ⟨p, m, x, f₀, direction, slope⟩) hp hf hslope.negative
      hslope.isFinite hsuits.long hsuits.allowed hsuits.evaluated.isFinite_value hsuits.decrease

theorem run_descends {search : LineSearch Extended} (hp : search.params.Valid)
    (hf : Scalar.isFinite f₀ = true) (hinitial : Scalar.isNaN initialStep = false) :
    Gives (search.run m x f₀ g₀ direction initialStep) (fun found => found.value < f₀)
      (SolverError.EndsSearch search.params.maxEvaluationFailures) := by
  cases search with
  | backtracking p => exact run_backtracking_descends hp hf
  | wolfe p => exact run_wolfe_descends hp hf hinitial

end Run

end LineSearch

/-! ## Rounds -/

/-- In a trust region an iterate with a finite objective moves downhill, if rescues do. -/
theorem TrustRegion.Step.lowers {μ : Type} {s : Solve Extended σ ω}
    {stepper : Stepper Extended (Counts × σ) μ} {c : Config Extended} {box : Box Extended}
    {number : Nat} {p : Progress Extended (Memory Extended μ)}
    {r : Round Extended (Memory Extended μ)} (hc : c.Valid)
    (hf : Scalar.isFinite p.iterate.f = true)
    (hrescue : ∀ trial value found,
      Returns (stepper.rescue s.model.counted p.iterate trial value) (some found) →
        found.value < p.iterate.f)
    (h : Step s stepper c box number p r) : r.iteration.Lowers p.iterate.f := by
  cases h with
  | failed => exact Iteration.lowers_of_rejected rfl rfl
  | rejected => exact Iteration.lowers_of_rejected rfl rfl
  | accepted tried good evaluated arrives =>
      refine Iteration.lowers_of_accepted rfl ?_
      show Iterate.f _ < _
      rw [arrives.stands]
      exact descends_of_ratio hc.acceptanceRatio hf tried.isFinite good
  | rescued tried poor rescue difference arrives =>
      refine Iteration.lowers_of_accepted rfl ?_
      show Iterate.f _ < _
      rw [arrives.stands]
      exact hrescue _ _ _ rescue

/-- A search that rescues a rejected step goes downhill. -/
theorem NewtonCg.rescue_descends {m : Model Extended σ}
    {params : Option (LineSearchParams Extended)}
    (hparams : ∀ p, params = some p → p.validate = .ok ()) {iterate : Iterate Extended}
    (hf : Scalar.isFinite iterate.f = true) (trial : TrustRegion.Trial Extended)
    (value : Extended) (found : LineSearch.Found Extended)
    (h : Returns (rescue params m iterate trial value) (some found)) :
    found.value < iterate.f := by
  cases params with
  | none => exact absurd h not_rescued
  | some p =>
      have hp := LineSearchParams.valid_of_validate (hparams p rfl)
      have hsearch := (rescue_gives (P := fun _ => True) (fun _ => trivial)
        (fun _ _ => trivial) fun _ _ _ _ => trivial).returned h found rfl
      obtain ⟨slope, hslope, hlands, -, hdecrease⟩ := hsearch
      exact LineSearch.Ray.descends_of_le
        (r := ⟨p, m, iterate.x, iterate.f, trial.step, slope⟩) hp hf hslope.negative
        hslope.isFinite hlands.long hlands.evaluated.isFinite_value hdecrease

theorem Lbfgs.Step.lowers {s : Solve Extended σ ω} {search : LineSearch Extended}
    {initialStepSize : Extended} {number : Nat} {p : Progress Extended (History Extended)}
    {r : Round Extended (History Extended)} (hparams : search.params.Valid)
    (hinitial : 0 < initialStepSize) (hf : Scalar.isFinite p.iterate.f = true)
    (h : Step s search initialStepSize number p r) : r.iteration.Lowers p.iterate.f := by
  cases h with
  | restarted => exact Iteration.lowers_of_rejected rfl rfl
  | @moved d step change h h' found directed settled =>
      have hfirst : Scalar.isNaN (firstStep initialStepSize p.gradientNorm h) = false := by
        unfold firstStep
        split
        · exact Scalar.isNaN_minNum isNaN_real
        · exact (isNaN_of_lt hinitial).2
      refine Iteration.lowers_of_accepted rfl ?_
      exact (LineSearch.run_descends hparams hf hfirst).returned settled

/-! ## Whole solves -/

namespace Method

variable {s : Solve Extended σ Unit} {x₀ : Vec Extended} {state : σ} {method : Method Extended}
  {c : Course Extended σ} {start t : Counts × σ} {k : Nat} {p : Progress Extended c.Memory}

/-- Every round lowers the objective or leaves it. -/
theorem Opens.round_lowers (opens : Opens s x₀ state method c start)
    (hf : Scalar.isFinite p.iterate.f = true) {r : Round Extended c.Memory}
    (h : Returns (c.round k p) r) : r.iteration.Lowers p.iterate.f := by
  cases opens with
  | projectedNewton opens =>
      cases opens with
      | intro settings =>
          have hstep := (TrustRegion.round_gives s _ _ _ k p).returned h
          exact hstep.lowers (TrustRegion.Config.valid_of_validate settings) hf
            fun _ _ _ hfound => absurd hfound ProjectedNewton.not_rescued
  | newtonCg params opens =>
      cases opens with
      | intro settings =>
          have hstep := (TrustRegion.round_gives s _ _ _ k p).returned h
          exact hstep.lowers (TrustRegion.Config.valid_of_validate settings) hf
            (NewtonCg.rescue_descends params hf)
  | @lbfgs config _ _ opens =>
      cases opens with
      | intro positive settings =>
          have hstep := (Lbfgs.round_gives s _ _ k p).returned h
          refine hstep.lowers ?_ positive hf
          rw [config.search_params]
          exact LineSearchParams.valid_of_validate settings

/-- Along a trail the objective falls from the one at the start to the one at the end, which is not
above it. -/
theorem Opens.trail_falls (opens : Opens s x₀ state method c start)
    {seen : List (Iteration Extended)} (trail : c.Trail start k p t seen) :
    Falling c.first.iterate.f seen ∧ p.iterate.f = lastObjective c.first.iterate.f seen ∧
      p.iterate.f ≤ c.first.iterate.f := by
  have hfirst := opens.first_stands.evaluated.isFinite_value
  have hsteps : Falling c.first.iterate.f seen ∧
      p.iterate.f = lastObjective c.first.iterate.f seen := by
    refine trail.stepwise (I := fun p => Scalar.isFinite p.iterate.f = true)
      (v := fun p => p.iterate.f) hfirst fun k p r hf hr => ?_
    have hlowers := opens.round_lowers hf hr
    cases opens.move hr with
    | stayed reported _ iterate => exact ⟨iterate ▸ hf, hlowers, reported.objective.symm⟩
    | moved reported _ stands =>
        exact ⟨stands.evaluated.isFinite_value, hlowers, reported.objective.symm⟩
  refine ⟨hsteps.1, hsteps.2, ?_⟩
  rw [hsteps.2]
  exact Falling.last_le (isNaN_of_isFinite hfirst) hsteps.1

/-- **Every method is a descent method.** Of what an observer hears, each iteration with an accepted
step has lowered the objective and each other one has left it, from its value `f` at the starting
point on, and a record holds the last objective, which is at most `f`. Where the model has no values
at the starting point there are no iterations. -/
theorem solve_descends (method : Method Extended) (m : Model Extended σ) (x₀ : Vec Extended)
    (o : Options Extended) (observer : Observer Extended ω) (clock : Nat → Duration) (state : σ)
    (w : ω) (journal : Journal) :
    let s := method.solve m o clock
    let out := method.solveNoted m x₀ o observer clock state w journal
    (out.2 = [] ∧ ∀ record, out.1 = .ok (.ok record) → record.status = .evaluationFailure ∧
      ∃ x e, method.StartsAt m x₀ x ∧ Fails (s.evaluateStart x) e) ∨
    ∃ x f g t, method.StartsAt m x₀ x ∧ Leads (s.evaluateStart x) ({}, state) (f, g) t ∧
      Falling f out.2 ∧ ∀ record, out.1 = .ok (.ok record) →
        record.iterate.f = lastObjective f out.2 ∧ record.iterate.f ≤ f := by
  intro s out
  have hended : ∀ record, out.1 = .ok (.ok record) →
      s.Ends (method.StartsAt m x₀) (Opens s x₀ state method) record out.2 :=
    fun record h => solveNoted_ends (Prod.ext h rfl)
  have hreported : Solve.Reports (Opens s x₀ state method) out.2 := solveNoted_reports
  rcases out with ⟨_ | _ | record, seen⟩
  case ok.ok =>
    cases hended record rfl with
    | atStart starts fails shows =>
        refine .inl ⟨rfl, fun _ h => ?_⟩
        cases h
        exact ⟨shows.status, _, _, starts, fails⟩
    | after opens ending =>
        obtain ⟨k, p, t, trail, hiterate, -⟩ := ending.trail_end
        obtain ⟨x, g, starts, evaluate⟩ := opens.evaluates
        obtain ⟨hfalling, hlast, hle⟩ := opens.trail_falls trail
        refine .inr ⟨x, _, g, _, starts, evaluate, hfalling, fun _ h => ?_⟩
        cases h
        rw [hiterate]
        exact ⟨hlast, hle⟩
  all_goals
    cases hreported with
    | nothing => exact .inl ⟨rfl, fun _ h => by cases h⟩
    | trail opens trail =>
        obtain ⟨x, g, starts, evaluate⟩ := opens.evaluates
        exact .inr ⟨x, _, g, _, starts, evaluate, (opens.trail_falls trail).1,
          fun _ h => by cases h⟩

end Method

end Descent
