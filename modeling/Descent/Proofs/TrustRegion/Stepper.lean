import Descent.NewtonCg
import Descent.ProjectedNewton
import Descent.Proofs.LineSearch
import Descent.TrustRegion

/-!
# What steppers answer

Neither stepper counts bad luck in its errors, and where the Newton-CG method rescues a rejected
step, the model has answered at the end of the search (`Stepper.Sound`). The search that rescues has
sufficient decrease along the rejected step (`NewtonCg.rescue_gives`).
-/

set_option autoImplicit false

namespace Descent

open Run

variable {α σ μ : Type} [Scalar α] {m : Model α σ}

/-- A stepper whose errors have no counts in them and whose rescues end where the model answers. -/
structure TrustRegion.Stepper.Sound (stepper : Stepper α σ μ) (m : Model α σ) : Prop where
  propose : ∀ box iterate radius gradientNorm memory,
    Gives (stepper.propose m box iterate radius gradientNorm memory) (fun _ => True)
      fun e => e.1.Uncounted
  rescue : ∀ iterate trial value,
    Gives (stepper.rescue m iterate trial value)
      (fun r => ∀ found, r = some found → m.Evaluated found.point found.value found.gradient)
      SolverError.Uncounted

/-! ## Direct steps -/

structure LinearSolver.Plain (solver : LinearSolver α) : Prop where
  factor : ∀ a e, solver.factor a = .error e → e.Uncounted
  solveWith : ∀ f b, Checked.Yields (solver.solveWith f b) (fun _ => True) SolverError.Uncounted

theorem LinearSolver.plain_cholesky : (cholesky : LinearSolver α).Plain where
  factor a e h := by
    unfold cholesky at h
    dsimp only at h
    split at h
    · cases h
    · cases h
      trivial
  solveWith f b := by
    unfold cholesky
    dsimp only
    split
    · exact .pure trivial
    · exact .throw trivial

theorem LinearSolver.plain_lu : (lu : LinearSolver α).Plain where
  factor a e h := by
    unfold lu at h
    dsimp only at h
    split at h
    · cases h
    · cases h
      trivial
  solveWith f b := by
    unfold lu
    dsimp only
    split
    · exact .pure trivial
    · trivial

theorem Subproblem.plain_linearSolver (p : Subproblem) {solver : LinearSolver α}
    (h : p.linearSolver = some solver) : solver.Plain := by
  cases p with
  | truncatedCg => cases h
  | direct backend =>
      cases h
      cases backend with
      | cholesky => exact LinearSolver.plain_cholesky
      | lu => exact LinearSolver.plain_lu

omit [Scalar α] in
theorem LinearSolver.Plain.solveOnce {solver : LinearSolver α} (h : solver.Plain) (a : Matrix α)
    (b : Vec α) :
    Checked.Yields (solver.solveOnce a b) (fun _ => True) SolverError.Uncounted := by
  refine .bind (.ofExcept (fun _ _ => trivial) fun e he => ?_) fun _ _ => ?_
  · unfold checkSquare at he
    split at he
    · cases he
    · cases he
      trivial
  · exact .bind (.ofExcept (fun _ _ => trivial) (h.factor a)) fun f _ => h.solveWith f b

theorem TrustRegion.directStep_yields {solver : LinearSolver α} (h : solver.Plain)
    (hessian : Matrix α) (g : Vec α) (free : List Bool) (offset : Vec α) (radius : α) :
    Checked.Yields (directStep solver hessian g free offset radius) (fun _ => True)
      SolverError.Uncounted := by
  refine .bind (.checked fun _ _ => trivial) fun mask _ => ?_
  dsimp only
  split
  · exact .pure trivial
  · refine .bind (.checked fun _ _ => trivial) fun rows _ => ?_
    refine .bind (h.solveOnce _ _) fun solution _ => ?_
    split
    · exact .bind (Q := fun _ => False) (.throw trivial) fun _ hF => hF.elim
    · exact .bind (.checked fun _ _ => trivial) fun _ _ => .pure trivial

/-! ## Steppers -/

/-- The errors of an evaluation that a solver cannot do without are those of the model. -/
theorem Evaluation.required_gives {β : Type} (e : Evaluation σ β) :
    Gives (Evaluation.required e) (Returns e) SolverError.Uncounted :=
  Gives.adapt (Gives.mono Gives.self (fun _ h => h) fun _ _ => trivial)

theorem ProjectedNewton.faceStep_gives {linear : Option (LinearSolver α)}
    (hlinear : ∀ solver, linear = some solver → solver.Plain) (cg : TruncatedCg.Config α)
    (curvature : Curvature α σ) (g : Vec α) (free : List Bool) (cauchy : Vec α)
    (radius gradientNorm : α) :
    Gives (faceStep linear cg curvature g free cauchy radius gradientNorm) (fun _ => True)
      SolverError.Uncounted := by
  cases linear with
  | some solver =>
      refine Gives.bind (Evaluation.required_gives _) fun hessian _ => ?_
      exact Gives.ofChecked (TrustRegion.directStep_yields (hlinear solver rfl) _ _ _ _ _)
  | none =>
      refine Gives.bind (Evaluation.required_gives _) fun solution _ => ?_
      exact Gives.bind Gives.emit fun _ _ => Gives.pure trivial

theorem ProjectedNewton.fromCauchy_gives {linear : Option (LinearSolver α)}
    (hlinear : ∀ solver, linear = some solver → solver.Plain) (cg : TruncatedCg.Config α)
    (curvature : Curvature α σ) (box : Box α) (iterate : Iterate α) (radius gradientNorm : α)
    (cauchy : Vec α) :
    Gives (fromCauchy linear cg curvature box iterate radius gradientNorm cauchy) (fun _ => True)
      SolverError.Uncounted := by
  refine Gives.bind (Evaluation.required_gives _) fun q _ => ?_
  refine Gives.bind (Gives.checked fun _ _ => trivial) fun cauchyPoint _ => ?_
  refine Gives.bind (Gives.checked fun _ _ => trivial) fun binding _ => ?_
  dsimp only
  split
  · exact Gives.pure trivial
  · refine Gives.bind (Evaluation.required_gives _) fun _ _ => ?_
    refine Gives.bind (Gives.checked fun _ _ => trivial) fun slope _ => ?_
    refine Gives.bind (Gives.checked fun _ _ => trivial) fun _ _ => ?_
    refine Gives.bind (faceStep_gives hlinear cg _ _ _ _ _ _) ?_
    rintro ⟨w, kind⟩ -
    refine Gives.bind (Evaluation.required_gives _) ?_
    rintro (_ | trial) -
    · exact Gives.bind Gives.emit fun _ _ => Gives.pure trivial
    · exact Gives.pure trivial

theorem ProjectedNewton.stepper_sound {linear : Option (LinearSolver α)}
    (hlinear : ∀ solver, linear = some solver → solver.Plain) (cg : TruncatedCg.Config α) :
    (stepper linear cg).Sound m where
  propose box iterate radius gradientNorm length := by
    refine Gives.bind (Gives.adapt (Gives.mono Gives.self (fun _ h => h) fun _ _ => trivial))
      fun curvature _ => ?_
    refine Gives.bind (Gives.adapt (Gives.mono Gives.self (fun _ h => h) fun _ _ => trivial)) ?_
    rintro ⟨cauchy, length⟩ -
    refine Gives.bind (Gives.adapt (fromCauchy_gives hlinear cg _ _ _ _ _ _)) fun trial _ => ?_
    exact Gives.pure trivial
  rescue _ _ _ := Gives.pure fun _ h => (nomatch h)

/-- The projected Newton method rescues nothing. -/
theorem ProjectedNewton.not_rescued {linear : Option (LinearSolver α)}
    {cg : TruncatedCg.Config α} {iterate : Iterate α} {trial : TrustRegion.Trial α} {value : α}
    {found : LineSearch.Found α} :
    ¬ Returns ((stepper linear cg).rescue m iterate trial value) (some found) :=
  fun h => nomatch Returns.of_pure h

theorem NewtonCg.newtonStep_gives {linear : Option (LinearSolver α)}
    (hlinear : ∀ solver, linear = some solver → solver.Plain) (cg : TruncatedCg.Config α)
    (curvature : Curvature α σ) (iterate : Iterate α) (radius gradientNorm : α) :
    Gives (newtonStep linear cg curvature iterate radius gradientNorm) (fun _ => True)
      SolverError.Uncounted := by
  cases linear with
  | some solver =>
      refine Gives.bind (Evaluation.required_gives _) fun hessian _ => ?_
      exact Gives.ofChecked (TrustRegion.directStep_yields (hlinear solver rfl) _ _ _ _ _)
  | none =>
      refine Gives.bind (Evaluation.required_gives _) fun solution _ => ?_
      exact Gives.bind Gives.emit fun _ _ => Gives.pure trivial

theorem NewtonCg.propose_gives {linear : Option (LinearSolver α)}
    (hlinear : ∀ solver, linear = some solver → solver.Plain) (cg : TruncatedCg.Config α)
    (iterate : Iterate α) (radius gradientNorm : α) :
    Gives (propose linear cg m iterate radius gradientNorm) (fun _ => True)
      SolverError.Uncounted := by
  refine Gives.bind (Evaluation.required_gives _) fun curvature _ => ?_
  refine Gives.bind (newtonStep_gives hlinear cg _ _ _ _) ?_
  rintro ⟨step, kind⟩ -
  refine Gives.bind (Evaluation.required_gives _) fun q _ => ?_
  exact Gives.bind (Gives.checked fun _ _ => trivial) fun _ _ => Gives.pure trivial

section Rescue

variable {p : LineSearchParams α} {P : α → Prop} {iterate : Iterate α}
  {trial : TrustRegion.Trial α} {value : α}

/-- Without parameters for a search nothing is rescued. -/
theorem NewtonCg.not_rescued {found : LineSearch.Found α} :
    ¬ Returns (rescue none m iterate trial value) (some found) :=
  fun h => nomatch Returns.of_pure h

/-- A search that rescues a rejected step goes downhill along it and has sufficient decrease. -/
theorem NewtonCg.rescue_gives
    (hfirst : ∀ slope, P (Scalar.minNum (firstLength iterate.f value slope) p.maxStepSize))
    (hrho : ∀ a, P a → P (a * p.rho))
    (hinterpolated : ∀ slope a f, P a → P (LineSearch.Ray.interpolated
      ⟨p, m, iterate.x, iterate.f, trial.step, slope⟩ a f)) :
    Gives (rescue (some p) m iterate trial value)
      (fun r => ∀ found, r = some found →
        ∃ slope, LineSearch.Downhill iterate.g trial.step slope ∧
          let r : LineSearch.Ray α σ := ⟨p, m, iterate.x, iterate.f, trial.step, slope⟩
          r.Lands found ∧ P found.stepSize ∧ found.value ≤ r.armijoBound found.stepSize)
      SolverError.Uncounted := by
  refine Gives.bind (Gives.checked fun _ h => h) fun slope _ => ?_
  dsimp only
  split
  · exact Gives.pure fun _ h => (nomatch h)
  · refine Gives.bind (Gives.caught
      (LineSearch.run_backtracking_gives (hfirst slope) hrho hinterpolated)) ?_
    rintro (e | found) hsearch
    · dsimp only
      split
      · exact Gives.bind Gives.emit fun _ _ => Gives.pure fun _ h => (nomatch h)
      · next hown => exact Gives.throw (hsearch.uncounted (Bool.eq_false_iff.mpr hown))
    · exact Gives.pure fun _ h => by cases h; exact hsearch

end Rescue

theorem NewtonCg.stepper_sound {linear : Option (LinearSolver α)}
    (hlinear : ∀ solver, linear = some solver → solver.Plain) (cg : TruncatedCg.Config α)
    (params : Option (LineSearchParams α)) : (stepper linear cg params).Sound m where
  propose box iterate radius gradientNorm _ := by
    refine Gives.bind (Gives.adapt (propose_gives hlinear cg _ _ _)) fun trial _ => ?_
    exact Gives.pure trivial
  rescue iterate trial value := by
    cases params with
    | none => exact Gives.pure fun _ h => (nomatch h)
    | some p =>
        refine Gives.mono (rescue_gives (P := fun _ => True) (fun _ => trivial)
          (fun _ _ => trivial) fun _ _ _ _ => trivial) (fun r h found hfound => ?_) fun _ h => h
        obtain ⟨_, _, hlands, _⟩ := h found hfound
        exact hlands.evaluated

end Descent
