import Descent.NewtonCg
import Descent.ProjectedNewton
import Descent.Proofs.Safe.LineSearch

/-!
# Trial steps of the right size

In a model of the right size the solutions of the subproblem and the trial steps of both Newton
methods are found without a fault and have the length of the iterate. A direct step asks its linear
solver for systems of one size only (`directStep_safe`).
-/

set_option autoImplicit false

namespace Descent

open Checked Run

variable {α σ : Type} [Scalar α] {n : Nat}

/-! ## Truncated conjugate gradients -/

namespace TruncatedCg

theorem boundaryStep_passes {z p : Vec α} (hz : z.length = n) (hp : p.length = n) (radius : α) :
    Passes (boundaryStep z p radius) fun _ => True := by
  unfold boundaryStep
  dsimp only
  split
  · exact .ok trivial
  · exact .bind (Vec.dot_passes hz hp) fun _ _ => .ok trivial

structure State.Sized (n : Nat) (c : State α) : Prop where
  step : c.step.length = n
  residual : c.residual.length = n
  direction : c.direction.length = n

theorem State.sized_initial {g : Vec α} (hg : g.length = n) : (initial g).Sized n :=
  ⟨by simpa [initial] using hg, by simpa [initial] using hg, by simpa [initial] using hg⟩

variable {p : Problem α σ} {c : State α}

theorem prolong_passes (hoffset : p.offset.length = n) (hc : c.Sized n) :
    Passes (prolong p c) fun v => v.length = n := by
  refine .bind (Vec.add_passes hoffset hc.step) fun z hz => ?_
  refine .bind (boundaryStep_passes hz hc.direction _) fun tau _ => ?_
  exact Vec.addMultiple_passes hc.step _ hc.direction

theorem advance_safe (hop : p.operator.Sized n) (hoffset : p.offset.length = n) (k : Nat)
    (hc : c.Sized n) :
    Safe (advance p k c) (fun
      | .inl solution => solution.step.length = n
      | .inr next => next.Sized n) fun _ => True := by
  refine .bind (hop _ hc.direction) fun hp hhp => ?_
  refine .bind (.checked (Vec.dot_passes hc.direction hhp)) fun curvature _ => ?_
  dsimp only
  split
  · refine .bind (.checked (Vec.along_passes hc.step hc.direction _)) fun next hnext => ?_
    refine .bind (.checked (Vec.add_passes hoffset hnext)) fun z _ => ?_
    split
    · refine .bind (.checked (prolong_passes hoffset hc)) fun step hstep => ?_
      exact .bind .emit fun _ _ => .pure hstep
    · refine .bind (.checked (Vec.addMultiple_passes hc.residual _ hhp))
        fun residual hresidual => ?_
      split
      · exact .pure hnext
      · refine .bind (.checked (Vec.along_passes hresidual hc.direction _)) fun direction hd => ?_
        exact .pure ⟨hnext, hresidual, hd⟩
  · refine .bind (.checked (prolong_passes hoffset hc)) fun step hstep => ?_
    exact .bind .emit fun _ _ => .pure hstep

theorem iterate_safe (hop : p.operator.Sized n) (hoffset : p.offset.length = n)
    (remaining k : Nat) (hc : c.Sized n) :
    Safe (iterate p remaining k c) (fun solution => solution.step.length = n) fun _ => True := by
  induction remaining generalizing k c with
  | zero => exact .pure hc.step
  | succ remaining ih =>
      refine .bind (advance_safe hop hoffset (k + 1) hc) ?_
      rintro (solution | next) h
      · exact .pure h
      · exact ih (k + 1) h

theorem solveFrom_safe (config : Config α) {op : Operator α σ} (hop : op.Sized n) {g : Vec α}
    (hg : g.length = n) (radius : α) {offset : Vec α} (hoffset : offset.length = n) (rtol : α) :
    Safe (solveFrom config op g radius offset rtol) (fun solution => solution.step.length = n)
      fun _ => True := by
  have hinitial := State.sized_initial hg
  unfold solveFrom
  dsimp only
  split
  · exact .pure hinitial.step
  · exact iterate_safe (p := ⟨op, offset, radius, _⟩) hop hoffset _ _ hinitial

end TruncatedCg

/-! ## Direct steps -/

theorem TrustRegion.directStep_safe {solver : LinearSolver α} (hsolver : solver.Square)
    {hessian : Matrix α} (hhessian : hessian.Sized n) {g : Vec α} (hg : g.length = n)
    {free : List Bool} (hfree : free.length = n) {offset : Vec α} (hoffset : offset.length = n)
    (radius : α) :
    Checked.Safe (directStep solver hessian g free offset radius) (fun r => r.1.length = n)
      SolverError.Fits := by
  have hentry : ∀ i < n, ∀ j < n, Passes (hessian.entry i j) fun _ => True := by
    intro i hi j hj
    refine .bind (entryAt_passes (by have := hhessian.1; unfold Matrix.nrows at this; omega)) ?_
    intro row hrow
    have hwidth := hessian.width row hrow
    have hcols := hhessian.2
    exact (entryAt_passes (by omega)).mono fun _ _ => trivial
  refine .bind (.checked (.mapM (R := fun _ => True) fun i hi => ?_)) fun mask hmask => ?_
  · have := List.mem_range.mp hi
    exact (entryAt_passes (by omega)).mono fun _ _ => trivial
  dsimp only
  split
  · exact .pure (by simpa using hg)
  · generalize hindex : (List.range g.length).filter (fun i => mask.getD i false) = index
    have hin : ∀ i ∈ index, i < n := by
      intro i hi
      rw [← hindex, List.mem_filter, List.mem_range] at hi
      omega
    refine .bind (.checked (.mapM (R := fun _ => True) fun i hi => ?_)) fun rows _ => ?_
    · exact (Passes.mapM (R := fun _ => True) fun j hj => hentry i (hin i hi) j (hin j hj)).mono
        fun _ _ => trivial
    refine .bind (hsolver.solveOnce (Matrix.sized_ofFn _) (List.length_map _)) fun solution _ => ?_
    split
    · exact .bind (Q := fun _ => False) (.throw trivial) fun _ h => h.elim
    · have hw : ((List.range g.length).map fun i =>
          ((index.zip solution).lookup i).getD (0 : α)).length = n := by simpa using hg
      refine .bind (.checked (TruncatedCg.boundaryStep_passes hoffset hw radius)) fun tau _ => ?_
      refine .pure ?_
      split
      · simpa using hg
      · exact hw

/-! ## Steppers -/

structure Iterate.Sized (n : Nat) (iterate : Iterate α) : Prop where
  point : iterate.x.length = n
  gradient : iterate.g.length = n

namespace TrustRegion

structure Trial.Sized (n : Nat) (trial : Trial α) : Prop where
  point : trial.point.length = n
  step : trial.step.length = n

/-- From iterates of the model's dimension the stepper proposes and rescues without a fault. -/
structure Stepper.Safe {μ : Type} (stepper : Stepper α σ μ) (m : Model α σ) : Prop where
  propose : ∀ (box : Box α) (iterate : Iterate α) (radius gradientNorm : α) (memory : μ),
    box.length = m.dimension → iterate.Sized m.dimension →
    Run.Safe (stepper.propose m box iterate radius gradientNorm memory)
      (fun r => r.1.Sized m.dimension) fun e => e.1.Fits
  rescue : ∀ (iterate : Iterate α) (trial : Trial α) (value : α), iterate.Sized m.dimension →
    trial.Sized m.dimension → Run.Safe (stepper.rescue m iterate trial value)
      (fun r => ∀ found, r = some found → found.Sized m.dimension) SolverError.Fits

end TrustRegion

namespace ProjectedNewton

structure Path.Sized (n : Nat) (p : Path α σ) : Prop where
  operator : p.operator.Sized n
  box : p.box.length = n
  point : p.x.length = n
  gradient : p.g.length = n

variable {p : Path α σ}

theorem Path.Sized.trial_safe (hp : p.Sized n) (a : α) :
    Safe (p.trial a) (fun r => r.1.length = n) fun _ => True := by
  unfold trial
  refine .bind (.checked (Vec.sub_passes hp.point (by simpa using hp.gradient))) fun q hq => ?_
  refine .bind (.checked (Box.project_passes hp.box hq)) fun c hc => ?_
  refine .bind (.checked (Vec.sub_passes hc hp.point)) fun s hs => ?_
  split
  · exact .pure hs
  · refine .bind (hp.operator.quadratic_safe hp.gradient hs) fun q _ => ?_
    exact .bind (.checked (Vec.dot_passes hp.gradient hs)) fun _ _ => .pure hs

theorem Path.Sized.extrapolate_safe (hp : p.Sized n) (trials : Nat) (a : α) {s : Vec α}
    (hs : s.length = n) :
    Safe (p.extrapolate trials a s) (fun r => r.1.length = n) fun _ => True := by
  induction trials generalizing a s with
  | zero => exact .pure hs
  | succ trials ih =>
      refine .bind (.adapt (hp.trial_safe _)) ?_
      rintro ⟨next, good⟩ hnext
      dsimp only
      split
      · exact .pure hs
      · exact ih _ hnext

theorem Path.Sized.interpolate_safe (hp : p.Sized n) (trials : Nat) (a : α) {s : Vec α}
    (hs : s.length = n) :
    Safe (p.interpolate trials a s) (fun r => r.1.length = n) fun _ => True := by
  induction trials generalizing a s with
  | zero => exact .pure hs
  | succ trials ih =>
      refine .bind (.adapt (hp.trial_safe _)) ?_
      rintro ⟨next, good⟩ hnext
      dsimp only
      split
      · exact .pure hnext
      · exact ih _ hnext

theorem Path.Sized.cauchyStep_safe (hp : p.Sized n) (a : α) :
    Safe (p.cauchyStep a) (fun r => r.1.length = n) fun _ => True := by
  refine .bind (.adapt (hp.trial_safe a)) ?_
  rintro ⟨s, good⟩ hs
  dsimp only
  split
  · exact hp.extrapolate_safe _ _ hs
  · exact hp.interpolate_safe _ _ hs

theorem projectedSearch_safe {op : Operator α σ} (hop : op.Sized n) {box : Box α}
    (hbox : box.length = n) {x g cauchyPoint w : Vec α} (hx : x.length = n) (hg : g.length = n)
    (hcauchy : cauchyPoint.length = n) (hw : w.length = n) (bound : α) (kind : StepKind)
    (trials : Nat) (b : α) :
    Safe (projectedSearch op box x g cauchyPoint w bound kind trials b)
      (fun r => ∀ trial, r = some trial → trial.Sized n) fun _ => True := by
  induction trials generalizing b with
  | zero => exact .pure nofun
  | succ trials ih =>
      refine .bind (.checked (Vec.along_passes hcauchy hw b)) fun q hq => ?_
      refine .bind (.checked (Box.project_passes hbox hq)) fun point hpoint => ?_
      refine .bind (.checked (Vec.sub_passes hpoint hx)) fun step hstep => ?_
      refine .bind (hop.quadratic_safe hg hstep) fun q _ => ?_
      split
      · refine .pure ?_
        rintro _ ⟨⟩
        exact ⟨hpoint, hstep⟩
      · exact ih _

theorem faceStep_safe {linear : Option (LinearSolver α)}
    (hlinear : ∀ solver, linear = some solver → solver.Square) (cg : TruncatedCg.Config α)
    {curvature : Curvature α σ} (hcurvature : curvature.Sized n) {g : Vec α} (hg : g.length = n)
    {free : List Bool} (hfree : free.length = n) {cauchy : Vec α} (hcauchy : cauchy.length = n)
    (radius gradientNorm : α) :
    Safe (faceStep linear cg curvature g free cauchy radius gradientNorm)
      (fun r => r.1.length = n) SolverError.Fits := by
  cases linear with
  | some solver =>
      refine .bind (Evaluation.required_safe hcurvature.toDense) fun hessian hhessian => ?_
      exact .ofChecked
        (TrustRegion.directStep_safe (hlinear solver rfl) hhessian hg hfree hcauchy _)
  | none =>
      refine .bind (Evaluation.required_safe (TruncatedCg.solveFrom_safe cg
        (hcurvature.operator.masked hfree) hg radius hcauchy _)) fun solution hsolution => ?_
      exact .bind .emit fun _ _ => .pure hsolution

theorem fromCauchy_safe {linear : Option (LinearSolver α)}
    (hlinear : ∀ solver, linear = some solver → solver.Square) (cg : TruncatedCg.Config α)
    {curvature : Curvature α σ} (hcurvature : curvature.Sized n) {box : Box α}
    (hbox : box.length = n) {iterate : Iterate α} (hiterate : iterate.Sized n)
    (radius gradientNorm : α) {cauchy : Vec α} (hcauchy : cauchy.length = n) :
    Safe (fromCauchy linear cg curvature box iterate radius gradientNorm cauchy)
      (fun trial => trial.Sized n) SolverError.Fits := by
  obtain ⟨hx, hg⟩ := hiterate
  have hop := hcurvature.operator
  refine .bind (Evaluation.required_safe (hop.quadratic_safe hg hcauchy)) fun q _ => ?_
  refine .bind (.checked (Vec.add_passes hx hcauchy)) fun cauchyPoint hpoint => ?_
  refine .bind (.checked (Box.bindingMask_passes 0 (by omega))) fun binding hbinding => ?_
  have hfree : (binding.map not).length = n := by simpa [hpoint] using hbinding
  dsimp only
  split
  · exact .pure ⟨hpoint, hcauchy⟩
  · refine .bind (Evaluation.required_safe (hop cauchy hcauchy)) fun product hproduct => ?_
    refine .bind (.checked (Vec.add_passes hg hproduct)) fun slope hslope => ?_
    refine .bind (.checked (Vec.restrict_passes (by omega))) fun restricted hrestricted => ?_
    refine .bind (faceStep_safe hlinear cg hcurvature (hrestricted.trans hslope) hfree hcauchy
      radius gradientNorm) ?_
    rintro ⟨w, kind⟩ hw
    refine .bind (Evaluation.required_safe
      (projectedSearch_safe hop hbox hx hg hpoint hw _ kind _ _)) ?_
    rintro (_ | trial) htrial
    · exact .bind .emit fun _ _ => .pure ⟨hpoint, hcauchy⟩
    · exact .pure (htrial trial rfl)

theorem stepper_safe {linear : Option (LinearSolver α)}
    (hlinear : ∀ solver, linear = some solver → solver.Square) (cg : TruncatedCg.Config α)
    {m : Model α σ} (hm : m.WellSized) : (stepper linear cg).Safe m where
  propose box iterate radius gradientNorm length hbox hiterate := by
    refine .bind (.adapt ((hm.curvature hiterate.point).mono (fun _ h => h) fun _ _ => trivial))
      fun curvature hcurvature => ?_
    have hpath : Path.Sized m.dimension
        ⟨curvature.operator, box, iterate.x, iterate.g, radius⟩ :=
      ⟨hcurvature.operator, hbox, hiterate.point, hiterate.gradient⟩
    refine .bind (.adapt ((hpath.cauchyStep_safe length).mono (fun _ h => h) fun _ _ => trivial)) ?_
    rintro ⟨cauchy, length⟩ hcauchy
    refine .bind (.adapt (fromCauchy_safe hlinear cg hcurvature hbox hiterate radius gradientNorm
      hcauchy)) fun trial htrial => ?_
    exact .pure htrial
  rescue _ _ _ _ _ := .pure nofun

end ProjectedNewton

namespace NewtonCg

theorem newtonStep_safe {linear : Option (LinearSolver α)}
    (hlinear : ∀ solver, linear = some solver → solver.Square) (cg : TruncatedCg.Config α)
    {curvature : Curvature α σ} (hcurvature : curvature.Sized n) {iterate : Iterate α}
    (hiterate : iterate.Sized n) (radius gradientNorm : α) :
    Safe (newtonStep linear cg curvature iterate radius gradientNorm) (fun r => r.1.length = n)
      SolverError.Fits := by
  obtain ⟨hx, hg⟩ := hiterate
  cases linear with
  | some solver =>
      refine .bind (Evaluation.required_safe hcurvature.toDense) fun hessian hhessian => ?_
      exact .ofChecked (TrustRegion.directStep_safe (hlinear solver rfl) hhessian hg
        (by simpa using hx) (by simpa using hx) _)
  | none =>
      refine .bind (Evaluation.required_safe (TruncatedCg.solveFrom_safe cg hcurvature.operator hg
        radius (by simpa using hx) _)) fun solution hsolution => ?_
      exact .bind .emit fun _ _ => .pure hsolution

theorem propose_safe {linear : Option (LinearSolver α)}
    (hlinear : ∀ solver, linear = some solver → solver.Square) (cg : TruncatedCg.Config α)
    {m : Model α σ} (hm : m.WellSized) {iterate : Iterate α} (hiterate : iterate.Sized m.dimension)
    (radius gradientNorm : α) :
    Safe (propose linear cg m iterate radius gradientNorm) (fun trial => trial.Sized m.dimension)
      SolverError.Fits := by
  refine .bind (Evaluation.required_safe (hm.curvature hiterate.point)) fun curvature hcurv => ?_
  refine .bind (newtonStep_safe hlinear cg hcurv hiterate radius gradientNorm) ?_
  rintro ⟨step, kind⟩ hstep
  refine .bind (Evaluation.required_safe (hcurv.operator.quadratic_safe hiterate.gradient hstep))
    fun q _ => ?_
  exact .bind (.checked (Vec.add_passes hiterate.point hstep)) fun point hpoint =>
    .pure ⟨hpoint, hstep⟩

theorem rescue_safe (params : Option (LineSearchParams α)) {m : Model α σ} (hm : m.WellSized)
    {iterate : Iterate α} (hiterate : iterate.Sized m.dimension) {trial : TrustRegion.Trial α}
    (htrial : trial.Sized m.dimension) (value : α) :
    Safe (rescue params m iterate trial value)
      (fun r => ∀ found, r = some found → found.Sized m.dimension) SolverError.Fits := by
  cases params with
  | none => exact .pure nofun
  | some params =>
      refine .bind (.checked (Vec.dot_passes hiterate.gradient htrial.step)) fun slope _ => ?_
      dsimp only
      split
      · exact .pure nofun
      · refine .bind (.caught (LineSearch.run_safe _ hm.firstOrder hiterate.point hiterate.gradient
          htrial.step _ _)) ?_
        rintro (e | found) h
        · dsimp only
          split
          · exact .bind .emit fun _ _ => .pure nofun
          · exact .throw h
        · refine .pure ?_
          rintro _ ⟨⟩
          exact h

theorem stepper_safe {linear : Option (LinearSolver α)}
    (hlinear : ∀ solver, linear = some solver → solver.Square) (cg : TruncatedCg.Config α)
    (params : Option (LineSearchParams α)) {m : Model α σ} (hm : m.WellSized) :
    (stepper linear cg params).Safe m where
  propose _ _ radius gradientNorm _ _ hiterate :=
    .bind (.adapt (propose_safe hlinear cg hm hiterate radius gradientNorm)) fun _ htrial =>
      .pure htrial
  rescue _ _ value hiterate htrial := rescue_safe params hm hiterate htrial value

end NewtonCg

end Descent
