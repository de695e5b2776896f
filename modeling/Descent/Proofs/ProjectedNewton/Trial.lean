import Descent.Proofs.Box
import Descent.ProjectedNewton

/-!
# Trial points of the projected Newton method

Where the points come from at which a step is tried (`stepper_attains`): those of the projected
search are projections, and lie in the box; the Cauchy point, which is tried if no variable is free
or the search fails, is the iterate plus the computed difference between a projected point and the
iterate.
-/

set_option autoImplicit false

namespace Descent

variable {α σ : Type} [Scalar α]

namespace ProjectedNewton

open Run

/-! ## The Cauchy step -/

section Path

variable {p : Path α σ}

theorem Path.trial_attains (a : α) :
    Attains (fun _ => True) (p.trial a) fun r => p.box.CauchyStep p.x p.g r.1 := by
  unfold Path.trial
  refine Attains.bind (Attains.checked fun _ hq => hq) fun q hq => ?_
  refine Attains.bind (Attains.checked fun _ hc => hc) fun c hc => ?_
  refine Attains.bind (Attains.checked fun _ hs => hs) fun s hs => ?_
  have hstep : p.box.CauchyStep p.x p.g s := ⟨a, q, c, hq, hc, hs⟩
  split
  · exact Attains.pure hstep
  · refine Attains.bind Attains.trivial fun _ _ => ?_
    exact Attains.bind (Attains.checked fun _ _ => trivial) fun _ _ => Attains.pure hstep

theorem Path.extrapolate_attains (n : Nat) (a : α) {s : Vec α}
    (hs : p.box.CauchyStep p.x p.g s) :
    Attains (fun _ => True) (p.extrapolate n a s) fun r => p.box.CauchyStep p.x p.g r.1 := by
  induction n generalizing a s with
  | zero => exact Attains.pure hs
  | succ n ih =>
      refine Attains.bind (Attains.adapt (p.trial_attains (a * 10.0))) ?_
      rintro ⟨next, good⟩ hnext
      dsimp only
      split
      · exact Attains.pure hs
      · exact ih _ hnext

theorem Path.interpolate_attains (n : Nat) (a : α) {s : Vec α}
    (hs : p.box.CauchyStep p.x p.g s) :
    Attains (fun _ => True) (p.interpolate n a s) fun r => p.box.CauchyStep p.x p.g r.1 := by
  induction n generalizing a s with
  | zero => exact Attains.pure hs
  | succ n ih =>
      refine Attains.bind (Attains.adapt (p.trial_attains (a * 0.1))) ?_
      rintro ⟨next, good⟩ hnext
      dsimp only
      split
      · exact Attains.pure hnext
      · exact ih _ hnext

/-- The step that is found lies on the projected path. -/
theorem Path.cauchyStep_attains (a : α) :
    Attains (fun _ => True) (p.cauchyStep a) fun r => p.box.CauchyStep p.x p.g r.1 := by
  refine Attains.bind (Attains.adapt (p.trial_attains a)) ?_
  rintro ⟨s, good⟩ hs
  dsimp only
  split
  · exact p.extrapolate_attains _ _ hs
  · exact p.interpolate_attains _ _ hs

end Path

/-! ## The trial step -/

/-- A point that the projected search finds lies in the box. -/
theorem projectedSearch_attains [Scalar.Ordered α] (op : Operator α σ) {b : Box α}
    (hb : b.IsValid) (x g cauchyPoint w : Vec α) (bound : α) (kind : StepKind) (n : Nat) (t : α) :
    Attains (fun _ => True) (projectedSearch op b x g cauchyPoint w bound kind n t)
      fun found => ∀ trial, found = some trial → b.Holds trial.point := by
  induction n generalizing t with
  | zero => exact Attains.pure fun _ h => by cases h
  | succ n ih =>
      refine Attains.bind (Attains.checked fun _ _ => trivial) fun _ _ => ?_
      refine Attains.bind (Attains.checked fun _ h => Box.holds_project hb h) fun point hpoint => ?_
      refine Attains.bind (Attains.checked fun _ _ => trivial) fun _ _ => ?_
      refine Attains.bind Attains.trivial fun _ _ => ?_
      split
      · exact Attains.pure fun _ h => by cases h; exact hpoint
      · exact ih _

/-- From a Cauchy step on, only the Cauchy point is not a projection. -/
theorem fromCauchy_attains [Scalar.Ordered α] (linear : Option (LinearSolver α))
    (cg : TruncatedCg.Config α) (c : Curvature α σ) {b : Box α} (hb : b.IsValid)
    (iterate : Iterate α) (radius gradientNorm : α) {cauchy : Vec α}
    (hcauchy : b.CauchyStep iterate.x iterate.g cauchy) :
    Attains (fun _ => True) (fromCauchy linear cg c b iterate radius gradientNorm cauchy)
      fun trial => b.Candidate iterate.x iterate.g trial.point := by
  unfold fromCauchy
  refine Attains.bind (Attains.adapt Attains.trivial) fun q _ => ?_
  refine Attains.bind (Attains.checked fun _ h => h) fun cauchyPoint hpoint => ?_
  have hfallback : b.Candidate iterate.x iterate.g cauchyPoint := .inr ⟨cauchy, hcauchy, hpoint⟩
  refine Attains.bind (Attains.checked fun _ _ => trivial) fun binding _ => ?_
  dsimp only
  split
  -- no variable is free
  · exact Attains.pure hfallback
  · refine Attains.bind (Attains.adapt Attains.trivial) fun _ _ => ?_
    refine Attains.bind (Attains.checked fun _ _ => trivial) fun _ _ => ?_
    refine Attains.bind (Attains.checked fun _ _ => trivial) fun _ _ => ?_
    refine Attains.bind Attains.trivial ?_
    rintro ⟨w, kind⟩ -
    refine Attains.bind
      (Attains.adapt (projectedSearch_attains c.operator hb _ _ _ _ _ _ _ _)) ?_
    rintro (_ | trial) hfound
    -- a search that has failed falls back on the Cauchy point
    · exact Attains.bind Attains.trivial fun _ _ => Attains.pure hfallback
    · exact Attains.pure (.inl (hfound trial rfl))

/-- A trial step leads into the box or to a Cauchy point. -/
theorem stepper_attains [Scalar.Ordered α] (linear : Option (LinearSolver α))
    (cg : TruncatedCg.Config α) (m : Model α σ) {b : Box α} (hb : b.IsValid) (iterate : Iterate α)
    (radius gradientNorm length : α) :
    Attains (fun _ => True) ((stepper linear cg).propose m b iterate radius gradientNorm length)
      fun r => b.Candidate iterate.x iterate.g r.1.point := by
  refine Attains.bind (Attains.adapt Attains.trivial) fun curvature _ => ?_
  refine Attains.bind (Attains.adapt (Path.cauchyStep_attains length)) ?_
  rintro ⟨cauchy, length⟩ hcauchy
  refine Attains.bind (Attains.adapt (fromCauchy_attains linear cg curvature hb iterate radius
    gradientNorm hcauchy)) fun trial htrial => ?_
  exact Attains.pure htrial

end ProjectedNewton

end Descent
