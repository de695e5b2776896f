import Descent.Proofs.Move
import Descent.Proofs.Radius

/-!
# The range of the radius

In exact arithmetic the radius of a trust region is positive and not above the greatest at the start
of every round. A round that does not accept its step multiplies it by the factor of decrease at
most, and only a rescue can make it more than the factor of growth allows (`Iteration.InRange`,
`Method.radius_in_range`).

That a rejected step shrinks the radius is not in the code as such: the radius shrinks below one
threshold and the step is rejected below another. It does since the ratio of two finite values is
always a number (`TrustRegion.isNaN_reductionRatio`), so that what is not above the threshold of
acceptance is below that of decrease.
-/

set_option autoImplicit false

namespace Descent

open Run Extended

/-! ## Ranges -/

section Range

variable {α : Type} [Scalar α]

/-- The radius after an iteration, if it was `Δ` before. -/
structure Iteration.InRange (i : Iteration α) (rescues : Bool) (c : TrustRegion.Config α) (Δ : α) :
    Prop where
  pos : 0 < i.radius
  le_max : i.radius ≤ c.maxRadius
  shrinks : i.accepted = false → i.radius ≤ c.decreaseFactor * Δ
  grows : i.radius ≤ c.increaseFactor * Δ ∨ rescues = true ∧ i.kind = .lineSearch

end Range

variable {σ ω μ : Type} [RealConstants]

namespace TrustRegion

variable {c : Config Extended} {s : State Extended}

/-! ## The radius -/

theorem decrease_le_decrease (hc : c.Valid) {a b : Extended} (h : a ≤ b) :
    c.decreaseFactor * a ≤ c.decreaseFactor * b := by
  obtain ⟨r, hr⟩ := exists_real_of_between hc.decreaseFactor_pos hc.decreaseFactor_lt
  have hpos : 0 < r := by simpa [hr] using hc.decreaseFactor_pos
  rw [hr]
  exact real_mul_le_real_mul hpos h

/-- A poor ratio multiplies the radius by the factor of decrease at most. -/
theorem update_decreases (hc : c.Valid) (hs : 0 < s.radius) {ratio : Extended}
    (hpoor : ratio < c.decreaseThreshold) (stepNorm : Extended) (hit : Bool) :
    (s.update c ratio stepNorm hit).radius ≤ c.decreaseFactor * s.radius := by
  unfold State.update
  rw [if_pos hpoor]
  exact decrease_le_decrease hc (shrinkBase_le hs stepNorm).2

/-- No ratio leads above the greatest radius or to more than the factor of growth. -/
theorem update_bounded (hc : c.Valid) (hs : 0 < s.radius) (hmax : s.radius ≤ c.maxRadius)
    (ratio stepNorm : Extended) (hit : Bool) :
    (s.update c ratio stepNorm hit).radius ≤ c.maxRadius ∧
      (s.update c ratio stepNorm hit).radius ≤ c.increaseFactor * s.radius := by
  have hgrown : s.radius ≤ c.increaseFactor * s.radius := le_increase hc hs
  by_cases hpoor : ratio < c.decreaseThreshold
  · have hle : (s.update c ratio stepNorm hit).radius ≤ s.radius :=
      (update_radius hc hs ratio stepNorm hit).2 hpoor
    exact ⟨le_trans hle hmax, le_trans hle hgrown⟩
  · unfold State.update
    rw [if_neg hpoor]
    split
    · exact ⟨minNum_le_right (isNaN_of_lt hc.maxRadius).2,
        minNum_le_left (isNaN_of_lt (product_pos hc.increaseFactor_pos hs)).2⟩
    · exact ⟨hmax, hgrown⟩

theorem shrink_bounded (hc : c.Valid) (hs : 0 < s.radius) (hmax : s.radius ≤ c.maxRadius) :
    (s.shrink c).radius ≤ c.maxRadius ∧ (s.shrink c).radius ≤ c.increaseFactor * s.radius := by
  have hle : (s.shrink c).radius ≤ s.radius := (shrink_radius hc hs).2
  exact ⟨le_trans hle hmax, le_trans hle (le_increase hc hs)⟩

theorem firstRadius_le_max (hc : c.Valid) (o : Options Extended) (norm : Extended) :
    firstRadius o c norm ≤ c.maxRadius :=
  minNum_le_right (isNaN_of_lt hc.maxRadius).2

/-! ## Ratios -/

/-- The ratio of the decreases between finite values is a number, whatever has been predicted. -/
theorem isNaN_reductionRatio {f value : Extended} (hf : Scalar.isFinite f = true)
    (hvalue : Scalar.isFinite value = true) (predicted : Extended) :
    Scalar.isNaN (reductionRatio f value predicted) = false := by
  obtain ⟨f, rfl⟩ := exists_real hf
  obtain ⟨value, rfl⟩ := exists_real hvalue
  unfold reductionRatio
  rw [real_sub]
  split
  · next hpredicted =>
      rcases pos_cases hpredicted with rfl | ⟨r, rfl, hr⟩
      -- an infinite prediction makes the ratio zero
      · exact isNaN_real
      · rw [real_div hr.ne']
        exact isNaN_real
  · rfl

/-- The ratio of a step that is not accepted is below the threshold of decrease. -/
theorem reductionRatio_lt (hc : c.Valid) {f value predicted : Extended}
    (hf : Scalar.isFinite f = true) (hvalue : Scalar.isFinite value = true)
    (hpoor : ¬ c.acceptanceRatio < reductionRatio f value predicted) :
    reductionRatio f value predicted < c.decreaseThreshold := by
  have hle : reductionRatio f value predicted ≤ c.acceptanceRatio :=
    Scalar.Ordered.le_of_not_lt (isNaN_reductionRatio hf hvalue predicted)
      (isNaN_of_lt hc.acceptanceRatio_lt).1 hpoor
  exact lt_of_le_of_lt hle hc.acceptanceRatio_lt

/-! ## Rounds -/

/-- What a round finds: a radius in range and an iterate at which the objective is finite. -/
structure Ready (c : Config Extended) (p : Progress Extended (Memory Extended μ)) : Prop where
  value : Scalar.isFinite p.iterate.f = true
  pos : 0 < p.memory.region.radius
  le_max : p.memory.region.radius ≤ c.maxRadius

variable {s : Solve Extended σ ω} {stepper : Stepper Extended (Counts × σ) μ}
  {box : Box Extended} {number : Nat} {p : Progress Extended (Memory Extended μ)} {rescues : Bool}

/-- The radius after a rejected step. -/
theorem Ready.rejected (h : Ready c p) (hc : c.Valid) {trial : Trial Extended} {memory : μ}
    {value : Extended} (tried : Tried stepper s.model.counted box p trial memory value)
    (poor : ¬ c.acceptanceRatio < reductionRatio p.iterate.f value trial.predicted)
    (stepNorm : Extended) (hit : Bool) :
    (p.memory.region.update c (reductionRatio p.iterate.f value trial.predicted) stepNorm
      hit).radius ≤ c.decreaseFactor * p.memory.region.radius :=
  update_decreases hc h.pos (reductionRatio_lt hc h.value tried.isFinite poor) stepNorm hit

/-- A round leaves the radius in range. -/
theorem Step.inRange {r : Round Extended (Memory Extended μ)}
    (hshort : stepper.RescuesShort s.model.counted rescues) (hc : c.Valid) (hp : Ready c p)
    (h : Step s stepper c box number p r) :
    r.iteration.InRange rescues c p.memory.region.radius := by
  have hpos : 0 < r.iteration.radius := h.radius_reported ▸ (h.shrinks hshort hc hp.pos).1
  cases h with
  | failed =>
      obtain ⟨hmax, hgrown⟩ := shrink_bounded hc hp.pos hp.le_max
      have hsame : (p.memory.region.shrink c).radius ≤ (p.memory.region.shrink c).radius :=
        Scalar.Ordered.le_refl (isNaN_of_lt hpos).2
      exact ⟨hpos, hmax, fun _ => hsame, .inl hgrown⟩
  | rejected tried poor =>
      obtain ⟨hmax, hgrown⟩ := update_bounded hc hp.pos hp.le_max _ _ _
      exact ⟨hpos, hmax, fun _ => hp.rejected hc tried poor _ _, .inl hgrown⟩
  | accepted =>
      obtain ⟨hmax, hgrown⟩ := update_bounded hc hp.pos hp.le_max _ _ _
      exact ⟨hpos, hmax, nofun, .inl hgrown⟩
  | rescued tried poor rescue difference =>
      obtain ⟨hrescues, -⟩ := hshort hp.pos tried rescue difference
      exact ⟨hpos, minNum_le_right (isNaN_of_lt hc.maxRadius).2, nofun, .inr ⟨hrescues, rfl⟩⟩

/-- The next round finds the radius in range too. -/
theorem Step.ready {r : Round Extended (Memory Extended μ)}
    (hshort : stepper.RescuesShort s.model.counted rescues)
    (hsound : stepper.Sound s.model.counted) (hbox : s.model.box = .ok box) (hc : c.Valid)
    (hp : Ready c p) (h : Step s stepper c box number p r) : Ready c r.progress := by
  have hrange := h.inRange hshort hc hp
  refine ⟨?_, h.radius_reported ▸ hrange.pos, h.radius_reported ▸ hrange.le_max⟩
  cases h.move hsound hbox with
  | stayed _ _ iterate =>
      rw [iterate]
      exact hp.value
  | moved _ _ stands => exact stands.evaluated.isFinite_value

/-- The number stands for a positive radius which is at most that after a decrease from `Δ`. -/
def Config.Decreases (c : Config Extended) (Δ : Extended) (radius : Float) : Prop :=
  ∃ Δ' : Extended, radius = Scalar.toFloat Δ' ∧ 0 < Δ' ∧ Δ' ≤ c.decreaseFactor * Δ

/-- The error of too many rejections shows the radius after the last of them. -/
theorem Breakdown.decreases (hsound : stepper.Sound s.model.counted) (hc : c.Valid)
    (hp : Ready c p) {rejections : Nat} {radius : Float}
    (h : Breakdown s stepper c box p (.stagnation rejections radius)) :
    c.Decreases p.memory.region.radius radius := by
  cases h with
  | unattempted h =>
      -- neither the stepper nor the model counts rejections
      cases h with
      | proposal fails => exact ((hsound.propose _ _ _ _ _).failed fails).elim
      | rescue fails => exact ((hsound.rescue _ _ _).failed fails).elim
  | rejections tried poor =>
      exact ⟨_, rfl, (update_radius hc hp.pos _ _ _).1, hp.rejected hc tried poor _ _⟩

/-! ## Whole solves -/

/-- The first radius `Δ` and the radii after all iterations are in range. -/
structure InRange (rescues : Bool) (c : Config Extended) (Δ : Extended)
    (seen : List (Iteration Extended)) : Prop where
  first_pos : 0 < Δ
  first_le_max : Δ ≤ c.maxRadius
  iterations : Stepwise Iteration.radius (fun Δ i => i.InRange rescues c Δ) Δ seen

theorem Opens.inRange {x₀ : Vec Extended} {state : σ} {course : Course Extended σ}
    {start t : Counts × σ} (hshort : stepper.RescuesShort s.model.counted rescues)
    (hsound : stepper.Sound s.model.counted)
    (opens : Opens s stepper c x₀ state course start) {k : Nat}
    {p : Progress Extended course.Memory} {seen : List (Iteration Extended)}
    (trail : course.Trail start k p t seen) :
    let Δ := firstRadius s.options c course.first.gradientNorm
    InRange rescues c Δ seen ∧ ∀ rejections radius,
      Fails (course.round (k + 1) p) (.stagnation rejections radius) →
        c.Decreases (lastFigure Iteration.radius Δ seen) radius := by
  have hfirst := opens.first_stands.evaluated.isFinite_value
  cases opens with
  | @intro box x g f norm active start settings options length hbox =>
      have hc := Config.valid_of_validate settings
      have hpos := firstRadius_pos hc options norm
      have hmax := firstRadius_le_max hc s.options norm
      obtain ⟨hready, hseen, hlast⟩ := trail.keeps_stepwise (I := Ready c)
        (R := fun Δ i => i.InRange rescues c Δ)
        (v := fun p => State.radius (Memory.region p.memory)) ⟨hfirst, hpos, hmax⟩
        fun k p r hp hr => by
          have hstep := (round_gives s stepper c box _ p).returned hr
          exact ⟨hstep.ready hshort hsound hbox hc hp, hstep.inRange hshort hc hp,
            hstep.radius_reported⟩
      refine ⟨⟨hpos, hmax, hseen⟩, fun rejections radius fails => ?_⟩
      have hbreaks := (round_gives s stepper c box _ p).failed fails
      exact hlast ▸ hbreaks.decreases hsound hc hready

end TrustRegion

namespace Method

variable {method : Method Extended} {c : TrustRegion.Config Extended}

theorem Opens.inRange (hc : method.region = some c) {s : Solve Extended σ Unit}
    {x₀ : Vec Extended} {state : σ} {course : Course Extended σ} {start t : Counts × σ}
    (opens : Opens s x₀ state method course start) {k : Nat}
    {p : Progress Extended course.Memory} {seen : List (Iteration Extended)}
    (trail : course.Trail start k p t seen) :
    let Δ := TrustRegion.firstRadius s.options c course.first.gradientNorm
    TrustRegion.InRange method.rescues c Δ seen ∧ ∀ rejections radius,
      Fails (course.round (k + 1) p) (.stagnation rejections radius) →
        c.Decreases (lastFigure Iteration.radius Δ seen) radius := by
  cases opens with
  | projectedNewton opens =>
      cases hc
      exact opens.inRange (ProjectedNewton.rescuesShort _ _ _)
        (ProjectedNewton.stepper_sound (fun _ h => c.subproblem.plain_linearSolver h) c.cg) trail
  | newtonCg params opens =>
      cases hc
      exact opens.inRange (NewtonCg.rescuesShort _ _ _ _ _)
        (NewtonCg.stepper_sound (fun _ h => c.subproblem.plain_linearSolver h) c.cg _) trail
  | lbfgs => cases hc

/-- **The radius stays in range.** It is positive and not above the greatest before every round, a
round that does not accept its step multiplies it by the factor of decrease at most, and but for a
rescue it does not grow by more than the factor of growth. This holds of all iterations that the
observer of a solve hears of, from the first radius on, and of the rejection that makes a solve
stagnate. Without a course the solve has not come to its first round. -/
theorem radius_in_range (hc : method.region = some c) (m : Model Extended σ) (x₀ : Vec Extended)
    (o : Options Extended) (observer : Observer Extended ω) (clock : Nat → Duration) (state : σ)
    (w : ω) (journal : Journal) :
    let run := method.solveNoted m x₀ o observer clock state w journal
    (run.2 = [] ∧ ∀ record, run.1 = .ok (.ok record) → record.iterations = 0) ∨
      ∃ course start, Opens (method.solve m o clock) x₀ state method course start ∧
        let Δ := TrustRegion.firstRadius o c course.first.gradientNorm
        TrustRegion.InRange method.rescues c Δ run.2 ∧
        ∀ record rejections radius, run.1 = .ok (.ok record) →
          record.error = some (.stagnation rejections radius) →
          c.Decreases (lastFigure Iteration.radius Δ run.2) radius := by
  intro run
  have hreports : Solve.Reports (Opens (method.solve m o clock) x₀ state method) run.2 :=
    solveNoted_reports
  have hends : ∀ record, run.1 = .ok (.ok record) → (method.solve m o clock).Ends
      (method.StartsAt m x₀) (Opens (method.solve m o clock) x₀ state method) record run.2 :=
    fun record hrecord => solveNoted_ends (Prod.ext hrecord rfl)
  obtain ⟨result, seen⟩ := run
  by_cases hrecord : ∃ record, result = .ok (.ok record)
  · obtain ⟨record, rfl⟩ := hrecord
    cases hends record rfl with
    | atStart _ _ shows =>
        refine .inl ⟨rfl, fun record' h => ?_⟩
        cases h
        exact shows.iterations
    | after opens ending =>
        obtain ⟨_, _, _, trail, -, -⟩ := ending.trail_end
        refine .inr ⟨_, _, opens, (opens.inRange hc trail).1, ?_⟩
        intro record' rejections radius h herror
        cases h
        obtain ⟨_, _, _, trail, fails⟩ := ending.error_fails herror
        exact (opens.inRange hc trail).2 rejections radius fails
  -- without a record there are only the iterations to speak of
  · cases hreports with
    | nothing => exact .inl ⟨rfl, fun record h => absurd ⟨record, h⟩ hrecord⟩
    | trail opens trail =>
        refine .inr ⟨_, _, opens, (opens.inRange hc trail).1, ?_⟩
        intro record _ _ h _
        exact absurd ⟨record, h⟩ hrecord

omit [RealConstants] in
/-- In exact arithmetic, with the constants of doubles, for a solve whose first step is rejected and
rescued. -/
theorem radius_in_range_steep :
    letI := RealConstants.double
    let run := (newtonCg {} true : Method Extended).solveNoted steep [0] steepOptions
      (Observer.silent : Observer Extended Unit) (fun _ => .zero) () () #[]
    (newtonCg {} true : Method Extended).region = some {} ∧
      ((run.2 = [] ∧ ∀ record, run.1 = .ok (.ok record) → record.iterations = 0) ∨
        ∃ course start, Opens ((newtonCg {} true).solve steep steepOptions fun _ => .zero) [0] ()
          (newtonCg {} true) course start ∧
        let Δ := TrustRegion.firstRadius steepOptions {} course.first.gradientNorm
        TrustRegion.InRange true {} Δ run.2 ∧
        ∀ record rejections radius, run.1 = .ok (.ok record) →
          record.error = some (.stagnation rejections radius) →
          TrustRegion.Config.Decreases {} (lastFigure Iteration.radius Δ run.2) radius) := by
  let _ := RealConstants.double
  have hregion : (newtonCg {} true : Method Extended).region = some {} := rfl
  exact ⟨hregion, radius_in_range hregion steep [0] steepOptions
    (Observer.silent : Observer Extended Unit) (fun _ => .zero) () () #[]⟩

end Method

end Descent
