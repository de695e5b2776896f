import Descent.Proofs.Method
import Descent.Proofs.NewtonCg
import Descent.Proofs.Valid

/-!
# The radius after poor steps

A step is poor if there is no value at its end or the ratio of the decreases is below the threshold.
In exact arithmetic a poor step never makes the radius of a trust region grow, with one exception: a
search that rescues it resets a radius below the gap `ε` of the arithmetic to at most `ε`
(`Method.radius_shrinks`). A rescue by a step shorter than `ε` does make such a radius grow
(`TrustRegion.Step.grows`), and in doubles a single one is enough (`Method.rescue_grows_radius`).
-/

set_option autoImplicit false

namespace Descent

open Run Extended

/-! ## Poor steps -/

section Poor

variable {α : Type} [Scalar α]

/-- The step of the iteration was poor: there was no value at its end, or the ratio was below the
threshold. -/
def Iteration.IsPoor (i : Iteration α) (c : TrustRegion.Config α) : Prop :=
  ∀ ratio ∈ i.ratio, ratio < c.decreaseThreshold

instance (i : Iteration α) (c : TrustRegion.Config α) : Decidable (i.IsPoor c) :=
  inferInstanceAs (Decidable (∀ ratio ∈ i.ratio, ratio < c.decreaseThreshold))

/-- After the radius `Δ` the radius has not grown if the step was poor, or a rescue has reset it
from below `ε`. -/
def Iteration.Shrinks (i : Iteration α) (rescues : Bool) (c : TrustRegion.Config α) (Δ : α) :
    Prop :=
  i.IsPoor c → i.radius ≤ Δ ∨
    rescues = true ∧ i.kind = .lineSearch ∧ Δ < Scalar.epsilon ∧ i.radius ≤ Scalar.epsilon

instance (i : Iteration α) (rescues : Bool) (c : TrustRegion.Config α) (Δ : α) :
    Decidable (i.Shrinks rescues c Δ) :=
  inferInstanceAs (Decidable (i.IsPoor c → i.radius ≤ Δ ∨
    rescues = true ∧ i.kind = .lineSearch ∧ Δ < Scalar.epsilon ∧ i.radius ≤ Scalar.epsilon))

/-- From the radius `Δ` on, no poor step makes it grow, but for rescues below `ε`. -/
abbrev Shrinking (rescues : Bool) (c : TrustRegion.Config α) : α → List (Iteration α) → Prop :=
  Stepwise Iteration.radius fun Δ i => i.Shrinks rescues c Δ

theorem Iteration.isPoor_some {i : Iteration α} {c : TrustRegion.Config α} {ratio : α}
    (h : i.ratio = some ratio) : i.IsPoor c ↔ ratio < c.decreaseThreshold := by
  simp [IsPoor, h]

def Method.region : Method α → Option (TrustRegion.Config α)
  | projectedNewton c | newtonCg c _ => some c
  | lbfgs _ => none

def Method.rescues : Method α → Bool
  | newtonCg _ withRescue => withRescue
  | projectedNewton _ | lbfgs _ => false

end Poor

variable {σ ω μ : Type} [RealConstants]

/-! ## The radius -/

namespace TrustRegion

variable {c : Config Extended} {s : State Extended}

theorem decrease_le (hc : c.Valid) {a : Extended} (ha : 0 < a) :
    0 < c.decreaseFactor * a ∧ c.decreaseFactor * a ≤ a := by
  obtain ⟨r, hr⟩ := exists_real_of_between hc.decreaseFactor_pos hc.decreaseFactor_lt
  have hpos : 0 < r := by simpa [hr] using hc.decreaseFactor_pos
  have hlt : r < 1 := by simpa [hr] using hc.decreaseFactor_lt
  rw [hr]
  rcases pos_cases ha with rfl | ⟨a, rfl, ha⟩
  · rw [real_mul_top hpos]
    exact ⟨trivial, trivial⟩
  · exact ⟨mul_pos hpos ha, mul_le_of_le_one_left ha.le hlt.le⟩

theorem Config.Valid.increaseFactor_pos (hc : c.Valid) : 0 < c.increaseFactor :=
  lt_of_le_of_lt (real_le.mpr zero_le_one) hc.increaseFactor

/-- The factor of growth is above 1, be it a number or not. -/
theorem le_increase (hc : c.Valid) {a : Extended} (ha : 0 < a) : a ≤ c.increaseFactor * a := by
  rcases pos_cases ha with rfl | ⟨a, rfl, ha⟩
  · rcases pos_cases hc.increaseFactor_pos with htop | ⟨φ, hφ, hpos⟩
    · rw [htop]
      trivial
    · rw [hφ, real_mul_top hpos]
      trivial
  · rcases pos_cases hc.increaseFactor_pos with htop | ⟨φ, hφ, -⟩
    · rw [htop, ← real_mul_comm, real_mul_top ha]
      trivial
    · have hone : 1 < φ := by simpa [hφ] using hc.increaseFactor
      rw [hφ, real_mul, real_le]
      exact le_mul_of_one_le_left ha.le hone.le

theorem shrink_radius (hc : c.Valid) (hs : 0 < s.radius) :
    0 < (s.shrink c).radius ∧ (s.shrink c).radius ≤ s.radius :=
  decrease_le hc hs

theorem update_ratio (ratio stepNorm : Extended) (hit : Bool) :
    (s.update c ratio stepNorm hit).ratio = some ratio := by
  unfold State.update
  split
  · rfl
  · split <;> rfl

/-- What a poor ratio shrinks: the length of the step counts only if it is less than the radius. -/
theorem shrinkBase_le (hs : 0 < s.radius) (stepNorm : Extended) :
    0 < (if 0 < stepNorm then Scalar.minNum stepNorm s.radius else s.radius) ∧
      (if 0 < stepNorm then Scalar.minNum stepNorm s.radius else s.radius) ≤ s.radius := by
  split
  · next hstep =>
      exact ⟨Scalar.minNum_mem (0 < ·) hstep hs, minNum_le_right (isNaN_of_lt hs).2⟩
  · exact ⟨hs, Scalar.Ordered.le_refl (isNaN_of_lt hs).2⟩

theorem update_radius (hc : c.Valid) (hs : 0 < s.radius) (ratio stepNorm : Extended) (hit : Bool) :
    0 < (s.update c ratio stepNorm hit).radius ∧
      (ratio < c.decreaseThreshold → (s.update c ratio stepNorm hit).radius ≤ s.radius) := by
  unfold State.update
  split
  · have hbase := shrinkBase_le hs stepNorm
    obtain ⟨hpos, hle⟩ := decrease_le hc hbase.1
    exact ⟨hpos, fun _ => le_trans hle hbase.2⟩
  · next hgood =>
      refine ⟨?_, fun h => absurd h hgood⟩
      split
      · exact Scalar.minNum_mem (0 < ·) (product_pos hc.increaseFactor_pos hs) hc.maxRadius
      · exact hs

theorem epsilon_pos : (0 : Extended) < Scalar.epsilon := real_lt.mpr RealConstants.epsilon_pos

/-- After a rescue by a step that was not too long the radius is not greater, or at most `ε`. -/
theorem reset_radius (hc : c.Valid) (hs : 0 < s.radius) (ratio : Extended) {stepNorm : Extended}
    (hshort : Scalar.isNaN stepNorm = false → stepNorm ≤ s.radius) :
    0 < (s.reset c ratio stepNorm).radius ∧ ((s.reset c ratio stepNorm).radius ≤ s.radius ∨
      s.radius < Scalar.epsilon ∧ (s.reset c ratio stepNorm).radius ≤ Scalar.epsilon) := by
  have hε := (isNaN_of_lt epsilon_pos).2
  show 0 < Scalar.minNum (Scalar.maxNum stepNorm Scalar.epsilon) c.maxRadius ∧
    (Scalar.minNum (Scalar.maxNum stepNorm Scalar.epsilon) c.maxRadius ≤ s.radius ∨
      s.radius < Scalar.epsilon ∧
        Scalar.minNum (Scalar.maxNum stepNorm Scalar.epsilon) c.maxRadius ≤ Scalar.epsilon)
  rcases maxNum_cases (a := stepNorm) hε with ⟨hlong, hmax⟩ | hmax <;> rw [hmax]
  · have hpos : 0 < stepNorm := lt_of_lt_of_le epsilon_pos hlong
    have hnumber := (isNaN_of_lt hpos).2
    exact ⟨Scalar.minNum_mem (0 < ·) hpos hc.maxRadius,
      .inl (le_trans (minNum_le_left hnumber) (hshort hnumber))⟩
  · refine ⟨Scalar.minNum_mem (0 < ·) epsilon_pos hc.maxRadius, ?_⟩
    have hle := minNum_le_left (b := c.maxRadius) hε
    by_cases hbelow : s.radius < Scalar.epsilon
    · exact .inr ⟨hbelow, hle⟩
    · exact .inl (le_trans hle (Scalar.Ordered.le_of_not_lt hε (isNaN_of_lt hs).2 hbelow))

/-- After a rescue by a step shorter than `ε` the radius is `ε`, however small it was before, unless
the greatest radius is less. -/
theorem reset_radius_of_short (ratio : Extended) {stepNorm : Extended}
    (hshort : stepNorm < Scalar.epsilon) :
    (s.reset c ratio stepNorm).radius = Scalar.minNum Scalar.epsilon c.maxRadius := by
  have hε := (isNaN_of_lt epsilon_pos).2
  show Scalar.minNum (Scalar.maxNum stepNorm Scalar.epsilon) c.maxRadius = _
  rcases maxNum_cases (a := stepNorm) hε with ⟨hlong, -⟩ | hmax
  · exact absurd hshort (not_lt_of_le hlong)
  · rw [hmax]

/-- The radius from which the first is cut. -/
theorem initialRadius_pos {o : Options Extended} (ho : o.Valid) (norm : Extended) :
    0 < o.trustRegionInitialRadius.getD (if 0 < norm then norm else 1) := by
  cases hradius : o.trustRegionInitialRadius with
  | some radius => exact (ho.initialRadius radius hradius).1
  | none =>
      show 0 < (if 0 < norm then norm else 1)
      split
      · assumption
      · exact real_lt.mpr zero_lt_one

theorem firstRadius_pos (hc : c.Valid) {o : Options Extended} (ho : o.validate = .ok ())
    (norm : Extended) : 0 < firstRadius o c norm :=
  Scalar.minNum_mem (0 < ·) (initialRadius_pos (Options.valid_of_validate ho) norm) hc.maxRadius

/-! ## Rounds -/

/-- A stepper whose rescues take steps that are no longer than the radius, if their lengths are
numbers. Without rescues there is nothing to ask. -/
def Stepper.RescuesShort (stepper : Stepper Extended σ μ) (m : Model Extended σ) (rescues : Bool) :
    Prop :=
  ∀ {box : Box Extended} {p : Progress Extended (Memory Extended μ)} {trial : Trial Extended}
    {memory : μ} {value : Extended} {found : LineSearch.Found Extended} {step : Vec Extended},
    0 < p.memory.region.radius → Tried stepper m box p trial memory value →
    Returns (stepper.rescue m p.iterate trial value) (some found) →
    Vec.sub found.point p.iterate.x = .ok step →
    rescues = true ∧ (Scalar.isNaN (Vec.norm step) = false →
      Vec.norm step ≤ p.memory.region.radius)

/-- A round keeps the radius positive, and it shrinks after a poor step. -/
theorem Step.shrinks {s : Solve Extended σ ω} {stepper : Stepper Extended (Counts × σ) μ}
    {box : Box Extended} {number : Nat} {p : Progress Extended (Memory Extended μ)}
    {r : Round Extended (Memory Extended μ)} {rescues : Bool}
    (hstepper : stepper.RescuesShort s.model.counted rescues) (hc : c.Valid)
    (hradius : 0 < p.memory.region.radius) (h : Step s stepper c box number p r) :
    0 < r.progress.memory.region.radius ∧
      r.iteration.Shrinks rescues c p.memory.region.radius := by
  cases h with
  | failed =>
      obtain ⟨hpos, hle⟩ := shrink_radius hc hradius
      exact ⟨hpos, fun _ => .inl hle⟩
  | rejected =>
      obtain ⟨hpos, hle⟩ := update_radius hc hradius _ _ _
      exact ⟨hpos, fun hpoor => .inl (hle ((Iteration.isPoor_some (update_ratio ..)).mp hpoor))⟩
  | accepted =>
      obtain ⟨hpos, hle⟩ := update_radius hc hradius _ _ _
      exact ⟨hpos, fun hpoor => .inl (hle ((Iteration.isPoor_some (update_ratio ..)).mp hpoor))⟩
  | @rescued trial memory value _ _ _ _ tried poor rescue difference =>
      obtain ⟨hrescues, hshort⟩ := hstepper hradius tried rescue difference
      obtain ⟨hpos, hle⟩ :=
        reset_radius hc hradius (reductionRatio p.iterate.f value trial.predicted) hshort
      exact ⟨hpos, fun _ => hle.imp_right fun h => ⟨hrescues, rfl, h⟩⟩

/-- The exception is not an empty one: a poor step that is accepted has been rescued, and if it is
shorter than `ε`, a radius below `ε` grows, as far as the greatest radius allows. -/
theorem Step.grows {s : Solve Extended σ ω} {stepper : Stepper Extended (Counts × σ) μ}
    {box : Box Extended} {number : Nat} {p : Progress Extended (Memory Extended μ)}
    {r : Round Extended (Memory Extended μ)} (h : Step s stepper c box number p r)
    {ratio : Extended} (hratio : r.iteration.ratio = some ratio)
    (hpoor : ¬ c.acceptanceRatio < ratio) (haccepted : r.iteration.accepted = true)
    (hshort : r.iteration.stepNorm < Scalar.epsilon)
    (hε : p.memory.region.radius < Scalar.epsilon) (hmax : p.memory.region.radius < c.maxRadius) :
    p.memory.region.radius < r.iteration.radius := by
  cases h with
  | failed => cases haccepted
  | rejected => cases haccepted
  | accepted _ good =>
      cases (update_ratio ..).symm.trans hratio
      exact absurd good hpoor
  | rescued =>
      have hreset := reset_radius_of_short (s := p.memory.region) (c := c) ratio hshort
      exact lt_of_lt_of_eq (Scalar.minNum_mem (p.memory.region.radius < ·) hε hmax) hreset.symm

omit [RealConstants] in
/-- The report on a round shows the radius after it. -/
theorem Step.radius_reported {α : Type} [Scalar α] {s : Solve α σ ω}
    {stepper : Stepper α (Counts × σ) μ} {c : Config α} {box : Box α} {number : Nat}
    {p : Progress α (Memory α μ)} {r : Round α (Memory α μ)}
    (h : Step s stepper c box number p r) :
    r.progress.memory.region.radius = r.iteration.radius := by
  cases h <;> rfl

end TrustRegion

theorem ProjectedNewton.rescuesShort (linear : Option (LinearSolver Extended))
    (cg : TruncatedCg.Config Extended) (m : Model Extended σ) :
    (stepper linear cg).RescuesShort m false :=
  fun _ _ rescue _ => absurd rescue not_rescued

theorem NewtonCg.rescuesShort (linear : Option (LinearSolver Extended))
    (cg : TruncatedCg.Config Extended) (withRescue : Bool) (o : Options Extended)
    (m : Model Extended σ) :
    (stepper linear cg (rescueParams withRescue o)).RescuesShort m withRescue := by
  intro box p trial memory value found step hradius tried rescue hstep
  cases withRescue with
  | false =>
      change Returns (NewtonCg.rescue none m p.iterate trial value) (some found) at rescue
      exact absurd rescue not_rescued
  | true =>
      refine ⟨rfl, fun hnumber => ?_⟩
      have hpropose : Gives ((stepper linear cg (rescueParams true o)).propose m box p.iterate
          p.memory.region.radius p.gradientNorm p.memory.stepper)
          (fun r => Short p.memory.region.radius r.1.step) fun _ => True :=
        Gives.bind (Gives.adapt (propose_short linear cg m p.iterate hradius _)) fun _ h =>
          Gives.pure h
      have hshort := hpropose.returned tried.proposed
      obtain ⟨hfinite, a, hpart, hthere⟩ :=
        (rescue_part o).returned rescue found rfl
      exact norm_le_of_part hfinite hshort hpart hthere hstep hnumber

/-! ## Whole solves -/

theorem TrustRegion.Opens.shrinking {s : Solve Extended σ ω}
    {stepper : Stepper Extended (Counts × σ) μ} {c : Config Extended} {x₀ : Vec Extended}
    {state : σ} {course : Course Extended σ} {start t : Counts × σ} {rescues : Bool}
    (hstepper : stepper.RescuesShort s.model.counted rescues)
    (opens : Opens s stepper c x₀ state course start) {k : Nat}
    {p : Progress Extended course.Memory} {seen : List (Iteration Extended)}
    (trail : course.Trail start k p t seen) :
    Shrinking rescues c (firstRadius s.options c course.first.gradientNorm) seen := by
  cases opens with
  | @intro box x g f norm active start settings options =>
      have hc := Config.valid_of_validate settings
      refine (trail.stepwise (I := fun p => 0 < State.radius (Memory.region p.memory))
        (v := fun p => State.radius (Memory.region p.memory)) (firstRadius_pos hc options norm)
        fun k p r hradius hr => ?_).1
      have hstep := (round_gives s stepper c box _ p).returned hr
      obtain ⟨hpos, hshrinks⟩ := hstep.shrinks hstepper hc hradius
      exact ⟨hpos, hshrinks, hstep.radius_reported⟩

namespace Method

variable {method : Method Extended} {c : TrustRegion.Config Extended}

theorem Opens.shrinking (hc : method.region = some c) {s : Solve Extended σ Unit}
    {x₀ : Vec Extended} {state : σ} {course : Course Extended σ} {start t : Counts × σ}
    (opens : Opens s x₀ state method course start) {k : Nat}
    {p : Progress Extended course.Memory} {seen : List (Iteration Extended)}
    (trail : course.Trail start k p t seen) : Shrinking method.rescues c
      (TrustRegion.firstRadius s.options c course.first.gradientNorm) seen := by
  cases opens with
  | projectedNewton opens =>
      cases hc
      exact opens.shrinking (ProjectedNewton.rescuesShort _ _ _) trail
  | newtonCg params opens =>
      cases hc
      exact opens.shrinking (NewtonCg.rescuesShort _ _ _ _ _) trail
  | lbfgs => cases hc

/-- **A poor step does not make the radius grow**, unless a rescue resets it from below `ε`. This
holds of all iterations that the observer of a solve hears of, from the first radius on. -/
theorem radius_shrinks (hc : method.region = some c) (m : Model Extended σ) (x₀ : Vec Extended)
    (o : Options Extended) (observer : Observer Extended ω) (clock : Nat → Duration) (state : σ)
    (w : ω) (journal : Journal) :
    let seen := (method.solveNoted m x₀ o observer clock state w journal).2
    seen = [] ∨ ∃ course start, Opens (method.solve m o clock) x₀ state method course start ∧
      Shrinking method.rescues c (TrustRegion.firstRadius o c course.first.gradientNorm) seen := by
  intro seen
  have hreports : Solve.Reports (Opens (method.solve m o clock) x₀ state method) seen :=
    solveNoted_reports
  clear_value seen
  cases hreports with
  | nothing => exact .inl rfl
  | trail opens trail => exact .inr ⟨_, _, opens, opens.shrinking hc trail⟩

/-- The function `u⁴ + u / 2` of `u = 2⁶⁰ x`. -/
def steep {α : Type} [Scalar α] : Model α Unit where
  dimension := 1
  objective x :=
    let u := 1152921504606846976.0 * x.headD 0
    pure (u * u * u * u + 0.5 * u)
  gradient x :=
    let u := 1152921504606846976.0 * x.headD 0
    pure [4611686018427387904.0 * u * u * u + 576460752303423488.0]
  hessianVector x v :=
    let u := 1152921504606846976.0 * x.headD 0
    pure [13835058055282163712.0 * 1152921504606846976.0 * u * u * v.headD 0]

/-- One iteration from the radius `2⁻⁶⁰`. -/
def steepOptions {α : Type} [Scalar α] : Options α :=
  { maxIterations := 1, trustRegionInitialRadius := some 8.673617379884035e-19 }

/-- What the observer hears of that iteration from 0 with rescues. -/
def steepTrace (α : Type) [Scalar α] : List (Iteration α) :=
  ((newtonCg {} true : Method α).solveNoted steep [0] steepOptions
    (Observer.silent : Observer α Unit) (fun _ => .zero) () () #[]).2

omit [RealConstants] in
/-- In exact arithmetic, with the constants of doubles. -/
theorem radius_shrinks_steep :
    letI := RealConstants.double
    (newtonCg {} true : Method Extended).region = some {} ∧
      (steepTrace Extended = [] ∨ ∃ course start,
        Opens ((newtonCg {} true).solve steep steepOptions fun _ => .zero) [0] ()
          (newtonCg {} true) course start ∧
        Shrinking true {} (TrustRegion.firstRadius steepOptions {} course.first.gradientNorm)
          (steepTrace Extended)) := by
  let _ := RealConstants.double
  have hregion : (newtonCg {} true : Method Extended).region = some {} := rfl
  exact ⟨hregion, radius_shrinks hregion steep [0] steepOptions
    (Observer.silent : Observer Extended Unit) (fun _ => .zero) () () #[]⟩

omit [RealConstants] in
/-- In doubles the step from 0 to `-2⁻⁶⁰` is rejected with the ratio -1, the search takes a quarter
of it, and the radius grows to `2⁻⁵²`. All of these numbers are exact. -/
theorem rescue_grows_radius :
    ¬ Shrinking false {} 8.673617379884035e-19 (steepTrace Float) := by
  decide +kernel

end Method

end Descent
