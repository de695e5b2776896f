import Descent.Proofs.Extended.Vectors
import Descent.Proofs.InOrder
import Descent.Proofs.LineSearch.Account
import Descent.Proofs.Record

/-!
# The conditions on a step

In exact arithmetic the step of a search has sufficient decrease and lies within the limits of the
parameters. The step of a bracketing search meets the curvature condition too, or is the one to fall
back on of a bracket that was left for one of three reasons (`Ray.Stops`).
-/

set_option autoImplicit false

open scoped RealInnerProductSpace

namespace Descent

open Run Extended Vec

/-! ## Real parameters -/

section Params

variable [RealConstants]

namespace LineSearchParams

/-- The parameters as real numbers; only the longest step may be infinite. -/
structure IsReal (p : LineSearchParams Extended) (c₁ c₂ ρ shortest : ℝ) : Prop where
  c1 : p.c1 = real c₁
  c2 : p.c2 = real c₂
  rho : p.rho = real ρ
  minStepSize : p.minStepSize = real shortest
  c1_pos : 0 < c₁
  c1_lt : c₁ < c₂
  c2_lt : c₂ < 1
  rho_pos : 0 < ρ
  rho_lt : ρ < 1
  shortest_pos : 0 < shortest
  le_maxStepSize : real shortest ≤ p.maxStepSize

variable {p : LineSearchParams Extended} {c₁ c₂ ρ shortest s t : ℝ}

/-- The constants of parameters in order are real. -/
theorem InOrder.exists_constants (h : p.InOrder) : ∃ c₁ c₂ : ℝ, p.c1 = real c₁ ∧ p.c2 = real c₂ ∧
    0 < c₁ ∧ c₁ < c₂ ∧ c₂ < 1 := by
  obtain ⟨hpos, hlt, hone⟩ := h.constants
  obtain ⟨c₁, hc₁⟩ := exists_real_of_between hpos hlt
  obtain ⟨c₂, hc₂⟩ := exists_real_of_between hlt hone
  rw [hc₁] at hpos
  rw [hc₁, hc₂] at hlt
  rw [hc₂] at hone
  exact ⟨c₁, c₂, hc₁, hc₂, hpos, hlt, hone⟩

/-- Parameters that pass their check are real, if the longest step is a number. -/
theorem exists_isReal (h : p.validate = .ok ()) (hlongest : Scalar.isNaN p.maxStepSize = false) :
    ∃ c₁ c₂ ρ shortest, p.IsReal c₁ c₂ ρ shortest := by
  obtain ⟨horder, hmax⟩ := p.validate_iff.mp h
  have hmax : p.minStepSize < p.maxStepSize :=
    hmax.resolve_right fun hnan => Bool.false_ne_true (hlongest.symm.trans hnan)
  obtain ⟨c₁, c₂, hc₁, hc₂, hpos, hlt, hone⟩ := horder.exists_constants
  have hmin := horder.minStepSize
  obtain ⟨hrho, hrho'⟩ := horder.rho
  obtain ⟨ρ, hρ⟩ := exists_real_of_between hrho hrho'
  obtain ⟨shortest, hshortest⟩ := exists_real_of_between hmin hmax
  rw [hρ] at hrho hrho'
  rw [hshortest] at hmin hmax
  exact ⟨c₁, c₂, ρ, shortest, hc₁, hc₂, hρ, hshortest, hpos, hlt, hone, hrho, hrho', hmin,
    le_of_lt hmax⟩

def Allows (p : LineSearchParams Extended) (a : Extended) : Prop :=
  ∃ s, a = real s ∧ real s ≤ p.maxStepSize

theorem IsReal.longest (h : p.IsReal c₁ c₂ ρ shortest) :
    p.maxStepSize = top ∨ ∃ s, p.maxStepSize = real s := by
  have hle := h.le_maxStepSize
  cases hmax : p.maxStepSize with
  | real s => exact .inr ⟨s, rfl⟩
  | top => exact .inl rfl
  | _ =>
      rw [hmax] at hle
      cases hle

/-- The longest step cuts a real step length to a real one. -/
theorem IsReal.exists_minNum (h : p.IsReal c₁ c₂ ρ shortest) (s : ℝ) :
    ∃ t, Scalar.minNum (real s) p.maxStepSize = real t ∧ t ≤ s ∧ real t ≤ p.maxStepSize := by
  rcases h.longest with hmax | ⟨longest, hmax⟩
  · rw [hmax]
    exact ⟨s, if_pos trivial, le_rfl, trivial⟩
  · rw [hmax, real_minNum]
    exact ⟨min s longest, rfl, min_le_left s longest, real_le.mpr (min_le_right s longest)⟩

theorem IsReal.allows_minNum (h : p.IsReal c₁ c₂ ρ shortest) (s : ℝ) :
    p.Allows (Scalar.minNum (real s) p.maxStepSize) := by
  obtain ⟨t, ht, -, hlongest⟩ := h.exists_minNum s
  exact ⟨t, ht, hlongest⟩

/-- A step that is not too short is positive. -/
theorem IsReal.pos_of_not_short (h : p.IsReal c₁ c₂ ρ shortest) (hs : ¬ real s < p.minStepSize) :
    0 < s := by
  rw [h.minStepSize, real_lt, not_lt] at hs
  exact h.shortest_pos.trans_le hs

theorem IsReal.allows_zero (h : p.IsReal c₁ c₂ ρ shortest) : p.Allows 0 :=
  ⟨0, rfl, le_trans (real_le.mpr h.shortest_pos.le) h.le_maxStepSize⟩

theorem Allows.middle {a c : Extended} (ha : p.Allows a) (hc : p.Allows c) :
    p.Allows ((a + c) * 0.5) := by
  obtain ⟨s, rfl, hs⟩ := ha
  obtain ⟨t, rfl, ht⟩ := hc
  refine ⟨(s + t) * 0.5, rfl, ?_⟩
  rcases le_total s t with hst | hts
  · exact le_trans (real_le.mpr (by linarith)) ht
  · exact le_trans (real_le.mpr (by linarith)) hs

theorem IsReal.allows_double (h : p.IsReal c₁ c₂ ρ shortest) {a : Extended} (ha : p.Allows a) :
    p.Allows (Scalar.minNum (2.0 * a) p.maxStepSize) := by
  obtain ⟨s, rfl, -⟩ := ha
  exact h.allows_minNum (2.0 * s)

end LineSearchParams

end Params

namespace LineSearch

/-! ## Why bracketing stops -/

section Bracketing

variable {α σ : Type} [Scalar α]

namespace Ray

/-- Why a bracket is left: the trials are used up, its step is too short, or no step is too long and
the last one tried was the longest allowed. -/
inductive Stops (r : Ray α σ) (b : Bracket α) (trials : List (Trial α)) : Prop
  | spent (h : trials.length = r.params.maxTrials)
  | short (h : b.step < r.params.minStepSize)
  | long (earlier : List (Trial α)) (t : Trial α) (htrials : trials = earlier ++ [t])
    (hpoint : r.pointAt b.step = .ok t.point) (hupper : b.upper = none)
    (h : r.params.maxStepSize ≤ b.step)

/-- All step lengths of the bracket have `P`, and the slope is known at the step to fall back on. -/
structure Spans (r : Ray α σ) (P : α → Prop) (b : Bracket α) : Prop where
  lower : P b.lower
  upper : ∀ u, b.upper = some u → P u
  step : P b.step
  fallback : ∀ found, b.fallback = some found →
    P found.stepSize ∧ ∃ slope, Vec.dot found.gradient r.direction = .ok slope

variable {r : Ray α σ} {P : α → Prop} {k : Nat} {b b' : Bracket α} {t : Trial α}

theorem Spans.closed (h : r.Spans P b) : r.Spans P b.closed where
  lower := h.lower
  upper u hu := by
    unfold Bracket.closed at hu
    dsimp only at hu
    split at hu
    · cases hu
      exact h.step
    · cases hu
  step := h.step
  fallback := h.fallback

/-- A trial leaves the step alone. -/
theorem Spans.narrows (h : r.Spans P b) (hnarrows : r.Narrows k b t (.inr b')) :
    r.Spans P b' ∧ b'.step = b.step := by
  have hfound : ∀ {found found' : Found α}, found.stepSize = b.step →
      (∃ slope, Vec.dot found.gradient r.direction = .ok slope) → some found = some found' →
      P found'.stepSize ∧ ∃ slope, Vec.dot found'.gradient r.direction = .ok slope := by
    rintro found _ hstep hslope ⟨⟩
    exact ⟨hstep ▸ h.step, hslope⟩
  cases hnarrows with
  | failed point => exact ⟨⟨h.lower, h.closed.upper, h.step, h.fallback⟩, rfl⟩
  | judged point out hjudges =>
      cases hjudges with
      | above => exact ⟨⟨h.lower, h.closed.upper, h.step, h.fallback⟩, rfl⟩
      | steep found _ hpasses _ =>
          exact ⟨⟨h.step, h.upper, h.step, fun _ => hfound hpasses.stepSize hpasses.slope⟩, rfl⟩
      | past found _ hpasses _ =>
          exact ⟨⟨h.lower, h.closed.upper, h.step,
            fun _ => hfound hpasses.stepSize hpasses.slope⟩, rfl⟩

theorem Spans.next (h : r.Spans P b) (hmiddle : ∀ a c, P a → P c → P ((a + c) * 0.5))
    (hdouble : ∀ a, P a → P (Scalar.minNum (2.0 * a) r.params.maxStepSize)) {step : α}
    (hstep : r.nextStep b = some step) : r.Spans P { b with step } where
  lower := h.lower
  upper := h.upper
  step := by
    unfold nextStep at hstep
    split at hstep
    · next upper hupper =>
        cases hstep
        exact hmiddle _ _ h.lower (h.upper upper hupper)
    · split at hstep
      · cases hstep
      · cases hstep
        exact hdouble _ h.step
  fallback := h.fallback

/-- There is no next step only after the longest one. -/
theorem nextStep_none (h : r.nextStep b = none) :
    b.upper = none ∧ r.params.maxStepSize ≤ b.step := by
  unfold nextStep at h
  split at h
  · cases h
  · next hupper =>
      split at h
      · next hlong => exact ⟨hupper, hlong⟩
      · cases h

/-- A step that bracketing returns meets the curvature condition, and a bracket is left for one of
the reasons. -/
theorem bracket_stops (hb : r.Spans P b) (hmiddle : ∀ a c, P a → P c → P ((a + c) * 0.5))
    (hdouble : ∀ a, P a → P (Scalar.minNum (2.0 * a) r.params.maxStepSize)) :
    Settles (fun u => u.2 = []) (r.tried.bracket r.params.maxTrials 0 b)
      (fun out u => match out with
        | .inl found => P found.stepSize ∧ r.Bends found
        | .inr b => r.Spans P b ∧ r.Stops b u.2)
      (fun _ _ => True) fun _ => True := by
  refine Settles.mono (Ray.bracket_settles
    (I := fun k b u => r.Spans P b ∧ u.2.length = k) ?_ ?_ ?_
    (Nat.zero_add r.params.maxTrials) b) ?_ (fun _ _ h => h) (fun _ _ h => h) fun _ h => h
  · exact fun b u h => ⟨h.1, .spent h.2⟩
  · exact fun k b u _ hshort h => ⟨h.1, .short hshort⟩
  · rintro k b - - u journal ⟨hspans, hlength⟩
    refine Settles.mono (r.narrow_tried k b u.2) (fun _ h => h) ?_ (fun _ _ _ => trivial)
      (fun _ _ => trivial) u journal rfl
    rintro (found | b') v ⟨t, hv, hpoint, hnarrows, -⟩
    · obtain _ | ⟨point, _, hjudges⟩ := hnarrows
      obtain _ | _ | _ | ⟨_, _, hpasses, hbends⟩ := hjudges
      exact ⟨hpasses.stepSize ▸ hspans.step, hbends⟩
    · obtain ⟨hspans', hstep'⟩ := hspans.narrows hnarrows
      dsimp only
      rw [show r.tried.nextStep b' = r.nextStep b' from rfl]
      cases hnext : r.nextStep b' with
      | none =>
          obtain ⟨hupper, hlong⟩ := nextStep_none hnext
          exact ⟨hspans', .long _ t hv (hstep' ▸ hpoint) hupper hlong⟩
      | some step =>
          refine ⟨hspans'.next hmiddle hdouble hnext, ?_⟩
          rw [hv, List.length_append, hlength]
          rfl
  · rintro ⟨state, _⟩ rfl
    exact ⟨hb, rfl⟩

/-- The step is the one to fall back on of a bracket that was left. -/
def FallsBack (r : Ray α σ) (first : α) (state : σ) (trials : List (Trial α))
    (found : Found α) : Prop :=
  ∃ b kept left, Leads (r.tried.bracket r.params.maxTrials 0 { step := first }) (state, [])
      (.inr b) (left, trials) ∧ b.fallback = some kept ∧
    found = { kept with evaluationFailures := b.failures.total } ∧ r.Stops b trials

end Ray

/-- The step of a bracketing search meets the curvature condition or is one to fall back on. -/
theorem run_wolfe_stops {p : LineSearchParams α} {m : Model α σ} {x g₀ d : Vec α}
    {f₀ initialStep : α} {P : α → Prop} {state : σ} (hzero : P 0)
    (hfirst : P (Scalar.minNum initialStep p.maxStepSize))
    (hmiddle : ∀ a c, P a → P c → P ((a + c) * 0.5))
    (hdouble : ∀ a, P a → P (Scalar.minNum (2.0 * a) p.maxStepSize)) :
    Settles (fun u => u = (state, [])) ((wolfe p).run m.tried x f₀ g₀ d initialStep)
      (fun found u => P found.stepSize ∧
        (∃ slope, Vec.dot found.gradient d = .ok slope) ∧
        ∃ slope, Downhill g₀ d slope ∧
          let r : Ray α σ := ⟨p, m, x, f₀, d, slope⟩
          (r.Bends found ∨
            r.FallsBack (Scalar.minNum initialStep p.maxStepSize) state u.2 found))
      (fun _ _ => True) fun _ => True := by
  refine Settles.bind (Settles.mono (descentSlope_settles f₀ g₀ d fun _ h => h) (fun _ h => h)
    (fun _ _ h => h) (fun _ _ _ => trivial) fun _ _ => trivial) fun slope => ?_
  refine Settles.assume fun hslope => ?_
  let r : Ray α σ := ⟨p, m, x, f₀, d, slope⟩
  have hstops := r.bracket_stops (P := P) (b := { step := Scalar.minNum initialStep p.maxStepSize })
    ⟨hzero, nofun, hfirst, nofun⟩ hmiddle hdouble
  refine Settles.bind (Settles.mono Settles.reached (fun _ h => h) (fun _ _ h => h)
    (fun _ _ _ => trivial) fun _ h => h) ?_
  rintro (found | b)
  · refine Settles.pure ?_
    rintro u ⟨_, rfl, hleads⟩
    obtain ⟨hP, hbends⟩ := hstops.leads hleads rfl
    have ⟨slope', hslope', _⟩ := hbends
    exact ⟨hP, ⟨slope', hslope'⟩, slope, hslope, .inl hbends⟩
  · dsimp only
    cases hfallback : b.fallback with
    | some kept =>
        refine Settles.bind Settles.emit fun _ => Settles.pure ?_
        rintro u ⟨_, rfl, hleads⟩
        obtain ⟨hspans, hreason⟩ := hstops.leads hleads rfl
        obtain ⟨hP, hdot⟩ := hspans.fallback kept hfallback
        exact ⟨hP, hdot, slope, hslope,
          .inr ⟨b, kept, u.1, hleads, hfallback, rfl, hreason⟩⟩
    | none => exact Settles.throw fun _ _ => trivial

end Bracketing

/-! ## Exact searches -/

section Exact

variable [RealConstants] {σ : Type} {n : Nat} {m : Model Extended σ}
  {F : Vec Extended → Option Extended} {G : Vec Extended → Option (Vec Extended)}
  {p : LineSearchParams Extended} {c₁ c₂ ρ shortest f₀ initial : ℝ} {x g₀ d : Point n}
  {found : Found Extended}

def Ray.ofPoints (p : LineSearchParams Extended) (m : Model Extended σ) (x d : Point n)
    (f₀ slope : ℝ) : Ray Extended σ :=
  ⟨p, m, embed (coords x), real f₀, embed (coords d), real slope⟩

theorem Ray.pointAt_ofPoints (a slope : ℝ) :
    (Ray.ofPoints p m x d f₀ slope).pointAt (real a) = .ok (embed (coords (x + a • d))) :=
  along_embed x d a

theorem Ray.armijoBound_ofPoints (h : p.c1 = real c₁) (a slope : ℝ) :
    (Ray.ofPoints p m x d f₀ slope).armijoBound (real a) = real (f₀ + c₁ * a * slope) := by
  show real f₀ + p.c1 * real a * real slope = _
  rw [h]
  rfl

/-- The slope is the inner product of the points. -/
theorem Downhill.eq_inner {slope : Extended}
    (h : Downhill (embed (coords g₀)) (embed (coords d)) slope) : real ⟪g₀, d⟫ = slope := by
  have hdot := h.dot
  rw [dot_embed] at hdot
  exact Except.ok.inj hdot

/-- The slope of a direction that descends. -/
theorem descentSlope_embed (h : ⟪g₀, d⟫ < 0) (f : Extended) :
    (descentSlope (embed (coords g₀)) (embed (coords d)) f : Search σ Extended)
      = pure (real ⟪g₀, d⟫) := by
  have hneg : decide (real ⟪g₀, d⟫ < (0 : Extended)) = true := decide_eq_true (real_lt.mpr h)
  rw [descentSlope, dot_embed, liftM_ok, pure_bind, hneg]
  rfl

/-- The step has the length `a` and ends at `x + a d`, where the model is finite and the objective
has decreased enough. -/
structure Lowers (p : LineSearchParams Extended) (F : Vec Extended → Option Extended)
    (G : Vec Extended → Option (Vec Extended)) (x g₀ d : Point n) (f₀ c₁ : ℝ)
    (found : Found Extended) (a : ℝ) : Prop where
  stepSize : found.stepSize = real a
  point : found.point = embed (coords (x + a • d))
  value : F found.point = some found.value
  gradient : G found.point = some found.gradient
  allFinite : Vec.allFinite found.gradient = true
  decrease : ∃ f, found.value = real f ∧ f ≤ f₀ + c₁ * a * ⟪g₀, d⟫
  long : p.minStepSize ≤ real a
  short : real a ≤ p.maxStepSize

/-- The gradient `g` at the end of the step `a` meets the curvature condition, and along the step
the gradient has changed by a positive amount. -/
structure Curves (condition : CurvatureCondition) (c₂ : ℝ) (g₀ d g : Point n) (a : ℝ) : Prop where
  curvature : if condition = .strong then |⟪g, d⟫| ≤ c₂ * |⟪g₀, d⟫| else c₂ * ⟪g₀, d⟫ ≤ ⟪g, d⟫
  change : (1 - c₂) * a * |⟪g₀, d⟫| ≤ ⟪g - g₀, a • d⟫
  change_pos : 0 < (1 - c₂) * a * |⟪g₀, d⟫|

/-- A step that suits, of an allowed length. -/
theorem lowers_of_lands (hm : m.IsPure F G) (hreal : p.IsReal c₁ c₂ ρ shortest)
    (hlands : (Ray.ofPoints p m x d f₀ ⟪g₀, d⟫).Lands found)
    (hdecrease : ¬ (Ray.ofPoints p m x d f₀ ⟪g₀, d⟫).armijoBound found.stepSize < found.value)
    (hallows : p.Allows found.stepSize) :
    ∃ a, Lowers p F G x g₀ d f₀ c₁ found a := by
  obtain ⟨hpoint, hlong, hevaluated⟩ := hlands
  obtain ⟨a, ha, hshort⟩ := hallows
  obtain ⟨f, hf⟩ := exists_real hevaluated.isFinite_value
  rw [ha, Ray.pointAt_ofPoints] at hpoint
  rw [ha, hf, Ray.armijoBound_ofPoints hreal.c1, real_lt, not_lt] at hdecrease
  change ¬ found.stepSize < p.minStepSize at hlong
  rw [ha, hreal.minStepSize, real_lt, not_lt] at hlong
  exact ⟨a, {
    stepSize := ha
    point := (Except.ok.inj hpoint).symm
    value := hm.value hevaluated.value
    gradient := hm.hasGradient hevaluated.gradient
    allFinite := hevaluated.allFinite_gradient
    decrease := ⟨f, hf, hdecrease⟩
    long := by rwa [hreal.minStepSize, real_le]
    short := hshort }⟩

/-- Interpolation shortens a positive step by the factor at least, and by no more than the least one
or a tenth. It makes no other step positive. -/
theorem interpolated_real (r : Ray Extended σ) (hreal : r.params.IsReal c₁ c₂ ρ shortest) (s : ℝ)
    (f : Extended) : ∃ t, r.interpolated (real s) f = real t ∧
      (0 < s → min 0.1 ρ * s ≤ t ∧ t ≤ ρ * s) ∧ (s ≤ 0 → t ≤ 0) := by
  have hfactor : 0 < min 0.1 ρ := lt_min (by norm_num) hreal.rho_pos
  have hclamp : ∃ candidate, r.interpolated (real s) f =
      Scalar.maxNum (Scalar.minNum candidate (real (ρ * s))) (real (min 0.1 ρ * s)) := by
    have hshortest : Scalar.minNum 0.1 (real ρ) = real (min 0.1 ρ) := real_minNum
    unfold Ray.interpolated
    rw [hreal.rho, hshortest]
    exact ⟨_, rfl⟩
  obtain ⟨candidate, hclamp⟩ := hclamp
  rw [hclamp]
  rcases lt_or_ge 0 s with hs | hs
  · obtain ⟨t, ht, hlower, hupper⟩ := exists_real_of_clamp' candidate
      (mul_le_mul_of_nonneg_right (min_le_right 0.1 ρ) hs.le)
    exact ⟨t, ht, fun _ => ⟨hlower, hupper⟩, fun h => absurd hs (not_lt.mpr h)⟩
  · refine ⟨min 0.1 ρ * s, ?_, fun h => absurd h (not_lt.mpr hs),
      fun _ => mul_nonpos_of_nonneg_of_nonpos hfactor.le hs⟩
    have horder : ρ * s ≤ min 0.1 ρ * s :=
      mul_le_mul_of_nonpos_right (min_le_right 0.1 ρ) hs
    rcases minNum_real candidate (ρ * s) with hmin | ⟨t, hmin, ht⟩
    · have hbelow : ¬ real (min 0.1 ρ * s) ≤ bottom := id
      rw [hmin, Scalar.maxNum, if_neg hbelow, isNaN_real]
      rfl
    · rw [hmin, real_maxNum, max_eq_right (ht.trans horder)]

/-- No step of backtracking is longer than the first one. -/
theorem backtracking_lowers (hm : m.IsPure F G) (hreal : p.IsReal c₁ c₂ ρ shortest)
    (h : Returns ((backtracking p).run m (embed (coords x)) (real f₀) (embed (coords g₀))
      (embed (coords d)) (real initial)) found) :
    ∃ a, Lowers p F G x g₀ d f₀ c₁ found a ∧ a ≤ initial := by
  -- a step that is not positive is not tried
  let P (a : Extended) : Prop :=
    ∃ s, a = real s ∧ (0 < s → s ≤ initial ∧ real s ≤ p.maxStepSize)
  have hfirst : P (Scalar.minNum (real initial) p.maxStepSize) := by
    obtain ⟨t, ht, hinitial, hlongest⟩ := hreal.exists_minNum initial
    exact ⟨t, ht, fun _ => ⟨hinitial, hlongest⟩⟩
  have hshorter : ∀ {s t : ℝ}, (0 < s → s ≤ initial ∧ real s ≤ p.maxStepSize) →
      (0 < s → t ≤ s) → (s ≤ 0 → t ≤ 0) → P (real t) := by
    intro s t hs hts hneg
    refine ⟨t, rfl, fun ht => ?_⟩
    have hpos : 0 < s := lt_of_not_ge fun h => absurd ht (not_lt.mpr (hneg h))
    obtain ⟨hinitial, hmax⟩ := hs hpos
    exact ⟨(hts hpos).trans hinitial, le_trans (real_le.mpr (hts hpos)) hmax⟩
  have hfactor : ∀ a, P a → P (a * p.rho) := by
    rintro _ ⟨s, rfl, hs⟩
    rw [hreal.rho]
    refine hshorter hs (fun h => ?_) fun h => ?_
    · exact mul_le_of_le_one_right h.le hreal.rho_lt.le
    · exact mul_nonpos_of_nonpos_of_nonneg h hreal.rho_pos.le
  have hinterpolated : ∀ slope a f, P a → P (Ray.interpolated
      (⟨p, m, embed (coords x), real f₀, embed (coords d), slope⟩ : Ray Extended σ) a f) := by
    rintro slope _ f ⟨s, rfl, hs⟩
    obtain ⟨t, ht, hpos, hneg⟩ := interpolated_real
      (⟨p, m, embed (coords x), real f₀, embed (coords d), slope⟩ : Ray Extended σ) hreal s f
    rw [ht]
    refine hshorter hs (fun h => (hpos h).2.trans ?_) hneg
    exact mul_le_of_le_one_left h.le hreal.rho_lt.le
  obtain ⟨slope, hslope, hlands, ⟨s, hs, hallowed⟩, hdecrease⟩ :=
    (run_backtracking_gives hfirst hfactor hinterpolated).returned h
  obtain rfl : real ⟪g₀, d⟫ = slope := hslope.eq_inner
  obtain ⟨hinitial, hmax⟩ := hallowed (hreal.pos_of_not_short (hs ▸ hlands.long))
  obtain ⟨a, hlowers⟩ := lowers_of_lands hm hreal hlands (not_lt_of_le hdecrease) ⟨s, hs, hmax⟩
  obtain rfl : a = s := Extended.real.inj (hlowers.stepSize.symm.trans hs)
  exact ⟨a, hlowers, hinitial⟩

/-- The curvature condition, as the search checks it, and what it says of the gradients. -/
theorem curves_of_bends {g : Point n} {a : ℝ} (hreal : p.IsReal c₁ c₂ ρ shortest)
    (hpos : 0 < a) (hslope : ⟪g₀, d⟫ < 0) (hg : found.gradient = embed (coords g))
    (hbends : (Ray.ofPoints p m x d f₀ ⟪g₀, d⟫).Bends found) :
    Curves p.condition c₂ g₀ d g a := by
  obtain ⟨slope, hdot, hsteep, hpast⟩ : ∃ slope,
      Vec.dot found.gradient (embed (coords d)) = .ok slope ∧
      ¬ slope < p.c2 * real ⟪g₀, d⟫ ∧
      ¬ (p.condition = .strong ∧ -p.c2 * real ⟪g₀, d⟫ < slope) := hbends
  rw [hg, dot_embed] at hdot
  obtain rfl : real ⟪g, d⟫ = slope := Except.ok.inj hdot
  rw [hreal.c2, real_mul, real_lt, not_lt] at hsteep
  have habs : |⟪g₀, d⟫| = -⟪g₀, d⟫ := abs_of_neg hslope
  have hchange : ⟪g - g₀, a • d⟫ = a * (⟪g, d⟫ - ⟪g₀, d⟫) := by
    rw [real_inner_smul_right, inner_sub_left]
  refine ⟨?_, ?_, ?_⟩
  · split
    · next hstrong =>
        have hupper : ⟪g, d⟫ ≤ -c₂ * ⟪g₀, d⟫ := by
          have hnot : ¬ real (-c₂ * ⟪g₀, d⟫) < real ⟪g, d⟫ := by
            intro hlt
            refine hpast ⟨hstrong, ?_⟩
            rw [hreal.c2]
            exact hlt
          rwa [real_lt, not_lt] at hnot
        rw [habs, abs_le]
        constructor
        · linarith
        · linarith
    · exact hsteep
  · rw [hchange, habs]
    nlinarith
  · rw [habs]
    have hc₂ : 0 < 1 - c₂ := by linarith [hreal.c2_lt]
    exact mul_pos (mul_pos hc₂ hpos) (neg_pos.mpr hslope)

/-- **The step that a search settles on meets its conditions.** It has sufficient decrease and lies
within the limits of the parameters, and below the first step if the search is backtracking. At the
end of a bracketing search it meets the curvature condition, which makes the change of the gradient
along the step positive, or the search has stopped and falls back on it. -/
theorem trace_meets_conditions (search : LineSearch Extended) (hm : m.IsPure F G)
    (hvalid : search.params.validate = .ok ())
    (hlongest : Scalar.isNaN search.params.maxStepSize = false) (x g₀ d : Point n)
    (f₀ initial : ℝ) (state : σ) (journal : Journal) :
    let p := search.params
    let out := search.trace m (embed (coords x)) (real f₀) (embed (coords g₀)) (embed (coords d))
      (real initial) state journal
    ∀ found, out.1.1 = .ok (.ok found) → ∃ c₁ c₂ a, p.c1 = real c₁ ∧ p.c2 = real c₂ ∧
      Lowers p F G x g₀ d f₀ c₁ found a ∧
      match search with
      | backtracking _ => a ≤ initial
      | wolfe _ => ∃ g : Point n, found.gradient = embed (coords g) ∧
        (Curves p.condition c₂ g₀ d g a ∨
          (Ray.ofPoints p m x d f₀ ⟪g₀, d⟫).FallsBack (Scalar.minNum (real initial) p.maxStepSize)
            state out.2 found) := by
  intro p out found h
  obtain ⟨c₁, c₂, ρ, shortest, hreal⟩ := LineSearchParams.exists_isReal hvalid hlongest
  have hreturns : Returns (search.run m (embed (coords x)) (real f₀) (embed (coords g₀))
      (embed (coords d)) (real initial)) found := ⟨state, journal, h⟩
  cases search with
  | backtracking p =>
      obtain ⟨a, hlowers, hinitial⟩ := backtracking_lowers hm hreal hreturns
      exact ⟨c₁, c₂, a, hreal.c1, hreal.c2, hlowers, hinitial⟩
  | wolfe p =>
      obtain ⟨slope, hslope, ⟨hlands, -, hdecrease⟩⟩ :=
        (run_wolfe_gives (P := fun _ => True) trivial trivial (fun _ _ _ _ => trivial)
          fun _ _ => trivial).returned hreturns
      obtain ⟨hallows, ⟨slope', hdot⟩, slope'', hslope'', hends⟩ :=
        (trace_settles state journal (run_wolfe_stops (P := p.Allows) hreal.allows_zero
          (hreal.allows_minNum initial) (fun _ _ => LineSearchParams.Allows.middle)
          fun _ => hreal.allows_double) rfl).1 found h
      obtain rfl : real ⟪g₀, d⟫ = slope := hslope.eq_inner
      obtain rfl : real ⟪g₀, d⟫ = slope'' := hslope''.eq_inner
      obtain ⟨a, hlowers⟩ := lowers_of_lands hm hreal hlands hdecrease hallows
      have hlength : found.gradient.length = n := by
        unfold Vec.dot at hdot
        split at hdot
        · next h => simpa using h
        · cases hdot
      obtain ⟨g, hg⟩ := exists_embed_of_length hlowers.allFinite hlength
      refine ⟨c₁, c₂, a, hreal.c1, hreal.c2, hlowers, g, hg, ?_⟩
      rcases hends with hbends | hfallsBack
      · have hpos : 0 < a := hreal.pos_of_not_short (hlowers.stepSize ▸ hlands.long)
        exact .inl (curves_of_bends hreal hpos hslope''.negative hg hbends)
      · exact .inr hfallsBack

end Exact

/-! ## The square -/

section Example

attribute [local instance] RealConstants.double

noncomputable def linePoint (t : ℝ) : Point 1 := pointOf fun _ => t

theorem embed_linePoint (t : ℝ) : embed (coords (linePoint t)) = [real t] := by
  simp [linePoint, embed]

theorem linePoint_add_smul (a t b : ℝ) :
    linePoint a + t • linePoint b = linePoint (a + t * b) := by
  ext i
  simp [linePoint, pointOf]

theorem inner_linePoint (a b : ℝ) : ⟪linePoint a, linePoint b⟫ = a * b := by
  simp [linePoint, pointOf, PiLp.inner_apply, mul_comm]

/-- From 1 the first step leads to the minimum. -/
theorem square_settles :
    (wolfe {}).run square (embed (coords (linePoint 1))) (real 1) (embed (coords (linePoint 2)))
        (embed (coords (linePoint (-1)))) (real 1)
      = (pure ⟨real 1, [real 0], real 0, [real 0], 1, 0⟩ : Search Unit (Found Extended)) := by
  have hinner : ⟪linePoint 2, linePoint (-1)⟫ = (-2 : ℝ) := by
    rw [inner_linePoint]
    norm_num
  have hslope : ⟪linePoint 2, linePoint (-1)⟫ < 0 := by
    rw [hinner]
    norm_num
  have hfirst : Scalar.minNum (real 1) (1e10 : Extended) = real 1 := by
    rw [real_ofScientific, real_minNum]
    norm_num
  let p : LineSearchParams Extended := {}
  let r := Ray.ofPoints p square (linePoint 1) (linePoint (-1)) 1 ⟪linePoint 2, linePoint (-1)⟫
  have hlong : ¬ real 1 < r.params.minStepSize := by
    refine not_lt_of_le (real_le.mpr ?_)
    norm_num [RealConstants.minStepSize]
  have hpoint : r.pointAt (real 1) = .ok [real 0] := by
    rw [Ray.pointAt_ofPoints, linePoint_add_smul, embed_linePoint]
    norm_num
  have hboth : (Evaluation.usable (r.model.objectiveAndGradient [real 0]) isFinitePair
      "objective or gradient" : Search Unit _) = pure (.ok (real 0, [real 0])) := by
    have hanswer : r.model.objectiveAndGradient [real 0] = pure (real 0, [real 0]) := by
      show (pure (real (0 * 0), [real (2.0 * 0)]) : Evaluation Unit _) = _
      rw [mul_zero, mul_zero]
    rw [hanswer]
    rfl
  have hjudge : r.judge 1 { step := real 1 } [real 0] (real 0) [real 0]
      = .ok (.inl ⟨real 1, [real 0], real 0, [real 0], 1, 0⟩) := by
    have hdecrease : ¬ r.armijoBound (real 1) < real 0 := by
      rw [Ray.armijoBound_ofPoints rfl, hinner]
      exact not_lt_of_le (real_le.mpr (by norm_num))
    have hdot : Vec.dot [real 0] r.direction = .ok (real 0) := by
      show Vec.dot [real 0] (embed (coords (linePoint (-1)))) = _
      rw [← embed_linePoint, dot_embed, inner_linePoint, zero_mul]
    have hbends : ¬ real 0 < r.params.c2 * r.slope := by
      show ¬ real 0 < real (0.9 * ⟪linePoint 2, linePoint (-1)⟫)
      rw [hinner]
      exact not_lt_of_le (real_le.mpr (by norm_num))
    have hweak : r.params.condition ≠ .strong := nofun
    rw [Ray.judge, if_neg hdecrease, hdot, Checked.ok_bind, if_neg hbends,
      if_neg fun h => hweak h.1]
    rfl
  rw [run, descentSlope_embed hslope, pure_bind]
  simp only [params, hfirst]
  change (r.bracket r.params.maxTrials 0 { step := real 1 } >>= _) = _
  rw [show r.params.maxTrials = 19 + 1 from rfl, Ray.bracket_succ, if_neg hlong]
  simp only [Ray.narrow, hpoint, liftM_ok, pure_bind, hboth]
  show (liftM _ >>= _) >>= _ = _
  rw [show Failures.interrupted {} = {} from rfl, Nat.zero_add, hjudge]
  rfl

/-- The parameters that a search has by itself are in range. -/
theorem standard_validate : ({} : LineSearchParams Extended).validate = .ok () := by
  have hpos : (0 : ℝ) < RealConstants.minStepSize := by norm_num [RealConstants.minStepSize]
  have hlt : (RealConstants.minStepSize : ℝ) < 1e10 := by norm_num [RealConstants.minStepSize]
  refine refuse_ok_of_not (not_not.mpr (real_lt.mpr hpos)) ?_
  refine refuse_ok_of_not (mt real_le.mp (not_le.mpr hlt)) ?_
  refine refuse_ok_of_not (not_not.mpr ⟨real_lt.mpr (by norm_num), real_lt.mpr (by norm_num)⟩) ?_
  refine refuse_ok_of_not (not_not.mpr ⟨real_lt.mpr (by norm_num), real_lt.mpr (by norm_num)⟩) ?_
  refine refuse_ok_of_not (not_not.mpr ⟨real_lt.mpr (by norm_num), real_lt.mpr (by norm_num)⟩) ?_
  rfl

/-- The step to the minimum of the square. -/
theorem trace_meets_conditions_parabola :
    let p : LineSearchParams Extended := {}
    let x := linePoint 1
    let g₀ := linePoint 2
    let d := linePoint (-1)
    let out := (wolfe p).trace square (embed (coords x)) (real 1) (embed (coords g₀))
      (embed (coords d)) (real 1) () #[]
    p.validate = .ok () ∧ Scalar.isNaN p.maxStepSize = false ∧
      ∃ found c₁ c₂ a, out.1.1 = .ok (.ok found) ∧ p.c1 = real c₁ ∧ p.c2 = real c₂ ∧
        Lowers p (fun x => some (x.headD 0 * x.headD 0)) (fun x => some [2.0 * x.headD 0]) x g₀ d 1
          c₁ found a ∧
        ∃ g : Point 1, found.gradient = embed (coords g) ∧ (Curves p.condition c₂ g₀ d g a ∨
          (Ray.ofPoints p square x d 1 ⟪g₀, d⟫).FallsBack
            (Scalar.minNum (real 1) p.maxStepSize) () out.2 found) := by
  intro p x g₀ d out
  have hnumber : Scalar.isNaN p.maxStepSize = false := isNaN_real
  have hfound : out.1.1 = .ok (.ok ⟨real 1, [real 0], real 0, [real 0], 1, 0⟩) := by
    show (Run.start ((wolfe p).run square (embed (coords x)) (real 1) (embed (coords g₀))
      (embed (coords d)) (real 1)).run () #[]).1.1 = _
    rw [square_settles]
    rfl
  obtain ⟨c₁, c₂, a, hc₁, hc₂, hlowers, hends⟩ := trace_meets_conditions (wolfe p)
    square_isPure standard_validate hnumber x g₀ d 1 1 () #[] _ hfound
  exact ⟨standard_validate, hnumber, _, c₁, c₂, a, hfound, hc₁, hc₂, hlowers, hends⟩

end Example

end LineSearch

end Descent
