import Mathlib.Analysis.InnerProductSpace.PiL2
import Descent.Proofs.Extended.Operators
import Descent.Proofs.LineSearch.Conditions
import Descent.Proofs.LineSearch.Turns

/-!
# The bracket of a search

In exact arithmetic a bracketing search keeps an interval in which it looks for a step. Before
every trial the lower end is zero or the latest step that was too short (`Probe.TooShort`), the
upper one is missing or the latest step that was too long (`Probe.TooLong`), and the step to try
lies strictly between them (`Head.Brackets`). Without an upper end the step is at most doubled and
never longer than the longest one; with one it is the middle, so that every trial halves the
interval (`wolfe_brackets`).
-/

set_option autoImplicit false

open scoped RealInnerProductSpace

namespace Descent

open Run Extended Vec

/-! ## Parameters -/

section Params

variable [RealConstants] {p : LineSearchParams Extended} {a t : ℝ}

namespace LineSearchParams

/-- The longest step is above zero, where it is a number. -/
theorem not_maxStepSize_le_zero (h : p.validate = .ok ()) : ¬ p.maxStepSize ≤ real 0 := by
  obtain ⟨horder, hmax⟩ := p.validate_iff.mp h
  intro hle
  rcases hmax with hlt | hnan
  · exact not_lt_of_le hle (lt_of_lt_of_le horder.minStepSize (le_of_lt hlt))
  · rw [(Scalar.Comparable.isNaN_of_le hle).1] at hnan
    cases hnan

/-- A real step is cut at the longest one. What is shorter than the step and not the longest stays
shorter than what it is cut to. -/
theorem exists_cut (h : p.validate = .ok ()) (t : ℝ) :
    ∃ u, Scalar.minNum (real t) p.maxStepSize = real u ∧ u ≤ t ∧ ¬ p.maxStepSize < real u ∧
      ∀ a, a < t → ¬ p.maxStepSize ≤ real a → a < u := by
  have hpos := not_maxStepSize_le_zero h
  cases hmax : p.maxStepSize with
  | real s =>
      exact ⟨min t s, real_minNum, min_le_left t s, not_lt.mpr (min_le_right t s),
        fun a hat hs => lt_min hat (not_le.mp hs)⟩
  | top => exact ⟨t, if_pos trivial, le_rfl, id, fun a hat _ => hat⟩
  | bottom =>
      rw [hmax] at hpos
      exact absurd trivial hpos
  | nan => exact ⟨t, (if_neg id).trans (if_pos rfl), le_rfl, id, fun a hat _ => hat⟩

end LineSearchParams

end Params

namespace LineSearch

/-! ## The latest of a kind -/

/-- The latest of the trials with `P`. -/
def Latest {α : Type} (P : Probe α → Prop) (probes : List (Probe α)) (q : Probe α) : Prop :=
  ∃ earlier later, probes = earlier ++ q :: later ∧ P q ∧ ∀ q' ∈ later, ¬ P q'

section Latest

variable {α : Type} {P : Probe α → Prop} {probes : List (Probe α)} {q q' : Probe α}

theorem latest_last (h : P q) : Latest P (probes ++ [q]) q :=
  ⟨probes, [], rfl, h, nofun⟩

/-- A trial of another kind changes nothing. -/
theorem Latest.append (h : Latest P probes q) (hq' : ¬ P q') : Latest P (probes ++ [q']) q := by
  obtain ⟨earlier, later, rfl, hq, hlater⟩ := h
  refine ⟨earlier, later ++ [q'], by simp, hq, fun q'' hq'' => ?_⟩
  rcases List.mem_append.mp hq'' with hmem | hmem
  · exact hlater q'' hmem
  · rwa [List.mem_singleton.mp hmem]

theorem forall_not_append (h : ∀ q ∈ probes, ¬ P q) (hq' : ¬ P q') :
    ∀ q ∈ probes ++ [q'], ¬ P q := by
  intro q hq
  rcases List.mem_append.mp hq with hmem | hmem
  · exact h q hmem
  · rwa [List.mem_singleton.mp hmem]

end Latest

/-! ## Trials in exact arithmetic -/

section Trials

variable {n : Nat} {condition : CurvatureCondition} {c₁ c₂ f₀ slope : ℝ} {d : Point n}
  {q : Probe Extended}

namespace Probe

/-- The model was finite at the end of the step, which has sufficient decrease, but the slope there
is below `c₂` times the first one. -/
inductive TooShort (d : Point n) (f₀ slope c₁ c₂ : ℝ) : Probe Extended → Prop
  | mk {a f : ℝ} {g : Point n} (decrease : f ≤ f₀ + c₁ * a * slope) (steep : ⟪g, d⟫ < c₂ * slope) :
    TooShort d f₀ slope c₁ c₂ ⟨real a, .ok (real f, embed (coords g))⟩

/-- The evaluation at the end of the step failed, or the objective there is above the bound of
sufficient decrease, or the strong condition is asked for and the slope there is above `-c₂` times
the first one. -/
inductive TooLong (condition : CurvatureCondition) (d : Point n) (f₀ slope c₁ c₂ : ℝ) :
    Probe Extended → Prop
  | failed (step : Extended) (reason : String) :
    TooLong condition d f₀ slope c₁ c₂ ⟨step, .error reason⟩
  | high {a f : ℝ} {gradient : Vec Extended} (above : f₀ + c₁ * a * slope < f) :
    TooLong condition d f₀ slope c₁ c₂ ⟨real a, .ok (real f, gradient)⟩
  | rising {a f : ℝ} {g : Point n} (strong : condition = .strong) (past : -c₂ * slope < ⟪g, d⟫) :
    TooLong condition d f₀ slope c₁ c₂ ⟨real a, .ok (real f, embed (coords g))⟩

/-- No step is both. -/
theorem TooShort.not_tooLong (h : q.TooShort d f₀ slope c₁ c₂) (hslope : slope < 0)
    (hc₂ : 0 < c₂) : ¬ q.TooLong condition d f₀ slope c₁ c₂ := by
  cases h with
  | @mk a f g hdecrease hsteep =>
      generalize hq : (⟨real a, .ok (real f, embed (coords g))⟩ : Probe Extended) = q
      rintro (_ | habove | ⟨-, hpast⟩)
      · cases hq
      · cases hq
        exact absurd hdecrease (not_le.mpr habove)
      -- the two slopes are at the same point
      · simp only [Probe.mk.injEq, Except.ok.injEq, Prod.mk.injEq, embed_injective.eq_iff,
          coords_inj] at hq
        obtain ⟨-, -, rfl⟩ := hq
        have hneg : c₂ * slope < 0 := mul_neg_of_pos_of_neg hc₂ hslope
        linarith

end Probe

variable [RealConstants] {σ : Type} {m : Model Extended σ} {p : LineSearchParams Extended} {a : ℝ}
  {x : Point n} {answer : Except String (Extended × Vec Extended)}

/-- A finite gradient with a slope along a direction is a point. -/
theorem exists_point_of_dot {gradient : Vec Extended} {s : Extended}
    (hfinite : Vec.allFinite gradient = true)
    (hdot : Vec.dot gradient (embed (coords d)) = .ok s) :
    ∃ g : Point n, gradient = embed (coords g) ∧ s = real ⟪g, d⟫ := by
  have hlength : gradient.length = n := by
    unfold Vec.dot at hdot
    split at hdot
    · next h => simpa using h
    · cases hdot
  obtain ⟨g, rfl⟩ := exists_embed_of_length hfinite hlength
  rw [dot_embed] at hdot
  exact ⟨g, rfl, (Except.ok.inj hdot).symm⟩

/-- What the search takes for too short is too short. -/
theorem tooShort_of_undershoots (hc₁ : p.c1 = real c₁) (hc₂ : p.c2 = real c₂)
    (hfinite : ∀ value gradient, answer = .ok (value, gradient) →
      Scalar.isFinite value = true ∧ Vec.allFinite gradient = true)
    (h : (Ray.ofPoints p m x d f₀ slope).Undershoots ⟨real a, answer⟩) :
    Probe.TooShort d f₀ slope c₁ c₂ ⟨real a, answer⟩ := by
  obtain ⟨value, gradient, s, rfl, hdecrease, hdot, hsteep⟩ := h
  obtain ⟨hvalue, hgradient⟩ := hfinite value gradient rfl
  obtain ⟨f, rfl⟩ := exists_real hvalue
  obtain ⟨g, rfl, rfl⟩ := exists_point_of_dot hgradient hdot
  rw [Ray.armijoBound_ofPoints hc₁, real_lt, not_lt] at hdecrease
  have hsteep : real ⟪g, d⟫ < p.c2 * real slope := hsteep
  rw [hc₂, real_mul, real_lt] at hsteep
  exact .mk hdecrease hsteep

/-- What the search takes for too long is too long. -/
theorem tooLong_of_overshoots (hc₁ : p.c1 = real c₁) (hc₂ : p.c2 = real c₂)
    (hfinite : ∀ value gradient, answer = .ok (value, gradient) →
      Scalar.isFinite value = true ∧ Vec.allFinite gradient = true)
    (h : (Ray.ofPoints p m x d f₀ slope).Overshoots ⟨real a, answer⟩) :
    Probe.TooLong p.condition d f₀ slope c₁ c₂ ⟨real a, answer⟩ := by
  rcases h with ⟨reason, rfl⟩ | ⟨value, gradient, rfl, hlong⟩
  · exact .failed _ reason
  · obtain ⟨hvalue, hgradient⟩ := hfinite value gradient rfl
    obtain ⟨f, rfl⟩ := exists_real hvalue
    rcases hlong with habove | ⟨hstrong, s, hdot, hpast⟩
    · rw [Ray.armijoBound_ofPoints hc₁, real_lt] at habove
      exact .high habove
    · obtain ⟨g, rfl, rfl⟩ := exists_point_of_dot hgradient hdot
      have hpast : -p.c2 * real slope < real ⟪g, d⟫ := hpast
      rw [hc₂] at hpast
      exact .rising hstrong (real_lt.mp hpast)

end Trials

/-! ## The bracket -/

section Bracket

variable [RealConstants] {σ : Type} {r : Ray Extended σ} {p : LineSearchParams Extended}
  {Short Long : Probe Extended → Prop} {probes : List (Probe Extended)}
  {b b' : Ray.Bracket Extended} {q : Probe Extended} {lo a : ℝ} {hi : Option ℝ}

/-- Where the ends `lo` and `hi` of a bracket come from: the lower one is zero or the latest step
that was too short, and the upper one, if there is one, the latest step that was too long. -/
structure Ends (Short Long : Probe Extended → Prop) (probes : List (Probe Extended))
    (b : Ray.Bracket Extended) (lo : ℝ) (hi : Option ℝ) : Prop where
  lower_eq : b.lower = real lo
  upper_eq : b.upper = hi.map real
  lower_nonneg : 0 ≤ lo
  lower : lo = 0 ∧ (∀ q ∈ probes, ¬ Short q) ∨ ∃ q, Latest Short probes q ∧ q.step = real lo
  upper_none : hi = none → ∀ q ∈ probes, ¬ Long q
  upper_some : ∀ u, hi = some u → ∃ q, Latest Long probes q ∧ q.step = real u

/-- A step that was too short becomes the lower end. -/
theorem Ends.short (h : Ends Short Long probes b lo hi) (hq : Short q) (hnot : ¬ Long q)
    (hstep : q.step = real a) (ha : 0 ≤ a) (hlower : b'.lower = q.step)
    (hupper : b'.upper = b.upper) : Ends Short Long (probes ++ [q]) b' a hi where
  lower_eq := hlower.trans hstep
  upper_eq := hupper.trans h.upper_eq
  lower_nonneg := ha
  lower := .inr ⟨q, latest_last hq, hstep⟩
  upper_none hnone := forall_not_append (h.upper_none hnone) hnot
  upper_some u hu := by
    obtain ⟨q', hlatest, hq'⟩ := h.upper_some u hu
    exact ⟨q', hlatest.append hnot, hq'⟩

/-- A step that was too long becomes the upper end. -/
theorem Ends.long (h : Ends Short Long probes b lo hi) (hq : Long q) (hnot : ¬ Short q)
    (hstep : q.step = real a) (hlower : b'.lower = b.lower) (hupper : b'.upper = some q.step) :
    Ends Short Long (probes ++ [q]) b' lo (some a) where
  lower_eq := hlower.trans h.lower_eq
  upper_eq := by rw [hupper, hstep, Option.map_some]
  lower_nonneg := h.lower_nonneg
  lower := by
    rcases h.lower with ⟨hzero, hnone⟩ | ⟨q', hlatest, hq'⟩
    · exact .inl ⟨hzero, forall_not_append hnone hnot⟩
    · exact .inr ⟨q', hlatest.append hnot, hq'⟩
  upper_none := nofun
  upper_some u hu := by
    obtain rfl := Option.some.inj hu
    exact ⟨q, latest_last hq, hstep⟩

/-- The bracket before a trial at the step `a`: it lies between the ends, in the middle if there
is an upper one, and else not above the longest step. -/
structure Head.Brackets (h : Head Extended σ) (p : LineSearchParams Extended)
    (Short Long : Probe Extended → Prop) (lo : ℝ) (hi : Option ℝ) (a : ℝ) : Prop extends
    Ends Short Long h.probes h.bracket lo hi where
  step_eq : h.bracket.step = real a
  lower_lt : lo < a
  lt_upper : ∀ u, hi = some u → a < u
  middle : ∀ u, hi = some u → a = (lo + u) / 2
  le_longest : hi = none → ¬ p.maxStepSize < real a

/-- The head `h'` follows a trial at the step `a` between the ends `lo` and `hi`: without an upper
end the step has been doubled at most, and a bracket that had one before is half as long. -/
inductive Head.Follows (h' : Head Extended σ) (p : LineSearchParams Extended)
    (Short Long : Probe Extended → Prop) (lo : ℝ) (hi : Option ℝ) (a : ℝ) : Prop
  | intro (lo' : ℝ) (hi' : Option ℝ) (a' : ℝ) (brackets : h'.Brackets p Short Long lo' hi' a')
    (doubled : hi' = none → a' ≤ 2 * a)
    (halved : ∀ u, hi = some u → ∃ u', hi' = some u' ∧ u' - lo' = (u - lo) / 2)

/-- With the next step the ends that a trial at `a` has left make a bracket again. -/
theorem Ends.brackets (h : Ends Short Long probes b lo hi) (hvalid : r.params.validate = .ok ())
    (hstep : b.step = real a) (hlo : hi = none → lo = a) (hhi : ∀ u, hi = some u → lo < u)
    (ha : 0 < a) {step : Extended} (hnext : r.nextStep b = some step) (state : σ)
    (journal : Journal) :
    ∃ c, Head.Brackets ⟨probes, { b with step }, state, journal⟩ r.params Short Long lo hi c ∧
      (hi = none → c ≤ 2 * a) := by
  have hends : Ends Short Long probes { b with step } lo hi :=
    ⟨h.lower_eq, h.upper_eq, h.lower_nonneg, h.lower, h.upper_none, h.upper_some⟩
  rcases Ray.nextStep_eq_some hnext with ⟨upper, hupper, rfl⟩ | ⟨hupper, hlong, rfl⟩
  -- the middle of a bracket with both ends
  · obtain ⟨u, rfl, rfl⟩ : ∃ u, hi = some u ∧ real u = upper := by
      rw [h.upper_eq] at hupper
      exact Option.map_eq_some_iff.mp hupper
    have hlt := hhi u rfl
    have hmiddle : (b.lower + real u) * 0.5 = real ((lo + u) / 2) := by
      rw [h.lower_eq, real_add, mul_half, div_eq_mul_inv]
    refine ⟨(lo + u) / 2, ⟨hends, hmiddle, by linarith, fun u' hu' => ?_, fun u' hu' => ?_, nofun⟩,
      nofun⟩
    · obtain rfl := Option.some.inj hu'
      linarith
    · obtain rfl := Option.some.inj hu'
      rfl
  -- the double of the last step, cut at the longest one
  · obtain rfl : hi = none := by
      rw [h.upper_eq] at hupper
      exact Option.map_eq_none_iff.mp hupper
    obtain rfl := hlo rfl
    have hdouble : (2.0 : Extended) * b.step = real (2 * lo) := by
      rw [hstep]
      exact congrArg real (by norm_num)
    rw [hstep] at hlong
    obtain ⟨c, hc, hle, hlongest, hlt⟩ := LineSearchParams.exists_cut hvalid (2 * lo)
    have hlower : lo < c := hlt lo (by linarith) hlong
    exact ⟨c, ⟨hends, (congrArg (Scalar.minNum · _) hdouble).trans hc, hlower, nofun, nofun,
      fun _ => hlongest⟩, fun _ => hle⟩

end Bracket

/-! ## All trials -/

section Search

variable [RealConstants] {σ : Type} {n : Nat} {m : Model Extended σ}
  {p : LineSearchParams Extended} {c₁ c₂ f₀ slope lo a initial : ℝ} {hi : Option ℝ}
  {x d : Point n} {h h' : Head Extended σ}

/-- What one trial keeps, and how it moves the ends and the step. -/
theorem Head.Brackets.turn
    (hb : h.Brackets p (Probe.TooShort d f₀ slope c₁ c₂)
      (Probe.TooLong p.condition d f₀ slope c₁ c₂) lo hi a)
    (hvalid : p.validate = .ok ()) (hc₁ : p.c1 = real c₁) (hc₂ : p.c2 = real c₂) (hpos : 0 < c₂)
    (hslope : slope < 0) (ht : (Ray.ofPoints p m x d f₀ slope).Turn h h') :
    h'.Follows p (Probe.TooShort d f₀ slope c₁ c₂) (Probe.TooLong p.condition d f₀ slope c₁ c₂)
      lo hi a := by
  have ha : 0 < a := hb.lower_nonneg.trans_lt hb.lower_lt
  obtain ⟨-, -, -, hanswered, hweighed, hnext⟩ := ht
  have hfinite := Ray.isFinite_of_ask hanswered.returns
  have hmoves := Ray.weigh_moves hweighed
  rw [hb.step_eq] at hmoves ⊢
  cases hmoves with
  -- the lower end moves up to the step
  | lower short lower upper step =>
      have hshort := tooShort_of_undershoots hc₁ hc₂ hfinite short
      have hends := hb.toEnds.short hshort (hshort.not_tooLong hslope hpos) rfl ha.le
        (lower.trans hb.step_eq) upper
      obtain ⟨c, hb', hdouble⟩ := hends.brackets hvalid (step.trans hb.step_eq) (fun _ => rfl)
        hb.lt_upper ha hnext _ _
      refine ⟨a, hi, c, hb', hdouble, fun u hu => ⟨u, hu, ?_⟩⟩
      rw [hb.middle u hu]
      ring
  -- the upper end moves down to the step, or is there from now on
  | upper long lower upper step =>
      have hlong := tooLong_of_overshoots hc₁ hc₂ hfinite long
      have hnot : ¬ Probe.TooShort d f₀ slope c₁ c₂ _ := fun hshort =>
        hshort.not_tooLong hslope hpos hlong
      have hclosed : h.bracket.closed.upper = some (real a) := by
        rw [Ray.Bracket.closed, hb.step_eq]
        rfl
      have hends := hb.toEnds.long hlong hnot rfl lower (upper.trans hclosed)
      obtain ⟨c, hb', hdouble⟩ := hends.brackets hvalid (step.trans hb.step_eq)
        (fun hnone => absurd hnone (Option.some_ne_none a))
        (fun u hu => Option.some.inj hu ▸ hb.lower_lt) ha hnext _ _
      refine ⟨lo, some a, c, hb', hdouble, fun u hu => ⟨a, rfl, ?_⟩⟩
      rw [hb.middle u hu]
      ring

/-- **The bracket of a search.** For every model, direction of descent and first step that is
positive, before every trial of a bracketing search the step lies strictly between the ends of the
bracket. The lower end is zero or the latest step that was too short; the upper one is missing, or
it is the latest step that was too long. While it is missing, the step is not above the longest one
and at most doubles from trial to trial; once it is there, every trial halves the bracket.

The trials are those of the search: from each of the heads that are reached it comes to what it
comes to from the beginning, and goes on to a next one or makes one more trial at most. -/
theorem wolfe_brackets (m : Model Extended σ) (x g₀ d : Point n) (f₀ : ℝ) (state : σ)
    (journal : Journal) (hvalid : p.validate = .ok ()) (hslope : ⟪g₀, d⟫ < 0)
    (hinitial : 0 < initial) :
    ∃ c₁ c₂ : ℝ, p.c1 = real c₁ ∧ p.c2 = real c₂ ∧
      let r := Ray.ofPoints p m x d f₀ ⟪g₀, d⟫
      let first : Head Extended σ :=
        ⟨[], { step := Scalar.minNum (real initial) p.maxStepSize }, state, journal⟩
      let Short := Probe.TooShort d f₀ ⟪g₀, d⟫ c₁ c₂
      let Long := Probe.TooLong p.condition d f₀ ⟪g₀, d⟫ c₁ c₂
      ∀ h, Relation.ReflTransGen r.Turn first h →
        first.outcome ((wolfe p).run m (embed (coords x)) (real f₀) (embed (coords g₀))
          (embed (coords d)) (real initial)) = h.outcome (r.onward h >>= r.conclude) ∧
        ((∃ h', r.Turn h h') ∨ h.outcome (r.onward h) = h.outcome (r.single h)) ∧
        ∃ lo hi a, h.Brackets p Short Long lo hi a ∧
          ∀ h', r.Turn h h' → h'.Follows p Short Long lo hi a := by
  obtain ⟨c₁, c₂, hc₁, hc₂, hpos, hlt, -⟩ := (p.validate_iff.mp hvalid).1.exists_constants
  refine ⟨c₁, c₂, hc₁, hc₂, ?_⟩
  intro r first Short Long h hreached
  have hturn : ∀ {h h' : Head Extended σ} {lo hi a}, h.Brackets p Short Long lo hi a →
      r.Turn h h' → h'.Follows p Short Long lo hi a :=
    fun hb ht => hb.turn hvalid hc₁ hc₂ (hpos.trans hlt) hslope ht
  have hrun : first.outcome ((wolfe p).run m (embed (coords x)) (real f₀) (embed (coords g₀))
      (embed (coords d)) (real initial)) = first.outcome (r.onward first >>= r.conclude) := by
    rw [run_wolfe_eq, descentSlope_embed hslope, pure_bind]
    rfl
  have hbrackets : ∃ lo hi a, h.Brackets p Short Long lo hi a := by
    induction hreached with
    | refl =>
        obtain ⟨t, ht, -, hlongest, hshorter⟩ := LineSearchParams.exists_cut hvalid initial
        have hfirst := hshorter 0 hinitial (LineSearchParams.not_maxStepSize_le_zero hvalid)
        have hends : Ends Short Long first.probes first.bracket 0 none :=
          ⟨rfl, rfl, le_rfl, .inl ⟨rfl, nofun⟩, fun _ => nofun, nofun⟩
        exact ⟨0, none, t, hends, ht, hfirst, nofun, nofun, fun _ => hlongest⟩
    | tail _ ht ih =>
        obtain ⟨lo, hi, a, hb⟩ := ih
        obtain ⟨lo', hi', a', hb', -⟩ := hturn hb ht
        exact ⟨lo', hi', a', hb'⟩
  obtain ⟨lo, hi, a, hb⟩ := hbrackets
  exact ⟨hrun.trans (Head.outcome_bind (Ray.outcome_eq_of_reaches hreached) _), r.turn_or_last h,
    lo, hi, a, hb, fun h' ht => hturn hb ht⟩

end Search

/-! ## A step beyond the minimum of the square -/

section Example

attribute [local instance] RealConstants.double

/-- The search from 1 downhill. -/
noncomputable def downhill (slope : ℝ) : Ray Extended Unit :=
  Ray.ofPoints {} square (linePoint 1) (linePoint (-1)) 1 slope

/-- It stands here before its first trial, at the step `a`, -/
noncomputable def beyond (a : ℝ) : Head Extended Unit := ⟨[], { step := real a }, (), #[]⟩

/-- and here after it, if the step is too long. -/
noncomputable def between (a f g middle : ℝ) : Head Extended Unit :=
  ⟨[⟨real a, .ok (real f, [real g])⟩], { step := real middle, upper := some (real a) }, (), #[]⟩

theorem inner_downhill : ⟪linePoint 2, linePoint (-1)⟫ = (-2 : ℝ) := by
  rw [inner_linePoint]
  norm_num

/-- The step 4 leads as far beyond the minimum as to -3. -/
theorem downhill_turn : (downhill (-2)).Turn (beyond 4) (between 4 9 (-6) 2) := by
  have hlong : ¬ real 4 < (downhill (-2)).params.minStepSize := by
    refine not_lt_of_le (real_le.mpr ?_)
    norm_num [RealConstants.minStepSize]
  have hpoint : (downhill (-2)).pointAt (real 4) = .ok [real (-3)] := by
    rw [downhill, Ray.pointAt_ofPoints, linePoint_add_smul, embed_linePoint]
    norm_num
  have hanswered : Arrives ((downhill (-2)).ask [real (-3)]) () #[]
      (.ok (real 9, [real (-6)])) () #[] := by
    have hanswer : (downhill (-2)).model.objectiveAndGradient [real (-3)]
        = pure (real 9, [real (-6)]) := by
      show (pure (real (-3 * -3), [real (2.0 * -3)]) : Evaluation Unit _) = _
      norm_num
    rw [Ray.ask, hanswer]
    rfl
  have hjudge : (downhill (-2)).judge 1 { step := real 4 } [real (-3)] (real 9) [real (-6)]
      = .ok (.inr { step := real 4, upper := some (real 4) }) := by
    have habove : (downhill (-2)).armijoBound (real 4) < real 9 := by
      rw [downhill, Ray.armijoBound_ofPoints rfl, real_lt]
      norm_num
    rw [Ray.judge, if_pos habove]
    rfl
  have hweighed : Arrives ((downhill (-2)).weigh 0 (beyond 4).bracket [real (-3)]
      (.ok (real 9, [real (-6)]))) () #[]
      (.inr { step := real 4, upper := some (real 4) }) () #[] := by
    show Run.start (liftM ((downhill (-2)).judge 1 { step := real 4 } [real (-3)] (real 9)
      [real (-6)]) : Search Unit _).run () #[] = _
    rw [hjudge]
    rfl
  have hnext : (downhill (-2)).nextStep { step := real 4, upper := some (real 4) }
      = some (real 2) := by
    show some ((real 0 + real 4) * 0.5) = some (real 2)
    rw [real_add, mul_half]
    norm_num
  exact .mk (by decide) hlong hpoint hanswered hweighed hnext

/-- The trial closes the bracket, and the next step is in the middle of it. -/
theorem wolfe_brackets_downhill :
    ({} : LineSearchParams Extended).validate = .ok () ∧
      (downhill (-2)).Turn (beyond 4) (between 4 9 (-6) 2) ∧
      ∃ c₁ c₂ : ℝ, (between 4 9 (-6) 2).Brackets {}
        (Probe.TooShort (linePoint (-1)) 1 (-2) c₁ c₂)
        (Probe.TooLong .weak (linePoint (-1)) 1 (-2) c₁ c₂) 0 (some 4) 2 := by
  have hslope : ⟪linePoint 2, linePoint (-1)⟫ < 0 := by
    rw [inner_downhill]
    norm_num
  have hfirst : Scalar.minNum (real 4) (1e10 : Extended) = real 4 := by
    rw [real_ofScientific, real_minNum]
    norm_num
  obtain ⟨c₁, c₂, -, -, hbrackets⟩ := wolfe_brackets square (linePoint 1) (linePoint 2)
    (linePoint (-1)) 1 () #[] standard_validate hslope (zero_lt_four (α := ℝ))
  refine ⟨standard_validate, downhill_turn, c₁, c₂, ?_⟩
  rw [inner_downhill] at hbrackets
  have hreached : Relation.ReflTransGen (downhill (-2)).Turn
      ⟨[], { step := Scalar.minNum (real 4) 1e10 }, (), #[]⟩ (between 4 9 (-6) 2) := by
    rw [hfirst]
    exact .single downhill_turn
  obtain ⟨-, -, lo, hi, a, hb, -⟩ := hbrackets (between 4 9 (-6) 2) hreached
  obtain rfl : 0 = lo := Extended.real.inj hb.lower_eq
  obtain rfl : 2 = a := Extended.real.inj hb.step_eq
  obtain ⟨u, rfl, hu⟩ := Option.map_eq_some_iff.mp hb.upper_eq.symm
  obtain rfl := Extended.real.inj hu
  exact hb

end Example

end LineSearch

end Descent
