import Descent.History
import Descent.Proofs.Outcome
import Descent.TrustRegion

/-!
# Settings that pass their checks

A check refuses the first setting out of range. What it lets pass is in range, setting by setting.
What it refuses it refuses with the name and the value of a setting, never with an error of the
model (`NamesSetting`).
-/

set_option autoImplicit false

namespace Descent

variable {α : Type} [Scalar α]

/-- A setting is in range if its check does not refuse it, and the checks after it pass too. -/
theorem not_of_refuse_ok {p : Prop} [Decidable p] {reason parameter value : String}
    {rest : Except SolverError Unit} (h : (do
      if p then refuse reason parameter value
      rest) = .ok ()) : ¬ p ∧ rest = .ok () := by
  by_cases hp : p
  · rw [if_pos hp] at h
    cases h
  · rw [if_neg hp] at h
    exact ⟨hp, h⟩

/-- A setting in range passes. -/
theorem refuse_ok_of_not {p : Prop} [Decidable p] {reason parameter value : String}
    {rest : Except SolverError Unit} (hp : ¬ p) (h : rest = .ok ()) : (do
      if p then refuse reason parameter value
      rest) = .ok () := by
  rw [if_neg hp]
  exact h

/-- The parameters of line searches that make a step go downhill. -/
structure LineSearchParams.Valid (p : LineSearchParams α) : Prop where
  minStepSize : 0 < p.minStepSize
  c1_pos : 0 < p.c1
  c1_lt : p.c1 < 1

theorem LineSearchParams.valid_of_validate {p : LineSearchParams α} (h : p.validate = .ok ()) :
    p.Valid := by
  unfold validate at h
  obtain ⟨hmin, h⟩ := not_of_refuse_ok h
  obtain ⟨-, h⟩ := not_of_refuse_ok h
  obtain ⟨hc1, -⟩ := not_of_refuse_ok h
  have hc1 := Decidable.of_not_not hc1
  exact ⟨Decidable.of_not_not hmin, hc1.1, hc1.2⟩

/-- The tolerance of truncated conjugate gradients is a part of one. -/
structure TruncatedCg.Config.Valid (c : Config α) : Prop where
  relativeTolerance_pos : 0 < c.relativeTolerance
  relativeTolerance_lt : c.relativeTolerance < 1

theorem TruncatedCg.Config.valid_of_validate {c : Config α} (h : c.validate = .ok ()) :
    c.Valid := by
  unfold validate at h
  obtain ⟨htolerance, -⟩ := not_of_refuse_ok h
  have htolerance := Decidable.of_not_not htolerance
  exact ⟨htolerance.1, htolerance.2⟩

/-- The settings of a trust region that decide which steps are accepted and how the radius
changes. -/
structure TrustRegion.Config.Valid (c : Config α) : Prop where
  maxRadius : 0 < c.maxRadius
  acceptanceRatio : 0 ≤ c.acceptanceRatio
  acceptanceRatio_lt : c.acceptanceRatio < c.decreaseThreshold
  decreaseThreshold_le : c.decreaseThreshold ≤ c.increaseThreshold
  increaseThreshold_lt : c.increaseThreshold < 1
  decreaseFactor_pos : 0 < c.decreaseFactor
  decreaseFactor_lt : c.decreaseFactor < 1
  increaseFactor : 1 < c.increaseFactor
  cg : c.cg.Valid

theorem TrustRegion.Config.valid_of_validate {c : Config α} (h : c.validate = .ok ()) :
    c.Valid := by
  unfold validate at h
  obtain ⟨hradius, h⟩ := not_of_refuse_ok h
  obtain ⟨haccept, h⟩ := not_of_refuse_ok h
  obtain ⟨hthresholds, h⟩ := not_of_refuse_ok h
  obtain ⟨hdecrease, h⟩ := not_of_refuse_ok h
  obtain ⟨hincrease, h⟩ := not_of_refuse_ok h
  have haccept := Decidable.of_not_not haccept
  have hthresholds := Decidable.of_not_not hthresholds
  have hdecrease := Decidable.of_not_not hdecrease
  exact {
    maxRadius := Decidable.of_not_not hradius
    acceptanceRatio := haccept.1
    acceptanceRatio_lt := haccept.2
    decreaseThreshold_le := hthresholds.1
    increaseThreshold_lt := hthresholds.2
    decreaseFactor_pos := hdecrease.1
    decreaseFactor_lt := hdecrease.2
    increaseFactor := Decidable.of_not_not hincrease
    cg := TruncatedCg.Config.valid_of_validate h }

/-! ## Options -/

namespace Options

theorem nonneg_of_check {name : String} {value : α} (h : checkNonNegative name value = .ok ()) :
    0 ≤ value ∧ Scalar.isFinite value = true := by
  unfold checkNonNegative at h
  split at h
  · next hvalue => rwa [Bool.and_eq_true, decide_eq_true_eq] at hvalue
  · cases h

theorem pos_of_check {name : String} {value : α} (h : checkPositive name value = .ok ()) :
    0 < value ∧ Scalar.isFinite value = true := by
  unfold checkPositive at h
  split at h
  · next hvalue => rwa [Bool.and_eq_true, decide_eq_true_eq] at hvalue
  · cases h

theorem atLeastOne_of_check {name : String} {value : Nat}
    (h : checkAtLeastOne name value = .ok ()) : 0 < value := by
  unfold checkAtLeastOne at h
  split at h
  · cases h
  · next hne => exact Nat.pos_of_ne_zero hne

/-- The options that decide where a solve ends and what a search may try. -/
structure Valid (o : Options α) : Prop where
  gradientTolerance : 0 ≤ o.gradientTolerance
  initialRadius : ∀ radius, o.trustRegionInitialRadius = some radius →
    0 < radius ∧ Scalar.isFinite radius = true
  lineSearchMaxTrials : 0 < o.lineSearchMaxTrials
  maxConsecutiveEvaluationFailures : 0 < o.maxConsecutiveEvaluationFailures

theorem valid_of_validate {o : Options α} (h : o.validate = .ok ()) : o.Valid := by
  obtain ⟨_, htolerance, h⟩ := exists_of_bind_ok h
  obtain ⟨_, -, h⟩ := exists_of_bind_ok h
  obtain ⟨_, -, h⟩ := exists_of_bind_ok h
  obtain ⟨_, -, h⟩ := exists_of_bind_ok h
  obtain ⟨_, hradius, h⟩ := exists_of_bind_ok h
  obtain ⟨_, -, h⟩ := exists_of_bind_ok h
  obtain ⟨_, htrials, h⟩ := exists_of_bind_ok h
  obtain ⟨_, -, hfailures⟩ := exists_of_bind_ok h
  refine ⟨(nonneg_of_check htolerance).1, fun radius hsome => ?_, atLeastOne_of_check htrials,
    atLeastOne_of_check hfailures⟩
  rw [hsome] at hradius
  exact pos_of_check hradius

/-- Tolerances of the gradient are finite and not negative. -/
theorem tolerances_of_validate {o : Options α} (h : o.validate = .ok ()) :
    (0 ≤ o.gradientTolerance ∧ Scalar.isFinite o.gradientTolerance = true) ∧
      ∀ r, o.relativeGradientTolerance = some r → 0 ≤ r ∧ Scalar.isFinite r = true := by
  obtain ⟨_, habsolute, h⟩ := exists_of_bind_ok h
  obtain ⟨_, hrelative, -⟩ := exists_of_bind_ok h
  refine ⟨nonneg_of_check habsolute, fun r hsome => ?_⟩
  rw [hsome] at hrelative
  exact nonneg_of_check hrelative

end Options

/-! ## Refusals -/

/-- If a check fails, its error names a setting and the value that is out of range. -/
def NamesSetting {β : Type} (x : Except SolverError β) : Prop :=
  ∀ e, x = .error e → ∃ reason parameter value, e = .invalidConfiguration reason parameter value

namespace NamesSetting

variable {β γ : Type}

theorem ok (b : β) : NamesSetting (.ok b : Except SolverError β) := by
  rintro e ⟨⟩

theorem refuse (reason parameter value : String) :
    NamesSetting (Descent.refuse reason parameter value : Except SolverError β) := by
  rintro e ⟨⟩
  exact ⟨reason, parameter, value, rfl⟩

theorem ite {p : Prop} [Decidable p] {x y : Except SolverError β} (hx : NamesSetting x)
    (hy : NamesSetting y) : NamesSetting (if p then x else y) := by
  by_cases hp : p
  · rw [if_pos hp]
    exact hx
  · rw [if_neg hp]
    exact hy

theorem bind {x : Except SolverError β} {f : β → Except SolverError γ} (hx : NamesSetting x)
    (hf : ∀ b, NamesSetting (f b)) : NamesSetting (x >>= f) := by
  intro e he
  cases x with
  | error d =>
      obtain ⟨reason, parameter, value, rfl⟩ := hx d rfl
      cases he
      exact ⟨reason, parameter, value, rfl⟩
  | ok b => exact hf b e he

/-- One check after another. -/
theorem guarded {p : Prop} [Decidable p] {reason parameter value : String}
    {rest : Except SolverError Unit} (h : NamesSetting rest) : NamesSetting (do
      if p then Descent.refuse reason parameter value
      rest) :=
  ite (bind (refuse _ _ _) fun _ => h) h

/-- The error is not one of the model. -/
theorem not_model {x : Except SolverError β} (h : NamesSetting x) {e : SolverError}
    (he : x = .error e) (inner : ModelError) : e ≠ .model inner := by
  obtain ⟨_, _, _, rfl⟩ := h e he
  exact nofun

end NamesSetting

theorem TruncatedCg.Config.namesSetting_validate (c : Config α) : NamesSetting c.validate :=
  .guarded (.ite (.refuse _ _ _) (.ok ()))

theorem TrustRegion.Config.namesSetting_validate (c : Config α) : NamesSetting c.validate :=
  .guarded (.guarded (.guarded (.guarded (.guarded c.cg.namesSetting_validate))))

theorem LineSearchParams.namesSetting_validate (p : LineSearchParams α) :
    NamesSetting p.validate :=
  .guarded (.guarded (.guarded (.guarded (.guarded (.guarded (.ite (.refuse _ _ _) (.ok ())))))))

omit [Scalar α] in
theorem History.namesSetting_empty (capacity : Nat) :
    NamesSetting (History.empty capacity : Except SolverError (History α)) :=
  .ite (.refuse _ _ _) (.ok _)

theorem Options.namesSetting_validate (o : Options α) : NamesSetting o.validate := by
  have hnonnegative : ∀ name value, NamesSetting (checkNonNegative (α := α) name value) :=
    fun _ _ => .ite (.ok ()) (.refuse _ _ _)
  have hpositive : ∀ name value, NamesSetting (checkPositive (α := α) name value) :=
    fun _ _ => .ite (.ok ()) (.refuse _ _ _)
  have hone : ∀ name value, NamesSetting (checkAtLeastOne name value) :=
    fun _ _ => .ite (.refuse _ _ _) (.ok ())
  -- a value that is absent passes
  have hoption : ∀ (check : α → Except SolverError Unit) value,
      (∀ a, NamesSetting (check a)) → NamesSetting (checkOption check value) := by
    intro check value hcheck
    cases value with
    | none => exact .ok ()
    | some a => exact hcheck a
  refine .bind (hnonnegative _ _) fun _ => ?_
  refine .bind (hoption _ _ (hnonnegative _)) fun _ => ?_
  refine .bind (hoption _ _ (hnonnegative _)) fun _ => ?_
  refine .bind (hoption _ _ (hnonnegative _)) fun _ => ?_
  refine .bind (hoption _ _ (hpositive _)) fun _ => ?_
  refine .bind (hone _ _) fun _ => ?_
  refine .bind (hone _ _) fun _ => ?_
  refine .bind (hone _ _) fun _ => ?_
  exact hone _ _

end Descent
