import Descent.Proofs.Standard
import Descent.Proofs.Valid

/-!
# Settings in order

The methods rely on chains of inequalities between their settings. The checks compare neighbours
only, some of them in the negative (`¬ a < b`) and one in the positive (`a ≤ b`), which is not the
same where a NaN is compared. `Scalar.Comparable` says what comparisons have to do with one another
and with NaNs, so that the checks can be read as the chains: those of the trust region and of
truncated conjugate gradients are the chains, and those of the line search are but for a longest
step that is a NaN (`validates_iff_inOrder`).
-/

set_option autoImplicit false

namespace Descent

namespace Scalar

/-- Only numbers compare, and one is less than another if it is at most that one and not the other
way round. -/
class Comparable (α : Type) [Scalar α] : Prop extends Standard α where
  lt_iff : ∀ {a b : α}, a < b ↔ a ≤ b ∧ ¬ b ≤ a
  isNaN_of_le : ∀ {a b : α}, a ≤ b → isNaN a = false ∧ isNaN b = false

namespace Comparable

variable {α : Type} [Scalar α] [Comparable α] {a b c : α}

theorem le_of_lt (h : a < b) : a ≤ b := (lt_iff.mp h).1

theorem lt_trans (hab : a < b) (hbc : b < c) : a < c := by
  obtain ⟨hle, hnot⟩ := lt_iff.mp hab
  refine lt_iff.mpr ⟨Standard.le_trans hle (le_of_lt hbc), fun hca => hnot ?_⟩
  exact Standard.le_trans (le_of_lt hbc) hca

/-- What is not at most a number is above it, or no number. -/
theorem not_le_iff (ha : isNaN a = false) : ¬ b ≤ a ↔ a < b ∨ isNaN b = true := by
  constructor
  · intro hba
    by_cases hb : isNaN b = true
    · exact .inr hb
    · have hab := (Standard.le_total ha (Bool.eq_false_iff.mpr hb)).resolve_right hba
      exact .inl (lt_iff.mpr ⟨hab, hba⟩)
  · rintro (hab | hb) hba
    · exact (lt_iff.mp hab).2 hba
    · rw [(isNaN_of_le hba).1] at hb
      cases hb

end Comparable

instance [RealConstants] : Comparable ℝ where
  lt_iff := lt_iff_le_not_ge
  isNaN_of_le _ := ⟨real_isNaN _, real_isNaN _⟩

instance [RealConstants] : Comparable Extended where
  lt_iff {a b} := by
    constructor
    · exact fun h => ⟨Extended.le_of_lt h, fun hba => Extended.not_lt_of_le hba h⟩
    · rintro ⟨hab, hba⟩
      cases a <;> cases b <;>
        first
        | exact hab.elim
        | exact trivial
        | exact absurd trivial hba
        | exact Extended.real_lt.mpr (lt_of_not_ge hba)
  isNaN_of_le {a b} h := by
    cases a <;> cases b <;>
      first
      | exact h.elim
      | exact ⟨rfl, rfl⟩
      | exact ⟨Extended.isNaN_real, rfl⟩
      | exact ⟨rfl, Extended.isNaN_real⟩
      | exact ⟨Extended.isNaN_real, Extended.isNaN_real⟩

end Scalar

/-! ## Doubles and singles -/

section Packed

open Float.Model

theorem compare_lt_iff {a b : UnpackedFloat} : a.compare b = some .lt ↔
    (a.compare b).any (·.isLE) = true ∧ ¬ (b.compare a).any (·.isLE) = true := by
  rw [compare_swap a b]
  cases a.compare b with
  | none => simp
  | some o => cases o <;> simp

theorem isNaN_of_compare {a b : UnpackedFloat} (h : (a.compare b).any (·.isLE) = true) :
    a.isNaN = false ∧ b.isNaN = false := by
  obtain ⟨r, s, hr, hs, -⟩ := isLE_compare_iff.mp h
  -- a NaN has no rank
  have hnumber : ∀ {c : UnpackedFloat} {q}, rank c = some q → c.isNaN = false := by
    intro c q hc
    cases c with
    | notANumber => cases hc
    | _ => rfl
  exact ⟨hnumber hr, hnumber hs⟩

end Packed

theorem float32_lt_iff (a b : Float32) :
    a < b ↔ a.toModel.unpack.compare b.toModel.unpack = some .lt := by
  show decide ((a.toModel.unpack.compare b.toModel.unpack == some .lt) = true) = true ↔ _
  simp

instance : Scalar.Comparable Float where
  lt_iff {a b} := by
    rw [float_lt_iff, float_le_iff, float_le_iff]
    exact compare_lt_iff
  isNaN_of_le {a b} h := by
    rw [float_isNaN, float_isNaN]
    exact isNaN_of_compare ((float_le_iff a b).mp h)

instance : Scalar.Comparable Float32 where
  lt_iff {a b} := by
    rw [float32_lt_iff, float32_le_iff, float32_le_iff]
    exact compare_lt_iff
  isNaN_of_le {a b} h := by
    rw [float32_isNaN, float32_isNaN]
    exact isNaN_of_compare ((float32_le_iff a b).mp h)

/-! ## The checks -/

/-- A check and those after it pass if the setting is in range and the others do. -/
theorem refuse_ok_iff {p : Prop} [Decidable p] {reason parameter value : String}
    {rest : Except SolverError Unit} : (do
      if p then refuse reason parameter value
      rest) = .ok () ↔ ¬ p ∧ rest = .ok () :=
  ⟨not_of_refuse_ok, fun h => refuse_ok_of_not h.1 h.2⟩

/-- The last check. -/
theorem refuse_last_iff {p : Prop} [Decidable p] {reason parameter value : String} : (do
      if p then refuse reason parameter value : Except SolverError Unit) = .ok () ↔ ¬ p := by
  by_cases hp : p
  · rw [if_pos hp]
    exact ⟨nofun, absurd hp⟩
  · rw [if_neg hp]
    exact ⟨fun _ => hp, fun _ => rfl⟩

variable {α : Type} [Scalar α]

/-- The chains of a line search, all but the one of the longest step. -/
structure LineSearchParams.InOrder (p : LineSearchParams α) : Prop where
  minStepSize : 0 < p.minStepSize
  constants : 0 < p.c1 ∧ p.c1 < p.c2 ∧ p.c2 < 1
  rho : 0 < p.rho ∧ p.rho < 1
  maxTrials : 1 ≤ p.maxTrials
  maxEvaluationFailures : 1 ≤ p.maxEvaluationFailures

structure TruncatedCg.Config.InOrder (c : Config α) : Prop where
  relativeTolerance : 0 < c.relativeTolerance ∧ c.relativeTolerance < 1
  maxIterations : c.maxIterations ≠ some 0

structure TrustRegion.Config.InOrder (c : Config α) : Prop where
  maxRadius : 0 < c.maxRadius
  thresholds : 0 ≤ c.acceptanceRatio ∧ c.acceptanceRatio < c.decreaseThreshold ∧
    c.decreaseThreshold ≤ c.increaseThreshold ∧ c.increaseThreshold < 1
  factors : 0 < c.decreaseFactor ∧ c.decreaseFactor < 1 ∧ 1 < c.increaseFactor
  cg : c.cg.InOrder

theorem TruncatedCg.Config.validate_iff (c : Config α) : c.validate = .ok () ↔ c.InOrder := by
  unfold validate
  rw [refuse_ok_iff, refuse_last_iff, Decidable.not_not]
  exact ⟨fun h => ⟨h.1, h.2⟩, fun h => ⟨h.relativeTolerance, h.maxIterations⟩⟩

theorem TrustRegion.Config.validate_iff (c : Config α) : c.validate = .ok () ↔ c.InOrder := by
  unfold validate
  rw [refuse_ok_iff, refuse_ok_iff, refuse_ok_iff, refuse_ok_iff, refuse_ok_iff,
    c.cg.validate_iff]
  simp only [Decidable.not_not]
  constructor
  · rintro ⟨hradius, haccept, hthresholds, hdecrease, hincrease, hcg⟩
    exact ⟨hradius, ⟨haccept.1, haccept.2, hthresholds⟩, ⟨hdecrease.1, hdecrease.2, hincrease⟩,
      hcg⟩
  · rintro ⟨hradius, ⟨haccept, hbelow, hthresholds⟩, ⟨hpos, hlt, hincrease⟩, hcg⟩
    exact ⟨hradius, ⟨haccept, hbelow⟩, hthresholds, ⟨hpos, hlt⟩, hincrease, hcg⟩

variable [Scalar.Comparable α]

/-- The longest step is refused only if it compares with the shortest one. -/
theorem LineSearchParams.validate_iff (p : LineSearchParams α) : p.validate = .ok () ↔
    p.InOrder ∧ (p.minStepSize < p.maxStepSize ∨ Scalar.isNaN p.maxStepSize = true) := by
  unfold validate
  rw [refuse_ok_iff, refuse_ok_iff, refuse_ok_iff, refuse_ok_iff, refuse_ok_iff, refuse_ok_iff,
    refuse_last_iff]
  simp only [Decidable.not_not]
  constructor
  · rintro ⟨hmin, hmax, hc1, hc2, hrho, htrials, hfailures⟩
    have hnumber := (Scalar.Comparable.isNaN_of_le (Scalar.Comparable.le_of_lt hmin)).2
    exact ⟨⟨hmin, ⟨hc1.1, hc2⟩, hrho, Nat.pos_of_ne_zero htrials, Nat.pos_of_ne_zero hfailures⟩,
      (Scalar.Comparable.not_le_iff hnumber).mp hmax⟩
  · rintro ⟨⟨hmin, ⟨hpos, hlt, hone⟩, hrho, htrials, hfailures⟩, hmax⟩
    have hnumber := (Scalar.Comparable.isNaN_of_le (Scalar.Comparable.le_of_lt hmin)).2
    exact ⟨hmin, (Scalar.Comparable.not_le_iff hnumber).mpr hmax,
      ⟨hpos, Scalar.Comparable.lt_trans hlt hone⟩, ⟨hlt, hone⟩, hrho, Nat.ne_of_gt htrials,
      Nat.ne_of_gt hfailures⟩

/-- **What the checks establish.** In doubles, singles and exact arithmetic, for any settings, NaNs
and infinities included: the checks of a trust region and of truncated conjugate gradients pass if
and only if the chains hold; those of a line search if and only if the chains hold and the longest
step is longer than the shortest one or a NaN. -/
theorem validates_iff_inOrder (p : LineSearchParams α) (t : TrustRegion.Config α)
    (c : TruncatedCg.Config α) :
    (p.validate = .ok () ↔
      p.InOrder ∧ (p.minStepSize < p.maxStepSize ∨ Scalar.isNaN p.maxStepSize = true)) ∧
      (t.validate = .ok () ↔ t.InOrder) ∧ (c.validate = .ok () ↔ c.InOrder) :=
  ⟨p.validate_iff, t.validate_iff, c.validate_iff⟩

/-- The settings of doubles that are used if nothing is said are in order. -/
theorem validates_iff_inOrder_standard :
    ({ } : LineSearchParams Float).validate = .ok () ∧
      ({ } : TrustRegion.Config Float).validate = .ok () ∧
        ({ } : TruncatedCg.Config Float).validate = .ok () := by
  obtain ⟨hp, ht, hc⟩ := validates_iff_inOrder ({ } : LineSearchParams Float)
    ({ } : TrustRegion.Config Float) ({ } : TruncatedCg.Config Float)
  have hcg : ({ } : TruncatedCg.Config Float).InOrder := ⟨by decide +kernel, nofun⟩
  refine ⟨hp.mpr ⟨⟨?_, ?_, ?_, ?_, ?_⟩, .inl ?_⟩, ht.mpr ⟨?_, ?_, ?_, hcg⟩, hc.mpr hcg⟩
  all_goals decide +kernel

def LineSearchParams.upTo (longest : Float) : LineSearchParams Float := { maxStepSize := longest }

/-- A longest step that is a NaN passes, although it is not longer than the shortest one. -/
theorem nan_maxStepSize_validates : (LineSearchParams.upTo Scalar.nan).validate = .ok () ∧
    ¬ (LineSearchParams.upTo Scalar.nan).minStepSize <
      (LineSearchParams.upTo Scalar.nan).maxStepSize := by
  refine ⟨(LineSearchParams.validate_iff _).mpr ⟨⟨?_, ?_, ?_, ?_, ?_⟩, .inr ?_⟩, ?_⟩
  all_goals decide +kernel

end Descent
