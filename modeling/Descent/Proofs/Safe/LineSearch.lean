import Descent.LineSearch
import Descent.Proofs.Safe.Model

/-!
# Line searches in models of the right size

From a point and along a direction of the model's dimension a line search stops at no fault, and the
point and the gradient that it finds have that dimension.
-/

set_option autoImplicit false

namespace Descent.LineSearch

open Checked Run

variable {α σ : Type} [Scalar α] {n : Nat}

structure Found.Sized (n : Nat) (found : Found α) : Prop where
  point : found.point.length = n
  gradient : found.gradient.length = n

theorem Failures.record_safe (f : Failures) (cap : Nat) (reason : String) :
    Safe (f.record cap reason : Search σ Failures) (fun _ => True) SolverError.Fits := by
  refine .bind .emit fun _ _ => ?_
  dsimp only
  split
  · exact .throw_bind trivial
  · exact .pure trivial

namespace Ray

def Bracket.Sized (n : Nat) (b : Bracket α) : Prop :=
  ∀ found, b.fallback = some found → found.Sized n

def ResultSized (n : Nat) : Found α ⊕ Bracket α → Prop
  | .inl found => found.Sized n
  | .inr b => b.Sized n

/-- The model, the start and the direction have the dimension `n`. -/
structure Sized (n : Nat) (r : Ray α σ) : Prop where
  model : r.model.FirstOrderSized
  dimension : r.model.dimension = n
  start : r.x.length = n
  direction : r.direction.length = n

variable {r : Ray α σ}

theorem Sized.pointAt_passes (hr : r.Sized n) (a : α) :
    Passes (r.pointAt a) fun point => point.length = n :=
  Vec.along_passes hr.start hr.direction a

theorem Sized.backtrack_safe (hr : r.Sized n) (remaining k : Nat) (a : α) (failures : Failures) :
    Safe (r.backtrack remaining k a failures) (Found.Sized n) SolverError.Fits := by
  obtain ⟨hmodel, rfl, -, -⟩ := id hr
  induction remaining generalizing k a failures with
  | zero => exact .throw trivial
  | succ remaining ih =>
      unfold backtrack
      split
      · exact .throw_bind trivial
      · refine .bind (.checked (hr.pointAt_passes a)) fun point hpoint => ?_
        refine .bind (Evaluation.usable_safe (hmodel.objective point hpoint) _ _) ?_
        rintro (reason | value) -
        · exact .bind (failures.record_safe _ _) fun _ _ => ih _ _ _
        · dsimp only
          split
          · refine .bind (Evaluation.usable_safe (hmodel.gradient point hpoint) _ _) ?_
            rintro (reason | gradient) hgradient
            · exact .bind (Failures.record_safe _ _ _) fun _ _ => ih _ _ _
            · exact .pure ⟨hpoint, hgradient gradient rfl⟩
          · exact ih _ _ _

theorem Sized.judge_passes (hr : r.Sized n) (k : Nat) {b : Bracket α} (hb : b.Sized n)
    {point : Vec α} (hpoint : point.length = n) (value : α) {gradient : Vec α}
    (hgradient : gradient.length = n) :
    Passes (r.judge k b point value gradient) (ResultSized n) := by
  have hkept : ∀ found : Found α, found.Sized n → ∀ found', some found = some found' →
      found'.Sized n := by
    rintro found hfound _ ⟨⟩
    exact hfound
  unfold judge
  split
  · exact .ok hb
  · refine .bind (Vec.dot_passes hgradient hr.direction) fun slope _ => ?_
    dsimp only
    split
    · exact .ok (hkept _ ⟨hpoint, hgradient⟩)
    · split
      · exact .ok (hkept _ ⟨hpoint, hgradient⟩)
      · exact .ok ⟨hpoint, hgradient⟩

theorem Sized.bracket_safe (hr : r.Sized n) (remaining k : Nat) {b : Bracket α} (hb : b.Sized n) :
    Safe (r.bracket remaining k b) (ResultSized n) SolverError.Fits := by
  obtain ⟨hmodel, rfl, -, -⟩ := id hr
  induction remaining generalizing k b with
  | zero => exact .pure hb
  | succ remaining ih =>
      unfold bracket
      split
      · exact .pure hb
      · refine .bind (.checked (hr.pointAt_passes _)) fun point hpoint => ?_
        refine .bind (Evaluation.usable_safe (hmodel.objectiveAndGradient point hpoint) _ _) ?_
        rintro (reason | ⟨value, gradient⟩) hgradient
        case' error =>
          refine .bind (Failures.record_safe _ _ _) fun failures _ => ?_
          have hjudged : Bracket.Sized r.model.dimension { b.closed with failures } := hb
          rw [pure_bind]
        case' ok =>
          have hcounted : Bracket.Sized r.model.dimension
              { b with failures := b.failures.interrupted } := hb
          refine .bind (.checked (hr.judge_passes (k + 1) hcounted hpoint value
            (hgradient (value, gradient) rfl))) ?_
          rintro (found | b) hjudged
          · exact .pure hjudged
        -- a bracket of either kind is searched on in the same way
        all_goals
          dsimp only
          split
          · exact ih _ hjudged
          · exact .pure hjudged

end Ray

/-- A search from a point of the model's dimension along a direction of it. -/
theorem run_safe (s : LineSearch α) {m : Model α σ} (hm : m.FirstOrderSized)
    {x g₀ direction : Vec α} (hx : x.length = m.dimension) (hg : g₀.length = m.dimension)
    (hd : direction.length = m.dimension) (f₀ initialStep : α) :
    Safe (s.run m x f₀ g₀ direction initialStep) (Found.Sized m.dimension) SolverError.Fits := by
  unfold run
  refine .bind (Q := fun _ => True) ?_ fun slope _ => ?_
  · refine .bind (.checked (Vec.dot_passes hg hd)) fun slope _ => ?_
    split
    · exact .pure trivial
    · exact .throw trivial
  have hr : ∀ p : LineSearchParams α,
      (⟨p, m, x, f₀, direction, slope⟩ : Ray α σ).Sized m.dimension :=
    fun _ => ⟨hm, rfl, hx, hd⟩
  dsimp only
  split
  · exact (hr _).backtrack_safe _ _ _ _
  · refine .bind ((hr _).bracket_safe _ _ nofun) ?_
    rintro (found | b) h
    · exact .pure h
    · dsimp only
      split
      · next found hfound =>
          exact .bind .emit fun _ _ => .pure ⟨(h found hfound).point, (h found hfound).gradient⟩
      · exact .throw trivial

end Descent.LineSearch
