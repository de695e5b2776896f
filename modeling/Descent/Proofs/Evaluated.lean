import Descent.Model.Counted
import Descent.Proofs.Outcome

/-!
# The answers of a model

What a model can answer at a point, whoever asks: a value of the objective (`Model.HasValue`), a
gradient (`Model.HasGradient`), and both if they are finite (`Model.Evaluated`). Each may come alone
or from the question for both. The answers of a counted model are those of the model inside.
-/

set_option autoImplicit false

namespace Descent

open Run

variable {α σ : Type} [Scalar α]

/-- A usable value is one that the evaluation returns, and is finite. Only what cannot be mended by
a shorter step is an error. -/
theorem Evaluation.usable_gives {β : Type} (e : Evaluation σ β) (isFinite : β → Bool)
    (what : String) : Gives (Evaluation.usable e isFinite what)
      (fun r => ∀ b, r = .ok b → Returns e b ∧ isFinite b = true)
      fun error => ∃ inner, error = .model inner := by
  refine Gives.bind (Gives.caught Gives.self) ?_
  rintro (inner | b) h
  · dsimp only
    split
    · exact Gives.pure fun _ h => by cases h
    · exact Gives.throw ⟨inner, rfl⟩
  · refine Gives.pure fun b' h' => ?_
    split at h'
    · next hfinite =>
        cases h'
        exact ⟨h, hfinite⟩
    · cases h'

namespace Model

/-- `f` is an answer of the model to the question for the objective at `x`. -/
def HasValue (m : Model α σ) (x : Vec α) (f : α) : Prop :=
  Returns (m.objective x) f ∨ ∃ g, Returns (m.objectiveAndGradient x) (f, g)

def HasGradient (m : Model α σ) (x g : Vec α) : Prop :=
  Returns (m.gradient x) g ∨ ∃ f, Returns (m.objectiveAndGradient x) (f, g)

/-- The model answers `f` and `g` at `x`, and both are finite. -/
structure Evaluated (m : Model α σ) (x : Vec α) (f : α) (g : Vec α) : Prop where
  value : m.HasValue x f
  gradient : m.HasGradient x g
  isFinite_value : Scalar.isFinite f = true
  allFinite_gradient : Vec.allFinite g = true

variable {m : Model α σ} {x g : Vec α} {f : α}

/-! ## Counted models -/

theorem returns_objective_of_counted (h : Returns (m.counted.objective x) f) :
    Returns (m.objective x) f := by
  obtain ⟨_, _, hinside⟩ := h.of_bind
  exact hinside.of_tryOnSnd

theorem returns_gradient_of_counted (h : Returns (m.counted.gradient x) g) :
    Returns (m.gradient x) g := by
  obtain ⟨_, _, hinside⟩ := h.of_bind
  exact hinside.of_tryOnSnd

theorem returns_both_of_counted (h : Returns (m.counted.objectiveAndGradient x) (f, g)) :
    Returns (m.objectiveAndGradient x) (f, g) := by
  obtain ⟨_, _, h⟩ := h.of_bind
  obtain ⟨_, _, hinside⟩ := h.of_bind
  exact hinside.of_tryOnSnd

/-- The answers of a counted model are those of the model inside. -/
theorem Evaluated.of_counted (h : m.counted.Evaluated x f g) : m.Evaluated x f g where
  value := h.value.imp returns_objective_of_counted
    fun ⟨g, hboth⟩ => ⟨g, returns_both_of_counted hboth⟩
  gradient := h.gradient.imp returns_gradient_of_counted
    fun ⟨f, hboth⟩ => ⟨f, returns_both_of_counted hboth⟩
  isFinite_value := h.isFinite_value
  allFinite_gradient := h.allFinite_gradient

end Model

end Descent
