import Descent.Proofs.Simulation.Model

/-!
# Models that remember the steps they are told of

A model that keeps, beside its own state, the list of the accepted steps that it was told of, each
with the change of the gradient along it. It imitates the model inside (`hooked_imitates`), so that
the list which a solve leaves is what any model is told. Answers leave the list alone
(`AnswersAlike.hooked`), and a notice makes it longer by one (`acceptStep_hooked`).
-/

set_option autoImplicit false

namespace Descent

open Run

variable {α σ : Type} [Scalar α]

namespace Model

/-- The model with a list of the steps it was told of, each with the change of the gradient along
it, the latest last. -/
def hooked (m : Model α σ) : Model α (σ × List (Vec α × Vec α)) where
  dimension := m.dimension
  name := m.name
  objective x := Run.tryOnFst (m.objective x)
  gradient x := Run.tryOnFst (m.gradient x)
  objectiveAndGradient x := Run.tryOnFst (m.objectiveAndGradient x)
  hessianVector x v := Run.tryOnFst (m.hessianVector x v)
  hessian x := Run.tryOnFst (m.hessian x)
  sparseHessian x := Run.tryOnFst (m.sparseHessian x)
  sides := m.sides
  initialPoint := m.initialPoint
  acceptStep s y := do
    modify fun (t, steps) => (t, steps ++ [(s, y)])
    Run.onFst (m.acceptStep s y)

/-- But for the list, a hooked model is the model inside. -/
theorem hooked_imitates (m : Model α σ) : m.hooked.Imitates Prod.fst m where
  dimension := rfl
  name := rfl
  sides := rfl
  objective _ _ _ := rfl
  gradient _ _ _ := rfl
  objectiveAndGradient _ _ _ := rfl
  hessianVector _ _ _ _ := rfl
  hessian _ _ _ := rfl
  sparseHessian _ _ _ := rfl
  acceptStep _ _ _ _ := rfl

/-- The answers of a hooked model keep what those of the model inside keep with every list. -/
theorem AnswersAlike.hooked {m : Model α σ} {I : σ → List (Vec α × Vec α) → Prop}
    (hm : ∀ steps, m.AnswersAlike .same (Kept fun s => I s steps) m) :
    m.hooked.AnswersAlike .same (Kept fun t => I t.1 t.2) m.hooked := by
  have hanswer : ∀ {β : Type} {e : Evaluation σ β},
      (∀ steps, Agrees .same (Kept fun s => I s steps) e e) →
      Agrees .same (Kept fun t : σ × List (Vec α × Vec α) => I t.1 t.2) (Run.tryOnFst e)
        (Run.tryOnFst e) := by
    intro β e he
    exact relates_kept.mpr (Triple.onFst_at fun steps => relates_kept.mp (he steps))
  exact {
    dimension := rfl
    name := rfl
    sides := rfl
    objective := fun x => hanswer fun steps => (hm steps).objective x
    gradient := fun x => hanswer fun steps => (hm steps).gradient x
    objectiveAndGradient := fun x => hanswer fun steps => (hm steps).objectiveAndGradient x
    hessianVector := fun x v => hanswer fun steps => (hm steps).hessianVector x v
    hessian := fun x => hanswer fun steps => (hm steps).hessian x
    sparseHessian := fun x => hanswer fun steps => (hm steps).sparseHessian x }

/-- What does not depend on the state is kept by every answer. -/
theorem answersAlike_const (m : Model α σ) (p : Prop) :
    m.AnswersAlike .same (Kept fun _ => p) m := by
  have hanswer : ∀ {β : Type} (e : Evaluation σ β), Agrees .same (Kept fun _ => p) e e := by
    intro β e
    exact relates_kept.mpr (Triple.always p)
  exact {
    dimension := rfl
    name := rfl
    sides := rfl
    objective := fun x => hanswer (m.objective x)
    gradient := fun x => hanswer (m.gradient x)
    objectiveAndGradient := fun x => hanswer (m.objectiveAndGradient x)
    hessianVector := fun x v => hanswer (m.hessianVector x v)
    hessian := fun x => hanswer (m.hessian x)
    sparseHessian := fun x => hanswer (m.sparseHessian x) }

/-- The answers of a hooked model leave the list alone. -/
theorem answersAlike_hooked (m : Model α σ) (K : List (Vec α × Vec α) → Prop) :
    m.hooked.AnswersAlike .same (Kept fun t => K t.2) m.hooked :=
  .hooked fun steps => m.answersAlike_const (K steps)

/-- A step that the model is told of is the last one of the list. -/
theorem acceptStep_hooked {m : Model α σ} {I L : σ → List (Vec α × Vec α) → Prop} (s y : Vec α)
    (h : ∀ steps, Triple (fun t => I t steps) (m.acceptStep s y)
      (fun _ t => L t (steps ++ [(s, y)])) fun t => L t (steps ++ [(s, y)])) :
    Triple (fun t => I t.1 t.2) (m.hooked.acceptStep s y) (fun _ t => L t.1 t.2)
      fun t => L t.1 t.2 := by
  have hadd : Triple (fun t : σ × List (Vec α × Vec α) => I t.1 t.2)
      (modify fun (t, steps) => (t, steps ++ [(s, y)]))
      (fun _ t => ∃ steps, I t.1 steps ∧ t.2 = steps ++ [(s, y)]) fun t => L t.1 t.2 :=
    fun t _ ht => ⟨t.2, ht, rfl⟩
  refine Triple.bind hadd fun _ => ?_
  refine Triple.onFst_at (P := fun t steps' => ∃ steps, I t steps ∧ steps' = steps ++ [(s, y)])
    (Q := fun _ => L) (F := L) fun steps' => ?_
  rintro t journal ⟨steps, ht, rfl⟩
  exact h steps t journal ht

end Model

end Descent
