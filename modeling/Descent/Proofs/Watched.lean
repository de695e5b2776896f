import Descent.Proofs.Evaluated
import Descent.Proofs.Simulation.Model

/-!
# Watched models

A model that keeps, beside its own state, the list of the points at which its objective was asked
for. It imitates the model inside (`watched_imitates`), so that what a run of a solver on the
watched model leaves in the list is where the solver evaluates the model inside.
-/

set_option autoImplicit false

namespace Descent

open Run

variable {α σ : Type} [Scalar α]

namespace Model

def visit (x : Vec α) : Evaluation (σ × List (Vec α)) Unit :=
  modify fun (s, visited) => (s, visited ++ [x])

/-- The model with a list of the points at which the objective was evaluated, the latest last. -/
def watched (m : Model α σ) : Model α (σ × List (Vec α)) where
  dimension := m.dimension
  name := m.name
  objective x := do
    visit x
    Run.tryOnFst (m.objective x)
  gradient x := Run.tryOnFst (m.gradient x)
  objectiveAndGradient x := do
    visit x
    Run.tryOnFst (m.objectiveAndGradient x)
  hessianVector x v := Run.tryOnFst (m.hessianVector x v)
  hessian x := Run.tryOnFst (m.hessian x)
  sparseHessian x := Run.tryOnFst (m.sparseHessian x)
  sides := m.sides
  initialPoint := m.initialPoint
  acceptStep s y := Run.onFst (m.acceptStep s y)

/-- But for the list, a watched model is the model inside. -/
theorem watched_imitates (m : Model α σ) : m.watched.Imitates Prod.fst m where
  dimension := rfl
  name := rfl
  sides := rfl
  objective _ _ _ := rfl
  gradient _ _ _ := rfl
  objectiveAndGradient _ _ _ := rfl
  hessianVector _ _ _ _ := rfl
  hessian _ _ _ := rfl
  sparseHessian _ _ _ := rfl
  acceptStep _ _ _ _ := rfl

/-- Questions about the Hessian leave the list alone. -/
theorem hessianImitates_watched (m : Model α σ) (visited : List (Vec α)) :
    m.HessianImitates (fun s => (s, visited)) m.watched where
  hessianVector _ _ _ _ := rfl
  hessian _ _ _ := rfl
  sparseHessian _ _ _ := rfl

end Model

/-- A statement about the list of visited points, in the state of a counted model. -/
def Visited (K : List (Vec α) → Prop) (t : Counts × (σ × List (Vec α))) : Prop := K t.2.2

section Visited

variable {K K' : List (Vec α) → Prop} {F : Counts × (σ × List (Vec α)) → Prop}

omit [Scalar α] in
theorem count_visited (change : Counts → Counts) :
    Attempt (Visited K) (Model.count change : Evaluation (Counts × (σ × List (Vec α))) Unit)
      (fun _ => Visited K) F :=
  fun _ _ hs => hs

omit [Scalar α] in
/-- What runs on the model inside does not touch the list. -/
theorem inside_visited {β : Type} (e : Evaluation σ β) :
    Attains (Visited K) (Run.tryOnSnd (Run.tryOnFst e) :
      Evaluation (Counts × (σ × List (Vec α))) β) (Returns e) :=
  Attempt.tryOnSnd Attempt.tryOnFst_beside

omit [Scalar α] in
/-- A visit and what then runs on the model inside. -/
theorem visit_visited {β : Type} (x : Vec α) (e : Evaluation σ β)
    (h : ∀ visited, K visited → K' (visited ++ [x])) :
    Attempt (Visited K) (Run.tryOnSnd (Model.visit x >>= fun _ => Run.tryOnFst e) :
      Evaluation (Counts × (σ × List (Vec α))) β) (fun b t => Visited K' t ∧ Returns e b)
      (Visited K') := by
  have visit : Attempt (fun t => K t.2) (Model.visit x : Evaluation (σ × List (Vec α)) Unit)
      (fun _ t => K' t.2) fun t => K' t.2 := fun _ _ hs => h _ hs
  exact Attempt.tryOnSnd (Attempt.bind visit fun _ => Attempt.tryOnFst_beside)

variable {m : Model α σ}

theorem acceptStep_visited (s y : Vec α) :
    Ensures (Visited K) (m.watched.counted.acceptStep s y) fun _ => True :=
  Triple.post (Triple.onSnd Triple.onFst_beside) fun _ _ hs => ⟨hs, trivial⟩

/-- A gradient of the watched model is one of the model inside. -/
theorem gradient_visited (x : Vec α) :
    Attains (Visited K) (m.watched.counted.gradient x) (m.HasGradient x) :=
  Attempt.bind (count_visited _) fun _ => (inside_visited _).mono fun _ hg => .inl hg

/-- The objective is evaluated at one more point. -/
theorem objective_visited (x : Vec α) (h : ∀ visited, K visited → K' (visited ++ [x])) :
    Attempt (Visited K) (m.watched.counted.objective x) (fun _ => Visited K') (Visited K') := by
  refine Attempt.bind (count_visited _) fun _ => ?_
  exact Attempt.mono (visit_visited x _ h) (fun _ h => h) (fun _ _ h => h.1) fun _ h => h

theorem objectiveAndGradient_visited (x : Vec α) (h : ∀ visited, K visited → K' (visited ++ [x])) :
    Attempt (Visited K) (m.watched.counted.objectiveAndGradient x)
      (fun r t => Visited K' t ∧ m.HasGradient x r.2) (Visited K') := by
  refine Attempt.bind (count_visited _) fun _ => ?_
  refine Attempt.bind (count_visited _) fun _ => ?_
  exact Attempt.mono (visit_visited x _ h) (fun _ h => h) (fun r _ h => ⟨h.1, .inr ⟨r.1, h.2⟩⟩)
    fun _ h => h

end Visited

end Descent
