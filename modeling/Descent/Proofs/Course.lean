import Descent.Proofs.Solve
import Descent.Proofs.Valid

/-!
# The parts of a solve

A `Course` is where the rounds of a solve start and what they are. Every method checks its settings,
tells the start, asks the model for its values at a point and goes through the rounds of a course;
`Solve.Parts` is what has to be known of these parts. The rules go from there to the stretches that
all methods share (`start_settles`, `evaluated_settles`), so that each method is gone through once,
and a statement about all its solves is one about these parts.
-/

set_option autoImplicit false

namespace Descent

open Run

variable {α σ ω : Type}

/-- The rounds of a solve and the progress that they start from. -/
structure Course (α σ : Type) where
  /-- What is remembered from one round to the next, the iterate apart. -/
  Memory : Type
  first : Progress α Memory
  round : Nat → Progress α Memory → Working σ (Round α Memory)

variable [Scalar α]

/-- The same solve without anyone who watches. Its rounds, budgets and tests are the same. -/
def Solve.unobserved (s : Solve α σ ω) : Solve α σ Unit :=
  ⟨s.solver, s.model, s.options, .silent, s.clock⟩

/-- What the parts of a solve do. `K₀` holds of the observer before it is told of the start, `K₁`
after; a record is drawn up with `R`, a refusal before the start ends with `E` and a fault with
`F`. -/
structure Solve.Parts (s : Solve α σ ω) (StartsAt : Vec α → Prop)
    (Opens : Course α σ → Counts × σ → Prop) (state : σ) (K₀ K₁ : ω → Prop)
    (R : Record α → (Counts × σ) × ω → Prop) (E : SolverError → (Counts × σ) × ω → Prop)
    (F : (Counts × σ) × ω → Prop) : Prop where
  /-- The checks name the setting that they refuse. -/
  refused : ∀ e u, (∀ inner, e ≠ .model inner) → u.1 = ({}, state) → K₀ u.2 → E e u
  started : Triple K₀ (ExceptT.lift (s.observer.onStart s.solver s.model.name) : Run ω Unit)
    (fun _ => K₁) fun _ => False
  fault : ∀ u, K₁ u.2 → F u
  /-- The model has no values at the starting point. -/
  atStart : ∀ x e t, StartsAt x → Breaks (s.evaluateStart x) ({}, state) e t →
    Triple (fun u => u.1 = t ∧ K₁ u.2) (s.finishAtStart x e) R F
  rounds : ∀ c start, Opens c start →
    Triple (fun u => u.1 = start ∧ K₁ u.2) (s.iterate c.round c.first) R F

namespace Solve

variable {s : Solve α σ ω} {state : σ} {K₀ K₁ : ω → Prop} {R : Record α → (Counts × σ) × ω → Prop}
  {E : SolverError → (Counts × σ) × ω → Prop} {F : (Counts × σ) × ω → Prop}

/-- Fewer courses are possible. -/
theorem Parts.mono {StartsAt : Vec α → Prop} {Opens Opens' : Course α σ → Counts × σ → Prop}
    (h : s.Parts StartsAt Opens state K₀ K₁ R E F)
    (hopens : ∀ c start, Opens' c start → Opens c start) :
    s.Parts StartsAt Opens' state K₀ K₁ R E F :=
  { h with rounds := fun c start opens => h.rounds c start (hopens c start opens) }

/-- The checks have passed when a solve starts. If one fails, it names a setting or a length. -/
theorem start_settles {t : Counts × σ} (x₀ : Vec α)
    (hstarted : Triple K₀ (ExceptT.lift (s.observer.onStart s.solver s.model.name) : Run ω Unit)
      (fun _ => K₁) fun _ => False) :
    Settles (fun u => u.1 = t ∧ K₀ u.2) (s.start x₀)
      (fun _ u => (u.1 = t ∧ K₁ u.2) ∧ s.options.validate = .ok () ∧
        x₀.length = s.model.dimension)
      (fun e u => (¬ (s.options.validate = .ok () ∧ x₀.length = s.model.dimension) ∧
        ∀ inner, e ≠ .model inner) ∧ u.1 = t ∧ K₀ u.2) F := by
  have hnotice : Triple (fun u : (Counts × σ) × ω => u.1 = t ∧ K₀ u.2)
      (Run.onSnd (ExceptT.lift (s.observer.onStart s.solver s.model.name)))
      (fun _ u => u.1 = t ∧ K₁ u.2) F :=
    Triple.fault (Triple.onSnd_at fun t' => Triple.frame (p := t' = t) hstarted)
      fun _ hu => hu.2.elim
  unfold start
  refine Settles.bind (Settles.ofExcept
    (Q := fun _ u => (u.1 = t ∧ K₀ u.2) ∧ s.options.validate = .ok ()) (fun _ h _ hu => ⟨hu, h⟩)
    fun e he _ hu => ⟨⟨fun h => ?_, s.options.namesSetting_validate.not_model he⟩, hu⟩) fun _ =>
    Settles.assume fun hoptions => ?_
  · rw [h.1] at he
    cases he
  dsimp only
  split
  · next hlength =>
      exact Settles.throw_bind fun _ hu => ⟨⟨fun h => hlength h.2, nofun⟩, hu⟩
  · next hlength =>
      refine Settles.bind (Settles.lift hnotice) fun _ => ?_
      exact Settles.mono Settles.emit (fun _ hu => hu)
        (fun _ _ hu => ⟨hu, hoptions, Decidable.of_not_not hlength⟩) (fun _ _ h => h) fun _ h => h

/-- From a starting point at which the model has been asked for its values: without them the solve
ends at once, and else it goes on from the values. -/
theorem evaluated_settles {x : Vec α} {rounds : α → Vec α → ExceptT SolverError
      (Run ((Counts × σ) × ω)) (Record α)} (hfault : ∀ u, K₁ u.2 → F u)
    (hatStart : ∀ e t, Breaks (s.evaluateStart x) ({}, state) e t →
      Triple (fun u => u.1 = t ∧ K₁ u.2) (s.finishAtStart x e) R F)
    (hrounds : ∀ f g start, Leads (s.evaluateStart x) ({}, state) (f, g) start →
      Settles (fun u => u.1 = start ∧ K₁ u.2) (rounds f g) R E F) :
    Settles (fun u => u.1 = ({}, state) ∧ K₁ u.2)
      (do
        match ← (Run.onFst (Run.outcome (s.evaluateStart x)) : Solving σ ω _) with
        | .error e => s.finishAtStart x e
        | .ok (f, g) => rounds f g : ExceptT SolverError (Run ((Counts × σ) × ω)) (Record α))
      R E F := by
  refine Settles.bind (Settles.lift (Triple.fault (Triple.onFst_outcome
    (K := fun t w => t = (({} : Counts), state) ∧ K₁ w)) fun u ⟨_, _, hu⟩ => hfault u hu)) ?_
  rintro (e | ⟨f, g⟩)
  · refine Settles.lift ?_
    rintro u journal ⟨_, ⟨rfl, hu⟩, breaks⟩
    exact hatStart e u.1 breaks u journal ⟨rfl, hu⟩
  · rintro u journal ⟨_, ⟨rfl, hu⟩, leads⟩
    exact hrounds f g u.1 leads u journal ⟨rfl, hu⟩

end Solve

end Descent
