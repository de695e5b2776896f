import Descent.Proofs.Simulation.Solve

/-!
# Observers that take notes

An observer that keeps, beside its own state, the list of the iterations it hears of. It answers as
the observer inside (`noting_imitates`), so that the list which a solve leaves is what any observer
of that solve hears. The rules say what the parts of a solve do to the list: only a notice makes it
longer.
-/

set_option autoImplicit false

namespace Descent

open Run

variable {α σ ω : Type}

namespace Observer

/-- The observer with a list of the iterations it has heard of, the latest last. -/
def noting (o : Observer α ω) : Observer α (ω × List (Iteration α)) where
  onStart solver model := Report.onFst (o.onStart solver model)
  onIteration i := do
    modify fun (w, seen) => (w, seen ++ [i])
    Report.onFst (o.onIteration i)
  onFinish r := Report.onFst (o.onFinish r)

/-- But for the list, a noting observer is the observer inside. -/
theorem noting_imitates (o : Observer α ω) : o.noting.Imitates Prod.fst o where
  onStart _ _ _ _ := rfl
  onIteration _ _ _ := rfl
  onFinish _ _ _ := rfl

end Observer

namespace Solve

variable [Scalar α] {s : Solve α σ (ω × List (Iteration α))} {o : Observer α ω}
  {K : Counts × σ → List (Iteration α) → Prop}

/-- A notice adds its iteration to the list. -/
theorem notify_noted (hs : s.observer = o.noting) (i : Iteration α) :
    Triple (fun u => K u.1 (u.2.2 ++ [i])) (s.notify i) (fun _ u => K u.1 u.2.2)
      fun _ => False := by
  unfold notify
  rw [hs]
  refine Triple.bind Triple.emit fun _ => ?_
  exact fun _ _ hu => hu

/-- The record shows an iterate with the norm of the projected gradient there, after `k`
iterations. -/
structure Shows (record : Record α) (k : Nat) (iterate : Iterate α) (gradientNorm : α)
    (status : Status) (error : Option SolverError) : Prop where
  iterations : record.iterations = k
  iterate : record.iterate = iterate
  gradientNorm : record.gradientNorm = gradientNorm
  status : record.status = status
  error : record.error = error

/-- The record shows what it is drawn up from and the counts of the model, and the list is as
before. -/
theorem finish_noted (hs : s.observer = o.noting) (status : Status) (iterate : Iterate α)
    (gradientNorm : α) (k : Nat) (error : Option SolverError) :
    Triple (fun u => K u.1 u.2.2) (s.finish status iterate gradientNorm k error)
      (fun record u => K u.1 u.2.2 ∧ Shows record k iterate gradientNorm status error ∧
        record.counts = u.1.1) fun _ => False := by
  unfold finish
  rw [hs]
  refine Triple.bind Triple.get_eq ?_
  rintro ⟨⟨counts, _⟩, _⟩
  dsimp only
  refine Triple.bind Triple.emit fun _ => ?_
  rintro u _ ⟨rfl, hu⟩
  exact ⟨hu, ⟨rfl, rfl, rfl, rfl, rfl⟩, rfl⟩

end Solve

end Descent
