import Descent.Model.QuasiNewton
import Descent.Proofs.Hooked
import Descent.Proofs.Simulation.Lbfgs

/-!
# What a quasi-Newton model remembers

On models that are alike the quasi-Newton layers are alike (`Model.Alike.quasiNewton`). The history
of such a model holds, in order, the last of those steps it was told of whose curvature is safely
positive, as many as its capacity allows (`History.Remembers`). Every step that it is told of keeps
this (`tryPush_remembers`), and nothing else touches the history (`quasiNewton_hooked_alike`).
-/

set_option autoImplicit false

namespace Descent

open Run

variable {α σ τ : Type} [Scalar α]

/-! ## Layers side by side -/

namespace Model

variable {J : Journals} {V : τ → σ → Prop} {m' : Model α τ} {m : Model α σ}

theorem hessianByColumns_agrees (n : Nat) {product' : Vec α → Vec α → Evaluation τ (Vec α)}
    {product : Vec α → Vec α → Evaluation σ (Vec α)}
    (h : ∀ x v, Agrees J V (product' x v) (product x v)) (x : Vec α) :
    Agrees J V (hessianByColumns n product' x) (hessianByColumns n product x) := by
  refine .bind (.mapM (fun j => ?_) _) fun _ => .pure
  refine .bind (h x _) fun column => ?_
  exact .ite (fun _ => .bind .fault fun _ => .pure) fun _ => .pure

/-- Answers that come from the same history agree. -/
theorem AnswersAlike.quasiNewton {U : History α → History α → Prop} (hU : ∀ h' h, U h' h → h' = h)
    (hm : m'.AnswersAlike J V m) :
    m'.quasiNewton.AnswersAlike J (Both U V) m.quasiNewton := by
  have hproduct : ∀ x v, Agrees J (Both U V) (m'.quasiNewton.hessianVector x v)
      (m.quasiNewton.hessianVector x v) := by
    intro _ v
    refine .get_bind ?_
    rintro ⟨h', t⟩ ⟨h, s⟩ ⟨hh, -⟩
    obtain rfl : h' = h := hU h' h hh
    exact .checked
  have hhessian : ∀ x, Agrees J (Both U V)
      (hessianByColumns m'.dimension m'.quasiNewton.hessianVector x)
      (hessianByColumns m.dimension m.quasiNewton.hessianVector x) := by
    rw [hm.dimension]
    exact hessianByColumns_agrees _ hproduct
  exact {
    dimension := hm.dimension
    name := hm.name
    sides := hm.sides
    objective := fun x => .tryOnSnd (hm.objective x)
    gradient := fun x => .tryOnSnd (hm.gradient x)
    objectiveAndGradient := fun x => .tryOnSnd (hm.objectiveAndGradient x)
    hessianVector := hproduct
    hessian := hhessian
    sparseHessian := fun _ => .pure }

/-- A quasi-Newton layer does the same on models that are alike. -/
theorem Alike.quasiNewton (hm : m'.Alike J V m) :
    m'.quasiNewton.Alike J (Both Eq V) m.quasiNewton where
  toAnswersAlike := hm.toAnswersAlike.quasiNewton fun _ _ h => h
  acceptStep s y :=
    .bind (.onFst (Lbfgs.tryPush_relates s y)) fun _ => .onSnd (hm.acceptStep s y)

end Model

/-! ## The last pairs -/

def recent {β : Type} (n : Nat) (l : List β) : List β := l.drop (l.length - n)

theorem recent_nil {β : Type} (n : Nat) : recent n ([] : List β) = [] := List.drop_nil

/-- With one more element the first of `n` recent ones is no longer recent. -/
theorem recent_append_singleton {β : Type} {n : Nat} (hn : 0 < n) (l : List β) (a : β) :
    recent n (l ++ [a])
      = (if (recent n l).length = n then (recent n l).drop 1 else recent n l) ++ [a] := by
  have hlength : (recent n l).length = l.length - (l.length - n) := List.length_drop
  have hsplit : recent n (l ++ [a]) = l.drop (l.length + 1 - n) ++ [a] := by
    have hle : l.length + 1 - n ≤ l.length := by omega
    unfold recent
    rw [List.length_append, List.length_singleton, List.drop_append_of_le_length hle]
  rw [hsplit]
  by_cases hfull : n ≤ l.length
  · have hall : (recent n l).length = n := by omega
    have hnext : l.length + 1 - n = l.length - n + 1 := by omega
    rw [if_pos hall, hnext]
    unfold recent
    rw [List.drop_drop]
  · have hfew : ¬ (recent n l).length = n := by omega
    have hzero : l.length + 1 - n = l.length - n := by omega
    rw [if_neg hfew, hzero]
    rfl

namespace History

/-- The pair that a history makes of a step and the change of the gradient along it, if the
curvature is safely positive. -/
def admitted (step : Vec α × Vec α) : Option (Correction α) :=
  match Vec.dot step.1 step.2 with
  | .ok c => if admits step.1 step.2 c then some ⟨step.1, step.2, 1 / c⟩ else none
  | .error _ => none

/-- The history has room for `n` pairs and holds the last ones of the steps. -/
structure Remembers (h : History α) (n : Nat) (steps : List (Vec α × Vec α)) : Prop where
  capacity : h.capacity = n
  pairs : h.pairs = recent n (steps.filterMap admitted)

variable {n : Nat} {steps : List (Vec α × Vec α)} {h : History α}

/-- A history of a positive capacity that starts empty remembers no step. -/
theorem remembers_of_empty (hempty : empty n = .ok h) : 0 < n ∧ h.Remembers n [] := by
  unfold empty at hempty
  split at hempty
  · cases hempty
  · next hn =>
      cases hempty
      exact ⟨Nat.pos_of_ne_zero hn, rfl, (recent_nil n).symm⟩

/-- A step that is not admitted changes nothing. -/
theorem Remembers.skip {s y : Vec α} (hh : h.Remembers n steps) (hskip : admitted (s, y) = none) :
    h.Remembers n (steps ++ [(s, y)]) := by
  refine ⟨hh.capacity, ?_⟩
  rw [List.filterMap_append, List.filterMap_cons_none hskip, List.filterMap_nil, List.append_nil]
  exact hh.pairs

/-- A step that is admitted is stored. -/
theorem Remembers.store {s y : Vec α} {c : α} (hn : 0 < n) (hh : h.Remembers n steps)
    (hadmitted : admitted (s, y) = some ⟨s, y, 1 / c⟩) :
    (h.store s y c).Remembers n (steps ++ [(s, y)]) := by
  refine ⟨hh.capacity, ?_⟩
  rw [List.filterMap_append, List.filterMap_cons_some hadmitted, List.filterMap_nil,
    recent_append_singleton hn, ← hh.pairs]
  unfold History.store
  rw [hh.capacity]

/-- The history is offered one more step. -/
theorem tryPush_remembers (hn : 0 < n) (s y : Vec α) :
    Triple (fun h : History α => h.Remembers n steps) (tryPush s y)
      (fun _ h => h.Remembers n (steps ++ [(s, y)]))
      fun h => h.Remembers n (steps ++ [(s, y)]) := by
  unfold tryPush
  cases hdot : Vec.dot s y with
  | error e =>
      -- the lengths differ, and the history is left as it was
      have hskip : admitted (s, y) = none := by
        unfold admitted
        rw [hdot]
      exact fun h _ hh => hh.skip hskip
  | ok c =>
      show Triple _ (if admits s y c then _ else _) _ _
      by_cases hadmits : admits s y c
      · rw [if_pos hadmits]
        have hadmitted : admitted (s, y) = some ⟨s, y, 1 / c⟩ := by
          unfold admitted
          rw [hdot]
          exact if_pos hadmits
        exact fun h _ hh => hh.store hn hadmitted
      · rw [if_neg hadmits]
        have hskip : admitted (s, y) = none := by
          unfold admitted
          rw [hdot]
          exact if_neg hadmits
        exact fun h _ hh => hh.skip hskip

end History

/-- Nothing but the steps that a quasi-Newton model is told of changes its history. -/
theorem Model.quasiNewton_hooked_alike {n : Nat} (hn : 0 < n) (m : Model α σ) :
    m.quasiNewton.hooked.Alike .same
      (Kept fun t : (History α × σ) × List (Vec α × Vec α) => t.1.1.Remembers n t.2)
      m.quasiNewton.hooked where
  toAnswersAlike := by
    refine .hooked (I := fun (t : History α × σ) steps => t.1.Remembers n steps) fun steps => ?_
    have hanswers := m.alike_self.toAnswersAlike.quasiNewton
      (U := Kept fun h => h.Remembers n steps) fun _ _ h => h.1
    rw [kept_both] at hanswers
    exact hanswers
  acceptStep s y := by
    refine relates_kept.mpr (acceptStep_hooked
      (I := fun (t : History α × σ) steps => t.1.Remembers n steps)
      (L := fun t steps => t.1.Remembers n steps) s y fun steps => ?_)
    exact Triple.bind (Triple.onFst (History.tryPush_remembers hn s y)) fun _ =>
      Triple.onSnd_beside (K := fun h : History α => h.Remembers n (steps ++ [(s, y)]))

end Descent
