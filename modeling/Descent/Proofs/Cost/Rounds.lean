import Descent.Proofs.Cost
import Descent.Proofs.Method

/-!
# What a round evaluates

A trial step costs one evaluation of the objective, and one of the gradient if it is accepted; a
rejected one that is rescued costs a line search besides (`TrustRegion.round_costs`). A quasi-Newton
round costs one line search (`Lbfgs.round_costs`). `Method.roundCost` is the bound for each method
(`Method.Opens.round_costs`).
-/

set_option autoImplicit false

namespace Descent

open Run

variable {α σ ω μ : Type} [Scalar α] {m : Model α σ} {k : Nat}

/-! ## Trust regions -/

namespace TrustRegion

def Outcome.cost : Outcome α → Nat
  | .rejected .. => 1
  | _ => 2

theorem assess_costs (c : Config α) (iterate : Iterate α) (trial : Trial α) :
    Costs k (assess c m.counted iterate trial) (fun outcome => k + outcome.cost) (k + 2) := by
  refine .bind ((Evaluation.usable_costs (Model.objective_costs _) _ _).mono
    (Nat.le_refl k) (fun _ => Nat.le_refl _) (by omega)) ?_
  rintro (reason | value)
  · exact .pure (by simp [Outcome.cost])
  · dsimp only
    split
    · refine .bind (Evaluation.usable_costs (Model.gradient_costs _) _ _) ?_
      rintro (reason | gradient)
      · exact .pure (Nat.le_refl _)
      · exact .pure (Nat.le_refl _)
    · exact .pure (Nat.le_refl _)

/-- The stepper proposes without an evaluation, and a rescue takes no more of them than
`rescueCost`. -/
structure Stepper.Frugal (stepper : Stepper α (Counts × σ) μ) (m : Model α σ) (rescueCost : Nat) :
    Prop where
  propose : ∀ k most box iterate radius gradientNorm memory, k ≤ most →
    Costs k (stepper.propose m.counted box iterate radius gradientNorm memory) (fun _ => k) most
  rescue : ∀ k iterate trial value,
    Costs k (stepper.rescue m.counted iterate trial value) (fun _ => k + rescueCost)
      (k + rescueCost)

/-- What a round takes at most, if a rescue takes at most `rescueCost`. -/
def roundCost (rescueCost : Nat) : Nat := max 2 (1 + rescueCost)

variable {stepper : Stepper α (Counts × σ) μ} {rescueCost : Nat}

theorem attempt_costs (hstepper : stepper.Frugal m rescueCost) (c : Config α) (box : Box α)
    (iterate : Iterate α) (radius gradientNorm : α) (memory : μ) :
    Costs k (attempt stepper c m.counted box iterate radius gradientNorm memory)
      (fun _ => k + roundCost rescueCost) (k + roundCost rescueCost) := by
  have hassessed : 2 ≤ roundCost rescueCost := Nat.le_max_left ..
  have hrescued : 1 + rescueCost ≤ roundCost rescueCost := Nat.le_max_right ..
  refine .bind (.caught (hstepper.propose k k box iterate radius gradientNorm memory
    (Nat.le_refl k))) ?_
  rintro (⟨e, memory⟩ | ⟨trial, memory⟩)
  · cases e with
    | model e =>
        dsimp only
        split
        · exact .pure (by omega)
        · exact .throw (by omega)
    | _ => exact .throw (by dsimp only; omega)
  · refine .bind ((assess_costs c iterate trial).mono (Nat.le_refl k)
      (fun _ => Nat.le_refl _) (by omega)) ?_
    rintro (reason | ⟨trial, value, ratio⟩ | ⟨trial, value, gradient, ratio⟩ | ⟨found, ratio⟩)
    · exact .pure (by simp only [Outcome.cost]; omega)
    · refine .bind ((hstepper.rescue (k + 1) iterate trial value).mono (Nat.le_refl _)
        (fun _ => Nat.le_refl _) (by omega)) ?_
      rintro (_ | found)
      · exact .pure (by omega)
      · exact .pure (by omega)
    · exact .pure (by simp only [Outcome.cost]; omega)
    · exact .pure (by simp only [Outcome.cost]; omega)

theorem moveTo_within (box : Box α) (iterate : Iterate α) (point : Vec α) (value : α)
    (gradient : Vec α) (iteration : Nat) :
    Triple (Counts.Within k) (moveTo m.counted box iterate point value gradient iteration)
      (fun _ => Counts.Within k) fun _ => True := by
  refine Triple.bind (Triple.checked (fun _ _ _ ht => ht) fun _ _ => trivial) fun s => ?_
  refine Triple.bind (Triple.checked (fun _ _ _ ht => ht) fun _ _ => trivial) fun y => ?_
  refine Triple.bind (Model.acceptStep_within s y) fun _ => ?_
  refine Triple.bind (Triple.checked (fun _ _ _ ht => ht) fun _ _ => trivial) fun _ => ?_
  exact Triple.pure fun _ ht => ht

theorem round_costs {s : Solve α σ ω} (hstepper : stepper.Frugal s.model rescueCost) (c : Config α)
    (box : Box α) (number : Nat) (p : Progress α (Memory α μ)) :
    Costs k (round s stepper c box number p) (fun _ => k + roundCost rescueCost)
      (k + roundCost rescueCost) := by
  refine .bind (attempt_costs hstepper c box p.iterate _ _ _) ?_
  rintro ⟨reason | ⟨trial, value, ratio⟩ | ⟨trial, value, gradient, ratio⟩ | ⟨found, ratio⟩,
    memory⟩
  · refine .bind .emit fun _ => ?_
    dsimp only
    split
    · exact .throw_bind (Nat.le_refl _)
    · exact .pure (Nat.le_refl _)
  · dsimp only
    split
    · exact .throw_bind (Nat.le_refl _)
    · exact .pure (Nat.le_refl _)
  · exact .bind (.lift (moveTo_within _ _ _ _ _ _)) fun _ => .pure (Nat.le_refl _)
  · refine .bind .checked fun _ => ?_
    refine .bind .emit fun _ => ?_
    exact .bind (.lift (moveTo_within _ _ _ _ _ _)) fun _ => .pure (Nat.le_refl _)

end TrustRegion

/-- A projected Newton step is found without an evaluation and never rescued. -/
theorem ProjectedNewton.stepper_frugal (linear : Option (LinearSolver α))
    (cg : TruncatedCg.Config α) :
    TrustRegion.Stepper.Frugal (stepper linear cg) m 0 where
  propose _ _ box iterate radius gradientNorm memory hmost :=
    .kept (propose_agrees Model.hessianAlike_within linear cg box iterate radius gradientNorm
      memory) hmost
  rescue _ _ _ _ := .pure (Nat.le_refl _)

/-- The most trials of a rescue; none where nothing is rescued. -/
def NewtonCg.rescueTrials (params : Option (LineSearchParams α)) : Nat :=
  (params.map LineSearchParams.maxTrials).getD 0

/-- A Newton step is found without an evaluation, and a rescue is a line search. -/
theorem NewtonCg.stepper_frugal (linear : Option (LinearSolver α)) (cg : TruncatedCg.Config α)
    (params : Option (LineSearchParams α)) :
    TrustRegion.Stepper.Frugal (stepper linear cg params) m (2 * rescueTrials params) where
  propose _ _ _ iterate radius gradientNorm _ hmost :=
    .bind (.adapt (.kept (propose_agrees Model.hessianAlike_within linear cg iterate radius
      gradientNorm) hmost)) fun _ => .pure (Nat.le_refl _)
  rescue k iterate trial value := by
    show Costs k (rescue params m.counted iterate trial value) _ _
    cases params with
    | none => exact .pure (Nat.le_refl k)
    | some params =>
        refine .bind .checked fun slope => ?_
        dsimp only
        split
        · exact .pure (Nat.le_add_right ..)
        · refine .bind (.caught (LineSearch.run_costs _ _ _ _ _ _)) ?_
          rintro (e | found)
          · dsimp only
            split
            · exact .bind .emit fun _ => .pure (Nat.le_refl _)
            · exact .throw (Nat.le_refl _)
          · exact .pure (Nat.le_refl _)

/-! ## Quasi-Newton steps -/

theorem Lbfgs.round_costs (s : Solve α σ ω) (search : LineSearch α) (initialStepSize : α)
    (number : Nat) (p : Progress α (History α)) :
    Costs k (round s search initialStepSize number p) (fun _ => k + 2 * search.params.maxTrials)
      (k + 2 * search.params.maxTrials) := by
  refine .bind (.kept (.lift (direction_relates _ _ _)) (Nat.le_add_right ..)) ?_
  rintro ⟨d, h⟩
  refine .bind (.caught (LineSearch.run_costs search _ _ _ _ _)) ?_
  rintro (e | found)
  · dsimp only
    split
    · exact .bind .emit fun _ => .pure (Nat.le_refl _)
    · exact .throw (Nat.le_refl _)
  · refine .bind .checked fun step => ?_
    refine .bind .checked fun change => ?_
    refine .bind (.lift (Model.acceptStep_within step change)) fun _ => ?_
    refine .bind (.kept (.lift (.inside (tryPush_relates step change) h)) (Nat.le_refl _)) ?_
    rintro ⟨stored, h⟩
    dsimp only
    split
    · exact .bind .emit fun _ => .pure (Nat.le_refl _)
    · exact .pure (Nat.le_refl _)

/-! ## All methods -/

namespace Method

/-- The most evaluations of the objective and the gradient in one round. -/
def roundCost (method : Method α) (o : Options α) : Nat :=
  match method with
  | projectedNewton _ | newtonCg _ false => 2
  | newtonCg _ true => 1 + 2 * o.lineSearchMaxTrials
  | lbfgs _ => 2 * o.lineSearchMaxTrials

theorem roundCost_newtonCg (c : TrustRegion.Config α) (withRescue : Bool) {o : Options α}
    (htrials : 0 < o.lineSearchMaxTrials) :
    TrustRegion.roundCost (2 * NewtonCg.rescueTrials (NewtonCg.rescueParams withRescue o))
      = roundCost (.newtonCg c withRescue) o := by
  cases withRescue with
  | false => rfl
  | true =>
      show max 2 (1 + 2 * o.lineSearchMaxTrials) = 1 + 2 * o.lineSearchMaxTrials
      omega

variable {s : Solve α σ Unit} {x₀ : Vec α} {state : σ} {method : Method α} {c : Course α σ}
  {start : Counts × σ}

/-- The options of a solve that starts have passed their checks. -/
theorem Opens.options_validate (opens : Opens s x₀ state method c start) :
    s.options.validate = .ok () := by
  cases opens with
  | projectedNewton opens =>
      cases opens with
      | intro _ options => exact options
  | newtonCg _ opens =>
      cases opens with
      | intro _ options => exact options
  | lbfgs opens =>
      cases opens with
      | intro _ _ _ options => exact options

theorem Opens.round_costs (opens : Opens s x₀ state method c start) (number : Nat)
    (p : Progress α c.Memory) :
    Costs k (c.round number p) (fun _ => k + method.roundCost s.options)
      (k + method.roundCost s.options) := by
  have htrials := (Options.valid_of_validate opens.options_validate).lineSearchMaxTrials
  cases opens with
  | projectedNewton opens =>
      cases opens
      exact TrustRegion.round_costs (ProjectedNewton.stepper_frugal _ _) _ _ _ _
  | @newtonCg config withRescue _ _ _ opens =>
      rw [← roundCost_newtonCg config withRescue htrials]
      cases opens
      exact TrustRegion.round_costs (NewtonCg.stepper_frugal _ _ _) _ _ _ _
  | @lbfgs config _ _ opens =>
      cases opens
      have hround := Lbfgs.round_costs (k := k) s (config.search s.options) config.initialStepSize
        number p
      rw [Lbfgs.Config.search_params] at hround
      exact hround

end Method

end Descent
