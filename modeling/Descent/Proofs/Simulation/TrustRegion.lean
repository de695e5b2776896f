import Descent.Proofs.Simulation.Solve
import Descent.TrustRegion

/-!
# Trust regions side by side

Steppers that answer alike make rounds that do the same (`round_agrees`). Whole solves go side by
side up to the loop (`minimize_compares`).
-/

set_option autoImplicit false

namespace Descent.TrustRegion

open Run

variable {α σ τ ω ω' μ : Type} [Scalar α] {J : Journals} {V : τ → σ → Prop} {W : ω' → ω → Prop}
  {m' : Model α τ} {m : Model α σ} {o' : Observer α ω'}

/-- Asked on models that answer alike, the steppers propose and rescue alike. -/
structure Stepper.Alike (J : Journals) (V : τ → σ → Prop) (stepper' : Stepper α τ μ)
    (stepper : Stepper α σ μ) : Prop where
  fresh : stepper'.fresh = stepper.fresh
  propose : ∀ {m' : Model α τ} {m : Model α σ}, m'.AnswersAlike J V m →
    ∀ b iterate radius gradientNorm memory,
      Agrees J V (stepper'.propose m' b iterate radius gradientNorm memory)
        (stepper.propose m b iterate radius gradientNorm memory)
  rescue : ∀ {m' : Model α τ} {m : Model α σ}, m'.AnswersAlike J V m → ∀ iterate trial value,
    Agrees J V (stepper'.rescue m' iterate trial value) (stepper.rescue m iterate trial value)

/-! ## Rounds -/

theorem assess_agrees (hm : m'.AnswersAlike J V m) (c : Config α) (iterate : Iterate α)
    (trial : Trial α) : Agrees J V (assess c m' iterate trial) (assess c m iterate trial) := by
  refine .bind (Evaluation.usable_agrees (hm.objective _) _ _) ?_
  rintro (reason | value)
  · exact .pure
  · refine .ite (fun _ => ?_) fun _ => .pure
    refine .bind (Evaluation.usable_agrees (hm.gradient _) _ _) ?_
    rintro (reason | gradient)
    · exact .pure
    · exact .pure

theorem attempt_agrees (hm : m'.AnswersAlike J V m) {stepper' : Stepper α τ μ}
    {stepper : Stepper α σ μ} (hstepper : stepper'.Alike J V stepper) (c : Config α)
    (b : Box α) (iterate : Iterate α) (radius gradientNorm : α) (memory : μ) :
    Agrees J V (attempt stepper' c m' b iterate radius gradientNorm memory)
      (attempt stepper c m b iterate radius gradientNorm memory) := by
  refine .bind (.caught (hstepper.propose hm b iterate radius gradientNorm memory)) ?_
  rintro (⟨error, memory⟩ | ⟨trial, memory⟩)
  · cases error with
    | model e => exact .ite (fun _ => .pure) fun _ => .throw
    | _ => exact .throw
  · refine .bind (assess_agrees hm c iterate trial) ?_
    rintro (reason | ⟨trial, value, ratio⟩ | ⟨trial, value, gradient, ratio⟩ | ⟨found, ratio⟩)
    · exact .pure
    · refine .bind (hstepper.rescue hm iterate trial value) ?_
      rintro (_ | found)
      · exact .pure
      · exact .pure
    · exact .pure
    · exact .pure

theorem moveTo_relates (hm : m'.Alike J V m) (b : Box α) (iterate : Iterate α) (point : Vec α)
    (value : α) (gradient : Vec α) (iteration : Nat) :
    Relates J V (moveTo m' b iterate point value gradient iteration)
      (moveTo m b iterate point value gradient iteration) := by
  refine .bind .checked fun _ => ?_
  refine .bind .checked fun _ => ?_
  refine .bind (hm.acceptStep _ _) fun _ => ?_
  exact .bind .checked fun _ => .pure

variable {s : Solve α σ ω} {stepper' : Stepper α (Counts × τ) μ}
  {stepper : Stepper α (Counts × σ) μ}

theorem round_agrees (hm : m'.Alike J V s.model)
    (hstepper : stepper'.Alike J (Both Eq V) stepper) (c : Config α) (b : Box α)
    (number : Nat) (p : Progress α (Memory α μ)) :
    Agrees J (Both Eq V) (round (s.on m' o') stepper' c b number p)
      (round s stepper c b number p) := by
  have hmove := moveTo_relates hm.counted b p.iterate
  refine .bind (attempt_agrees hm.counted.toAnswersAlike hstepper c b p.iterate _ _ _) ?_
  rintro ⟨reason | ⟨trial, value, ratio⟩ | ⟨trial, value, gradient, ratio⟩ | ⟨found, ratio⟩, memory⟩
  · refine .bind .emit fun _ => ?_
    exact .ite (fun _ => .throw_bind) fun _ => .pure
  · exact .ite (fun _ => .throw_bind) fun _ => .pure
  · exact .bind (.lift (hmove _ _ _ _)) fun _ => .pure
  · refine .bind .checked fun _ => ?_
    refine .bind .emit fun _ => ?_
    exact .bind (.lift (hmove _ _ _ _)) fun _ => .pure

/-! ## Whole solves -/

section Whole

variable {s' : Solve α τ ω'}
  {Q : End ((Counts × τ) × ω') (Except SolverError (Record α)) →
    End ((Counts × σ) × ω) (Except SolverError (Record α)) → Prop}

/-- **Two solves side by side.** They are alike up to the loop, or end before it alike. -/
theorem minimize_compares (h : s'.Alike J V W s) (hfresh : stepper'.fresh = stepper.fresh)
    (c : Config α) (x₀ : Vec α)
    (hend : ∀ (r : Except Fault (Except SolverError (Record α))) t u j' j,
      (∀ record, r ≠ .ok (.ok record)) → Both (Both Eq V) W t u → J.Match j' j →
        Q ((r, t), j') ((r, u), j))
    (hfinish : ∀ x e, Compares J (Both (Both Eq V) W) (s'.finishAtStart x e) (s.finishAtStart x e)
      fun out' out => Q (End.map .ok out') (End.map .ok out))
    (hiterate : ∀ b p, Compares J (Both (Both Eq V) W) (s'.iterate (round s' stepper' c b) p)
      (s.iterate (round s stepper c b) p) fun out' out => Q (End.map .ok out') (End.map .ok out)) :
    Compares J (Both (Both Eq V) W) (minimize s' stepper' c x₀).run (minimize s stepper c x₀).run
      Q := by
  have hradius : s'.options.trustRegionInitialRadius = s.options.trustRegionInitialRadius := by
    rw [h.options]
  unfold minimize
  rw [h.model.box, hfresh, h.solver, hradius]
  refine .after .ofExcept (fun _ => ?_) hend
  refine .after (Solve.start_agrees h x₀) (fun _ => ?_) hend
  refine .after .ofExcept (fun box => ?_) hend
  refine .after .checked (fun x => ?_) hend
  refine .after (.lift (.onFst (Solve.evaluateStart_agrees h.model.toAnswersAlike x))) ?_ hend
  rintro (e | ⟨f, g⟩)
  · exact .map (hfinish x e)
  · refine .after .checked ?_ hend
    rintro ⟨norm, active⟩
    refine .after .emit (fun _ => ?_) hend
    exact .map (hiterate box _)

end Whole

end Descent.TrustRegion
