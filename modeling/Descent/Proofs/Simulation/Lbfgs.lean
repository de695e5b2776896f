import Descent.Lbfgs
import Descent.Proofs.Simulation.LineSearch
import Descent.Proofs.Simulation.Solve

/-!
# The limited-memory BFGS method side by side

On models that are alike the rounds of the method do the same (`round_agrees`). Whole solves go side
by side up to the loop (`minimize_compares`).
-/

set_option autoImplicit false

namespace Descent.Lbfgs

open Run

variable {α σ τ ω ω' : Type} [Scalar α] {J : Journals} {V : τ → σ → Prop} {W : ω' → ω → Prop}
  {m' : Model α τ} {m : Model α σ}

theorem direction_relates (solver : String) (h : History α) (g : Vec α) :
    Relates J V (direction solver h g) (direction solver h g) := by
  refine .bind .checked fun v => ?_
  refine .bind .checked fun slope => .ite (fun _ => .pure) fun _ => ?_
  exact .bind .emit fun _ => .pure

/-- The same history learns the same from a pair in both runs. -/
theorem tryPush_relates (s y : Vec α) :
    Relates J Eq (History.tryPush s y) (History.tryPush s y) := by
  refine .bind .checked fun c => .ite (fun _ => ?_) fun _ => ?_
  · have hstore : Relates J Eq (modify fun h : History α => h.store s y c : Run (History α) Unit)
        (modify fun h => h.store s y c) := by
      rintro h _ j' j rfl hj
      exact ⟨rfl, rfl, hj⟩
    exact .bind hstore fun _ => .pure
  · exact .bind .emit fun _ => .pure

theorem round_agrees {s : Solve α σ ω} {o' : Observer α ω'} (hm : m'.Alike J V s.model)
    (search : LineSearch α) (initialStepSize : α) (number : Nat) (p : Progress α (History α)) :
    Agrees J (Both Eq V) (round (s.on m' o') search initialStepSize number p)
      (round s search initialStepSize number p) := by
  refine .bind (.lift (direction_relates _ _ _)) ?_
  rintro ⟨d, h⟩
  refine .bind (.caught (LineSearch.run_agrees search hm.counted.toAnswersAlike _ _ _ _ _)) ?_
  rintro (e | found)
  · exact .ite (fun _ => .bind .emit fun _ => .pure) fun _ => .throw
  · refine .bind .checked fun step => ?_
    refine .bind .checked fun change => ?_
    refine .bind (.lift (hm.counted.acceptStep step change)) fun _ => ?_
    refine .bind (.lift (.inside (tryPush_relates step change) h)) ?_
    rintro ⟨stored, h'⟩
    exact .ite (fun _ => .bind .emit fun _ => .pure) fun _ => .pure

/-! ## Whole solves -/

section Whole

variable {options' options : Options α} {o' : Observer α ω'} {o : Observer α ω}
  {clock' clock : Nat → Duration}
  {Q : End ((Counts × τ) × ω') (Except SolverError (Record α)) →
    End ((Counts × σ) × ω) (Except SolverError (Record α)) → Prop}

/-- **Two solves side by side.** They are alike up to the loop, or end before it alike. -/
theorem minimize_compares (c : Config α) (x₀ : Vec α) :
    let s' : Solve α τ ω' := ⟨name, m', options', o', clock'⟩
    let s : Solve α σ ω := ⟨name, m, options, o, clock⟩
    s'.Alike J V W s →
    (∀ (r : Except Fault (Except SolverError (Record α))) t u j' j,
      (∀ record, r ≠ .ok (.ok record)) → Both (Both Eq V) W t u → J.Match j' j →
        Q ((r, t), j') ((r, u), j)) →
    (∀ x e, Compares J (Both (Both Eq V) W) (s'.finishAtStart x e) (s.finishAtStart x e)
      fun out' out => Q (End.map .ok out') (End.map .ok out)) →
    (∀ search p, Compares J (Both (Both Eq V) W)
      (s'.iterate (round s' search c.initialStepSize) p)
      (s.iterate (round s search c.initialStepSize) p)
      fun out' out => Q (End.map .ok out') (End.map .ok out)) →
    Compares J (Both (Both Eq V) W) (minimize c m' x₀ options' o' clock').run
      (minimize c m x₀ options o clock).run Q := by
  intro s' s h hend hfinish hiterate
  have hparams : c.resolvedParams options' = c.resolvedParams options := by
    rw [show options' = { options with maxIterations := options'.maxIterations } from h.options]
    rfl
  have hmemory : options'.lbfgsMemory = options.lbfgsMemory := by
    rw [show options' = { options with maxIterations := options'.maxIterations } from h.options]
  have hrefused : ∀ (e : SolverError) t u j' j, Both (Both Eq V) W t u → J.Match j' j →
      Q ((.ok (.error e), t), j') ((.ok (.error e), u), j) :=
    fun e t u j' j => hend _ t u j' j (by rintro record ⟨⟩)
  have hbounds : m'.hasBounds = m.hasBounds := h.model.hasBounds
  have hname : m'.name = m.name := h.model.name
  unfold minimize
  rw [hbounds, hname, hparams, hmemory]
  by_cases hbounded : m.hasBounds
  · rw [if_pos hbounded, if_pos hbounded]
    exact .throw_bind (hrefused _)
  rw [if_neg hbounded, if_neg hbounded]
  by_cases hstep : ¬ 0 < c.initialStepSize
  · dsimp only
    rw [if_pos hstep, if_pos hstep]
    exact .throw_bind (hrefused _)
  dsimp only
  rw [if_neg hstep, if_neg hstep]
  refine .after .ofExcept (fun _ => ?_) hend
  refine .after .ofExcept (fun history => ?_) hend
  refine .after (Solve.start_agrees h x₀) (fun _ => ?_) hend
  refine .after (.lift (.onFst (Solve.evaluateStart_agrees h.model.toAnswersAlike x₀))) ?_ hend
  rintro (e | ⟨f, g⟩)
  · exact .map (hfinish x₀ e)
  · exact .map (hiterate _ _)

end Whole

end Descent.Lbfgs
