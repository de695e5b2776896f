import Descent.NewtonCg
import Descent.Proofs.Simulation.LineSearch
import Descent.Proofs.Simulation.TrustRegion

/-!
# The Newton-CG method side by side

On models that answer alike the stepper of the method proposes and rescues alike (`stepper_alike`).
Whole solves go side by side up to the loop (`minimize_compares`).
-/

set_option autoImplicit false

namespace Descent.NewtonCg

open Run

variable {α σ τ ω ω' : Type} [Scalar α] {J : Journals} {V : τ → σ → Prop} {W : ω' → ω → Prop}
  {m' : Model α τ} {m : Model α σ}

theorem newtonStep_agrees {c' : Curvature α τ} {c : Curvature α σ} (hc : c'.Alike J V c)
    (linear : Option (LinearSolver α)) (cg : TruncatedCg.Config α) (iterate : Iterate α)
    (radius gradientNorm : α) :
    Agrees J V (newtonStep linear cg c' iterate radius gradientNorm)
      (newtonStep linear cg c iterate radius gradientNorm) := by
  cases linear with
  | some solver => exact .bind (.adapt hc.toDense) fun _ => .ofChecked
  | none =>
      refine .bind (.adapt ?_) fun _ => ?_
      · exact TruncatedCg.solveFrom_agrees _ _ hc.operator _ _ _
      · exact .bind .emit fun _ => .pure

theorem propose_agrees (hm : m'.HessianAlike J V m) (linear : Option (LinearSolver α))
    (cg : TruncatedCg.Config α) (iterate : Iterate α) (radius gradientNorm : α) :
    Agrees J V (propose linear cg m' iterate radius gradientNorm)
      (propose linear cg m iterate radius gradientNorm) := by
  refine hm.ofModel_bind _ _ fun c' c hc => ?_
  refine .bind (newtonStep_agrees hc linear cg _ _ _) fun step => ?_
  refine .bind (.adapt (hc.operator.quadratic _ _)) fun q => ?_
  exact .bind .checked fun _ => .pure

theorem rescue_agrees (hm : m'.AnswersAlike J V m) (params : Option (LineSearchParams α))
    (iterate : Iterate α) (trial : TrustRegion.Trial α) (value : α) :
    Agrees J V (rescue params m' iterate trial value) (rescue params m iterate trial value) := by
  cases params with
  | none => exact .pure
  | some params =>
      refine .bind .checked fun slope => .ite (fun _ => .pure) fun _ => ?_
      refine .bind (.caught (LineSearch.run_agrees _ hm _ _ _ _ _)) ?_
      rintro (e | found)
      · exact .ite (fun _ => .bind .emit fun _ => .pure) fun _ => .throw
      · exact .pure

theorem stepper_alike (linear : Option (LinearSolver α)) (cg : TruncatedCg.Config α)
    (params : Option (LineSearchParams α)) :
    TrustRegion.Stepper.Alike J V (stepper linear cg params) (stepper linear cg params) where
  fresh := rfl
  propose hm _ iterate radius gradientNorm _ :=
    .bind (.adapt (propose_agrees hm.toHessianAlike linear cg iterate radius gradientNorm))
      fun _ => .pure
  rescue hm := rescue_agrees hm params

/-! ## Whole solves -/

section Whole

variable {options' options : Options α} {o' : Observer α ω'} {o : Observer α ω}
  {clock' clock : Nat → Duration}
  {Q : End ((Counts × τ) × ω') (Except SolverError (Record α)) →
    End ((Counts × σ) × ω) (Except SolverError (Record α)) → Prop}

/-- **Two solves side by side.** They are alike up to the loop, or end before it alike. -/
theorem minimize_compares (c : TrustRegion.Config α) (withRescue : Bool) (x₀ : Vec α) :
    let s' : Solve α τ ω' := ⟨name, m', options', o', clock'⟩
    let s : Solve α σ ω := ⟨name, m, options, o, clock⟩
    let moves params := (stepper c.subproblem.linearSolver c.cg params :
      TrustRegion.Stepper α (Counts × σ) Unit)
    let moves' params := (stepper c.subproblem.linearSolver c.cg params :
      TrustRegion.Stepper α (Counts × τ) Unit)
    s'.Alike J V W s →
    (∀ (r : Except Fault (Except SolverError (Record α))) t u j' j,
      (∀ record, r ≠ .ok (.ok record)) → Both (Both Eq V) W t u → J.Match j' j →
        Q ((r, t), j') ((r, u), j)) →
    (∀ x e, Compares J (Both (Both Eq V) W) (s'.finishAtStart x e) (s.finishAtStart x e)
      fun out' out => Q (End.map .ok out') (End.map .ok out)) →
    (∀ params b p, Compares J (Both (Both Eq V) W)
      (s'.iterate (TrustRegion.round s' (moves' params) c b) p)
      (s.iterate (TrustRegion.round s (moves params) c b) p)
      fun out' out => Q (End.map .ok out') (End.map .ok out)) →
    Compares J (Both (Both Eq V) W) (minimize c withRescue m' x₀ options' o' clock').run
      (minimize c withRescue m x₀ options o clock).run Q := by
  intro s' s moves moves' h hend hfinish hiterate
  have hparams : (LineSearchKind.backtracking.params : LineSearchParams α).withBudgets options'
      = LineSearchKind.backtracking.params.withBudgets options := by
    rw [show options' = { options with maxIterations := options'.maxIterations } from h.options]
    rfl
  have hbounds : m'.hasBounds = m.hasBounds := h.model.hasBounds
  have hname : m'.name = m.name := h.model.name
  have hsolve : ∀ params, Compares J (Both (Both Eq V) W)
      (TrustRegion.minimize s' (moves' params) c x₀).run
      (TrustRegion.minimize s (moves params) c x₀).run Q :=
    fun params => TrustRegion.minimize_compares h rfl c x₀ hend hfinish (hiterate params)
  unfold minimize
  rw [hbounds, hname, hparams]
  by_cases hbounded : m.hasBounds
  · rw [if_pos hbounded, if_pos hbounded]
    exact .throw_bind fun t u j' j => hend _ t u j' j (by rintro record ⟨⟩)
  rw [if_neg hbounded, if_neg hbounded]
  cases withRescue with
  | false => exact hsolve none
  | true => exact .after .ofExcept (fun _ => hsolve (some _)) hend

end Whole

end Descent.NewtonCg
