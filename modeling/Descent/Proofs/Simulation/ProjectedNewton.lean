import Descent.Proofs.Simulation.TrustRegion

/-!
# The projected Newton method side by side

On models that answer alike the stepper of the method proposes alike (`stepper_alike`). The choice
of a trial step asks for the Hessian only, and so is the same already if the answers about the
Hessian are (`propose_agrees`).
-/

set_option autoImplicit false

namespace Descent

open Run

variable {α σ τ : Type} [Scalar α] {J : Journals} {V : τ → σ → Prop}

namespace ProjectedNewton

/-! ## The Cauchy step -/

section Path

variable {op' : Operator α τ} {op : Operator α σ} (b : Box α) (x g : Vec α) (radius : α)

theorem Path.trial_agrees (hop : op'.Alike J V op) (a : α) :
    Agrees J V (Path.trial ⟨op', b, x, g, radius⟩ a) (Path.trial ⟨op, b, x, g, radius⟩ a) := by
  refine .bind .checked fun _ => ?_
  refine .bind .checked fun _ => ?_
  refine .bind .checked fun _ => .ite (fun _ => .pure) fun _ => ?_
  refine .bind (hop.quadratic _ _) fun _ => ?_
  exact .bind .checked fun _ => .pure

theorem Path.extrapolate_agrees (hop : op'.Alike J V op) (n : Nat) (a : α) (s : Vec α) :
    Agrees J V (Path.extrapolate ⟨op', b, x, g, radius⟩ n a s)
      (Path.extrapolate ⟨op, b, x, g, radius⟩ n a s) := by
  induction n generalizing a s with
  | zero => exact .pure
  | succ n ih =>
      refine .bind (.adapt (Path.trial_agrees b x g radius hop _)) fun _ => ?_
      exact .ite (fun _ => .pure) fun _ => ih _ _

theorem Path.interpolate_agrees (hop : op'.Alike J V op) (n : Nat) (a : α) (s : Vec α) :
    Agrees J V (Path.interpolate ⟨op', b, x, g, radius⟩ n a s)
      (Path.interpolate ⟨op, b, x, g, radius⟩ n a s) := by
  induction n generalizing a s with
  | zero => exact .pure
  | succ n ih =>
      refine .bind (.adapt (Path.trial_agrees b x g radius hop _)) fun _ => ?_
      exact .ite (fun _ => .pure) fun _ => ih _ _

theorem Path.cauchyStep_agrees (hop : op'.Alike J V op) (a : α) :
    Agrees J V (Path.cauchyStep ⟨op', b, x, g, radius⟩ a)
      (Path.cauchyStep ⟨op, b, x, g, radius⟩ a) := by
  refine .bind (.adapt (Path.trial_agrees b x g radius hop _)) fun _ => ?_
  exact .ite (fun _ => Path.extrapolate_agrees b x g radius hop _ _ _)
    fun _ => Path.interpolate_agrees b x g radius hop _ _ _

end Path

/-! ## The trial step -/

theorem projectedSearch_agrees {op' : Operator α τ} {op : Operator α σ}
    (hop : op'.Alike J V op) (b : Box α) (x g cauchyPoint w : Vec α) (bound : α)
    (kind : StepKind) (n : Nat) (t : α) :
    Agrees J V (projectedSearch op' b x g cauchyPoint w bound kind n t)
      (projectedSearch op b x g cauchyPoint w bound kind n t) := by
  induction n generalizing t with
  | zero => exact .pure
  | succ n ih =>
      refine .bind .checked fun _ => ?_
      refine .bind .checked fun _ => ?_
      refine .bind .checked fun _ => ?_
      exact .bind (hop.quadratic _ _) fun _ => .ite (fun _ => .pure) fun _ => ih _

variable {c' : Curvature α τ} {c : Curvature α σ}

theorem faceStep_agrees (hc : c'.Alike J V c) (linear : Option (LinearSolver α))
    (cg : TruncatedCg.Config α) (g : Vec α) (free : List Bool) (cauchy : Vec α)
    (radius gradientNorm : α) :
    Agrees J V (faceStep linear cg c' g free cauchy radius gradientNorm)
      (faceStep linear cg c g free cauchy radius gradientNorm) := by
  cases linear with
  | some solver => exact .bind (.adapt hc.toDense) fun _ => .ofChecked
  | none =>
      refine .bind (.adapt ?_) fun _ => ?_
      · exact TruncatedCg.solveFrom_agrees _ _ (hc.operator.masked free) _ _ _
      · exact .bind .emit fun _ => .pure

theorem fromCauchy_agrees (hc : c'.Alike J V c) (linear : Option (LinearSolver α))
    (cg : TruncatedCg.Config α) (b : Box α) (iterate : Iterate α) (radius gradientNorm : α)
    (cauchy : Vec α) :
    Agrees J V (fromCauchy linear cg c' b iterate radius gradientNorm cauchy)
      (fromCauchy linear cg c b iterate radius gradientNorm cauchy) := by
  refine .bind (.adapt (hc.operator.quadratic _ _)) fun _ => ?_
  refine .bind .checked fun _ => ?_
  refine .bind .checked fun _ => .ite (fun _ => .pure) fun _ => ?_
  refine .bind (.adapt (hc.operator cauchy)) fun _ => ?_
  refine .bind .checked fun _ => ?_
  refine .bind .checked fun _ => ?_
  refine .bind (faceStep_agrees hc linear cg _ _ _ _ _) fun _ => ?_
  refine .bind (.adapt (projectedSearch_agrees hc.operator _ _ _ _ _ _ _ _ _)) ?_
  rintro (_ | trial)
  · exact .bind .emit fun _ => .pure
  · exact .pure

theorem propose_agrees {m' : Model α τ} {m : Model α σ} (hm : m'.HessianAlike J V m)
    (linear : Option (LinearSolver α)) (cg : TruncatedCg.Config α) (b : Box α) (iterate : Iterate α)
    (radius gradientNorm length : α) :
    Agrees J V ((stepper linear cg).propose m' b iterate radius gradientNorm length)
      ((stepper linear cg).propose m b iterate radius gradientNorm length) := by
  refine hm.ofModel_bind _ _ fun c' c hc => ?_
  refine .bind (.adapt (Path.cauchyStep_agrees _ _ _ _ hc.operator _)) fun _ => ?_
  refine .bind (.adapt (fromCauchy_agrees hc linear cg _ _ _ _ _)) fun _ => ?_
  exact .pure

theorem stepper_alike (linear : Option (LinearSolver α)) (cg : TruncatedCg.Config α) :
    TrustRegion.Stepper.Alike J V (stepper linear cg) (stepper linear cg) where
  fresh := rfl
  propose hm := propose_agrees hm.toHessianAlike linear cg
  rescue _ _ _ _ := .pure

end ProjectedNewton

end Descent
