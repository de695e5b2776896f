import Descent.Model.Counted
import Descent.ProjectedNewton
import Descent.Proofs.Simulation

/-!
# Models side by side

Two models that answer alike are asked and answer in the same way in two runs, whoever asks. So do
all that a solver makes of them: the Hessian and its products, the quadratic model, truncated
conjugate gradients, and the models that count their evaluations. How much has to be alike depends
on who asks: the Hessian only (`Model.HessianAlike`), all questions (`Model.AnswersAlike`), or these
and the notice of an accepted step (`Model.Alike`). A model that imitates another is such a model
(`Model.Imitates.alike`).
-/

set_option autoImplicit false

namespace Descent

open Run

variable {α σ τ : Type} [Scalar α] {J : Journals} {V : τ → σ → Prop} {view : τ → σ}

namespace Operator

variable {op' : Operator α τ} {op : Operator α σ}

def Alike (J : Journals) (V : τ → σ → Prop) (op' : Operator α τ) (op : Operator α σ) : Prop :=
  ∀ v, Agrees J V (op'.apply v) (op.apply v)

theorem Alike.quadratic (hop : op'.Alike J V op) (g s : Vec α) :
    Agrees J V (op'.quadratic g s) (op.quadratic g s) := by
  refine .bind (hop s) fun _ => ?_
  refine .bind .checked fun _ => ?_
  exact .bind .checked fun _ => .pure

theorem Alike.masked (hop : op'.Alike J V op) (free : List Bool) :
    (op'.masked free).Alike J V (op.masked free) := by
  intro v
  refine .bind .ofExcept fun _ => ?_
  refine .bind .checked fun _ => ?_
  exact .bind (hop _) fun _ => .checked

theorem alike_ofSparse (a : Sparse α) : (ofSparse a).Alike J V (ofSparse a) :=
  fun _ => .ofExcept

end Operator

/-! ## Truncated conjugate gradients -/

namespace TruncatedCg

variable {op' : Operator α τ} {op : Operator α σ} (offset : Vec α) (radius tolerance : α)

theorem advance_agrees (hop : op'.Alike J V op) (k : Nat) (c : State α) :
    Agrees J V (advance ⟨op', offset, radius, tolerance⟩ k c)
      (advance ⟨op, offset, radius, tolerance⟩ k c) := by
  unfold advance
  refine .bind (hop _) fun _ => ?_
  refine .bind .checked fun _ => .ite (fun _ => ?_) fun _ => ?_
  · refine .bind .checked fun _ => ?_
    refine .bind .checked fun _ => .ite (fun _ => ?_) fun _ => ?_
    · refine .bind .checked fun _ => ?_
      exact .bind .emit fun _ => .pure
    · refine .bind .checked fun _ => .ite (fun _ => .pure) fun _ => ?_
      exact .bind .checked fun _ => .pure
  · refine .bind .checked fun _ => ?_
    exact .bind .emit fun _ => .pure

theorem iterate_agrees (hop : op'.Alike J V op) (remaining k : Nat) (c : State α) :
    Agrees J V (iterate ⟨op', offset, radius, tolerance⟩ remaining k c)
      (iterate ⟨op, offset, radius, tolerance⟩ remaining k c) := by
  induction remaining generalizing k c with
  | zero => exact .pure
  | succ remaining ih =>
      refine .bind (advance_agrees offset radius tolerance hop (k + 1) c) ?_
      rintro (solution | next)
      · exact .pure
      · exact ih (k + 1) next

theorem solveFrom_agrees (hop : op'.Alike J V op) (config : Config α) (g : Vec α)
    (rtol : α) : Agrees J V (solveFrom config op' g radius offset rtol)
      (solveFrom config op g radius offset rtol) :=
  .ite (fun _ => .pure) fun _ => iterate_agrees offset radius _ hop _ _ _

end TruncatedCg

/-! ## Models and their Hessians -/

structure Curvature.Alike (J : Journals) (V : τ → σ → Prop) (c' : Curvature α τ)
    (c : Curvature α σ) : Prop where
  operator : c'.operator.Alike J V c.operator
  toDense : Agrees J V c'.toDense c.toDense

namespace Model

structure HessianAlike (J : Journals) (V : τ → σ → Prop) (m' : Model α τ) (m : Model α σ) :
    Prop where
  hessianVector : ∀ x v, Agrees J V (m'.hessianVector x v) (m.hessianVector x v)
  hessian : ∀ x, Agrees J V (m'.hessian x) (m.hessian x)
  sparseHessian : ∀ x, Agrees J V (m'.sparseHessian x) (m.sparseHessian x)

/-- All answers agree, and the problems have the same name and the same bounds. -/
structure AnswersAlike (J : Journals) (V : τ → σ → Prop) (m' : Model α τ) (m : Model α σ) : Prop
    extends HessianAlike J V m' m where
  dimension : m'.dimension = m.dimension
  name : m'.name = m.name
  sides : m'.sides = m.sides
  objective : ∀ x, Agrees J V (m'.objective x) (m.objective x)
  gradient : ∀ x, Agrees J V (m'.gradient x) (m.gradient x)
  objectiveAndGradient : ∀ x,
    Agrees J V (m'.objectiveAndGradient x) (m.objectiveAndGradient x)

/-- The models answer alike, and they take notice of accepted steps alike. -/
structure Alike (J : Journals) (V : τ → σ → Prop) (m' : Model α τ) (m : Model α σ) : Prop
    extends AnswersAlike J V m' m where
  acceptStep : ∀ s y, Relates J V (m'.acceptStep s y) (m.acceptStep s y)

variable {m' : Model α τ} {m : Model α σ}

/-- The number of evaluations is the same in both runs. -/
theorem count_agrees (change : Counts → Counts) :
    Agrees J (Both Eq V) (Model.count change) (Model.count change) := by
  rintro ⟨counts', t⟩ ⟨counts, s⟩ j' j ⟨hcounts, hts⟩ hj
  obtain rfl : counts' = counts := hcounts
  exact ⟨rfl, ⟨rfl, hts⟩, hj⟩

namespace HessianAlike

theorem products (hm : m'.HessianAlike J V m) (x : Vec α) :
    (Curvature.products m' x).Alike J V (.products m x) where
  operator v := hm.hessianVector x v
  toDense := hm.hessian x

/-- What is done with the Hessian of the one model is what is done with that of the other. -/
theorem ofModel_bind {β ε : Type} (hm : m'.HessianAlike J V m) (x : Vec α)
    (f : ModelError → ε) {k' : Curvature α τ → ExceptT ε (Run τ) β}
    {k : Curvature α σ → ExceptT ε (Run σ) β}
    (hk : ∀ c' c, Curvature.Alike J V c' c → Agrees J V (k' c') (k c)) :
    Agrees J V (ExceptT.adapt f (Curvature.ofModel m' x) >>= k')
      (ExceptT.adapt f (Curvature.ofModel m x) >>= k) := by
  unfold Curvature.ofModel
  rw [adapt_bind, adapt_bind, bind_assoc, bind_assoc]
  refine .bind (.adapt (hm.sparseHessian x)) ?_
  rintro (_ | h)
  · rw [adapt_pure, adapt_pure, pure_bind, pure_bind]
    exact hk _ _ (hm.products x)
  · rw [adapt_pure, adapt_pure, pure_bind, pure_bind]
    exact hk _ _ ⟨Operator.alike_ofSparse h, .pure⟩

/-- The counts stand beside. -/
theorem counted (hm : m'.HessianAlike J V m) :
    m'.counted.HessianAlike J (Both Eq V) m.counted where
  hessianVector x v := .bind (count_agrees _) fun _ => .tryOnSnd (hm.hessianVector x v)
  hessian x := .bind (count_agrees _) fun _ => .tryOnSnd (hm.hessian x)
  sparseHessian x := by
    refine .bind (.tryOnSnd (hm.sparseHessian x)) fun h => ?_
    exact .ite (fun _ => .bind (count_agrees _) fun _ => .pure) fun _ => .pure

end HessianAlike

namespace AnswersAlike

theorem box (hm : m'.AnswersAlike J V m) : m'.box = m.box := by
  unfold Model.box
  rw [hm.dimension, hm.sides]

theorem hasBounds (hm : m'.AnswersAlike J V m) : m'.hasBounds = m.hasBounds := by
  unfold Model.hasBounds
  rw [hm.sides]

theorem counted (hm : m'.AnswersAlike J V m) :
    m'.counted.AnswersAlike J (Both Eq V) m.counted where
  toHessianAlike := hm.toHessianAlike.counted
  dimension := hm.dimension
  name := hm.name
  sides := hm.sides
  objective x := .bind (count_agrees _) fun _ => .tryOnSnd (hm.objective x)
  gradient x := .bind (count_agrees _) fun _ => .tryOnSnd (hm.gradient x)
  objectiveAndGradient x := .bind (count_agrees _) fun _ => .bind (count_agrees _) fun _ =>
    .tryOnSnd (hm.objectiveAndGradient x)

end AnswersAlike

theorem Alike.counted (hm : m'.Alike J V m) : m'.counted.Alike J (Both Eq V) m.counted where
  toAnswersAlike := hm.toAnswersAlike.counted
  acceptStep s y := .onSnd (hm.acceptStep s y)

end Model

/-- What a caller makes of an answer. -/
theorem Evaluation.usable_agrees {β : Type} {e' : Evaluation τ β} {e : Evaluation σ β}
    (h : Agrees J V e' e) (isFinite : β → Bool) (what : String) :
    Agrees J V (Evaluation.usable e' isFinite what) (Evaluation.usable e isFinite what) := by
  refine .bind (.caught h) ?_
  rintro (e | value)
  · exact .ite (fun _ => .pure) fun _ => .throw
  · exact .pure

namespace Model

variable {m' : Model α τ} {m : Model α σ}

/-! ## Models on another state -/

structure HessianImitates (view : τ → σ) (m' : Model α τ) (m : Model α σ) : Prop where
  hessianVector : ∀ x v, Run.Imitates view (m'.hessianVector x v) (m.hessianVector x v)
  hessian : ∀ x, Run.Imitates view (m'.hessian x) (m.hessian x)
  sparseHessian : ∀ x, Run.Imitates view (m'.sparseHessian x) (m.sparseHessian x)

structure Imitates (view : τ → σ) (m' : Model α τ) (m : Model α σ) : Prop
    extends HessianImitates view m' m where
  dimension : m'.dimension = m.dimension
  name : m'.name = m.name
  sides : m'.sides = m.sides
  objective : ∀ x, Run.Imitates view (m'.objective x) (m.objective x)
  gradient : ∀ x, Run.Imitates view (m'.gradient x) (m.gradient x)
  objectiveAndGradient : ∀ x,
    Run.Imitates view (m'.objectiveAndGradient x) (m.objectiveAndGradient x)
  acceptStep : ∀ s y, Simulates view (m'.acceptStep s y) (m.acceptStep s y)

theorem HessianImitates.alike (hm : m'.HessianImitates view m) :
    m'.HessianAlike .same (Sees view) m where
  hessianVector x v := imitates_iff.mp (hm.hessianVector x v)
  hessian x := imitates_iff.mp (hm.hessian x)
  sparseHessian x := imitates_iff.mp (hm.sparseHessian x)

/-- A model that imitates another does the same, seen through the view. -/
theorem Imitates.alike (hm : m'.Imitates view m) : m'.Alike .same (Sees view) m where
  toHessianAlike := hm.toHessianImitates.alike
  dimension := hm.dimension
  name := hm.name
  sides := hm.sides
  objective x := imitates_iff.mp (hm.objective x)
  gradient x := imitates_iff.mp (hm.gradient x)
  objectiveAndGradient x := imitates_iff.mp (hm.objectiveAndGradient x)
  acceptStep s y := simulates_iff.mp (hm.acceptStep s y)

/-- Seen whole, a model does what it does. -/
theorem alike_self (m : Model α σ) : m.Alike .same Eq m := by
  have himitates : m.Imitates id m := {
    dimension := rfl
    name := rfl
    sides := rfl
    objective := fun _ _ _ => rfl
    gradient := fun _ _ _ => rfl
    objectiveAndGradient := fun _ _ _ => rfl
    hessianVector := fun _ _ _ _ => rfl
    hessian := fun _ _ _ => rfl
    sparseHessian := fun _ _ _ => rfl
    acceptStep := fun _ _ _ _ => rfl }
  exact himitates.alike

end Model

end Descent
