import Descent.Model.Counted
import Descent.Proofs.Safe.Sizes

/-!
# Models of the right size

A model is `WellSized` if it stops at no fault where it is asked at points and along directions of
its dimension, and what it then returns has the size of its dimension. Nothing is said of the
values, which may be infinite or NaN, nor of its failures. So is then the counted model
(`WellSized.counted`), its Hessian in each of the three forms (`WellSized.curvature`), and a model
that leaves its second derivatives to forward differences (`WellSized.ofGradient`). An algorithm
that asks for no second derivatives needs only a model that is `FirstOrderSized`.
-/

set_option autoImplicit false

namespace Descent

open Checked Run

variable {α σ : Type} [Scalar α] {n : Nat}

/-- The answers of a model at vectors of its dimension have the right size. -/
structure Model.WellSized (m : Model α σ) : Prop where
  objective : ∀ x : Vec α, x.length = m.dimension →
    Safe (m.objective x) (fun _ => True) fun _ => True
  gradient : ∀ x : Vec α, x.length = m.dimension →
    Safe (m.gradient x) (fun g => g.length = m.dimension) fun _ => True
  objectiveAndGradient : ∀ x : Vec α, x.length = m.dimension →
    Safe (m.objectiveAndGradient x) (fun fg => fg.2.length = m.dimension) fun _ => True
  hessianVector : ∀ x v : Vec α, x.length = m.dimension → v.length = m.dimension →
    Safe (m.hessianVector x v) (fun hv => hv.length = m.dimension) fun _ => True
  hessian : ∀ x : Vec α, x.length = m.dimension →
    Safe (m.hessian x) (Matrix.Sized m.dimension) fun _ => True
  sparseHessian : ∀ x : Vec α, x.length = m.dimension →
    Safe (m.sparseHessian x)
      (fun h => ∀ a, h = some a → a.nrows = m.dimension ∧ a.ncols = m.dimension) fun _ => True
  acceptStep : ∀ s y : Vec α, s.length = m.dimension → y.length = m.dimension →
    Sure (m.acceptStep s y) fun _ => True

/-- The answers of a model without its second derivatives have the right size. -/
structure Model.FirstOrderSized (m : Model α σ) : Prop where
  objective : ∀ x : Vec α, x.length = m.dimension →
    Safe (m.objective x) (fun _ => True) fun _ => True
  gradient : ∀ x : Vec α, x.length = m.dimension →
    Safe (m.gradient x) (fun g => g.length = m.dimension) fun _ => True
  objectiveAndGradient : ∀ x : Vec α, x.length = m.dimension →
    Safe (m.objectiveAndGradient x) (fun fg => fg.2.length = m.dimension) fun _ => True
  acceptStep : ∀ s y : Vec α, s.length = m.dimension → y.length = m.dimension →
    Sure (m.acceptStep s y) fun _ => True

theorem Model.WellSized.firstOrder {m : Model α σ} (hm : m.WellSized) : m.FirstOrderSized :=
  ⟨hm.objective, hm.gradient, hm.objectiveAndGradient, hm.acceptStep⟩

/-! ## Answers -/

namespace Evaluation

variable {β : Type} {Q : β → Prop}

theorem required_safe {e : Evaluation σ β} (h : Safe e Q fun _ => True) :
    Safe (required e) Q SolverError.Fits :=
  .adapt (h.mono (fun _ hb => hb) fun _ _ => trivial)

theorem usable_safe {e : Evaluation σ β} (h : Safe e Q fun _ => True) (isFinite : β → Bool)
    (what : String) :
    Safe (usable e isFinite what) (fun r => ∀ b, r = .ok b → Q b) SolverError.Fits := by
  refine .bind (.caught h) ?_
  rintro (inner | b) hb
  · dsimp only
    split
    · exact .pure nofun
    · exact .throw trivial
  · refine .pure fun b' hb' => ?_
    split at hb'
    · cases hb'
      exact hb
    · cases hb'

end Evaluation

/-! ## Derivatives from differences -/

omit [Scalar α] in
theorem checkLength_safe {expected : Nat} {xs : List α} :
    Safe (liftM (ModelError.checkLength expected xs) : Evaluation σ Unit) (fun _ => True)
      fun _ => True :=
  .ofExcept (fun _ _ => trivial) fun _ _ => trivial

theorem forwardDifference_safe {gradient : Vec α → Evaluation σ (Vec α)} {x v : Vec α}
    (hgradient : ∀ x, x.length = n → Safe (gradient x) (fun g => g.length = n) fun _ => True)
    (hx : x.length = n) (hv : v.length = n) :
    Safe (forwardDifference gradient x v) (fun hv => hv.length = n) fun _ => True := by
  unfold forwardDifference
  dsimp only
  split
  · exact .pure (by simpa using hx)
  · refine .bind (.checked (Vec.along_passes hx hv _)) fun shifted hshifted => ?_
    refine .bind (hgradient x hx) fun g₀ h₀ => ?_
    refine .bind (hgradient shifted hshifted) fun g₁ h₁ => ?_
    exact .bind (.checked (Vec.sub_passes h₁ h₀)) fun d hd => .pure (by simpa using hd)

theorem hessianByColumns_safe {hessianVector : Vec α → Vec α → Evaluation σ (Vec α)} {x : Vec α}
    (hproduct : ∀ v, v.length = n → Safe (hessianVector x v) (fun hv => hv.length = n)
      fun _ => True) :
    Safe (hessianByColumns n hessianVector x) (Matrix.Sized n) fun _ => True := by
  unfold hessianByColumns
  refine .bind (.mapM (R := fun _ => True) fun j _ => ?_) fun columns hcolumns => .pure ?_
  · refine .bind (hproduct _ (Vec.length_unit n j)) fun column hcolumn => ?_
    dsimp only
    rw [if_neg (not_not_intro hcolumn)]
    exact .pure trivial
  · obtain rfl : columns.length = n := hcolumns.1.trans List.length_range
    exact Matrix.sized_ofFn _

/-- A model that gives the objective and the gradient alone. -/
theorem Model.WellSized.ofGradient {m : Model α σ}
    (hobjective : ∀ x : Vec α, x.length = m.dimension →
      Safe (m.objective x) (fun _ => True) fun _ => True)
    (hgradient : ∀ x : Vec α, x.length = m.dimension →
      Safe (m.gradient x) (fun g => g.length = m.dimension) fun _ => True)
    (both : m.objectiveAndGradient = fun x => do
      let f ← m.objective x
      let g ← m.gradient x
      return (f, g))
    (hessianVector : m.hessianVector = forwardDifference m.gradient)
    (hessian : m.hessian = hessianByColumns m.dimension m.hessianVector)
    (sparseHessian : m.sparseHessian = fun _ => pure none)
    (acceptStep : m.acceptStep = fun _ _ => pure ()) : m.WellSized where
  objective := hobjective
  gradient := hgradient
  objectiveAndGradient x hx := by
    rw [both]
    exact .bind (hobjective x hx) fun _ _ => .bind (hgradient x hx) fun g hg => .pure hg
  hessianVector x v hx hv := by
    rw [hessianVector]
    exact forwardDifference_safe hgradient hx hv
  hessian x hx := by
    rw [hessian, hessianVector]
    exact hessianByColumns_safe fun v hv => forwardDifference_safe hgradient hx hv
  sparseHessian x _ := by
    rw [sparseHessian]
    exact .pure nofun
  acceptStep s y _ _ := by
    rw [acceptStep]
    exact .pure trivial

/-! ## Counting -/

theorem Model.count_safe {change : Counts → Counts} :
    Safe (count change : Evaluation (Counts × σ) Unit) (fun _ => True) fun _ => True :=
  fun _ _ _ => trivial

theorem Model.FirstOrderSized.counted {m : Model α σ} (hm : m.FirstOrderSized) :
    m.counted.FirstOrderSized where
  objective x hx := .bind count_safe fun _ _ => .tryOnSnd (hm.objective x hx)
  gradient x hx := .bind count_safe fun _ _ => .tryOnSnd (hm.gradient x hx)
  objectiveAndGradient x hx := .bind count_safe fun _ _ => .bind count_safe fun _ _ =>
    .tryOnSnd (hm.objectiveAndGradient x hx)
  acceptStep s y hs hy := .onSnd (hm.acceptStep s y hs hy)

/-- Counting changes no size. -/
theorem Model.WellSized.counted {m : Model α σ} (hm : m.WellSized) : m.counted.WellSized where
  objective := hm.firstOrder.counted.objective
  gradient := hm.firstOrder.counted.gradient
  objectiveAndGradient := hm.firstOrder.counted.objectiveAndGradient
  hessianVector x v hx hv := .bind count_safe fun _ _ => .tryOnSnd (hm.hessianVector x v hx hv)
  hessian x hx := .bind count_safe fun _ _ => .tryOnSnd (hm.hessian x hx)
  sparseHessian x hx := by
    refine .bind (.tryOnSnd (hm.sparseHessian x hx)) fun h hh => ?_
    dsimp only
    split
    · exact .bind count_safe fun _ _ => .pure hh
    · exact .pure hh
  acceptStep := hm.firstOrder.counted.acceptStep

/-! ## Operators -/

def Operator.Sized (n : Nat) (op : Operator α σ) : Prop :=
  ∀ v : Vec α, v.length = n → Safe (op.apply v) (fun hv => hv.length = n) fun _ => True

namespace Operator

variable {op : Operator α σ}

theorem Sized.quadratic_safe (hop : op.Sized n) {g s : Vec α} (hg : g.length = n)
    (hs : s.length = n) : Safe (op.quadratic g s) (fun _ => True) fun _ => True := by
  refine .bind (hop s hs) fun hv hhv => ?_
  refine .bind (.checked (Vec.dot_passes hg hs)) fun _ _ => ?_
  exact .bind (.checked (Vec.dot_passes hs hhv)) fun _ _ => .pure trivial

theorem Sized.masked (hop : op.Sized n) {free : List Bool} (hfree : free.length = n) :
    (op.masked free).Sized n := by
  intro v hv
  refine .bind checkLength_safe fun _ _ => ?_
  refine .bind (.checked (Vec.restrict_passes (by omega))) fun u hu => ?_
  refine .bind (hop u (by omega)) fun hu hhu => ?_
  exact .checked ((Vec.restrict_passes (by omega)).mono fun z hz => by omega)

end Operator

structure Curvature.Sized (n : Nat) (c : Curvature α σ) : Prop where
  operator : c.operator.Sized n
  toDense : Safe c.toDense (Matrix.Sized n) fun _ => True

theorem Curvature.sized_sparse {h : Sparse α} (hrows : h.nrows = n) (hcols : h.ncols = n) :
    (sparse h : Curvature α σ).Sized n where
  operator v _ := by
    show Safe (liftM (h.times v) : Evaluation σ (Vec α)) _ _
    refine .ofExcept (fun hv hhv => ?_) fun _ _ => trivial
    obtain ⟨_, _, hhv⟩ := exists_of_bind_ok hhv
    cases hhv
    simpa using hrows
  toDense := .pure (by simp [Matrix.Sized, Sparse.toDense, Matrix.ofFn, Matrix.nrows, hrows, hcols])

/-- The Hessian of a model at a point of its dimension. -/
theorem Model.WellSized.curvature {m : Model α σ} (hm : m.WellSized) {x : Vec α}
    (hx : x.length = m.dimension) :
    Safe (Curvature.ofModel m x) (Curvature.Sized m.dimension) fun _ => True := by
  refine .bind (hm.sparseHessian x hx) ?_
  rintro (_ | h) hh
  · exact .pure ⟨fun v hv => hm.hessianVector x v hx hv, hm.hessian x hx⟩
  · exact .pure (Curvature.sized_sparse (hh h rfl).1 (hh h rfl).2)

end Descent
