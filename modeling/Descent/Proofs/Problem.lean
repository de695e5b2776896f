import Descent.Model.Problem
import Descent.Proofs.Box
import Descent.Proofs.Safe.Solve

/-!
# Problems given by functions

What is checked between the functions of a problem and a solver.

The bounds are checked twice, by `validate` and where a solver makes its box of them. The two agree
on everything but NaNs (`exists_box_iff`): `validate` asks that no lower bound be above its upper
one, which a NaN never is, while a box has no NaN for an end.

A gradient of the wrong length is a failure of the model, an analytic product with the Hessian is
handed on as it is. So the sizes of a problem are right exactly if its products are
(`answers_fit`), and then no solve of it stops at a fault. A solve by L-BFGS, which asks for no
products, never does.
-/

set_option autoImplicit false

namespace Descent

open Checked Run

variable {α σ ω : Type} [Scalar α]

namespace ModelError

theorem checkLength_eq_ok_iff {β : Type} {n : Nat} {xs : List β} :
    checkLength n xs = .ok () ↔ xs.length = n := by
  unfold checkLength
  split <;> simp_all

theorem checkLength_of_eq {β : Type} {n : Nat} {xs : List β} (h : xs.length = n) :
    checkLength n xs = .ok () :=
  checkLength_eq_ok_iff.mpr h

end ModelError

open ModelError

/-- Two checks, one after the other, pass if both do. -/
theorem bind_eq_ok_iff {ε : Type} {x y : Except ε Unit} :
    (x >>= fun _ => y) = .ok () ↔ x = .ok () ∧ y = .ok () := by
  cases x with
  | error e => exact ⟨nofun, nofun⟩
  | ok u => exact ⟨fun h => ⟨rfl, h⟩, fun h => h.2⟩

/-! ## Bounds -/

namespace Box

theorem isValid_cons {i : Interval α} {b : Box α} :
    IsValid (i :: b) ↔ i.isValid = true ∧ b.IsValid :=
  List.forall_mem_cons

theorem checkFrom_eq_ok_iff {k : Nat} {b : Box α} : checkFrom k b = .ok () ↔ b.IsValid := by
  refine ⟨isValid_of_checkFrom, fun h => ?_⟩
  induction b generalizing k with
  | nil => rfl
  | cons i b ih =>
      obtain ⟨hi, hb⟩ := isValid_cons.mp h
      rw [checkFrom, if_pos hi]
      exact ih hb

/-- A box is made of sides that are equally long and bound valid intervals. -/
theorem exists_ofSides_iff {lower upper : Vec α} : (∃ b, ofSides lower upper = .ok b) ↔
    upper.length = lower.length ∧ IsValid (List.zipWith Interval.mk lower upper) := by
  constructor
  · rintro ⟨b, h⟩
    obtain ⟨_, hlength, h⟩ := exists_of_bind_ok h
    obtain ⟨_, hcheck, -⟩ := exists_of_bind_ok h
    exact ⟨checkLength_eq_ok_iff.mp hlength, checkFrom_eq_ok_iff.mp hcheck⟩
  · rintro ⟨hlength, hvalid⟩
    refine ⟨List.zipWith Interval.mk lower upper, ?_⟩
    rw [ofSides, checkLength_of_eq hlength]
    show (checkFrom 0 _ >>= fun _ => pure _) = _
    rw [checkFrom_eq_ok_iff.mpr hvalid]
    rfl

/-- Intervals whose ends are the entries of two sides are valid if no entry is a NaN and no lower
one is above the upper one. -/
theorem isValid_zipWith_iff {lower upper : Vec α} (h : upper.length = lower.length) :
    IsValid (List.zipWith Interval.mk lower upper) ↔
      (∀ a ∈ lower ++ upper, Scalar.isNaN a = false) ∧
        ∀ i ∈ List.zipWith Interval.mk lower upper, ¬ i.upper < i.lower := by
  induction lower generalizing upper with
  | nil =>
      obtain rfl := List.eq_nil_of_length_eq_zero h
      simp [IsValid]
  | cons l lower ih =>
      obtain ⟨u, upper, rfl⟩ := List.exists_cons_of_length_eq_add_one h
      rw [List.zipWith_cons_cons, isValid_cons, Interval.isValid_iff, ih (Nat.succ.inj h)]
      simp only [List.forall_mem_cons, List.forall_mem_append, List.cons_append]
      constructor
      · rintro ⟨⟨hl, hu, hlu⟩, ⟨hlower, hupper⟩, horder⟩
        exact ⟨⟨hl, hlower, hu, hupper⟩, hlu, horder⟩
      · rintro ⟨⟨hl, hlower, hu, hupper⟩, hlu, horder⟩
        exact ⟨⟨hl, hu, hlu⟩, ⟨hlower, hupper⟩, horder⟩

end Box

/-- A list of answers is as long as the list of questions. -/
theorem Run.Gives.length_mapM {ε β γ : Type} {f : β → ExceptT ε (Run σ) γ} {l : List β} :
    Gives (l.mapM f) (fun cs => cs.length = l.length) fun _ => True := by
  induction l with
  | nil => exact .pure rfl
  | cons b l ih =>
      rw [List.mapM_cons]
      refine .bind .trivial fun c _ => .bind ih fun cs hcs => .pure ?_
      rw [List.length_cons, List.length_cons, hcs]

namespace Problem

variable {p : Problem α}

theorem checkOrder_eq_ok_iff {k : Nat} {lower upper : Vec α} :
    checkOrder k lower upper = .ok () ↔
      ∀ i ∈ List.zipWith Interval.mk lower upper, ¬ i.upper < i.lower := by
  induction lower generalizing k upper with
  | nil => simp [checkOrder]
  | cons l lower ih =>
      cases upper with
      | nil => simp [checkOrder]
      | cons u upper =>
          rw [checkOrder, List.zipWith_cons_cons, List.forall_mem_cons]
          split
          · next h => exact iff_of_false nofun fun hall => hall.1 h
          · next h => rw [ih, and_iff_right h]

/-- What `validate` asks for. -/
theorem validate_eq_ok_iff : p.validate = .ok () ↔
    p.lower.length = p.dimension ∧ p.upper.length = p.dimension ∧
      (∀ x₀, p.initialPoint = some x₀ → x₀.length = p.dimension) ∧
      ∀ i ∈ List.zipWith Interval.mk p.lower p.upper, ¬ i.upper < i.lower := by
  rw [validate, bind_eq_ok_iff, bind_eq_ok_iff, checkLength_eq_ok_iff,
    checkLength_eq_ok_iff]
  cases h : p.initialPoint with
  | none => simp [checkOrder_eq_ok_iff]
  | some x₀ => simp [bind_eq_ok_iff, checkLength_eq_ok_iff, checkOrder_eq_ok_iff]

/-- What a solver asks of the bounds. -/
theorem exists_box_iff_sides : (∃ b, (p.model : Model α σ).box = .ok b) ↔
    p.lower.length = p.dimension ∧ p.upper.length = p.lower.length ∧
      Box.IsValid (List.zipWith Interval.mk p.lower p.upper) := by
  rw [← Box.exists_ofSides_iff]
  constructor
  · rintro ⟨b, h⟩
    obtain ⟨_, hlength, h⟩ := exists_of_bind_ok h
    exact ⟨checkLength_eq_ok_iff.mp hlength, b, h⟩
  · rintro ⟨hlength, b, h⟩
    refine ⟨b, ?_⟩
    show (checkLength p.dimension p.lower >>= fun _ => Box.ofSides p.lower p.upper) = _
    rw [checkLength_of_eq hlength]
    exact h

/-- **The two checks of the bounds differ by NaNs.** With a starting point of the right length, or
none, the bounds make a box if and only if `validate` passes and none of them is a NaN. -/
theorem exists_box_iff (hstart : ∀ x₀, p.initialPoint = some x₀ → x₀.length = p.dimension) :
    (∃ b, (p.model : Model α σ).box = .ok b) ↔
      p.validate = .ok () ∧ ∀ a ∈ p.lower ++ p.upper, Scalar.isNaN a = false := by
  rw [exists_box_iff_sides, validate_eq_ok_iff]
  constructor
  · rintro ⟨hlower, hupper, hvalid⟩
    obtain ⟨hnumbers, horder⟩ := (Box.isValid_zipWith_iff hupper).mp hvalid
    exact ⟨⟨hlower, hupper.trans hlower, hstart, horder⟩, hnumbers⟩
  · rintro ⟨⟨hlower, hupper, -, horder⟩, hnumbers⟩
    have hlengths : p.upper.length = p.lower.length := hupper.trans hlower.symm
    exact ⟨hlower, hlengths, (Box.isValid_zipWith_iff hlengths).mpr ⟨hnumbers, horder⟩⟩

/-- One variable with the given lower bound and a slope of one. -/
def slope (lower : Float) : Problem Float where
  dimension := 1
  lower := [lower]
  objective x := .ok (x.headD 0)
  gradient _ := .ok [1]

/-- A lower bound of zero passes both checks. -/
theorem exists_box_iff_zero : ∃ b, ((slope 0).model : Model Float Unit).box = .ok b := by
  have hstart : ∀ x₀, (slope 0).initialPoint = some x₀ → x₀.length = (slope 0).dimension :=
    fun x₀ h => nomatch (h : none = some x₀)
  exact (exists_box_iff hstart).mpr ⟨by decide +kernel, by decide +kernel⟩

/-- A NaN passes `validate` and makes no box. -/
theorem nan_validates : (slope Scalar.nan).validate = .ok () ∧
    ¬ ∃ b, ((slope Scalar.nan).model : Model Float Unit).box = .ok b := by
  refine ⟨by decide +kernel, fun h => ?_⟩
  have hvalid := (exists_box_iff_sides.mp h).2.2
  have hinterval := hvalid ⟨Scalar.nan, Scalar.infinity⟩ (List.mem_singleton.mpr rfl)
  exact absurd hinterval (by decide +kernel)

/-! ## Sizes -/

/-- The products of the analytic Hessian, if there is one, have as many entries as there are
variables. -/
def ProductsFit (p : Problem α) : Prop :=
  ∀ product, p.hessianVector = some product → ∀ x v hv : Vec α, x.length = p.dimension →
    v.length = p.dimension → product x v = .ok hv → hv.length = p.dimension

omit [Scalar α] in
theorem checkLength_sized {n : Nat} {xs : Vec α} :
    Safe (liftM (checkLength n xs) : Evaluation σ Unit) (fun _ => xs.length = n) fun _ => True :=
  .ofExcept (fun _ h => checkLength_eq_ok_iff.mp h) fun _ _ => trivial

theorem objective_safe (p : Problem α) (x : Vec α) :
    Safe ((p.model : Model α σ).objective x) (fun _ => True) fun _ => True :=
  .bind checkLength_safe fun _ _ => .ofExcept (fun _ _ => trivial) fun _ _ => trivial

theorem gradientAt_safe (p : Problem α) (x : Vec α) :
    Safe (p.gradientAt x : Evaluation σ (Vec α)) (fun g => g.length = p.dimension)
      fun _ => True := by
  refine .bind checkLength_sized fun _ _ => ?_
  refine .bind (.ofExcept (Q := fun _ => True) (fun _ _ => trivial) fun _ _ => trivial)
    fun g _ => ?_
  exact .bind checkLength_sized fun _ hg => .pure hg

/-- A gradient of another length is a failure. -/
theorem gradientAt_eq {x g : Vec α} (hx : x.length = p.dimension) (hg : p.gradient x = .ok g) :
    (p.gradientAt x : Evaluation σ (Vec α)) =
      if g.length = p.dimension then pure g
      else throw (ModelError.ofLengths p.dimension g.length) := by
  rw [gradientAt, checkLength_of_eq hx, hg]
  show (liftM (checkLength p.dimension g) >>= fun _ => pure g : Evaluation σ (Vec α)) = _
  rw [checkLength]
  split <;> rfl

theorem hessianVector_safe (hp : p.ProductsFit) (x v : Vec α) :
    Safe ((p.model : Model α σ).hessianVector x v) (fun hv => hv.length = p.dimension)
      fun _ => True := by
  refine .bind checkLength_sized fun _ hx => .bind checkLength_sized fun _ hv => ?_
  cases h : p.hessianVector with
  | none => exact forwardDifference_safe (fun x _ => p.gradientAt_safe x) hx hv
  | some product => exact .ofExcept (fun r hr => hp product h x v r hx hv hr) fun _ _ => trivial

/-- Products of the right length are products of the analytic Hessian of the right length. -/
theorem productsFit_of_safe (t : σ)
    (h : ∀ x v, Safe ((p.model : Model α σ).hessianVector x v)
      (fun hv => hv.length = p.dimension) fun _ => True) : p.ProductsFit := by
  intro product hproduct x v hv hx hlength hanswer
  have hhanded : (p.model : Model α σ).hessianVector x v = pure hv := by
    simp only [model]
    rw [checkLength_of_eq hx, checkLength_of_eq hlength, hproduct]
    show (liftM (product x v) : Evaluation σ (Vec α)) = _
    rw [hanswer]
    rfl
  have hfits := h x v t #[] trivial
  rw [hhanded] at hfits
  exact hfits

theorem firstOrderSized (p : Problem α) : (p.model : Model α σ).FirstOrderSized where
  objective _ _ := p.objective_safe _
  gradient x _ := p.gradientAt_safe x
  objectiveAndGradient x _ :=
    .bind (p.objective_safe x) fun _ _ => .bind (p.gradientAt_safe x) fun _ hg => .pure hg
  acceptStep _ _ _ _ := .pure trivial

theorem wellSized (hp : p.ProductsFit) : (p.model : Model α σ).WellSized where
  objective := p.firstOrderSized.objective
  gradient := p.firstOrderSized.gradient
  objectiveAndGradient := p.firstOrderSized.objectiveAndGradient
  hessianVector x v _ _ := hessianVector_safe hp x v
  hessian x _ := by
    show Safe (hessianByColumns p.dimension (p.model : Model α σ).hessianVector x) _ _
    exact hessianByColumns_safe fun v _ => hessianVector_safe hp x v
  sparseHessian _ _ := .pure nofun
  acceptStep := p.firstOrderSized.acceptStep

/-- A Hessian is square, whatever the products. -/
theorem hessian_gives (p : Problem α) (x : Vec α) :
    Gives ((p.model : Model α σ).hessian x) (Matrix.Sized p.dimension) fun _ => True := by
  refine .bind Gives.length_mapM fun columns hcolumns => .pure ?_
  rw [← hcolumns.trans List.length_range]
  exact Matrix.sized_ofFn _

/-- **The sizes of a problem.** Whatever its functions return, a gradient has an entry for each
variable, one of another length being a failure, and a Hessian a row and a column. All products with
the Hessian have an entry for each variable if and only if those of the analytic Hessian do; then no
solve stops at a fault. A solve by L-BFGS never does. -/
theorem answers_fit (p : Problem α) (t : σ) :
    (∀ x g, x.length = p.dimension → p.gradient x = .ok g →
      ((p.model : Model α σ).gradient x) =
        if g.length = p.dimension then pure g
        else throw (ModelError.ofLengths p.dimension g.length)) ∧
    (∀ x, Safe ((p.model : Model α σ).gradient x) (fun g => g.length = p.dimension)
      fun _ => True) ∧
    (∀ x, Gives ((p.model : Model α σ).hessian x) (Matrix.Sized p.dimension) fun _ => True) ∧
    ((∀ x v, Safe ((p.model : Model α σ).hessianVector x v) (fun hv => hv.length = p.dimension)
      fun _ => True) ↔ p.ProductsFit) ∧
    (p.ProductsFit → ∀ (method : Method α) (x₀ : Vec α) (o : Options α) (observer : Observer α ω)
      (clock : Nat → Duration),
      Safe (method.minimize (p.model : Model α σ) x₀ o observer clock) Record.Fits
        fun _ => True) ∧
    ∀ (c : Lbfgs.Config α) (x₀ : Vec α) (o : Options α) (observer : Observer α ω)
      (clock : Nat → Duration),
      Safe ((Method.lbfgs c).minimize (p.model : Model α σ) x₀ o observer clock) Record.Fits
        fun _ => True :=
  ⟨fun _ _ hx hg => gradientAt_eq hx hg, p.gradientAt_safe, p.hessian_gives,
    ⟨productsFit_of_safe t, hessianVector_safe⟩, fun hp method x₀ o observer clock =>
      method.minimize_safe (wellSized hp) x₀ o observer clock, fun c x₀ o observer clock =>
      Lbfgs.minimize_safe c p.firstOrderSized x₀ o observer clock⟩

/-- With the products of a Hessian of zeros, a solve of the slope by projected Newton steps stops at
no fault. -/
theorem answers_fit_zero :
    let p : Problem Float :=
      { slope 0 with hessianVector := some fun _ v => .ok (Vec.scale v 0) }
    p.ProductsFit ∧ Safe ((Method.projectedNewton {}).minimize (p.model : Model Float Unit) [1] {}
      (Observer.silent : Observer Float Unit) fun _ => .zero) Record.Fits fun _ => True := by
  intro p
  have hp : p.ProductsFit := by
    rintro product ⟨⟩ x v hv - hlength ⟨⟩
    exact (Vec.length_scale v 0).trans hlength
  exact ⟨hp, (answers_fit p ()).2.2.2.2.1 hp _ _ _ _ _⟩

/-- The slope with an analytic Hessian whose products have an entry too many. -/
def stretched : Problem Float :=
  { slope (-Scalar.infinity) with hessianVector := some fun _ _ => .ok [1, 2] }

/-- A product with an entry too many is handed on, and a solve stops at a fault. -/
theorem stretched_faults :
    (Run.start ((stretched.model : Model Float Unit).hessianVector [0] [1]).run () #[]).1.1
      = .ok (.ok [1, 2]) ∧
    ∃ fault, (Run.start ((Method.newtonCg {} false).minimize (stretched.model : Model Float Unit)
      [0] {} (Observer.silent : Observer Float Unit) fun _ => .zero).run (({}, ()), ()) #[]).1.1
      = .error fault := by
  have hends : (match (Run.start ((Method.newtonCg {} false).minimize
      (stretched.model : Model Float Unit) [0] {} (Observer.silent : Observer Float Unit)
      fun _ => .zero).run (({}, ()), ()) #[]).1.1 with
    | .error _ => true
    | .ok _ => false) = true := by decide +kernel
  refine ⟨rfl, ?_⟩
  split at hends
  · next fault hfault => exact ⟨fault, hfault⟩
  · cases hends

end Problem

end Descent
