import Descent.Proofs.Extended.Vectors
import Descent.Proofs.Outcome
import Descent.TrustRegion

/-!
# Without bounds

In the box that has no finite bound every real point is its own projection (`project_unbounded`), no
bound is active, and the projected gradient is the gradient (`optimality_unbounded`). It is the box
of every model whose sides are infinite (`Model.box_of_infinite`).
-/

set_option autoImplicit false

namespace Descent

open Extended Vec

variable [RealConstants] {n : Nat}

namespace Box

theorem unbounded_eq (n : Nat) : (unbounded n : Box Extended) = List.replicate n ⟨bottom, top⟩ :=
  rfl

theorem checkFrom_unbounded (k n : Nat) : checkFrom k (unbounded n : Box Extended) = .ok () := by
  have hvalid : (⟨bottom, top⟩ : Interval Extended).isValid = true := by
    have hbelow : ¬ (top : Extended) < bottom := id
    simp [Interval.isValid, hbelow]
  induction n generalizing k with
  | zero => rfl
  | succ n ih =>
      rw [unbounded_eq, List.replicate_succ, checkFrom, if_pos hvalid]
      exact ih (k + 1)

/-- A real point is its own projection. -/
theorem project_unbounded (x : Vec ℝ) :
    (unbounded x.length : Box Extended).project (embed x) = .ok (embed x) := by
  have hclamp : ∀ r : ℝ, (⟨bottom, top⟩ : Interval Extended).clamp (real r) = real r := by
    intro r
    have hraised : Scalar.maxNum (real r) bottom = real r := if_pos trivial
    have hcut : Scalar.minNum (real r) top = real r := if_pos trivial
    rw [Interval.clamp, hraised, hcut]
  rw [project, combine, if_pos (by simp [unbounded])]
  refine congrArg Except.ok ?_
  induction x with
  | nil => rfl
  | cons r x ih =>
      show (⟨bottom, top⟩ : Interval Extended).clamp (real r)
        :: List.zipWith Interval.clamp (unbounded x.length) (embed x) = real r :: embed x
      rw [hclamp, ih]

/-- No bound is active. -/
theorem activeMask_unbounded {x : Vec Extended} (hx : x.length = n) (tol : Extended)
    (g : Vec Extended) : activeMask tol (unbounded n) x g = .ok (List.replicate n false) := by
  subst hx
  induction x generalizing g with
  | nil => rfl
  | cons a x ih =>
      have hlower : (⟨bottom, top⟩ : Interval Extended).atLower a tol = false := rfl
      have hupper : (⟨bottom, top⟩ : Interval Extended).atUpper a tol = false := rfl
      rw [unbounded_eq, List.length_cons, List.replicate_succ, activeMask, hlower, hupper]
      show (do
        let active ← (pure false : Checked Bool)
        return active :: (← activeMask tol (unbounded x.length) x g.tail)) = _
      rw [ih]
      rfl

theorem zeroWhere_replicate_false {g : Vec Extended} (hg : g.length = n) :
    zeroWhere (List.replicate n false) g = .ok g := by
  subst hg
  induction g with
  | nil => rfl
  | cons a g ih =>
      rw [List.length_cons, List.replicate_succ, zeroWhere, List.tail_cons, ih]
      rfl

end Box

/-- The measure of optimality is the norm of the gradient. -/
theorem TrustRegion.optimality_unbounded {x g : Vec Extended} (hx : x.length = n)
    (hg : g.length = n) :
    optimality (Box.unbounded n) x g = .ok (norm g, List.replicate n false) := by
  rw [optimality, Box.projectedGradient, Box.activeMask_unbounded hx, Checked.ok_bind,
    Box.zeroWhere_replicate_false hg, Checked.ok_bind, Checked.ok_bind]
  rfl

namespace Model

variable {σ : Type} {m : Model Extended σ}

/-- Infinite sides make the box without bounds. -/
theorem box_of_infinite (h : m.sides =
    (constant m.dimension (-Scalar.infinity), constant m.dimension Scalar.infinity)) :
    m.box = .ok (Box.unbounded m.dimension) := by
  have hsides : List.zipWith Interval.mk (constant m.dimension (-Scalar.infinity))
      (constant m.dimension Scalar.infinity) = (Box.unbounded m.dimension : Box Extended) := by
    rw [constant, constant, List.zipWith_replicate, Nat.min_self]
    rfl
  rw [box, h, ModelError.checkLength, if_pos (length_constant ..), Box.ofSides,
    ModelError.checkLength, if_pos (by simp), hsides]
  show (do
    Box.checkFrom 0 (Box.unbounded m.dimension)
    return Box.unbounded m.dimension) = _
  rw [Box.checkFrom_unbounded]
  rfl

theorem hasBounds_of_infinite (h : m.sides =
    (constant m.dimension (-Scalar.infinity), constant m.dimension Scalar.infinity)) :
    m.hasBounds = false := by
  rw [hasBounds, h, constant, constant, Bool.or_eq_false_iff, List.any_eq_false, List.any_eq_false]
  constructor
  · intro a ha
    rw [List.eq_of_mem_replicate ha]
    exact Bool.false_ne_true
  · intro a ha
    rw [List.eq_of_mem_replicate ha]
    exact Bool.false_ne_true

end Model

end Descent
