import Descent.Proofs.Euclid
import Descent.Proofs.Ordered
import Descent.Proofs.Outcome
import Descent.Model

/-!
# Points of a box

A projected point lies in the box (`holds_project`), whatever was projected, NaNs and infinities
included: clamping only compares. A Cauchy point `x + (P(x - a g) - x)` is another matter
(`CauchyPoint`). In exact arithmetic it is the projection (`CauchyPoint.holds`), with rounding it
need not be, and the sum may lie outside.
-/

set_option autoImplicit false

namespace Descent

namespace Interval

variable {α : Type} [Scalar α] {i : Interval α}

theorem isValid_iff : i.isValid = true ↔
    Scalar.isNaN i.lower = false ∧ Scalar.isNaN i.upper = false ∧ ¬ i.upper < i.lower := by
  simp [isValid, and_assoc]

theorem contains_iff {a : α} : i.contains a = true ↔ i.lower ≤ a ∧ a ≤ i.upper := by
  simp [contains]

/-- A clamped number lies in the interval. -/
theorem contains_clamp [Scalar.Ordered α] (hi : i.isValid = true) (a : α) :
    i.contains (i.clamp a) = true := by
  obtain ⟨hlower, hupper, hle⟩ := isValid_iff.mp hi
  have hraised : i.lower ≤ Scalar.maxNum a i.lower := by
    unfold Scalar.maxNum
    by_cases h : i.lower ≤ a
    · rw [if_pos h]
      exact h
    · simpa [h, hlower] using Scalar.Ordered.le_refl hlower
  rw [contains_iff, clamp, Scalar.minNum]
  by_cases h : Scalar.maxNum a i.lower ≤ i.upper
  -- cut at the lower end, or not at all
  · rw [if_pos h]
    exact ⟨hraised, h⟩
  -- cut at the upper end
  · have hends : i.lower ≤ i.upper := Scalar.Ordered.le_of_not_lt hlower hupper hle
    simpa [h, hupper] using ⟨hends, Scalar.Ordered.le_refl hupper⟩

end Interval

namespace Box

variable {α : Type} [Scalar α] {b : Box α}

def Holds (b : Box α) (x : Vec α) : Prop := b.contains x = .ok true

instance (b : Box α) (x : Vec α) : Decidable (b.Holds x) :=
  match h : b.contains x with
  | .ok true => isTrue h
  | .ok false => isFalse fun h' => by rw [Holds, h] at h'; cases h'
  | .error _ => isFalse fun h' => by rw [Holds, h] at h'; cases h'

theorem holds_nil : b.Holds [] := by
  unfold Holds contains
  rfl

theorem holds_cons {i : Interval α} {a : α} {x : Vec α} :
    Holds (i :: b) (a :: x) ↔ i.contains a = true ∧ b.Holds x := by
  unfold Holds
  rw [contains]
  split <;> simp [*]

def IsValid (b : Box α) : Prop := ∀ i ∈ b, i.isValid = true

theorem isValid_of_checkFrom {k : Nat} (h : checkFrom k b = .ok ()) : b.IsValid := by
  induction b generalizing k with
  | nil => simp [IsValid]
  | cons i b ih =>
      rw [checkFrom] at h
      split at h
      · next hi => exact List.forall_mem_cons.mpr ⟨hi, ih h⟩
      · cases h

theorem isValid_of_ofSides {lower upper : Vec α} (h : ofSides lower upper = .ok b) :
    b.IsValid := by
  obtain ⟨_, _, h⟩ := exists_of_bind_ok h
  obtain ⟨_, hcheck, h⟩ := exists_of_bind_ok h
  cases h
  exact isValid_of_checkFrom hcheck

theorem holds_zipWith [Scalar.Ordered α] (hb : b.IsValid) (x : Vec α) :
    b.Holds (List.zipWith Interval.clamp b x) := by
  induction b generalizing x with
  | nil => exact holds_nil
  | cons i b ih =>
      obtain ⟨hi, hb⟩ := List.forall_mem_cons.mp hb
      cases x with
      | nil => exact holds_nil
      | cons a x => exact holds_cons.mpr ⟨i.contains_clamp hi a, ih hb x⟩

/-- A projected point lies in the box. -/
theorem holds_project [Scalar.Ordered α] (hb : b.IsValid) {x y : Vec α}
    (h : b.project x = .ok y) : b.Holds y := by
  unfold project Vec.combine at h
  split at h
  · cases h
    exact holds_zipWith hb x
  · cases h

/-! ## Entries -/

section Entries

variable {x : Vec α}

/-- A vector lies in the box if each entry lies in the interval at its place. -/
theorem holds_iff_getElem? : b.Holds x ↔
    ∀ (i : Nat) (a : α), x[i]? = some a → ∃ j, b[i]? = some j ∧ j.contains a = true := by
  induction x generalizing b with
  | nil => simp [holds_nil]
  | cons a x ih =>
      cases b with
      | nil =>
          refine iff_of_false (fun h => nomatch h) fun h => ?_
          obtain ⟨j, hj, -⟩ := h 0 a rfl
          cases hj
      | cons j b =>
          rw [holds_cons, ih]
          constructor
          · rintro ⟨ha, hx⟩ (_ | i) c hc
            · cases hc
              exact ⟨j, rfl, ha⟩
            · exact hx i c hc
          · intro h
            refine ⟨?_, fun i c hc => h (i + 1) c hc⟩
            obtain ⟨_, hj, ha⟩ := h 0 a rfl
            cases hj
            exact ha

/-- The binding variables are those whose entries are. -/
theorem getElem?_bindingMask {tol : α} {mask : List Bool} (h : bindingMask tol b x = .ok mask)
    {i : Nat} {a : α} (ha : x[i]? = some a) {j : Interval α} (hj : b[i]? = some j) :
    mask[i]? = some (j.atLower a tol || j.atUpper a tol) := by
  induction x generalizing b i mask with
  | nil => cases ha
  | cons c x ih =>
      cases b with
      | nil => cases hj
      | cons k b =>
          obtain ⟨rest, hrest, h⟩ := exists_of_bind_ok h
          cases h
          cases i with
          | zero =>
              cases ha
              cases hj
              rfl
          | succ i => exact ih hrest ha hj

end Entries

/-! ## Cauchy points -/

/-- `s` is the computed difference between the projection of `x - a g`, for some `a`, and `x`. -/
def CauchyStep (b : Box α) (x g s : Vec α) : Prop :=
  ∃ a q c, Vec.sub x (Vec.scale g a) = .ok q ∧ b.project q = .ok c ∧ Vec.sub c x = .ok s

theorem CauchyStep.length_eq {x g s : Vec α} (h : b.CauchyStep x g s) : b.length = x.length := by
  obtain ⟨a, q, c, hq, hc, -⟩ := h
  exact (Vec.length_combine hc).2.trans (Vec.length_combine hq).1

/-- `p` is the computed sum of `x` and such a difference. -/
def CauchyPoint (b : Box α) (x g p : Vec α) : Prop :=
  ∃ s, b.CauchyStep x g s ∧ Vec.add x s = .ok p

/-- A point that a step from `x` with the gradient `g` may lead to: one of the box, or a Cauchy
point. -/
def Candidate (b : Box α) (x g p : Vec α) : Prop := b.Holds p ∨ b.CauchyPoint x g p

/-- In exact arithmetic the sum is the projection. -/
theorem CauchyPoint.holds [RealConstants] {b : Box ℝ} (hb : b.IsValid) {x g p : Vec ℝ}
    (h : b.CauchyPoint x g p) : b.Holds p := by
  obtain ⟨s, ⟨_, q, c, -, hc, hs⟩, hp⟩ := h
  obtain ⟨-, hlength⟩ := Vec.length_combine hs
  obtain ⟨n, hn⟩ : ∃ n, x.length = n := ⟨_, rfl⟩
  obtain ⟨x, rfl⟩ := exists_coords hn
  obtain ⟨c, rfl⟩ := exists_coords (hlength.trans hn)
  rw [Vec.sub_coords] at hs
  cases hs
  rw [Vec.add_coords, add_sub_cancel] at hp
  cases hp
  exact holds_project hb hc

end Box

/-- The bounds that make a box make a valid one. -/
theorem Model.isValid_box {α σ : Type} [Scalar α] {m : Model α σ} {b : Box α}
    (h : m.box = .ok b) : b.IsValid := by
  obtain ⟨_, _, h⟩ := exists_of_bind_ok h
  exact Box.isValid_of_ofSides h

end Descent
