import Descent.Proofs.Exact

/-!
# The order of scalars

Comparisons with a NaN are false. Between other scalars they are those of a total order, which is
all that `Scalar.Ordered` asks for, and which holds of the reals and of doubles alike: nothing is
said about the arithmetic.
-/

set_option autoImplicit false

namespace Descent

namespace Scalar

/-- The scalars that are no NaN are in a total order. -/
class Ordered (α : Type) [Scalar α] : Prop where
  lt_irrefl : ∀ a : α, ¬ a < a
  le_of_not_lt : ∀ {a b : α}, isNaN a = false → isNaN b = false → ¬ b < a → a ≤ b

theorem Ordered.le_refl {α : Type} [Scalar α] [Ordered α] {a : α} (h : isNaN a = false) : a ≤ a :=
  le_of_not_lt h h (lt_irrefl a)

section Extremes

variable {α : Type} [Scalar α] {a b : α}

theorem isNaN_minNum (h : isNaN a = false) : isNaN (minNum a b) = false := by
  unfold minNum
  split
  · exact h
  · split
    · exact h
    · next hb => exact Bool.eq_false_iff.mpr hb

/-- The smaller of two scalars is either of them. -/
theorem minNum_mem (P : α → Prop) (ha : P a) (hb : P b) : P (minNum a b) := by
  unfold minNum
  split
  · exact ha
  · split
    · exact ha
    · exact hb

end Extremes

instance [RealConstants] : Ordered ℝ where
  lt_irrefl a := lt_irrefl a
  le_of_not_lt _ _ h := not_lt.mp h

end Scalar

/-! ## Doubles -/

section Double

open Float.Model

/-- Finite numbers of one sign compare by exponent and then by mantissa. -/
theorem compare_then_swap (e f : Int) (m k : Nat) :
    (compare f e).then (compare k m) = ((compare e f).then (compare m k)).swap := by
  rw [Ordering.swap_then, Int.compare_swap, Nat.compare_swap]

/-- Turning a comparison round reverses it. -/
theorem compare_swap (a b : UnpackedFloat) : b.compare a = (a.compare b).map Ordering.swap := by
  rcases a with s | _ | s | ⟨s, m, e, hm⟩ <;> rcases b with t | _ | t | ⟨t, k, f, hk⟩ <;>
    (try cases s) <;> (try cases t) <;> try rfl
  · exact congrArg (fun o => some o.swap) (compare_then_swap e f m k)
  · exact congrArg some (compare_then_swap e f m k)

/-- Only a NaN does not compare. -/
theorem compare_eq_none {a b : UnpackedFloat} (h : a.compare b = none) :
    a.compare a = none ∨ b.compare b = none := by
  rcases a with s | _ | s | ⟨s, m, e, hm⟩ <;> rcases b with t | _ | t | ⟨t, k, f, hk⟩ <;>
    (try cases s) <;> (try cases t) <;> first | exact .inl rfl | exact .inr rfl | cases h

theorem compare_self_ne_lt (a : UnpackedFloat) : a.compare a ≠ some .lt := by
  intro h
  have := compare_swap a a
  rw [h] at this
  cases this

/-- How two doubles compare, if neither is a NaN. -/
def order (a b : Float) : Option Ordering := a.toModel.unpack.compare b.toModel.unpack

theorem float_lt_iff (a b : Float) : a < b ↔ order a b = some .lt := by
  show decide ((a.toModel.unpack.compare b.toModel.unpack == some .lt) = true) = true ↔ _
  simp [order]

theorem float_le_iff (a b : Float) : a ≤ b ↔ (order a b).any (·.isLE) = true := by
  show decide ((a.toModel.unpack.compare b.toModel.unpack).any (·.isLE) = true) = true ↔ _
  simp [order]

theorem order_self_of_not_nan {a : Float} (h : Scalar.isNaN a = false) : order a a ≠ none := by
  intro hnone
  have hself : (a == a) = true := by simpa [Scalar.isNaN] using h
  change (order a a == some .eq) = true at hself
  rw [hnone] at hself
  cases hself

instance : Scalar.Ordered Float where
  lt_irrefl a h := compare_self_ne_lt _ ((float_lt_iff a a).mp h)
  le_of_not_lt {a b} ha hb hba := by
    rw [float_lt_iff] at hba
    rw [float_le_iff]
    cases horder : order a b with
    -- two doubles that do not compare are not both numbers
    | none =>
        rcases compare_eq_none horder with h | h
        · exact absurd h (order_self_of_not_nan ha)
        · exact absurd h (order_self_of_not_nan hb)
    | some o =>
        have hswap : order b a = some o.swap := by
          rw [order, compare_swap, ← order, horder, Option.map_some]
        rw [hswap] at hba
        cases o with
        | gt => exact absurd rfl hba
        | lt => rfl
        | eq => rfl

end Double

end Descent
