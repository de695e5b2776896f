import Mathlib
import Descent.Proofs.Extended

/-!
# Comparisons of the floating-point standard

`Scalar.Standard` collects what every precision has in common, rounded or not: numbers that are no
NaN are in a total order, and a finite number divided by one that is at least 1 is no NaN. The reals
are standard, with infinities and without, and so are `Float` and `Float32`. For these the order is
read off the sign, the exponent and the mantissa (`isLE_compare_iff`), and a number that is packed
into bits is no NaN if it was none before (`isNaN_unpack_pack`).
-/

set_option autoImplicit false

namespace Descent

namespace Scalar

/-- What the standard says of the order and of quotients. -/
class Standard (α : Type) [Scalar α] : Prop where
  le_total : ∀ {a b : α}, isNaN a = false → isNaN b = false → a ≤ b ∨ b ≤ a
  le_trans : ∀ {a b c : α}, a ≤ b → b ≤ c → a ≤ c
  isNaN_zero : isNaN (0 : α) = false
  isNaN_one : isNaN (1 : α) = false
  isNaN_infinity : isNaN (infinity : α) = false
  isNaN_div : ∀ {a b : α}, isFinite a = true → 1 ≤ b → isNaN (a / b) = false

namespace Standard

variable {α : Type} [Scalar α] [Standard α] {a b c : α}

theorem le_refl (ha : isNaN a = false) : a ≤ a := or_self_iff.mp (le_total ha ha)

theorem one_le_maxNum (b : α) : 1 ≤ maxNum 1 b := by
  unfold maxNum
  split
  · exact le_refl isNaN_one
  · next hle =>
      split
      · exact le_refl isNaN_one
      · next hb => exact (le_total isNaN_one (Bool.eq_false_iff.mpr hb)).resolve_right hle

omit [Standard α] in
theorem isNaN_maxNum (ha : isNaN a = false) (hb : isNaN b = false) :
    isNaN (maxNum a b) = false := by
  unfold maxNum
  split
  · exact ha
  · rwa [hb]

/-- The greater of two numbers is at most a third if both are. -/
theorem maxNum_le_iff (ha : isNaN a = false) (hb : isNaN b = false) :
    maxNum a b ≤ c ↔ a ≤ c ∧ b ≤ c := by
  unfold maxNum
  split
  · next hba => exact ⟨fun h => ⟨h, le_trans hba h⟩, fun h => h.1⟩
  · next hba =>
      have hab : a ≤ b := (le_total ha hb).resolve_right hba
      rw [hb]
      exact ⟨fun h => ⟨le_trans hab h, h⟩, fun h => h.2⟩

/-- A number is at most the smaller of two if it is at most both. -/
theorem le_minNum_iff (ha : isNaN a = false) (hb : isNaN b = false) :
    c ≤ minNum a b ↔ c ≤ a ∧ c ≤ b := by
  unfold minNum
  split
  · next hab => exact ⟨fun h => ⟨h, le_trans h hab⟩, fun h => h.1⟩
  · next hab =>
      have hba : b ≤ a := (le_total ha hb).resolve_left hab
      rw [hb]
      exact ⟨fun h => ⟨le_trans h hba, h⟩, fun h => h.2⟩

/-- A number is at most the smallest of several if it is at most each of them. -/
theorem le_foldl_minNum_iff {terms : List α} (ha : isNaN a = false)
    (hterms : ∀ b ∈ terms, isNaN b = false) :
    c ≤ terms.foldl minNum a ↔ c ≤ a ∧ ∀ b ∈ terms, c ≤ b := by
  induction terms generalizing a with
  | nil => simp
  | cons b terms ih =>
      obtain ⟨hb, hterms⟩ := List.forall_mem_cons.mp hterms
      rw [List.foldl_cons, ih (isNaN_minNum ha) hterms, le_minNum_iff ha hb, List.forall_mem_cons,
        and_assoc]

end Standard

instance [RealConstants] : Standard ℝ where
  le_total _ _ := le_total _ _
  le_trans h h' := le_trans h h'
  isNaN_zero := real_isNaN 0
  isNaN_one := real_isNaN 1
  isNaN_infinity := real_isNaN _
  isNaN_div _ _ := real_isNaN _

instance [RealConstants] : Standard Extended where
  le_total {a b} ha hb := by
    cases a <;> cases b <;>
      first
      | exact (Extended.isNaN_eq_false.mp ha rfl).elim
      | exact (Extended.isNaN_eq_false.mp hb rfl).elim
      | exact .inl trivial
      | exact .inr trivial
      | exact le_total (α := ℝ) _ _
  le_trans {a b c} hab hbc := by
    cases a <;> cases b <;> cases c <;>
      first
      | exact hab.elim
      | exact hbc.elim
      | exact trivial
      | exact le_trans (α := ℝ) hab hbc
  isNaN_zero := Extended.isNaN_real
  isNaN_one := Extended.isNaN_real
  isNaN_infinity := rfl
  isNaN_div {a b} ha hb := by
    obtain ⟨r, rfl⟩ := Extended.exists_real ha
    cases b with
    | real s =>
        have hs : s ≠ 0 := (lt_of_lt_of_le one_pos (Extended.real_le.mp hb)).ne'
        rw [Extended.real_div hs]
        exact Extended.isNaN_real
    | top => exact Extended.isNaN_real
    | _ => exact hb.elim

end Scalar

/-! ## Packed numbers -/

section Packed

open Float.Model

/-- Where a number stands: between the infinities by its sign, among the finite numbers of one sign
by exponent and mantissa. -/
def rank : UnpackedFloat → Option (Int ×ₗ Int ×ₗ Int)
  | .notANumber => none
  | .infinity .negative => some (toLex (-2, toLex (0, 0)))
  | .finite .negative m e _ => some (toLex (-1, toLex (-e, -m)))
  | .zero _ => some (toLex (0, toLex (0, 0)))
  | .finite .positive m e _ => some (toLex (1, toLex (e, m)))
  | .infinity .positive => some (toLex (2, toLex (0, 0)))

theorem isLE_then_iff {e f : Int} {m k : Nat} :
    ((compare e f).then (compare m k)).isLE = true ↔ e < f ∨ e = f ∧ m ≤ k := by
  rcases lt_trichotomy e f with h | h | h
  · simp [compare_lt_iff_lt.mpr h, h]
  · simp [h, Nat.isLE_compare]
  · simp [compare_gt_iff_gt.mpr h, h.not_gt, h.ne']

theorem isGE_then_iff {e f : Int} {m k : Nat} :
    ((compare e f).then (compare m k)).isGE = true ↔ f < e ∨ e = f ∧ k ≤ m := by
  rw [← Ordering.isLE_swap, ← compare_then_swap, isLE_then_iff, eq_comm]

/-- One number is at most another if it does not stand behind it. -/
theorem isLE_compare_iff {a b : UnpackedFloat} : (a.compare b).any (·.isLE) = true ↔
    ∃ r s, rank a = some r ∧ rank b = some s ∧ r ≤ s := by
  rcases a with s | _ | s | ⟨s, m, e, hm⟩ <;> rcases b with t | _ | t | ⟨t, k, f, hk⟩ <;>
    (try cases s) <;> (try cases t) <;>
    simp [rank, UnpackedFloat.compare, Prod.Lex.toLex_le_toLex, isLE_then_iff, isGE_then_iff] <;>
    rfl

/-- A number is no NaN exactly if it equals itself. -/
theorem compare_self_eq (a : UnpackedFloat) :
    (a.compare a == some .eq) = !a.isNaN := by
  rw [Bool.eq_iff_iff, Bool.not_eq_true', ← Bool.not_eq_true, UnpackedFloat.isNaN_iff]
  exact (UnpackedFloat.beq_iff_ne_notANumber_and_eq a a).trans (by simp)

theorem compare_le_trans {a b c : UnpackedFloat} (hab : (a.compare b).any (·.isLE) = true)
    (hbc : (b.compare c).any (·.isLE) = true) : (a.compare c).any (·.isLE) = true := by
  rw [isLE_compare_iff] at *
  obtain ⟨r, s, hr, hs, hrs⟩ := hab
  obtain ⟨q, t, hq, ht, hqt⟩ := hbc
  obtain rfl := Option.some.inj (hs.symm.trans hq)
  exact ⟨r, t, hr, ht, le_trans hrs hqt⟩

theorem exists_rank {a : UnpackedFloat} (ha : a.isNaN = false) : ∃ r, rank a = some r := by
  rcases a with s | _ | s | ⟨s, m, e, hm⟩ <;> (try cases s) <;> first | exact ⟨_, rfl⟩ | cases ha

theorem compare_le_total {a b : UnpackedFloat} (ha : a.isNaN = false) (hb : b.isNaN = false) :
    (a.compare b).any (·.isLE) = true ∨ (b.compare a).any (·.isLE) = true := by
  obtain ⟨r, hr⟩ := exists_rank ha
  obtain ⟨s, hs⟩ := exists_rank hb
  rw [isLE_compare_iff, isLE_compare_iff]
  exact (le_total r s).imp (fun h => ⟨r, s, hr, hs, h⟩) fun h => ⟨s, r, hs, hr, h⟩

/-- What is packed into bits is no NaN if it was none before. -/
theorem isNaN_unpack_pack (format : Format) {a : UnpackedFloat} (ha : a.isNaN = false) :
    (UnpackedFloat.unpack format (UnpackedFloat.pack format a)).isNaN = false := by
  -- a NaN has the greatest exponent and a mantissa other than zero
  have hnumber : ∀ sign exponent mantissa, exponent ≠ -1#_ ∨ mantissa = 0#_ →
      (UnpackedFloat.unpack format
        (UnpackedFloat.packComponents format sign exponent mantissa)).isNaN = false := by
    intro sign exponent mantissa h
    rw [UnpackedFloat.unpack]
    simp only [UnpackedFloat.unpackExponent_packComponents,
      UnpackedFloat.unpackMantissa_packComponents]
    split
    · next hexponent =>
        rw [if_pos (h.resolve_left (not_not_intro hexponent))]
        rfl
    · split
      · split <;> rfl
      · rfl
  fun_cases UnpackedFloat.pack format a with
  | case1 => cases ha
  | case2 s => exact hnumber _ _ _ (.inr rfl)
  | case3 s => exact hnumber _ _ _ (.inr rfl)
  | case4 s m e hm biased h => exact hnumber _ _ _ (.inr rfl)
  | case5 s m e hm actual biased h₁ h₂ =>
      -- a greater exponent would have become an infinity
      refine hnumber _ _ _ (.inl fun h => ?_)
      have hbits : biased % 2 ^ format.exponentBits = 2 ^ format.exponentBits - 1 := by
        simpa [BitVec.neg_one_eq_allOnes, ← BitVec.toNat_inj] using h
      rw [Nat.mod_eq_of_lt (by omega)] at hbits
      omega
  | case6 s m e hm actual biased h₁ h₂ =>
      refine hnumber _ _ _ (.inl fun h => ?_)
      have hbits : 0 = 2 ^ format.exponentBits - 1 := by
        simpa [BitVec.neg_one_eq_allOnes, ← BitVec.toNat_inj] using h
      have hmany := Nat.one_lt_two_pow format.he.ne'
      omega

/-- A finite number divided by what is at least a positive one is no NaN, being a zero, an infinity
or a finite number. -/
theorem isNaN_div {format : Format} {a b : UnpackedFloat} {m : Nat} {e : Int} {hm : 0 < m}
    (ha : a.isFinite = true)
    (hb : ((UnpackedFloat.finite .positive m e hm).compare b).any (·.isLE) = true) :
    (UnpackedFloat.div format a b).isNaN = false := by
  cases a with
  | infinity s => cases ha
  | notANumber => cases ha
  | zero s =>
      cases b with
      | infinity t => rfl
      | notANumber => cases hb
      | zero t => cases hb
      | finite t l g hl => rfl
  | finite s k f hk =>
      cases b with
      | infinity t => rfl
      | notANumber => cases hb
      | zero t => cases hb
      | finite t l g hl =>
          unfold UnpackedFloat.div UnpackedFloat.roundWithAccuracy
          dsimp only
          split <;> rfl

end Packed

/-! ## Doubles and singles -/

theorem float_isNaN (x : Float) : Scalar.isNaN x = x.toModel.unpack.isNaN := by
  show (!(x.toModel.unpack.compare x.toModel.unpack == some .eq)) = _
  rw [compare_self_eq, Bool.not_not]

instance : Scalar.Standard Float where
  le_total {a b} ha hb := by
    rw [float_isNaN] at ha hb
    rw [float_le_iff, float_le_iff]
    exact compare_le_total ha hb
  le_trans {a b c} hab hbc := by
    rw [float_le_iff] at *
    exact compare_le_trans hab hbc
  isNaN_zero := by rw [float_isNaN]; rfl
  isNaN_one := by rw [float_isNaN]; rfl
  isNaN_infinity := by rw [float_isNaN]; rfl
  isNaN_div {a b} ha hb := by
    rw [float_le_iff] at hb
    rw [float_isNaN]
    exact isNaN_unpack_pack _ (isNaN_div ha hb)

theorem float32_isNaN (x : Float32) : Scalar.isNaN x = x.toModel.unpack.isNaN := by
  show (!(x.toModel.unpack.compare x.toModel.unpack == some .eq)) = _
  rw [compare_self_eq, Bool.not_not]

theorem float32_le_iff (a b : Float32) :
    a ≤ b ↔ (a.toModel.unpack.compare b.toModel.unpack).any (·.isLE) = true := by
  show decide ((a.toModel.unpack.compare b.toModel.unpack).any (·.isLE) = true) = true ↔ _
  simp

instance : Scalar.Standard Float32 where
  le_total {a b} ha hb := by
    rw [float32_isNaN] at ha hb
    rw [float32_le_iff, float32_le_iff]
    exact compare_le_total ha hb
  le_trans {a b c} hab hbc := by
    rw [float32_le_iff] at *
    exact compare_le_trans hab hbc
  isNaN_zero := by rw [float32_isNaN]; rfl
  isNaN_one := by rw [float32_isNaN]; rfl
  isNaN_infinity := by rw [float32_isNaN]; rfl
  isNaN_div {a b} ha hb := by
    rw [float32_le_iff] at hb
    rw [float32_isNaN]
    exact isNaN_unpack_pack _ (isNaN_div ha hb)

end Descent
