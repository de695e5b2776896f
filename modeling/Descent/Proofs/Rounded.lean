import Descent.Proofs.Packed.Rounding

/-!
# Laws of rounded arithmetic

`Scalar.Rounded` collects what is left of the arithmetic after rounding and what the solvers rely
on. Doubles and singles have these laws because they are words of a binary format (`Scalar.Packed`).
-/

set_option autoImplicit false

namespace Descent

open Float.Model

namespace Scalar

/-- What rounding leaves of multiplication by one and of the order between a root and a fraction of
it. -/
class Rounded (α : Type) [Scalar α] : Prop where
  mul_one : ∀ {a : α}, isFinite a = true → a * 1 = a
  isFinite_sqrt_of_le : ∀ {a b : α}, isFinite b = true → sqrt a ≤ b → isFinite (sqrt a) = true
  isFinite_mul_sqrt : ∀ {r a : α}, 0 ≤ r → r < 1 → isFinite (sqrt a) = true →
    isFinite (r * sqrt a) = true
  sqrt_le_zero : ∀ {r a : α}, 0 ≤ r → r < 1 → isFinite (sqrt a) = true → sqrt a ≤ r * sqrt a →
    sqrt a ≤ 0
  /-- A root that is not finite is below every fraction of it that anything is below. -/
  sqrt_le_mul : ∀ {r a b : α}, 0 ≤ r → r < 1 → isFinite (sqrt a) = false → b ≤ r * sqrt a →
    sqrt a ≤ r * sqrt a ∧ 0 < r

class Packed (α : Type) [Scalar α] where
  format : Format
  wide : IsWide format
  bits : α → BitVec format.numBits
  bits_inj : ∀ {a b : α}, bits a = bits b → a = b
  le_iff : ∀ {a b : α}, a ≤ b ↔ ((UnpackedFloat.unpack format (bits a)).compare
    (UnpackedFloat.unpack format (bits b))).any (·.isLE) = true
  lt_iff : ∀ {a b : α}, a < b ↔ (UnpackedFloat.unpack format (bits a)).compare
    (UnpackedFloat.unpack format (bits b)) = some .lt
  isFinite_eq : ∀ a : α, isFinite a = (UnpackedFloat.unpack format (bits a)).isFinite
  bits_mul : ∀ a b : α, bits (a * b) = UnpackedFloat.pack format (UnpackedFloat.mul format
    (UnpackedFloat.unpack format (bits a)) (UnpackedFloat.unpack format (bits b)))
  bits_sqrt : ∀ a : α, bits (sqrt a) = UnpackedFloat.pack format (UnpackedFloat.sqrt format
    (UnpackedFloat.unpack format (bits a)))
  unpack_zero : UnpackedFloat.unpack format (bits 0) = .zero .positive
  unpack_one : UnpackedFloat.unpack format (bits 1) =
    .finite .positive (2 ^ format.mantissaBitsWithoutImplicit)
      (-(format.mantissaBitsWithoutImplicit : Int)) (Nat.two_pow_pos _)

instance : Packed Float where
  format := .binary64
  wide := isWide_binary64
  bits a := a.toModel.toBits.toBitVec
  bits_inj {a b} h := by
    rcases a with ⟨⟨⟨a⟩, ha⟩⟩
    rcases b with ⟨⟨⟨b⟩, hb⟩⟩
    obtain rfl : a = b := h
    rfl
  le_iff := float_le_iff _ _
  lt_iff := float_lt_iff _ _
  isFinite_eq _ := rfl
  bits_mul _ _ := rfl
  bits_sqrt _ := rfl
  unpack_zero := rfl
  unpack_one := rfl

instance : Packed Float32 where
  format := .binary32
  wide := isWide_binary32
  bits a := a.toModel.toBits.toBitVec
  bits_inj {a b} h := by
    rcases a with ⟨⟨⟨a⟩, ha⟩⟩
    rcases b with ⟨⟨⟨b⟩, hb⟩⟩
    obtain rfl : a = b := h
    rfl
  le_iff := float32_le_iff _ _
  lt_iff {a b} := by
    show decide ((a.toModel.unpack.compare b.toModel.unpack == some .lt) = true) = true ↔ _
    simp [Float32.Model.unpack]
  isFinite_eq _ := rfl
  bits_mul _ _ := rfl
  bits_sqrt _ := rfl
  unpack_zero := rfl
  unpack_one := rfl

/-! ## Laws of words -/

namespace Packed

variable {α : Type} [Scalar α] [Packed α] {a b r : α}

def unpacked (a : α) : UnpackedFloat := UnpackedFloat.unpack (format α) (bits a)

theorem le_iff_unpacked :
    a ≤ b ↔ ((unpacked a).compare (unpacked b)).any (·.isLE) = true :=
  le_iff

theorem isFinite_unpacked (a : α) : (unpacked a).isFinite = isFinite a := (isFinite_eq a).symm

theorem unpacked_mul (a b : α) : unpacked (a * b) = UnpackedFloat.unpack (format α)
    (UnpackedFloat.pack (format α) (UnpackedFloat.mul (format α) (unpacked a) (unpacked b))) :=
  congrArg (UnpackedFloat.unpack (format α)) (bits_mul a b)

theorem isRoot_unpacked (a : α) : IsRoot (format α) (unpacked (sqrt a)) := by
  rw [unpacked, bits_sqrt]
  exact isRoot_sqrt wide _

/-- A scalar from zero to below one is a fraction. -/
theorem isFraction_unpacked (h₀ : 0 ≤ r) (h₁ : r < 1) : IsFraction (format α) (unpacked r) := by
  have hbits : (format α).mantissaBits = 1 + (format α).mantissaBitsWithoutImplicit := rfl
  rw [le_iff_unpacked, unpacked, unpack_zero] at h₀
  rw [lt_iff, unpack_one] at h₁
  change (unpacked r).compare _ = _ at h₁
  rcases hr : unpacked r with s | _ | s | ⟨s, m, e, hm⟩
  · rw [hr] at h₀ h₁
    cases s
    · cases h₀
    · cases h₁
  · rw [hr] at h₁
    cases h₁
  · exact .zero s
  · rw [hr] at h₀ h₁
    cases s
    · cases h₀
    · have hholds := holds_of_unpack wide hr
      have hwide : IsWide (format α) := wide
      unfold IsWide at hwide
      refine .finite hholds ?_
      rcases Ordering.then_eq_lt.mp (Option.some.inj h₁) with hlt | ⟨heq, hlt⟩
      · have hlt := compare_lt_iff_lt.mp hlt
        omega
      -- a number with the exponent of one and a shorter mantissa would have the least exponent
      · have heq := compare_eq_iff_eq.mp heq
        have hlt := compare_lt_iff_lt.mp hlt
        rcases hholds.full with hfull | hleast
        · omega
        · omega

theorem mul_one (h : isFinite a = true) : a * 1 = a := by
  have hfinite := h
  rw [isFinite_eq] at hfinite
  refine bits_inj ?_
  rw [bits_mul, unpack_one]
  refine Eq.trans ?_ (pack_unpack wide hfinite)
  cases ha : UnpackedFloat.unpack (format α) (bits a) with
  | infinity => rw [ha] at hfinite; cases hfinite
  | notANumber => rw [ha] at hfinite; cases hfinite
  | zero s => cases s <;> rfl
  | finite s m e hm =>
      exact congrArg _ (mul_one_finite s (holds_of_unpack wide ha).toCanonical _)

theorem isFinite_sqrt_of_le (hb : isFinite b = true) (h : sqrt a ≤ b) :
    isFinite (sqrt a) = true := by
  have hroot := isRoot_unpacked a
  rw [← isFinite_unpacked] at hb ⊢
  rw [le_iff_unpacked] at h
  generalize unpacked (sqrt a) = u at hroot h ⊢
  generalize unpacked b = v at hb h
  cases hroot with
  | notANumber => cases h
  | zero s => rfl
  | finite => rfl
  | infinity =>
      rcases v with s | _ | s | ⟨s, m, e, hm⟩
      · cases hb
      · cases hb
      · cases h
      · cases h

/-- A finite root times a fraction. -/
theorem mul_sqrt_cases (h₀ : 0 ≤ r) (h₁ : r < 1) (h : isFinite (sqrt a) = true) :
    (∃ s, unpacked (r * sqrt a) = .zero s) ∨
      ∃ m e M E, ∃ h : 0 < m, ∃ h' : 0 < M, unpacked (sqrt a) = .finite .positive m e h ∧
        unpacked (r * sqrt a) = .finite .positive M E h' ∧ (E < e ∨ E = e ∧ M < m) := by
  rw [← isFinite_unpacked] at h
  rw [unpacked_mul]
  exact mul_root_cases wide (isFraction_unpacked h₀ h₁) (isRoot_unpacked a) h

theorem isFinite_mul_sqrt (h₀ : 0 ≤ r) (h₁ : r < 1) (h : isFinite (sqrt a) = true) :
    isFinite (r * sqrt a) = true := by
  rw [← isFinite_unpacked]
  obtain ⟨s, hzero⟩ | ⟨m, e, M, E, _, _, -, hmul, -⟩ := mul_sqrt_cases h₀ h₁ h
  · rw [hzero]
    rfl
  · rw [hmul]
    rfl

theorem sqrt_le_zero (h₀ : 0 ≤ r) (h₁ : r < 1) (h : isFinite (sqrt a) = true)
    (hle : sqrt a ≤ r * sqrt a) : sqrt a ≤ 0 := by
  rw [le_iff_unpacked] at hle
  obtain ⟨s, hzero⟩ | ⟨m, e, M, E, hm, hM, hroot, hmul, hlt⟩ := mul_sqrt_cases h₀ h₁ h
  -- zeros compare alike, whatever their signs
  · have hsign : ∀ u : UnpackedFloat, u.compare (.zero s) = u.compare (.zero .positive) := by
      rintro (⟨_ | _⟩ | _ | _ | ⟨_ | _, _, _, _⟩) <;> cases s <;> rfl
    rw [hzero, hsign] at hle
    rw [le_iff_unpacked, show unpacked (0 : α) = .zero .positive from unpack_zero]
    exact hle
  · rw [hroot, hmul] at hle
    have hthen := isLE_then_iff.mp hle
    omega

theorem sqrt_le_mul (h₀ : 0 ≤ r) (h₁ : r < 1) (h : isFinite (sqrt a) = false)
    (hb : b ≤ r * sqrt a) : sqrt a ≤ r * sqrt a ∧ 0 < r := by
  have hroot := isRoot_unpacked a
  have hfraction := isFraction_unpacked h₀ h₁
  rw [← isFinite_unpacked] at h
  rw [le_iff_unpacked, unpacked_mul] at hb ⊢
  rw [lt_iff, unpack_zero]
  change _ ∧ (UnpackedFloat.zero .positive).compare (unpacked r) = _
  generalize unpacked (sqrt a) = u at hroot h hb ⊢
  generalize unpacked b = v at hb
  generalize unpacked r = w at hfraction hb ⊢
  -- nothing is below a NaN
  have hnone : ∀ p, p = .notANumber → ¬ (v.compare (UnpackedFloat.unpack (format α)
      (UnpackedFloat.pack (format α) p))).any (·.isLE) = true := by
    rintro p rfl
    rw [unpack_pack_notANumber]
    cases v <;> simp [UnpackedFloat.compare]
  cases hroot with
  | zero s => cases h
  | finite => cases h
  | notANumber => exact (hnone _ (by cases hfraction <;> rfl) hb).elim
  | infinity =>
      cases hfraction with
      | zero s => exact (hnone _ rfl hb).elim
      | finite =>
          -- an infinity, whatever the fraction
          change ((UnpackedFloat.infinity .positive).compare (UnpackedFloat.unpack _
            (UnpackedFloat.pack (format α) (.infinity .positive)))).any _ = true ∧ _
          rw [unpack_pack_infinity]
          exact ⟨rfl, rfl⟩

end Packed

instance {α : Type} [Scalar α] [Packed α] : Rounded α where
  mul_one := Packed.mul_one
  isFinite_sqrt_of_le := Packed.isFinite_sqrt_of_le
  isFinite_mul_sqrt := Packed.isFinite_mul_sqrt
  sqrt_le_zero := Packed.sqrt_le_zero
  sqrt_le_mul := Packed.sqrt_le_mul

end Scalar

end Descent
