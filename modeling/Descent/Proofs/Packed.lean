import Mathlib
import Descent.Proofs.Standard

/-!
# Numbers packed into bits

What a word of a binary format holds (`Holds`), and that packing and unpacking undo each other on
finite numbers (`unpack_pack`, `pack_unpack`). Both go by the parts of a word: a number with a full
mantissa keeps its exponent and hides the leading bit of the mantissa, one with fewer bits has the
least exponent, which is written as zero.
-/

set_option autoImplicit false

namespace Descent

open Float.Model Float.Model.UnpackedFloat

variable {format : Format} {m : Nat} {e : Int}

/-! ## Formats -/

/-- The exponents reach so far down that the root of the least number has a full mantissa. -/
def IsWide (format : Format) : Prop := 2 * (format.mantissaBits : Int) + 2 ≤ -format.minExponent

theorem isWide_binary64 : IsWide .binary64 := by unfold IsWide; decide

theorem isWide_binary32 : IsWide .binary32 := by unfold IsWide; decide

theorem IsWide.two_lt (h : IsWide format) : 2 < 2 ^ format.exponentBits := by
  unfold IsWide Format.minExponent Format.mantissaBits at h
  by_contra hbits
  have hexp : format.exponentBits - 1 = 0 := by
    by_contra hne
    have hfour : 2 ^ 2 ≤ 2 ^ format.exponentBits := Nat.pow_le_pow_right (by decide) (by omega)
    omega
  rw [hexp] at h
  have hm := format.hm
  omega

/-- The least exponent in terms of the bias. -/
theorem minExponent_eq (format : Format) : format.minExponent =
    1 - (format.exponentBias : Int) - format.mantissaBitsWithoutImplicit := by
  have hpos : 1 ≤ 2 ^ (format.exponentBits - 1) := Nat.one_le_two_pow
  unfold Format.minExponent Format.exponentBias Format.mantissaBits
  push_cast [Nat.cast_sub hpos]
  omega

theorem two_pow_mantissaBits (format : Format) :
    2 ^ format.mantissaBits = 2 * 2 ^ format.mantissaBitsWithoutImplicit := by
  rw [Format.mantissaBits, pow_add, pow_one]

theorem cast_two_pow_exponentBits (format : Format) :
    ((2 ^ format.exponentBits : Nat) : Int) = 2 ^ format.exponentBits := by
  push_cast
  rfl

/-! ## What a word holds -/

/-- A number written as a format writes it: the mantissa has as many bits as fit, fewer only at the
least exponent. -/
structure Canonical (format : Format) (m : Nat) (e : Int) : Prop where
  pos : 0 < m
  mantissa_lt : m < 2 ^ format.mantissaBits
  le_exponent : format.minExponent ≤ e
  full : 2 ^ format.mantissaBitsWithoutImplicit ≤ m ∨ e = format.minExponent

/-- A number of the format: its exponent is not that of the infinities, either. -/
structure Holds (format : Format) (m : Nat) (e : Int) : Prop extends Canonical format m e where
  exponent_lt : e + format.exponentBias + format.mantissaBitsWithoutImplicit + 1 <
    2 ^ format.exponentBits

/-- The mantissa of a word with the bit that is hidden. -/
theorem toNat_one_append {n : Nat} (mantissa : BitVec n) :
    (1#1 ++ mantissa).toNat = 2 ^ n + mantissa.toNat := by
  rw [BitVec.toNat_append, ← Nat.shiftLeft_add_eq_or_of_lt mantissa.isLt]
  simp [Nat.shiftLeft_eq]

theorem ne_last_of_lt {n k : Nat} (h : k + 1 < 2 ^ n) : BitVec.ofNat n k ≠ -1#n := by
  intro heq
  have hk : k % 2 ^ n = 2 ^ n - 1 := by
    simpa [BitVec.neg_one_eq_allOnes] using congrArg BitVec.toNat heq
  rw [Nat.mod_eq_of_lt (by omega)] at hk
  omega

theorem ne_zero_of_lt {n k : Nat} (hpos : 0 < k) (h : k < 2 ^ n) : BitVec.ofNat n k ≠ 0#n := by
  intro heq
  have hk : k % 2 ^ n = 0 := by simpa using congrArg BitVec.toNat heq
  rw [Nat.mod_eq_of_lt h] at hk
  omega

theorem ofNat_toNat_self {n : Nat} (b : BitVec n) : BitVec.ofNat n b.toNat = b := by
  rw [BitVec.ofNat_toNat, BitVec.setWidth_eq]

/-- The parts of a word that holds a finite number. -/
theorem unpack_eq_finite {b : BitVec format.numBits} {s : Sign} {hm : 0 < m}
    (h : UnpackedFloat.unpack format b = .finite s m e hm) :
    s = Sign.ofBitVec (unpackSign b) ∧
      (unpackExponent b = 0#_ ∧ m = (unpackMantissa b).toNat ∧ e = format.minExponent ∨
        0 < (unpackExponent b).toNat ∧
          (unpackExponent b).toNat + 1 < 2 ^ format.exponentBits ∧
          m = 2 ^ format.mantissaBitsWithoutImplicit + (unpackMantissa b).toNat ∧
          (unpackExponent b).toNat =
            e + format.exponentBias + format.mantissaBitsWithoutImplicit) := by
  have hmin := minExponent_eq format
  have hexponent := (unpackExponent b).isLt
  revert h
  fun_cases UnpackedFloat.unpack format b with
  | case1 => exact nofun
  | case2 => exact nofun
  | case3 => exact nofun
  | case4 mantissa exponent shifted _ _ hlast hzero hsome =>
      intro h
      obtain ⟨hs, hm', he⟩ := UnpackedFloat.finite.inj h
      have hnone : exponent.toNat = 0 := by rw [hzero]; rfl
      exact ⟨hs.symm, .inl ⟨hzero, hm'.symm, by omega⟩⟩
  | case5 mantissa exponent shifted _ _ hlast hzero =>
      intro h
      obtain ⟨hs, hm', he⟩ := UnpackedFloat.finite.inj h
      have hpos : (unpackExponent b).toNat ≠ 0 := fun heq => hzero (BitVec.eq_of_toNat_eq heq)
      have hlt : (unpackExponent b).toNat ≠ 2 ^ format.exponentBits - 1 := fun heq =>
        hlast (BitVec.eq_of_toNat_eq (by
          rw [BitVec.neg_one_eq_allOnes, BitVec.toNat_allOnes, ← heq]))
      change ((unpackExponent b).toNat : Int) -
        (format.exponentBias + format.mantissaBitsWithoutImplicit) = e at he
      exact ⟨hs.symm, .inr ⟨by omega, by omega, hm'.symm.trans (toNat_one_append _), by omega⟩⟩

/-- The parts of a word that holds a zero. -/
theorem unpack_eq_zero {b : BitVec format.numBits} {s : Sign}
    (h : UnpackedFloat.unpack format b = .zero s) :
    s = Sign.ofBitVec (unpackSign b) ∧ unpackExponent b = 0#_ ∧ unpackMantissa b = 0#_ := by
  revert h
  fun_cases UnpackedFloat.unpack format b with
  | case1 => exact nofun
  | case2 => exact nofun
  | case3 _ _ _ _ hlast hzero hnone =>
      exact fun h => ⟨(UnpackedFloat.zero.inj h).symm, hzero, hnone⟩
  | case4 => exact nofun
  | case5 => exact nofun

/-- What a word holds is a number of the format. -/
theorem holds_of_unpack {b : BitVec format.numBits} {s : Sign} {hm : 0 < m}
    (hwide : IsWide format) (h : UnpackedFloat.unpack format b = .finite s m e hm) :
    Holds format m e := by
  have hbits := hwide.two_lt
  have hmin := minExponent_eq format
  have hpow := two_pow_mantissaBits format
  have hmantissa := (unpackMantissa b).isLt
  have hcast := cast_two_pow_exponentBits format
  obtain ⟨-, ⟨-, rfl, rfl⟩ | ⟨hpos, hlast, rfl, he⟩⟩ := unpack_eq_finite h
  · exact ⟨⟨hm, by omega, le_rfl, .inr rfl⟩, by omega⟩
  · exact ⟨⟨hm, by omega, by omega, .inl (by omega)⟩, by omega⟩

/-! ## Words and their parts -/

@[simp] theorem ofBitVec_toBitVec (s : Sign) : Sign.ofBitVec s.toBitVec = s := by
  cases s <;> rfl

@[simp] theorem toBitVec_ofBitVec (b : BitVec 1) : (Sign.ofBitVec b).toBitVec = b := by
  rcases BitVec.eq_zero_or_eq_one b with rfl | rfl <;> rfl

@[simp] theorem unpackSign_packComponents (s : Sign) (exponent : BitVec format.exponentBits)
    (mantissa : BitVec format.mantissaBitsWithoutImplicit) :
    unpackSign (packComponents format s exponent mantissa) = s.toBitVec := by
  ext i hi
  obtain rfl : i = 0 := by omega
  simp [unpackSign, packComponents, BitVec.getLsbD_append, BitVec.getElem_append]

/-- A word is put together from its parts. -/
theorem packComponents_unpack (b : BitVec format.numBits) :
    packComponents format (Sign.ofBitVec (unpackSign b)) (unpackExponent b) (unpackMantissa b)
      = b := by
  rw [packComponents, toBitVec_ofBitVec]
  ext i hi
  simp only [unpackSign, unpackExponent, unpackMantissa, BitVec.extractLsb]
  grind

theorem packComponents_eq {b : BitVec format.numBits} {exponent : BitVec format.exponentBits}
    {mantissa : BitVec format.mantissaBitsWithoutImplicit} (he : unpackExponent b = exponent)
    (hm : unpackMantissa b = mantissa) :
    packComponents format (Sign.ofBitVec (unpackSign b)) exponent mantissa = b := by
  subst he hm
  exact packComponents_unpack b

/-- The parts of a packed number with a full mantissa. -/
theorem pack_full (s : Sign) {k : Nat} (h : Holds format m e)
    (hfull : 2 ^ format.mantissaBitsWithoutImplicit ≤ m)
    (hk : (k : Int) = e + format.exponentBias + format.mantissaBitsWithoutImplicit) :
    UnpackedFloat.pack format (.finite s m e h.pos) =
      packComponents format s (BitVec.ofNat _ k) (BitVec.ofNat _ m) := by
  obtain ⟨⟨hpos, hlt, -, -⟩, hexponent⟩ := h
  have hlog : m.log2 + 1 = format.mantissaBits := by
    have hle := (Nat.le_log2 hpos.ne').mpr hfull
    have hge := (Nat.log2_lt hpos.ne').mpr hlt
    unfold Format.mantissaBits at hge ⊢
    omega
  unfold UnpackedFloat.pack
  dsimp only
  rw [if_neg (by zify; omega), if_pos hlog, ← hk, Int.toNat_natCast]

/-- The parts of a packed number with fewer bits. -/
theorem pack_partial (s : Sign) (hwide : IsWide format) (h : Holds format m e)
    (hpartial : m < 2 ^ format.mantissaBitsWithoutImplicit) :
    UnpackedFloat.pack format (.finite s m e h.pos) =
      packComponents format s 0#_ (BitVec.ofNat _ m) := by
  have hlog : ¬ m.log2 + 1 = format.mantissaBits := by
    have hlt := (Nat.log2_lt h.pos.ne').mpr hpartial
    unfold Format.mantissaBits
    omega
  have hexponent := h.exponent_lt
  have hbits := hwide.two_lt
  have hcast := cast_two_pow_exponentBits format
  unfold UnpackedFloat.pack
  dsimp only
  rw [if_neg (by omega), if_neg hlog]

/-- Unpacking undoes packing. -/
theorem unpack_pack (s : Sign) (hwide : IsWide format) (h : Holds format m e) :
    UnpackedFloat.unpack format (UnpackedFloat.pack format (.finite s m e h.pos)) =
      .finite s m e h.pos := by
  have hmin := minExponent_eq format
  have hle := h.le_exponent
  have hexponent := h.exponent_lt
  by_cases hfull : 2 ^ format.mantissaBitsWithoutImplicit ≤ m
  · obtain ⟨k, hk⟩ : ∃ k : Nat, (k : Int) =
        e + format.exponentBias + format.mantissaBitsWithoutImplicit :=
      ⟨_, Int.toNat_of_nonneg (by omega)⟩
    have hlast : k + 1 < 2 ^ format.exponentBits := by zify; omega
    have hmantissa : (1#1 ++ BitVec.ofNat format.mantissaBitsWithoutImplicit m).toNat = m := by
      have hlt := h.mantissa_lt
      rw [two_pow_mantissaBits] at hlt
      rw [toNat_one_append, BitVec.toNat_ofNat, Nat.mod_eq_sub_mod hfull,
        Nat.mod_eq_of_lt (by omega)]
      omega
    rw [pack_full s h hfull hk]
    unfold UnpackedFloat.unpack
    simp only [unpackMantissa_packComponents, unpackExponent_packComponents,
      unpackSign_packComponents, ofBitVec_toBitVec, if_neg (ne_last_of_lt hlast),
      if_neg (ne_zero_of_lt (by omega : 0 < k) (by omega : k < 2 ^ format.exponentBits)),
      hmantissa, BitVec.toNat_ofNat, Nat.mod_eq_of_lt (by omega : k < 2 ^ format.exponentBits)]
    congr 1
    omega
  · have hpartial := Nat.lt_of_not_le hfull
    obtain rfl : e = format.minExponent := h.full.resolve_left hfull
    have hmantissa : (BitVec.ofNat format.mantissaBitsWithoutImplicit m).toNat = m := by
      rw [BitVec.toNat_ofNat, Nat.mod_eq_of_lt hpartial]
    have hlast : (0#(format.exponentBits)) ≠ -1#_ :=
      ne_last_of_lt (by have := hwide.two_lt; omega : 0 + 1 < 2 ^ format.exponentBits)
    rw [pack_partial s hwide h hpartial]
    unfold UnpackedFloat.unpack
    simp only [unpackMantissa_packComponents, unpackExponent_packComponents,
      unpackSign_packComponents, ofBitVec_toBitVec, if_neg hlast, if_true,
      dif_neg (ne_zero_of_lt h.pos hpartial), hmantissa]
    congr 1
    simp only [BitVec.toNat_zero]
    omega

/-- A number that is too great for the format is packed as an infinity. -/
theorem unpack_pack_canonical (s : Sign) (hwide : IsWide format) (h : Canonical format m e) :
    UnpackedFloat.unpack format (UnpackedFloat.pack format (.finite s m e h.pos)) =
        .finite s m e h.pos ∧ Holds format m e ∨
      UnpackedFloat.unpack format (UnpackedFloat.pack format (.finite s m e h.pos)) =
        .infinity s := by
  by_cases hfits : e + format.exponentBias + format.mantissaBitsWithoutImplicit + 1 <
      2 ^ format.exponentBits
  · exact .inl ⟨unpack_pack s hwide ⟨h, hfits⟩, ⟨h, hfits⟩⟩
  · have hmin := minExponent_eq format
    have hle := h.le_exponent
    have hcast := cast_two_pow_exponentBits format
    right
    unfold UnpackedFloat.pack
    dsimp only
    rw [if_pos (by omega), packedInfinity, UnpackedFloat.unpack]
    simp

/-- Packing what a word holds gives the word, if that is finite. -/
theorem pack_unpack (hwide : IsWide format) {b : BitVec format.numBits}
    (h : (UnpackedFloat.unpack format b).isFinite = true) :
    UnpackedFloat.pack format (UnpackedFloat.unpack format b) = b := by
  have hmantissa := (unpackMantissa b).isLt
  cases hb : UnpackedFloat.unpack format b with
  | infinity => rw [hb] at h; cases h
  | notANumber => rw [hb] at h; cases h
  | zero s =>
      obtain ⟨rfl, hexponent, hnothing⟩ := unpack_eq_zero hb
      exact packComponents_eq hexponent hnothing
  | finite s m e hm =>
      have hholds := holds_of_unpack hwide hb
      obtain ⟨rfl, ⟨hexponent, rfl, rfl⟩ | ⟨hpos, hlast, rfl, he⟩⟩ := unpack_eq_finite hb
      · rw [pack_partial _ hwide hholds hmantissa, ofNat_toNat_self]
        exact packComponents_eq hexponent rfl
      · rw [pack_full _ hholds (Nat.le_add_right ..) he, ofNat_toNat_self]
        refine packComponents_eq rfl (BitVec.eq_of_toNat_eq ?_)
        rw [BitVec.toNat_ofNat, Nat.add_mod_left, Nat.mod_eq_of_lt hmantissa]

end Descent
