import Descent.Proofs.Packed

/-!
# Rounded products and roots

Rounding drops the bits of a mantissa that are too many and carries at most once
(`roundWithAccuracy_eq`). So a number times one is the number (`mul_one_finite`). A root has a full
mantissa and lies above the least exponent (`IsRoot`), and a number of that kind times one below one
is not rounded back to it (`mul_finite_lt`): less than all but half of the last place is left. Of a
number at the least exponent this is not true, where the places do not get finer.
-/

set_option autoImplicit false

namespace Descent

open Float.Model Float.Model.UnpackedFloat

variable {format : Format} {m : Nat} {e : Int}

/-! ## Rounding a mantissa -/

theorem shift_mantissa (em : ExtendedMantissa) (k : Nat) :
    (em >>> k).mantissa = em.mantissa / 2 ^ k := by
  induction k with
  | zero => simp [HShiftRight.hShiftRight, Nat.repeat]
  | succ k ih =>
      show (em >>> k).mantissa / 2 = _
      rw [ih, Nat.div_div_eq_div_mul, pow_succ]

/-- The bit that was shifted out last. -/
theorem shift_roundBit (em : ExtendedMantissa) (k : Nat) :
    (em >>> (k + 1)).roundBit = (em.mantissa / 2 ^ k % 2 != 0) := by
  show ((em >>> k).mantissa % 2 != 0) = _
  rw [shift_mantissa]

theorem roundedMantissa_bounds (em : ExtendedMantissa) :
    em.mantissa ≤ em.roundedMantissa ∧ em.roundedMantissa ≤ em.mantissa + 1 := by
  rcases em with ⟨m, r, s⟩
  cases r <;> cases s <;> simp [ExtendedMantissa.roundedMantissa, ExtendedMantissa.accuracy,
    Accuracy.roundToNearestEven]
  omega

/-- Less than a half is dropped. -/
theorem roundedMantissa_of_roundBit {em : ExtendedMantissa} (h : em.roundBit = false) :
    em.roundedMantissa = em.mantissa := by
  rcases em with ⟨m, r, s⟩
  cases h
  cases s <;> rfl

theorem ofMantissaAndAccuracy_mantissa (m : Nat) (accuracy : Accuracy) :
    (ExtendedMantissa.ofMantissaAndAccuracy m accuracy).mantissa = m := by
  rcases accuracy with _ | _ | _ | _ <;> rfl

/-! ## Rounding a number -/

/-- By how many bits a mantissa is too long. -/
def excess (format : Format) (m : Nat) (e : Int) : Nat :=
  (format.targetExponent (totalExponent m e) - e).toNat

def rounded (format : Format) (m : Nat) (e : Int) (accuracy : Accuracy) : Nat :=
  (ExtendedMantissa.ofMantissaAndAccuracy m accuracy >>> excess format m e).roundedMantissa

/-- What is left fits, and lies in the range of exponents. -/
theorem excess_bounds (format : Format) (m : Nat) (e : Int) :
    format.minExponent ≤ e + excess format m e ∧
      m.log2 ≤ format.mantissaBitsWithoutImplicit + excess format m e := by
  unfold excess Format.targetExponent totalExponent Format.mantissaBits
  omega

theorem rounded_bounds (format : Format) (m : Nat) (e : Int) (accuracy : Accuracy) :
    m / 2 ^ excess format m e ≤ rounded format m e accuracy ∧
      rounded format m e accuracy ≤ m / 2 ^ excess format m e + 1 := by
  have h := roundedMantissa_bounds
    (ExtendedMantissa.ofMantissaAndAccuracy m accuracy >>> excess format m e)
  rwa [shift_mantissa, ofMantissaAndAccuracy_mantissa] at h

theorem div_excess_lt (format : Format) (m : Nat) (e : Int) :
    m / 2 ^ excess format m e < 2 ^ format.mantissaBits := by
  rw [Nat.div_lt_iff_lt_mul (Nat.two_pow_pos _), ← pow_add]
  have hbits := (excess_bounds format m e).2
  refine lt_of_lt_of_le (Nat.lt_log2_self (n := m)) (Nat.pow_le_pow_right (by decide) ?_)
  unfold Format.mantissaBits
  omega

/-- A mantissa that fits stays as it is. -/
theorem shiftToTargetExponent_small (hm : m < 2 ^ format.mantissaBits)
    (he : format.minExponent ≤ e) :
    shiftToTargetExponent format m e .exact = (⟨m, false, false⟩, e) := by
  have hlog : m.log2 < format.mantissaBits := by
    rcases Nat.eq_zero_or_pos m with rfl | hpos
    · rw [Nat.log2_zero, Format.mantissaBits]
      omega
    · exact (Nat.log2_lt hpos.ne').mpr hm
  have hshift : (format.targetExponent (totalExponent m e) - e).toNat = 0 := by
    unfold Format.targetExponent totalExponent
    omega
  rw [shiftToTargetExponent, shiftToExponent, hshift]
  simp [HShiftRight.hShiftRight, Nat.repeat, ExtendedMantissa.ofMantissaAndAccuracy]

/-- A mantissa that rounding has made too long by a bit is a power of two. -/
theorem shiftToTargetExponent_carry (he : format.minExponent ≤ e) :
    shiftToTargetExponent format (2 ^ format.mantissaBits) e .exact =
      (⟨2 ^ format.mantissaBitsWithoutImplicit, false, false⟩, e + 1) := by
  have hshift : (format.targetExponent (totalExponent (2 ^ format.mantissaBits) e) - e).toNat
      = 1 := by
    rw [Format.targetExponent, totalExponent, Nat.log2_two_pow]
    omega
  rw [shiftToTargetExponent, shiftToExponent, hshift]
  simp [HShiftRight.hShiftRight, Nat.repeat, ExtendedMantissa.ofMantissaAndAccuracy,
    ExtendedMantissa.shiftRightOne, two_pow_mantissaBits]

/-- Rounding drops the bits too many, once more if it carries. -/
theorem roundWithAccuracy_eq (s : Sign) (m : Nat) (e : Int) (accuracy : Accuracy) :
    roundWithAccuracy format s m e accuracy =
      if h : rounded format m e accuracy = 0 then .zero s
      else if rounded format m e accuracy < 2 ^ format.mantissaBits then
        .finite s (rounded format m e accuracy) (e + excess format m e) (Nat.pos_of_ne_zero h)
      else .finite s (2 ^ format.mantissaBitsWithoutImplicit) (e + excess format m e + 1)
        (Nat.two_pow_pos _) := by
  have hexponent := (excess_bounds format m e).1
  have hle := (rounded_bounds format m e accuracy).2
  have hlt := div_excess_lt format m e
  obtain ⟨em, first, hfirst⟩ : ∃ em first,
      shiftToTargetExponent format m e accuracy = (em, first) := ⟨_, _, rfl⟩
  obtain rfl : first = e + excess format m e := (congrArg Prod.snd hfirst).symm
  have hem : em.roundedMantissa = rounded format m e accuracy :=
    (congrArg (fun r => r.1.roundedMantissa) hfirst).symm
  rw [roundWithAccuracy, hfirst]
  dsimp only
  rw [hem]
  by_cases hsmall : rounded format m e accuracy < 2 ^ format.mantissaBits
  · rw [shiftToTargetExponent_small hsmall hexponent]
    simp only [if_pos hsmall]
  · have hcarry : rounded format m e accuracy = 2 ^ format.mantissaBits := by omega
    rw [hcarry, shiftToTargetExponent_carry hexponent]
    simp

/-- A full mantissa keeps as many bits as fit, unless the exponent is the least one. -/
theorem excess_full (e : Int) (hlog : format.mantissaBitsWithoutImplicit ≤ m.log2) :
    e + excess format m e = format.minExponent ∨
      m.log2 = format.mantissaBitsWithoutImplicit + excess format m e := by
  unfold excess Format.targetExponent totalExponent Format.mantissaBits
  omega

/-- A full mantissa is rounded to a number as the format writes it. -/
theorem roundWithAccuracy_canonical (s : Sign) (e : Int) (accuracy : Accuracy)
    (hlog : format.mantissaBitsWithoutImplicit ≤ m.log2) :
    roundWithAccuracy format s m e accuracy = .zero s ∨
      ∃ M E, ∃ h : Canonical format M E,
        roundWithAccuracy format s m e accuracy = .finite s M E h.pos ∧
          (rounded format m e accuracy = M ∧ E = e + excess format m e ∨
            rounded format m e accuracy = 2 ^ format.mantissaBits ∧
              M = 2 ^ format.mantissaBitsWithoutImplicit ∧ E = e + excess format m e + 1) := by
  have hpow := two_pow_mantissaBits format
  have hexponent := (excess_bounds format m e).1
  have hbounds := rounded_bounds format m e accuracy
  have hlt := div_excess_lt format m e
  have hpos := Nat.two_pow_pos format.mantissaBitsWithoutImplicit
  rw [roundWithAccuracy_eq]
  split
  · exact .inl rfl
  · next hne =>
      right
      split
      · next hsmall =>
          refine ⟨_, _, ⟨Nat.pos_of_ne_zero hne, hsmall, hexponent, ?_⟩, rfl, .inl ⟨rfl, rfl⟩⟩
          refine (excess_full e hlog).symm.imp_left fun hbits => ?_
          refine le_trans ?_ hbounds.1
          rw [Nat.le_div_iff_mul_le (Nat.two_pow_pos _), ← pow_add, ← hbits]
          refine Nat.log2_self_le ?_
          rintro rfl
          rw [Nat.log2_zero] at hlog
          have := format.hm
          omega
      · next hlarge =>
          exact ⟨_, _, ⟨hpos, by omega, by omega, .inl le_rfl⟩, rfl,
            .inr ⟨by omega, rfl, rfl⟩⟩

/-! ## Products -/

theorem Canonical.log2_lt (h : Canonical format m e) : m.log2 < format.mantissaBits :=
  (Nat.log2_lt h.pos.ne').mpr h.mantissa_lt

/-- A number as the format writes it has the exponent that the format wants. -/
theorem Canonical.target (h : Canonical format m e) :
    format.targetExponent (totalExponent m e) = e := by
  have hlog := h.log2_lt
  have hle := h.le_exponent
  unfold Format.targetExponent totalExponent
  unfold Format.mantissaBits at hlog ⊢
  rcases h.full with hfull | rfl
  · have hge := (Nat.le_log2 h.pos.ne').mpr hfull
    omega
  · omega

theorem log2_mul_two_pow (hm : 0 < m) (k : Nat) : (m * 2 ^ k).log2 = m.log2 + k := by
  have hpos : m * 2 ^ k ≠ 0 := (Nat.mul_pos hm (Nat.two_pow_pos k)).ne'
  rw [Nat.log2_eq_iff hpos]
  constructor
  · rw [pow_add]
    exact Nat.mul_le_mul_right _ (Nat.log2_self_le hm.ne')
  · rw [add_right_comm, pow_add]
    exact (Nat.mul_lt_mul_right (Nat.two_pow_pos k)).mpr Nat.lt_log2_self

/-- Zeros at the end are dropped exactly. -/
theorem rounded_mul_two_pow (hexcess : excess format (m * 2 ^ format.mantissaBitsWithoutImplicit) e
      = format.mantissaBitsWithoutImplicit) :
    rounded format (m * 2 ^ format.mantissaBitsWithoutImplicit) e .exact = m := by
  obtain ⟨k, hk⟩ := Nat.exists_eq_add_of_lt format.hm
  rw [Nat.zero_add] at hk
  rw [rounded, hexcess, roundedMantissa_of_roundBit, shift_mantissa,
    ofMantissaAndAccuracy_mantissa, Nat.mul_div_cancel _ (Nat.two_pow_pos _)]
  rw [hk, shift_roundBit, ofMantissaAndAccuracy_mantissa, pow_succ, mul_left_comm,
    Nat.mul_div_cancel_left _ (Nat.two_pow_pos k)]
  simp

/-- A number times one is the number. -/
theorem mul_one_finite (s : Sign) (h : Canonical format m e)
    (hone : 0 < 2 ^ format.mantissaBitsWithoutImplicit) :
    mul format (.finite s m e h.pos)
      (.finite .positive (2 ^ format.mantissaBitsWithoutImplicit)
        (-(format.mantissaBitsWithoutImplicit : Int)) hone) = .finite s m e h.pos := by
  have hexcess : excess format (m * 2 ^ format.mantissaBitsWithoutImplicit)
      (e + -(format.mantissaBitsWithoutImplicit : Int)) = format.mantissaBitsWithoutImplicit := by
    have htotal : totalExponent (m * 2 ^ format.mantissaBitsWithoutImplicit)
        (e + -(format.mantissaBitsWithoutImplicit : Int)) = totalExponent m e := by
      rw [totalExponent, totalExponent, log2_mul_two_pow h.pos]
      omega
    rw [excess, htotal, h.target]
    omega
  show roundWithAccuracy format (s * .positive) _ _ .exact = _
  rw [roundWithAccuracy_eq]
  simp only [rounded_mul_two_pow hexcess, hexcess, dif_neg h.pos.ne', if_pos h.mantissa_lt]
  cases s <;> simp <;> rfl

/-- A factor below one takes more than half of the last place off a number. -/
theorem mul_lt_of_full {q d r : Nat} (hq : q < m) (hr : r < 2 * q) (hd : d = q ∨ 2 * q ≤ d) :
    r * m < (2 * m - 1) * d := by
  obtain ⟨k, rfl⟩ : ∃ k, m = q + 1 + k := ⟨m - (q + 1), by omega⟩
  obtain ⟨l, hl⟩ : ∃ l, 2 * q = r + 1 + l := ⟨2 * q - (r + 1), by omega⟩
  have hmul : (2 * (q + 1 + k) - 1) = 2 * (q + k) + 1 := by omega
  rw [hmul]
  rcases hd with rfl | hd
  · nlinarith
  · nlinarith

/-- So it is not rounded back to the number. -/
theorem rounded_mul_lt {r j : Nat} {f : Int} (hm : 2 ^ format.mantissaBitsWithoutImplicit < m)
    (hr : r < 2 ^ format.mantissaBits) (hj : format.mantissaBitsWithoutImplicit ≤ j)
    (hexcess : excess format (r * m) f = j + 1) : rounded format (r * m) f .exact < m := by
  rw [two_pow_mantissaBits] at hr
  have hd : 2 ^ j = 2 ^ format.mantissaBitsWithoutImplicit ∨
      2 * 2 ^ format.mantissaBitsWithoutImplicit ≤ 2 ^ j := by
    rcases Nat.eq_or_lt_of_le hj with rfl | hlt
    · exact .inl rfl
    · rw [← pow_succ']
      exact .inr (Nat.pow_le_pow_right (by decide) hlt)
  have hmul := mul_lt_of_full hm hr hd
  have hpos := Nat.two_pow_pos j
  have hbounds := rounded_bounds format (r * m) f .exact
  rw [hexcess, pow_succ, ← Nat.div_div_eq_div_mul] at hbounds
  have hlt : r * m / 2 ^ j < 2 * m - 1 := (Nat.div_lt_iff_lt_mul hpos).mpr hmul
  by_cases heven : r * m / 2 ^ j / 2 + 1 < m
  · omega
  -- the bit that is shifted out last is zero
  · have hbit : r * m / 2 ^ j % 2 = 0 := by omega
    rw [rounded, hexcess, roundedMantissa_of_roundBit, shift_mantissa,
      ofMantissaAndAccuracy_mantissa, pow_succ, ← Nat.div_div_eq_div_mul]
    · omega
    · rw [shift_roundBit, ofMantissaAndAccuracy_mantissa, hbit]
      rfl

/-- A mantissa that fits, followed by zeros that are dropped, still fits. -/
theorem rounded_mul_two_pow_lt {r : Nat} {f : Int} (hr : r < 2 ^ format.mantissaBits)
    (hexcess : format.mantissaBitsWithoutImplicit ≤
      excess format (r * 2 ^ format.mantissaBitsWithoutImplicit) f) :
    rounded format (r * 2 ^ format.mantissaBitsWithoutImplicit) f .exact <
      2 ^ format.mantissaBits := by
  rcases Nat.eq_or_lt_of_le hexcess with heq | hlt
  · rwa [rounded_mul_two_pow heq.symm]
  · have hpos := Nat.two_pow_pos format.mantissaBitsWithoutImplicit
    have hle := (rounded_bounds format (r * 2 ^ format.mantissaBitsWithoutImplicit) f .exact).2
    have hdiv : r * 2 ^ format.mantissaBitsWithoutImplicit /
        2 ^ excess format (r * 2 ^ format.mantissaBitsWithoutImplicit) f ≤ r / 2 := by
      refine (Nat.div_le_div_left (Nat.pow_le_pow_right (by decide) hlt) (by positivity)).trans ?_
      rw [pow_succ, Nat.mul_comm r, Nat.mul_div_mul_left _ _ hpos]
    rw [two_pow_mantissaBits] at hr ⊢
    omega

/-- The product of a number with a full mantissa and one below one lies before the number. -/
theorem mul_finite_lt (h : Holds format m e)
    (hfull : 2 ^ format.mantissaBitsWithoutImplicit ≤ m) (hmin : format.minExponent < e) {r : Nat}
    {f : Int} (hr : 0 < r) (hlt : r < 2 ^ format.mantissaBits)
    (hf : f ≤ -(format.mantissaBits : Int)) :
    mul format (.finite .positive r f hr) (.finite .positive m e h.pos) = .zero .positive ∨
      ∃ M E, ∃ h' : Holds format M E,
        mul format (.finite .positive r f hr) (.finite .positive m e h.pos) =
          .finite .positive M E h'.pos ∧ (E < e ∨ E = e ∧ M < m) := by
  have hp := format.hm
  have hpow := two_pow_mantissaBits format
  have hbits : format.mantissaBits = 1 + format.mantissaBitsWithoutImplicit := rfl
  have hpos : r * m ≠ 0 := (Nat.mul_pos hr h.pos).ne'
  have hfits := h.exponent_lt
  -- the product has at most twice as many bits as fit
  have hlow : format.mantissaBitsWithoutImplicit ≤ (r * m).log2 :=
    (Nat.le_log2 hpos).mpr (hfull.trans (Nat.le_mul_of_pos_left m hr))
  have hhigh : (r * m).log2 < format.mantissaBits + format.mantissaBits := by
    rw [Nat.log2_lt hpos, pow_add]
    exact Nat.mul_lt_mul'' hlt h.mantissa_lt
  have hle : f + e + excess format (r * m) (f + e) ≤ e := by
    unfold excess Format.targetExponent totalExponent
    omega
  -- a power of two times a number has fewer bits than twice as many
  have hpower : f + e + excess format (r * m) (f + e) = e →
      2 ^ format.mantissaBitsWithoutImplicit < m := by
    intro heq
    refine lt_of_le_of_ne hfull ?_
    rintro rfl
    have hr' := (Nat.log2_lt hr.ne').mpr hlt
    rw [excess, Format.targetExponent, totalExponent, log2_mul_two_pow hr] at heq
    omega
  have hbelow : f + e + excess format (r * m) (f + e) = e →
      rounded format (r * m) (f + e) .exact < m := by
    intro heq
    exact rounded_mul_lt (j := excess format (r * m) (f + e) - 1) (hpower heq) hlt (by omega)
      (by omega)
  have hlast := h.mantissa_lt
  have hmul : mul format (.finite .positive r f hr) (.finite .positive m e h.pos) =
    roundWithAccuracy format .positive (r * m) (f + e) .exact := rfl
  rw [hmul]
  refine (roundWithAccuracy_canonical .positive (f + e) .exact hlow).imp_right ?_
  rintro ⟨M, E, hcanonical, hround, ⟨hM, rfl⟩ | ⟨hcarry, rfl, rfl⟩⟩
  · refine ⟨M, _, ⟨hcanonical, by omega⟩, hround, ?_⟩
    rcases lt_or_eq_of_le hle with hlt' | heq
    · exact .inl hlt'
    · exact .inr ⟨heq, hM ▸ hbelow heq⟩
  · have hne : f + e + excess format (r * m) (f + e) ≠ e := by
      intro heq
      have := hbelow heq
      omega
    refine ⟨_, _, ⟨hcanonical, by omega⟩, hround, ?_⟩
    rcases lt_or_eq_of_le (show f + e + excess format (r * m) (f + e) + 1 ≤ e by omega) with
      hlt' | heq
    · exact .inl hlt'
    · refine .inr ⟨heq, lt_of_le_of_ne hfull ?_⟩
      rintro rfl
      have hrounded := rounded_mul_two_pow_lt (f := f + e) hlt (by omega)
      omega

/-! ## Roots -/

/-- What a root can be: no number, infinite, zero, or a positive number with a full mantissa above
the least exponent. -/
inductive IsRoot (format : Format) : UnpackedFloat → Prop
  | notANumber : IsRoot format .notANumber
  | infinity : IsRoot format (.infinity .positive)
  | zero (s : Sign) : IsRoot format (.zero s)
  | finite {m : Nat} {e : Int} (h : Holds format m e)
      (full : 2 ^ format.mantissaBitsWithoutImplicit ≤ m) (above : format.minExponent < e) :
      IsRoot format (.finite .positive m e h.pos)

theorem le_log2_sqrt (hm : 0 < m) (k : Nat) : (m.log2 + k) / 2 ≤ (Nat.sqrt (m <<< k)).log2 := by
  have hpos : 0 < m <<< k := by
    rw [Nat.shiftLeft_eq]
    exact Nat.mul_pos hm (Nat.two_pow_pos k)
  rw [Nat.le_log2 (Nat.sqrt_pos.mpr hpos).ne', Nat.le_sqrt', ← pow_mul, Nat.shiftLeft_eq]
  calc 2 ^ ((m.log2 + k) / 2 * 2) ≤ 2 ^ (m.log2 + k) :=
        Nat.pow_le_pow_right (by decide) (Nat.div_mul_le_self _ 2)
    _ = 2 ^ m.log2 * 2 ^ k := pow_add ..
    _ ≤ m * 2 ^ k := Nat.mul_le_mul_right _ (Nat.log2_self_le hm.ne')

/-- The root of a number has a full mantissa, and rounding it leaves it above the least exponent. -/
theorem sqrt_finite (hwide : IsWide format) (h : Canonical format m e) :
    (∃ s, sqrt format (.finite .positive m e h.pos) = .zero s) ∨
      ∃ M E, ∃ h' : Canonical format M E,
        sqrt format (.finite .positive m e h.pos) = .finite .positive M E h'.pos ∧
          2 ^ format.mantissaBitsWithoutImplicit ≤ M ∧ format.minExponent < E := by
  unfold IsWide at hwide
  have hle := h.le_exponent
  have hbits : format.mantissaBits = 1 + format.mantissaBitsWithoutImplicit := rfl
  obtain ⟨t, ht⟩ : ∃ t, t = min (e / 2)
    (format.targetExponent ((totalExponent m e + 1) / 2)) := ⟨_, rfl⟩
  obtain ⟨k, hk⟩ : ∃ k, k = (e - 2 * t).toNat := ⟨_, rfl⟩
  obtain ⟨root, hroot⟩ : ∃ root, root = Nat.sqrt (m <<< k) := ⟨_, rfl⟩
  have hlog : (m.log2 + k) / 2 ≤ root.log2 := hroot ▸ le_log2_sqrt h.pos k
  -- the target was chosen so that the root is long enough
  have hlong : format.mantissaBitsWithoutImplicit ≤ root.log2 := by
    unfold Format.targetExponent totalExponent at ht
    omega
  have habove : format.minExponent < t + excess format root t := by
    unfold Format.targetExponent totalExponent at ht
    unfold excess Format.targetExponent totalExponent
    omega
  obtain ⟨accuracy, hsqrt⟩ : ∃ accuracy, sqrt format (.finite .positive m e h.pos) =
      roundWithAccuracy format .positive root t accuracy := by
    subst hroot hk ht
    exact ⟨_, rfl⟩
  rw [hsqrt]
  refine (roundWithAccuracy_canonical .positive t accuracy hlong).imp (fun hz => ⟨_, hz⟩) ?_
  rintro ⟨M, E, hcanonical, hround, hE⟩
  have hE : format.minExponent < E := by omega
  exact ⟨M, E, hcanonical, hround, hcanonical.full.resolve_right hE.ne', hE⟩

theorem unpack_pack_notANumber (format : Format) :
    UnpackedFloat.unpack format (UnpackedFloat.pack format .notANumber) = .notANumber := by
  have hp := format.hm
  have hne : (1#(format.mantissaBitsWithoutImplicit) <<<
      (format.mantissaBitsWithoutImplicit - 1)) ≠ 0#_ := by
    intro heq
    have hbit := congrArg
      (BitVec.getLsbD · (format.mantissaBitsWithoutImplicit - 1)) heq
    simp [hp] at hbit
  rw [UnpackedFloat.pack, packedNaN, UnpackedFloat.unpack]
  simp [hne]

theorem unpack_pack_infinity (s : Sign) :
    UnpackedFloat.unpack format (UnpackedFloat.pack format (.infinity s)) = .infinity s := by
  rw [UnpackedFloat.pack, packedInfinity, UnpackedFloat.unpack]
  simp

theorem unpack_pack_zero (hwide : IsWide format) (s : Sign) :
    UnpackedFloat.unpack format (UnpackedFloat.pack format (.zero s)) = .zero s := by
  have hlast : (0#(format.exponentBits)) ≠ -1#_ :=
    ne_last_of_lt (by have := hwide.two_lt; omega : 0 + 1 < 2 ^ format.exponentBits)
  rw [UnpackedFloat.pack, packedZero, UnpackedFloat.unpack]
  simp [hlast]

/-- What a word with a root holds. -/
theorem isRoot_sqrt (hwide : IsWide format) (b : BitVec format.numBits) :
    IsRoot format (UnpackedFloat.unpack format
      (UnpackedFloat.pack format (sqrt format (UnpackedFloat.unpack format b)))) := by
  rcases hb : UnpackedFloat.unpack format b with s | _ | s | ⟨s, m, e, hm⟩
  · cases s with
    | negative =>
        rw [UnpackedFloat.sqrt, unpack_pack_notANumber]
        exact .notANumber
    | positive =>
        rw [UnpackedFloat.sqrt, unpack_pack_infinity]
        exact .infinity
  · rw [UnpackedFloat.sqrt, unpack_pack_notANumber]
    exact .notANumber
  · rw [UnpackedFloat.sqrt, unpack_pack_zero hwide]
    exact .zero s
  · cases s with
    | negative =>
        rw [UnpackedFloat.sqrt, unpack_pack_notANumber]
        exact .notANumber
    | positive =>
        rcases sqrt_finite hwide (holds_of_unpack hwide hb).toCanonical with
          ⟨s, hzero⟩ | ⟨M, E, hcanonical, hsqrt, hfull, habove⟩
        · rw [hzero, unpack_pack_zero hwide]
          exact .zero s
        · rw [hsqrt]
          rcases unpack_pack_canonical .positive hwide hcanonical with ⟨hpack, hholds⟩ | hpack
          · rw [hpack]
            exact .finite hholds hfull habove
          · rw [hpack]
            exact .infinity

inductive IsFraction (format : Format) : UnpackedFloat → Prop
  | zero (s : Sign) : IsFraction format (.zero s)
  | finite {m : Nat} {e : Int} (h : Holds format m e) (below : e ≤ -(format.mantissaBits : Int)) :
      IsFraction format (.finite .positive m e h.pos)

/-- A root times a number from zero to below one: zero, or a number that lies before the root. -/
theorem mul_root_cases (hwide : IsWide format) {r a : UnpackedFloat} (hr : IsFraction format r)
    (ha : IsRoot format a) (hfinite : a.isFinite = true) :
    (∃ s, UnpackedFloat.unpack format (UnpackedFloat.pack format (mul format r a)) = .zero s) ∨
      ∃ m e M E, ∃ h : 0 < m, ∃ h' : 0 < M, a = .finite .positive m e h ∧
        UnpackedFloat.unpack format (UnpackedFloat.pack format (mul format r a)) =
          .finite .positive M E h' ∧ (E < e ∨ E = e ∧ M < m) := by
  have hzero : ∀ s, mul format r a = .zero s →
      ∃ s, UnpackedFloat.unpack format (UnpackedFloat.pack format (mul format r a)) = .zero s :=
    fun s h => ⟨s, by rw [h, unpack_pack_zero hwide]⟩
  cases ha with
  | notANumber => cases hfinite
  | infinity => cases hfinite
  | zero s =>
      cases hr with
      | zero t => exact .inl (hzero _ rfl)
      | finite => exact .inl (hzero _ rfl)
  | @finite m e h full above =>
      cases hr with
      | zero t => exact .inl (hzero _ rfl)
      | finite hr below =>
          rcases mul_finite_lt h full above hr.pos hr.mantissa_lt below with
            hmul | ⟨M, E, h', hmul, hlt⟩
          · exact .inl (hzero _ hmul)
          · exact .inr ⟨m, e, M, E, h.pos, h'.pos, rfl, by rw [hmul, unpack_pack _ hwide h'], hlt⟩

end Descent
