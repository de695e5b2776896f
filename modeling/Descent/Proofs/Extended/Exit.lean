import Descent.Proofs.Extended.Stationary
import Descent.Proofs.Standard

/-!
# Where a ray leaves a box

From a point of a box a ray `x + t d` leaves it once and does not come back. Each variable has a
step up to which it stays in its interval (`Interval.exit`), infinite if it does not move or moves
towards an end that is infinite. The least of them is the step that is computed, and it is exact:
up to it the ray stays in the box, and from there on it does not
(`Box.holds_iff_le_maxFeasibleStep`).
-/

set_option autoImplicit false

namespace Descent

open Extended Vec

section Exact

variable [RealConstants]

/-! ## One variable -/

namespace Interval

/-- The step at which `a + t c` meets the end that it moves towards. -/
noncomputable def exit (i : Interval Extended) (a c : Extended) : Extended :=
  if 0 < c then if Scalar.isFinite i.upper then (i.upper - a) / c else Scalar.infinity
  else if c < 0 then if Scalar.isFinite i.lower then (i.lower - a) / c else Scalar.infinity
  else Scalar.infinity

variable {i : Interval Extended} {a c t : ℝ}

theorem exit_pos (hc : 0 < c) : i.exit (real a) (real c) =
    if Scalar.isFinite i.upper then (i.upper - real a) / real c else top :=
  if_pos hc

theorem exit_neg (hc : c < 0) : i.exit (real a) (real c) =
    if Scalar.isFinite i.lower then (i.lower - real a) / real c else top := by
  have hpos : ¬ (0 : Extended) < real c := not_lt.mpr hc.le
  rw [exit, if_neg hpos]
  exact if_pos hc

theorem exit_zero : i.exit (real a) (real 0) = top := by
  have hzero : ¬ real 0 < real 0 := lt_irrefl (0 : ℝ)
  rw [exit, real_zero, if_neg hzero, if_neg hzero]
  rfl

/-- Moving up, a number of the interval leaves it at the upper end. -/
theorem contains_iff_of_pos (ha : i.contains (real a) = true) (hc : 0 < c) (ht : 0 ≤ t) :
    i.contains (real (a + t * c)) = true ↔ real t ≤ i.exit (real a) (real c) := by
  obtain ⟨hlower, -⟩ := contains_iff.mp ha
  have hmove : a ≤ a + t * c := le_add_of_nonneg_right (mul_nonneg ht hc.le)
  have hstays : i.lower ≤ real (a + t * c) := le_trans hlower (real_le.mpr hmove)
  rw [contains_iff, exit_pos hc, and_iff_right hstays]
  rcases (ends_of_contains ha).2 with hu | ⟨u, hu⟩
  · rw [hu]
    exact iff_of_true trivial trivial
  · rw [hu, isFinite_real, if_pos rfl, real_sub, real_div hc.ne', real_le, real_le,
      le_div_iff₀ hc]
    constructor
    · intro h
      linarith
    · intro h
      linarith

/-- Moving down, it leaves the interval at the lower end. -/
theorem contains_iff_of_neg (ha : i.contains (real a) = true) (hc : c < 0) (ht : 0 ≤ t) :
    i.contains (real (a + t * c)) = true ↔ real t ≤ i.exit (real a) (real c) := by
  obtain ⟨-, hupper⟩ := contains_iff.mp ha
  have hmove : a + t * c ≤ a := add_le_of_nonpos_right (mul_nonpos_of_nonneg_of_nonpos ht hc.le)
  have hstays : real (a + t * c) ≤ i.upper := le_trans (real_le.mpr hmove) hupper
  rw [contains_iff, exit_neg hc, and_iff_left hstays]
  rcases (ends_of_contains ha).1 with hl | ⟨l, hl⟩
  · rw [hl]
    exact iff_of_true trivial trivial
  · rw [hl, isFinite_real, if_pos rfl, real_sub, real_div hc.ne, real_le, real_le,
      le_div_iff_of_neg hc]
    constructor
    · intro h
      linarith
    · intro h
      linarith

/-- A number of the interval stays in it up to its exit, and no longer. -/
theorem contains_iff_le_exit (ha : i.contains (real a) = true) (ht : 0 ≤ t) :
    i.contains (real (a + t * c)) = true ↔ real t ≤ i.exit (real a) (real c) := by
  rcases lt_trichotomy c 0 with hc | rfl | hc
  · exact contains_iff_of_neg ha hc ht
  · rw [mul_zero, add_zero, exit_zero]
    exact iff_of_true ha trivial
  · exact contains_iff_of_pos ha hc ht

/-- The exit is a number, since something is at most that. -/
theorem isNaN_exit (ha : i.contains (real a) = true) :
    Scalar.isNaN (i.exit (real a) (real c)) = false := by
  have hstart : real 0 ≤ i.exit (real a) (real c) := by
    refine (contains_iff_le_exit ha le_rfl).mp ?_
    rwa [zero_mul, add_zero]
  rw [isNaN_eq_false]
  intro hnan
  rw [hnan] at hstart
  exact hstart

end Interval

/-! ## All variables -/

namespace Box

noncomputable def exits (b : Box Extended) (x d : Vec Extended) : List Extended :=
  List.zipWith (fun i p => i.exit p.1 p.2) b (x.zip d)

/-- Where a variable has no exit there is nothing to compare with, which is the same as comparing
with an infinity. -/
theorem firstExit_cons {i : Interval Extended} {b : Box Extended} {a c alpha : Extended}
    {x d : Vec Extended} (halpha : Scalar.isNaN alpha = false) :
    firstExit (i :: b) (a :: x) (c :: d) alpha
      = firstExit b x d (Scalar.minNum alpha (i.exit a c)) := by
  have hinfinity : Scalar.minNum alpha Scalar.infinity = alpha := by
    cases alpha with
    | nan => cases halpha
    | _ => exact if_pos trivial
  have hentry : entryAt (i :: b) 0 = .ok i := rfl
  rw [firstExit, Interval.exit, hentry, Checked.ok_bind, Checked.ok_bind, List.tail_cons]
  by_cases hpos : 0 < c
  · by_cases hupper : Scalar.isFinite i.upper = true
    · simp only [hpos, hupper, if_true]
    · simp only [hpos, hupper, if_true, if_false, hinfinity, Bool.false_eq_true]
  · by_cases hneg : c < 0
    · by_cases hlower : Scalar.isFinite i.lower = true
      · simp only [hpos, hneg, hlower, if_true, if_false]
      · simp only [hpos, hneg, hlower, if_true, if_false, hinfinity, Bool.false_eq_true]
    · simp only [hpos, hneg, if_false, hinfinity]

/-- The search for the first exit takes the least of all. -/
theorem firstExit_eq {b : Box Extended} {x d : Vec Extended} {alpha : Extended}
    (hx : x.length = b.length) (hd : d.length = b.length) (halpha : Scalar.isNaN alpha = false) :
    b.firstExit x d alpha = .ok ((b.exits x d).foldl Scalar.minNum alpha) := by
  induction b generalizing x d alpha with
  | nil =>
      obtain rfl := List.eq_nil_of_length_eq_zero hx
      unfold firstExit
      rfl
  | cons i b ih =>
      match x, hx, d, hd with
      | a :: x, hx, c :: d, hd =>
          rw [firstExit_cons halpha,
            ih (Nat.succ.inj hx) (Nat.succ.inj hd) (Scalar.isNaN_minNum halpha)]
          rfl

variable {n : Nat} {b : Box Extended} {x d : Point n} {t : ℝ}

/-- Each variable has its exit. -/
theorem mem_exits_iff (hb : b.length = n) {e : Extended} :
    e ∈ b.exits (embed (coords x)) (embed (coords d)) ↔
      ∃ (k : Fin n) (i : Interval Extended), b[(k : Nat)]? = some i ∧
        e = i.exit (real (x k)) (real (d k)) := by
  rw [List.mem_iff_getElem]
  constructor
  · rintro ⟨k, hk, rfl⟩
    have hkn : k < n := by simpa [exits, hb] using hk
    refine ⟨⟨k, hkn⟩, b.get ⟨k, hb ▸ hkn⟩, by simp, ?_⟩
    simp [exits, embed, coords]
  · rintro ⟨k, i, hi, rfl⟩
    obtain ⟨hkb, rfl⟩ := List.getElem?_eq_some_iff.mp hi
    refine ⟨k, by simp [exits, hb], ?_⟩
    simp [exits, embed, coords]

/-- From a point of the box no exit is a NaN. -/
theorem isNaN_of_mem_exits (hb : b.length = n) (hx : b.Holds (embed (coords x))) :
    ∀ e ∈ b.exits (embed (coords x)) (embed (coords d)), Scalar.isNaN e = false := by
  intro e he
  obtain ⟨k, i, hi, rfl⟩ := (mem_exits_iff hb).mp he
  exact Interval.isNaN_exit (hx.contains hi)

/-- A point of the ray lies in the box if no variable has left its interval. -/
theorem holds_iff_forall_exits (hb : b.length = n) (hx : b.Holds (embed (coords x)))
    (ht : 0 ≤ t) : b.Holds (embed (coords (x + t • d))) ↔
      ∀ e ∈ b.exits (embed (coords x)) (embed (coords d)), real t ≤ e := by
  have hmoved : ∀ k : Fin n, (x + t • d) k = x k + t * d k := fun _ => rfl
  constructor
  · intro h e he
    obtain ⟨k, i, hi, rfl⟩ := (mem_exits_iff hb).mp he
    have hstays := h.contains hi
    rw [hmoved] at hstays
    exact (Interval.contains_iff_le_exit (hx.contains hi) ht).mp hstays
  · intro h
    refine holds_iff.mpr fun k => ?_
    obtain ⟨i, hi, hstart⟩ := holds_iff.mp hx k
    have hle := h _ ((mem_exits_iff hb).mpr ⟨k, i, hi, rfl⟩)
    rw [hmoved]
    exact ⟨i, hi, (Interval.contains_iff_le_exit hstart ht).mpr hle⟩

/-- **The greatest feasible step is exact.** From a point of a box, with whatever finite and
infinite bounds, a step is found in every direction, zero or longer: a point of the ray lies in the
box if and only if it is no further away than that. If the step is infinite, all of the ray lies in
the box. -/
theorem holds_iff_le_maxFeasibleStep (hb : b.length = n) (hx : b.Holds (embed (coords x)))
    (d : Point n) :
    ∃ α, b.maxFeasibleStep (embed (coords x)) (embed (coords d)) = .ok α ∧ 0 ≤ α ∧
      ∀ t : ℝ, 0 ≤ t → (b.Holds (embed (coords (x + t • d))) ↔ real t ≤ α) := by
  set exits := b.exits (embed (coords x)) (embed (coords d)) with hexits
  have hnumbers : ∀ e ∈ exits, Scalar.isNaN e = false := isNaN_of_mem_exits hb hx
  have hleast : ∀ t : ℝ, real t ≤ exits.foldl Scalar.minNum top ↔ ∀ e ∈ exits, real t ≤ e := by
    intro t
    rw [Scalar.Standard.le_foldl_minNum_iff rfl hnumbers]
    exact and_iff_right trivial
  have hexact : ∀ t : ℝ, 0 ≤ t → (b.Holds (embed (coords (x + t • d))) ↔
      real t ≤ exits.foldl Scalar.minNum top) :=
    fun t ht => (holds_iff_forall_exits hb hx ht).trans (hleast t).symm
  -- the start of the ray lies in the box, so that the least of the exits is not negative
  have hnonneg : 0 ≤ exits.foldl Scalar.minNum top := by
    refine (hexact 0 le_rfl).mp ?_
    rwa [zero_smul, add_zero]
  refine ⟨exits.foldl Scalar.minNum top, ?_, hnonneg, hexact⟩
  rw [maxFeasibleStep, firstExit_eq (by simp [hb]) (by simp [hb]) rfl]
  exact congrArg Except.ok (if_pos hnonneg)

end Box

end Exact

/-! ## A box with bounds of every kind -/

section Cornered

attribute [local instance] RealConstants.double

/-- From `(2, 1, -3)` in the direction `(-1, 0, 1)` the first and the last variable meet their
bounds at the step 2; the one that is fixed does not move. -/
theorem exits_cornered : cornered.exits [real 2, real 1, real (-3)] [real (-1), real 0, real 1]
    = [real 2, top, real 2] := by
  have hlow : Interval.exit ⟨real 0, top⟩ (real 2) (real (-1)) = real 2 := by
    rw [Interval.exit_neg (by norm_num), isFinite_real, if_pos rfl, real_sub,
      real_div (by norm_num)]
    norm_num
  have hhigh : Interval.exit ⟨bottom, real (-1)⟩ (real (-3)) (real 1) = real 2 := by
    rw [Interval.exit_pos one_pos, isFinite_real, if_pos rfl, real_sub, real_div one_ne_zero]
    norm_num
  simp [Box.exits, cornered, hlow, hhigh, Interval.exit_zero]

theorem maxFeasibleStep_cornered :
    cornered.maxFeasibleStep [real 2, real 1, real (-3)] [real (-1), real 0, real 1]
      = .ok (real 2) := by
  have hnone : ¬ (Scalar.infinity : Extended) ≤ real 2 := id
  have hfirst : Scalar.minNum Scalar.infinity (real 2) = real 2 := by
    rw [Scalar.minNum, if_neg hnone, isNaN_real]
    rfl
  have hfixed : Scalar.minNum (real 2) top = real 2 := if_pos trivial
  have hleast : [real 2, top, real 2].foldl Scalar.minNum Scalar.infinity = real 2 := by
    simp only [List.foldl_cons, List.foldl_nil, hfirst, hfixed, real_minNum, min_self]
  rw [Box.maxFeasibleStep, Box.firstExit_eq rfl rfl rfl, exits_cornered, hleast]
  exact congrArg Except.ok (if_pos (zero_le_two (α := ℝ)))

/-- So the ray lies in the box up to the step 2 and no longer. -/
theorem holds_iff_le_maxFeasibleStep_cornered :
    cornered.Holds (embed (coords (pointOf ![2, 1, -3]))) ∧ ∀ t : ℝ, 0 ≤ t →
      (cornered.Holds (embed (coords (pointOf ![2, 1, -3] + t • pointOf ![-1, 0, 1]))) ↔
        t ≤ 2) := by
  have hx : embed (coords (pointOf ![2, 1, -3])) = [real 2, real 1, real (-3)] := by simp [embed]
  have hd : embed (coords (pointOf ![-1, 0, 1])) = [real (-1), real 0, real 1] := by simp [embed]
  have hholds : cornered.Holds (embed (coords (pointOf ![2, 1, -3]))) := by
    have hbelow : ∀ r, bottom ≤ real r := fun _ => trivial
    have habove : ∀ r, real r ≤ top := fun _ => trivial
    rw [hx]
    norm_num [cornered, Box.holds_cons, Box.holds_nil, Interval.contains_iff, hbelow, habove]
  obtain ⟨α, hα, -, hexact⟩ :=
    Box.holds_iff_le_maxFeasibleStep (n := 3) (b := cornered) rfl hholds (pointOf ![-1, 0, 1])
  rw [hx, hd, maxFeasibleStep_cornered] at hα
  obtain rfl := Except.ok.inj hα
  exact ⟨hholds, fun t ht => (hexact t ht).trans real_le⟩

end Cornered

end Descent
