import Descent.Proofs.Box
import Descent.Proofs.Extended.Vectors

/-!
# Projections of real points

A box may have infinite sides, but if one real point lies in it, every real point has a real
projection (`Box.exists_project`). In terms of points the projection is the nearest point of the
box: each of its coordinates is that of the point, or an end of the interval which the point is
beyond (`Box.Nearest`). From there on no point of the box lies in the direction of what was cut off
(`Box.Nearest.inner_nonpos`), so that the projection is at least as near to every point of the box
(`Box.Nearest.norm_sub_le`). So a step from a point of the box to a projection (`Box.StepTo`) is no
longer than the one to the point that was projected, and one along the projected path of steepest
descent descends (`Box.StepTo.slope_le`).
-/

set_option autoImplicit false

open scoped RealInnerProductSpace

namespace Descent

open Extended Vec

variable [RealConstants] {n : Nat}

/-! ## Intervals -/

namespace Interval

variable {i : Interval Extended} {a c r : ℝ}

/-- `c` is the number of the interval nearest to `a`: that number itself, or an end that it is
beyond. -/
structure Nearest (i : Interval Extended) (a c : ℝ) : Prop where
  contains : i.contains (real c) = true
  cut : c = a ∨ i.lower = real c ∧ a < c ∨ i.upper = real c ∧ c < a

/-- An interval with a real number has no end but real ones and infinite ones that are none. -/
theorem ends_of_contains (h : i.contains (real r) = true) :
    (i.lower = bottom ∨ ∃ l, i.lower = real l) ∧ (i.upper = top ∨ ∃ u, i.upper = real u) := by
  obtain ⟨hlower, hupper⟩ := contains_iff.mp h
  constructor
  · cases hl : i.lower with
    | bottom => exact .inl rfl
    | real l => exact .inr ⟨l, rfl⟩
    | _ => rw [hl] at hlower; cases hlower
  · cases hu : i.upper with
    | top => exact .inl rfl
    | real u => exact .inr ⟨u, rfl⟩
    | _ => rw [hu] at hupper; cases hupper

/-- What raising to a lower end leads to. -/
theorem exists_raised {lower : Extended} (h : lower = bottom ∨ ∃ l, lower = real l) (a : ℝ) :
    ∃ c, Scalar.maxNum (real a) lower = real c ∧ lower ≤ real c ∧
      (c = a ∨ lower = real c ∧ a < c) := by
  rcases h with rfl | ⟨l, rfl⟩
  · exact ⟨a, if_pos trivial, trivial, .inl rfl⟩
  · refine ⟨max a l, real_maxNum, real_le.mpr (le_max_right a l), ?_⟩
    rcases le_or_gt l a with hle | hlt
    · exact .inl (max_eq_left hle)
    · rw [max_eq_right hlt.le]
      exact .inr ⟨rfl, hlt⟩

/-- What cutting at an upper end leads to. -/
theorem exists_cut {upper : Extended} (h : upper = top ∨ ∃ u, upper = real u) (a : ℝ) :
    ∃ c, Scalar.minNum (real a) upper = real c ∧ real c ≤ upper ∧
      (c = a ∨ upper = real c ∧ c < a) := by
  rcases h with rfl | ⟨u, rfl⟩
  · exact ⟨a, if_pos trivial, trivial, .inl rfl⟩
  · refine ⟨min a u, real_minNum, real_le.mpr (min_le_right a u), ?_⟩
    rcases le_or_gt a u with hle | hlt
    · exact .inl (min_eq_left hle)
    · rw [min_eq_right hlt.le]
      exact .inr ⟨rfl, hlt⟩

/-- In an interval with a real number every real number has a nearest one, and clamping finds it. -/
theorem exists_clamp (h : i.contains (real r) = true) (a : ℝ) :
    ∃ c, i.clamp (real a) = real c ∧ i.Nearest a c := by
  obtain ⟨hlower, hupper⟩ := contains_iff.mp h
  obtain ⟨hl, hu⟩ := ends_of_contains h
  obtain ⟨b, hb, hlb, hraised⟩ := exists_raised hl a
  obtain ⟨c, hc, hcu, hcut⟩ := exists_cut hu b
  refine ⟨c, by rw [clamp, hb, hc], ?_⟩
  rcases hcut with rfl | ⟨htop, hlt⟩
  · exact ⟨contains_iff.mpr ⟨hlb, hcu⟩, hraised.imp_right .inl⟩
  -- what is cut at the upper end has not been raised
  · rw [htop, real_le] at hupper
    refine ⟨contains_iff.mpr ⟨le_trans hlower (real_le.mpr hupper), hcu⟩, .inr (.inr ⟨htop, ?_⟩)⟩
    rcases hraised with rfl | ⟨hbottom, -⟩
    · exact hlt
    · rw [hbottom, real_le] at hlower
      exact absurd (hlower.trans hupper) (not_le.mpr hlt)

/-- From the nearest number on, no number of the interval lies in the direction of what was cut
off. -/
theorem Nearest.mul_nonpos (h : i.Nearest a c) (hr : i.contains (real r) = true) :
    (a - c) * (r - c) ≤ 0 := by
  obtain ⟨hlower, hupper⟩ := contains_iff.mp hr
  rcases h.cut with rfl | ⟨hl, hlt⟩ | ⟨hu, hlt⟩
  · simp
  · rw [hl, real_le] at hlower
    exact mul_nonpos_of_nonpos_of_nonneg (by linarith) (by linarith)
  · rw [hu, real_le] at hupper
    exact mul_nonpos_of_nonneg_of_nonpos (by linarith) (by linarith)

/-- A number of the interval is its own nearest one. -/
theorem Nearest.eq_self (h : i.Nearest a c) (ha : i.contains (real a) = true) : c = a := by
  have hsq : (a - c) * (a - c) ≤ 0 := h.mul_nonpos ha
  nlinarith [mul_self_nonneg (a - c)]

end Interval

/-! ## Boxes -/

namespace Box

variable {b : Box Extended} {x y p z : Point n}

/-- A point lies in the box if each coordinate lies in the interval at its place. -/
theorem holds_iff : b.Holds (embed (coords x)) ↔
    ∀ i : Fin n, ∃ j, b[(i : Nat)]? = some j ∧ j.contains (real (x i)) = true := by
  rw [holds_iff_getElem?]
  constructor
  · exact fun h i => h i _ (getElem?_embed x i)
  · intro h i a ha
    obtain ⟨hi, -⟩ := List.getElem?_eq_some_iff.mp ha
    rw [length_embed, length_coords] at hi
    obtain rfl : a = real (x ⟨i, hi⟩) :=
      Option.some.inj (ha.symm.trans (getElem?_embed x ⟨i, hi⟩))
    exact h ⟨i, hi⟩

/-- The coordinate of a point of the box lies in the interval at its place. -/
theorem Holds.contains (hx : b.Holds (embed (coords x))) {i : Fin n} {j : Interval Extended}
    (hj : b[(i : Nat)]? = some j) : j.contains (real (x i)) = true := by
  obtain ⟨_, hj', hcontains⟩ := holds_iff.mp hx i
  obtain rfl := Option.some.inj (hj.symm.trans hj')
  exact hcontains

/-- `p` is the point of the box nearest to `y`. -/
def Nearest (b : Box Extended) (y p : Point n) : Prop :=
  ∀ i : Fin n, ∃ j, b[(i : Nat)]? = some j ∧ j.Nearest (y i) (p i)

/-- In a box with a real point every real point is projected to the nearest one. -/
theorem exists_project (hb : b.length = n) (hx : b.Holds (embed (coords x))) (y : Point n) :
    ∃ p, b.project (embed (coords y)) = .ok (embed (coords p)) ∧ b.Nearest y p := by
  have hproject : b.project (embed (coords y))
      = .ok (List.zipWith Interval.clamp b (embed (coords y))) := if_pos (by simpa using hb)
  have hentry : ∀ i : Fin n, ∃ j c, b[(i : Nat)]? = some j ∧ j.clamp (real (y i)) = real c ∧
      j.Nearest (y i) c := by
    intro i
    obtain ⟨j, hj, hcontains⟩ := holds_iff.mp hx i
    obtain ⟨c, hclamp, hnearest⟩ := Interval.exists_clamp hcontains (y i)
    exact ⟨j, c, hj, hclamp, hnearest⟩
  choose j c hj hclamp hnearest using hentry
  refine ⟨pointOf c, ?_, fun i => ⟨j i, hj i, hnearest i⟩⟩
  refine hproject.trans (congrArg Except.ok (List.ext_getElem (by simp [hb]) fun i hi hi' => ?_))
  have hin : i < n := by simpa using hi'
  have hib : i < b.length := hb ▸ hin
  have hbi : b[i] = j ⟨i, hin⟩ :=
    Option.some.inj ((List.getElem?_eq_getElem hib).symm.trans (hj ⟨i, hin⟩))
  simp [hbi, hclamp, embed, coords, pointOf]

namespace Nearest

theorem holds (h : b.Nearest y p) : b.Holds (embed (coords p)) := by
  refine holds_iff.mpr fun i => ?_
  obtain ⟨j, hj, hnearest⟩ := h i
  exact ⟨j, hj, hnearest.contains⟩

/-- From the nearest point on, no point of the box lies in the direction of what was cut off. -/
theorem inner_nonpos (h : b.Nearest y p) (hz : b.Holds (embed (coords z))) :
    ⟪y - p, z - p⟫ ≤ 0 := by
  rw [PiLp.inner_apply]
  refine Finset.sum_nonpos fun i _ => ?_
  obtain ⟨j, hj, hnearest⟩ := h i
  exact (mul_comm _ _).trans_le (hnearest.mul_nonpos (hz.contains hj))

/-- The projection is at least as near to every point of the box. -/
theorem norm_sub_le (h : b.Nearest y p) (hz : b.Holds (embed (coords z))) :
    ‖p - z‖ ≤ ‖y - z‖ := by
  have hacute : 0 ≤ ⟪y - p, p - z⟫ := by
    rw [← neg_sub z p, inner_neg_right]
    exact neg_nonneg.mpr (h.inner_nonpos hz)
  have hsq : ‖p - z‖ ^ 2 ≤ ‖y - z‖ ^ 2 := by
    calc ‖p - z‖ ^ 2 ≤ ‖y - p‖ ^ 2 + 2 * ⟪y - p, p - z⟫ + ‖p - z‖ ^ 2 := by
          linarith [sq_nonneg ‖y - p‖]
      _ = ‖y - z‖ ^ 2 := by rw [← norm_add_sq_real, sub_add_sub_cancel]
  exact (sq_le_sq₀ (norm_nonneg _) (norm_nonneg _)).mp hsq

/-- A coordinate that lies in its interval is kept. -/
theorem eq_of_contains (h : b.Nearest y p) {i : Fin n} {j : Interval Extended}
    (hj : b[(i : Nat)]? = some j) (hcontains : j.contains (real (y i)) = true) : p i = y i := by
  obtain ⟨_, hj', hnearest⟩ := h i
  obtain rfl := Option.some.inj (hj.symm.trans hj')
  exact hnearest.eq_self hcontains

end Nearest

/-! ## Steps onto the box -/

variable {s s' : Point n}

/-- The step `s` leads from `x` to the projection of `y`. -/
def StepTo (b : Box Extended) (x y s : Point n) : Prop :=
  b.project (embed (coords y)) = .ok (embed (coords (x + s)))

theorem exists_stepTo (hb : b.length = n) (hx : b.Holds (embed (coords x))) (y : Point n) :
    ∃ s, b.StepTo x y s := by
  obtain ⟨p, hp, -⟩ := exists_project hb hx y
  exact ⟨p - x, by rw [StepTo, hp, add_sub_cancel]⟩

namespace StepTo

theorem unique (h : b.StepTo x y s) (h' : b.StepTo x y s') : s = s' := by
  have heq : embed (coords (x + s)) = embed (coords (x + s')) :=
    Except.ok.inj (Eq.trans (Eq.symm h) h')
  exact add_left_cancel (coords_injective (embed_injective heq))

theorem length_eq (h : b.StepTo x y s) : b.length = n := by
  simpa using (length_combine h).2

theorem nearest (h : b.StepTo x y s) (hx : b.Holds (embed (coords x))) :
    b.Nearest y (x + s) := by
  obtain ⟨p, hp, hnearest⟩ := exists_project h.length_eq hx y
  have heq : embed (coords p) = embed (coords (x + s)) :=
    Except.ok.inj (Eq.trans (Eq.symm hp) h)
  exact coords_injective (embed_injective heq) ▸ hnearest

/-- The step is no longer than the one to the point itself. -/
theorem norm_le (h : b.StepTo x y s) (hx : b.Holds (embed (coords x))) : ‖s‖ ≤ ‖y - x‖ := by
  calc ‖s‖ = ‖x + s - x‖ := by rw [add_sub_cancel_left]
    _ ≤ ‖y - x‖ := (h.nearest hx).norm_sub_le hx

/-- The step of length `a` along the projected path of steepest descent descends at least as much as
its length asks for. -/
theorem slope_le {g : Point n} {a : ℝ} (h : b.StepTo x (x - a • g) s)
    (hx : b.Holds (embed (coords x))) : a * ⟪g, s⟫ ≤ -‖s‖ ^ 2 := by
  have hcut := (h.nearest hx).inner_nonpos hx
  have hstep : x - a • g - (x + s) = -(a • g + s) := by abel
  rw [hstep, sub_add_cancel_left, inner_neg_neg, inner_add_left, real_inner_smul_left,
    real_inner_self_eq_norm_sq] at hcut
  linarith

end StepTo

end Box

end Descent
