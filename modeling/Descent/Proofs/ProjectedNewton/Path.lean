import Descent.Proofs.Extended.Stationary
import Descent.Proofs.ProjectedNewton.Cauchy

/-!
# The projected path of steepest descent

The search for the Cauchy step makes the length ten times longer or shorter and trusts that this
makes the step longer or shorter, and that a length that is short enough passes. In exact arithmetic
it may (`projectedPath_spec`): along the path `s(a) = P(x - a g) - x` the steps grow
(`Box.StepTo.norm_le_norm`), none is longer than `a` times the projected gradient
(`Box.StepTo.norm_le_mul_projected`), all descend, and either all of them vanish or none does.

Both bounds come from the one fact about projections, that no point of the box lies in the direction
of what was cut off: for the growth it is used at two points of the path, each seen from the other.
-/

set_option autoImplicit false

open scoped RealInnerProductSpace

namespace Descent

open Run Extended Vec

variable {σ : Type} {n : Nat}

section Exact

variable [RealConstants] {b : Box Extended} {x g p s u v z : Point n} {α β : ℝ}

/-! ## Steps of the path -/

namespace Box

/-- Within the box the slope along the projected gradient is at most that along the gradient: where
the two differ, the box lies uphill. -/
theorem inner_projected_le
    (hp : b.projectedGradient (embed (coords x)) (embed (coords g)) = .ok (embed (coords p)))
    (hb : b.length = n) (hz : b.Holds (embed (coords z))) : ⟪p, z - x⟫ ≤ ⟪g, z - x⟫ := by
  obtain ⟨q, hq, hreduced⟩ := exists_projectedGradient hb x g
  obtain rfl : q = p := coords_injective (embed_injective (Except.ok.inj (hq.symm.trans hp)))
  rw [PiLp.inner_apply, PiLp.inner_apply]
  refine Finset.sum_le_sum fun i _ => ?_
  obtain ⟨j, hj, hentry⟩ := hreduced i
  rw [Interval.reduced_real, real.injEq] at hentry
  show (z i - x i) * q i ≤ (z i - x i) * g i
  rw [← hentry]
  split
  · next hblocks =>
      have huphill := Interval.mul_nonneg_of_blocks hblocks (hz.contains hj)
      linarith
  · exact le_rfl

namespace StepTo

/-- What was cut off at the length `α` points away from the box. -/
theorem inner_nonneg (hs : b.StepTo x (x - α • g) s) (hx : b.Holds (embed (coords x)))
    (hz : b.Holds (embed (coords (x + z)))) : 0 ≤ α * ⟪g, z - s⟫ + ⟪s, z - s⟫ := by
  have hcut := (hs.nearest hx).inner_nonpos hz
  have hpast : x - α • g - (x + s) = -(α • g + s) := by abel
  rw [hpast, add_sub_add_left_eq_sub, inner_neg_left, inner_add_left, real_inner_smul_left] at hcut
  linarith

/-- The steps grow along the path. -/
theorem norm_le_norm (hu : b.StepTo x (x - α • g) u) (hv : b.StepTo x (x - β • g) v)
    (hx : b.Holds (embed (coords x))) (hα : 0 < α) (hαβ : α ≤ β) : ‖u‖ ≤ ‖v‖ := by
  have hβ : 0 < β := hα.trans_le hαβ
  have hfirst := hu.inner_nonneg hx (hv.nearest hx).holds
  have hsecond := hv.inner_nonneg hx (hu.nearest hx).holds
  -- with weights that make the slopes cancel
  have hsum : β * ‖u‖ ^ 2 + α * ‖v‖ ^ 2 ≤ (α + β) * ⟪u, v⟫ := by
    rw [inner_sub_right, inner_sub_right, real_inner_self_eq_norm_sq] at hfirst hsecond
    rw [real_inner_comm u v] at hsecond
    have hfirst := mul_nonneg hβ.le hfirst
    have hsecond := mul_nonneg hα.le hsecond
    linarith
  have hproduct : (‖u‖ - ‖v‖) * (β * ‖u‖ - α * ‖v‖) ≤ 0 := by
    calc (‖u‖ - ‖v‖) * (β * ‖u‖ - α * ‖v‖)
        = β * ‖u‖ ^ 2 + α * ‖v‖ ^ 2 - (α + β) * (‖u‖ * ‖v‖) := by ring
      _ ≤ (α + β) * ⟪u, v⟫ - (α + β) * (‖u‖ * ‖v‖) := sub_le_sub_right hsum _
      _ ≤ 0 := sub_nonpos.mpr (mul_le_mul_of_nonneg_left (real_inner_le_norm u v) (by positivity))
  by_contra hlonger
  rw [not_le] at hlonger
  have hweighted : α * ‖v‖ < β * ‖u‖ := by
    calc α * ‖v‖ < α * ‖u‖ := mul_lt_mul_of_pos_left hlonger hα
      _ ≤ β * ‖u‖ := mul_le_mul_of_nonneg_right hαβ (norm_nonneg u)
  exact absurd hproduct (not_le.mpr (mul_pos (sub_pos.mpr hlonger) (sub_pos.mpr hweighted)))

/-- The step is no longer than the projected gradient makes it. -/
theorem norm_le_mul_projected (hs : b.StepTo x (x - α • g) s) (hx : b.Holds (embed (coords x)))
    (hp : b.projectedGradient (embed (coords x)) (embed (coords g)) = .ok (embed (coords p)))
    (hα : 0 < α) : ‖s‖ ≤ α * ‖p‖ := by
  have hslope := hs.slope_le hx
  have hreduced : ⟪p, s⟫ ≤ ⟪g, s⟫ := by
    simpa using inner_projected_le hp hs.length_eq (hs.nearest hx).holds
  have hcauchy : -⟪p, s⟫ ≤ ‖p‖ * ‖s‖ := by
    simpa [inner_neg_left] using real_inner_le_norm (-p) s
  have hsq : ‖s‖ * ‖s‖ ≤ α * ‖p‖ * ‖s‖ := by
    calc ‖s‖ * ‖s‖ = ‖s‖ ^ 2 := (sq _).symm
      _ ≤ α * -⟪g, s⟫ := by linarith
      _ ≤ α * -⟪p, s⟫ := mul_le_mul_of_nonneg_left (neg_le_neg hreduced) hα.le
      _ ≤ α * (‖p‖ * ‖s‖) := mul_le_mul_of_nonneg_left hcauchy hα.le
      _ = α * ‖p‖ * ‖s‖ := (mul_assoc _ _ _).symm
  by_cases hzero : ‖s‖ = 0
  · rw [hzero]
    positivity
  · exact le_of_mul_le_mul_right hsq (lt_of_le_of_ne (norm_nonneg s) (Ne.symm hzero))

/-- The step vanishes exactly if the projected gradient does. -/
theorem eq_zero_iff (hs : b.StepTo x (x - α • g) s) (hx : b.Holds (embed (coords x)))
    (hp : b.projectedGradient (embed (coords x)) (embed (coords g)) = .ok (embed (coords p)))
    (hα : 0 < α) : s = 0 ↔ p = 0 := by
  have hstays : s = 0 ↔ b.project (embed (coords (x - α • g))) = .ok (embed (coords x)) := by
    constructor
    · rintro rfl
      rwa [StepTo, add_zero] at hs
    · intro hself
      have hnone : b.StepTo x (x - α • g) 0 := by rwa [StepTo, add_zero]
      exact hs.unique hnone
  have hvanishes : p = 0 ↔
      b.projectedGradient (embed (coords x)) (embed (coords g)) = .ok (zeros n) := by
    rw [hp, zeros_embed, Except.ok.injEq, embed_injective.eq_iff, coords_inj]
  rw [hstays, hvanishes, project_eq_self_iff hs.length_eq hx hα,
    projectedGradient_eq_zeros_iff hs.length_eq hx]

end StepTo

end Box

/-! ## The path -/

namespace ProjectedNewton

/-- What the search relies on: how the steps `s` of the path go on with the length, where `p` is the
projected gradient. -/
structure PathShape (g p : Point n) (s : ℝ → Point n) : Prop where
  grows : ∀ α β, 0 < α → α ≤ β → ‖s α‖ ≤ ‖s β‖
  short : ∀ α, 0 < α → ‖s α‖ ≤ α * ‖p‖
  descends : ∀ α, 0 < α → ⟪g, s α⟫ ≤ -‖s α‖ ^ 2 / α
  vanishes : ∀ α, 0 < α → (s α = 0 ↔ p = 0)

theorem pathShape {s : ℝ → Point n} (hx : b.Holds (embed (coords x)))
    (hp : b.projectedGradient (embed (coords x)) (embed (coords g)) = .ok (embed (coords p)))
    (hs : ∀ α, b.StepTo x (x - α • g) (s α)) : PathShape g p s where
  grows α β hα hαβ := (hs α).norm_le_norm (hs β) hx hα hαβ
  short α hα := (hs α).norm_le_mul_projected hx hp hα
  descends α hα := by
    rw [le_div_iff₀ hα, mul_comm]
    exact (hs α).slope_le hx
  vanishes α hα := (hs α).eq_zero_iff hx hp hα

/-- **The projected path is what the search takes it for.** At a point of a box, with whatever
finite and infinite bounds, the steps of the path grow with the length, are no longer than the
length times the projected gradient, descend by their squared length over the length, and vanish
exactly if the projected gradient does. So a trial passes if the length is at most `2 (1 - μ) / L`,
where `L` bounds the curvature and `μ` is a hundredth, and the length times the projected gradient
is within the radius. Where the operator has no value, the trial has none either. -/
theorem projectedPath_spec (hb : b.length = n) (hx : b.Holds (embed (coords x))) (g : Point n) :
    ∃ (s : ℝ → Point n) (p : Point n),
      (∀ α, b.StepTo x (x - α • g) (s α)) ∧
      b.projectedGradient (embed (coords x)) (embed (coords g)) = .ok (embed (coords p)) ∧
      PathShape g p s ∧
      ∀ (op : Operator Extended σ) (H : Point n → Point n) (K F : σ → Prop) (L Δ α : ℝ),
        op.Multiplies H K F → 0 < L → (∀ v, ⟪v, H v⟫ ≤ L * ‖v‖ ^ 2) → 0 < α →
        α ≤ 2 * (1 - 100⁻¹) / L → α * ‖p‖ ≤ Δ →
        Attempt K (Path.trial ⟨op, b, embed (coords x), embed (coords g), real Δ⟩ (real α))
          (fun r t => K t ∧ r = (embed (coords (s α)), true)) F := by
  choose s hs using fun α : ℝ => Box.exists_stepTo hb hx (x - α • g)
  obtain ⟨p, hp, -⟩ := Box.exists_projectedGradient hb x g
  have hshape := pathShape hx hp hs
  refine ⟨s, p, hs, hp, hshape, fun op H K F L Δ α hop hL hcurved hα hflat hshort => ?_⟩
  have hrule : CauchyRule H g Δ (s α) :=
    ⟨(hshape.short α hα).trans hshort,
      decrease_of_le (hs α) hx hα hcurved ((le_div_iff₀ hL).mp hflat)⟩
  refine Attempt.mono (Path.trial_attempt hop hb hx g Δ α) (fun _ h => h) ?_ fun _ h => h
  rintro r t ⟨ht, s', good, rfl, hs', hgood⟩
  obtain rfl := hs'.unique (hs α)
  exact ⟨ht, by rw [hgood.mpr hrule]⟩

end ProjectedNewton

end Exact

/-! ## A variable that is not negative -/

section Example

attribute [local instance] RealConstants.double

namespace ProjectedNewton

/-- One variable that is not negative. -/
noncomputable def halfLine : Box Extended := [⟨real 0, top⟩]

theorem halfLine_holds {r : ℝ} (hr : 0 ≤ r) : halfLine.Holds (embed (coords (pointOf ![r]))) := by
  have habove : real r ≤ top := trivial
  simp [halfLine, embed, Box.holds_cons, Box.holds_nil, Interval.contains_iff, hr, habove]

/-- From 1 a step of steepest descent along a gradient of 2 is cut at the bound. -/
theorem halfLine_stepTo :
    halfLine.StepTo (pointOf ![1]) (pointOf ![1] - (1 : ℝ) • pointOf ![2]) (pointOf ![-1]) := by
  have hfrom : embed (coords (pointOf ![1] - (1 : ℝ) • pointOf ![2])) = [real (-1)] := by
    simp [embed, pointOf, coords]
    norm_num
  have hto : embed (coords (pointOf ![1] + pointOf ![-1])) = [real 0] := by
    simp [embed, pointOf, coords]
  have hclamp : Interval.clamp ⟨real 0, top⟩ (real (-1)) = real 0 := by
    rw [Interval.clamp, real_maxNum, max_eq_right (by norm_num)]
    exact if_pos trivial
  rw [Box.StepTo, hfrom, hto, ← hclamp]
  rfl

theorem halfLine_projectedGradient :
    halfLine.projectedGradient (embed (coords (pointOf ![1]))) (embed (coords (pointOf ![2])))
      = .ok (embed (coords (pointOf ![2]))) := by
  have hfree : Interval.reduced ⟨real 0, top⟩ (real 1) (real 2) = real 2 := by
    refine if_neg fun hblocks => ?_
    rw [Interval.blocks_iff] at hblocks
    norm_num at hblocks
  rw [Box.projectedGradient_eq rfl rfl]
  simp [halfLine, embed, hfree]

/-- With a linear objective the length 1 passes, although the step is cut. -/
theorem projectedPath_spec_halfLine :
    halfLine.Holds (embed (coords (pointOf ![1]))) ∧
      flat.Multiplies (0 : Point 1 →ₗ[ℝ] Point 1) (fun _ => True) (fun _ => False) ∧
      ∃ t, Leads (Path.trial ⟨flat, halfLine, embed [1], embed [2], real 2⟩ (real 1)) ()
        (embed [-1], true) t := by
  have hholds := halfLine_holds zero_le_one
  have hop := flat_multiplies (fun _ => True) fun _ => False
  obtain ⟨s, p, hs, hp, -, hpasses⟩ :=
    projectedPath_spec (n := 1) (b := halfLine) rfl hholds (pointOf ![2])
  obtain rfl : p = pointOf ![2] :=
    coords_injective (embed_injective (Except.ok.inj (hp.symm.trans halfLine_projectedGradient)))
  have hstep : s 1 = pointOf ![-1] := (hs 1).unique halfLine_stepTo
  have htrial := hpasses flat _ _ _ 1 2 1 hop one_pos (by simp) one_pos (by norm_num)
    (by rw [norm_pointOf_one]; norm_num)
  obtain ⟨r, t, hleads, -, rfl⟩ := htrial.exists_leads (s := ()) trivial
  rw [hstep] at hleads
  refine ⟨hholds, hop, t, ?_⟩
  simpa using hleads

end ProjectedNewton

end Example

end Descent
