import Descent.Proofs.Extended.Operators
import Descent.Proofs.Extended.Projection
import Descent.Proofs.Extended.Unbounded
import Descent.Proofs.ProjectedNewton.Trial

/-!
# The Cauchy step in exact arithmetic

From the length `a` the search for the Cauchy step ends at a length `a'` with the step that the
projected path of steepest descent makes there. The step is good enough (`CauchyRule`) exactly if
one of the lengths `a, a / 10, …, a / 10 ^ 20` is: the search makes no more changes, and what it has
after the last one it returns as it is (`CauchyEnd`). So a long gradient or a great curvature can
lead to a step outside the radius (`Path.cauchyStep_unaccepted`), but only if the last of these
lengths is still too long for it (`rule_of_le`).
-/

set_option autoImplicit false

open scoped RealInnerProductSpace

namespace Descent

open Run Extended Vec

variable {σ : Type} {n : Nat}

section Exact

variable [RealConstants] {b : Box Extended} {x g s s' : Point n} {a : ℝ}

/-! ## Without bounds -/

namespace Box

theorem holds_unbounded (x : Point n) : (unbounded n).Holds (embed (coords x)) := by
  refine holds_iff.mpr fun i => ⟨⟨bottom, top⟩, ?_, Interval.contains_iff.mpr ⟨trivial, trivial⟩⟩
  rw [unbounded_eq, List.getElem?_replicate, if_pos i.isLt]

theorem StepTo.eq_of_unbounded {y : Point n} (h : (unbounded n).StepTo x y s) : s = y - x := by
  have hkept : (unbounded n).project (embed (coords y)) = .ok (embed (coords y)) := by
    simpa using project_unbounded (coords y)
  have heq : y = x + s :=
    coords_injective (embed_injective (Except.ok.inj (Eq.trans (Eq.symm hkept) h)))
  rw [heq, add_sub_cancel_left]

end Box

namespace ProjectedNewton

variable {op : Operator Extended σ} {H : Point n → Point n} {K F : σ → Prop} {Δ : ℝ}

/-! ## The rule -/

/-- The rule by which a Cauchy step is good enough: it stays inside the radius, with a hundredth of
the decrease that the linear term promises. -/
structure CauchyRule (H : Point n → Point n) (g : Point n) (Δ : ℝ) (s : Point n) : Prop where
  short : ‖s‖ ≤ Δ
  decrease : modelAt H g s ≤ 100⁻¹ * ⟪g, s⟫

def Accepts (b : Box Extended) (H : Point n → Point n) (x g : Point n) (Δ a : ℝ) : Prop :=
  ∃ s, b.StepTo x (x - a • g) s ∧ CauchyRule H g Δ s

theorem accepts_iff (hs : b.StepTo x (x - a • g) s) : Accepts b H x g Δ a ↔ CauchyRule H g Δ s := by
  constructor
  · rintro ⟨s', hs', hrule⟩
    exact hs.unique hs' ▸ hrule
  · exact fun hrule => ⟨s, hs, hrule⟩

/-- At a length for which the curvature does not use up the decrease, the step has its share. -/
theorem decrease_of_le (hs : b.StepTo x (x - a • g) s) (hx : b.Holds (embed (coords x)))
    (ha : 0 < a) {L : ℝ} (hL : ∀ v, ⟪v, H v⟫ ≤ L * ‖v‖ ^ 2) (hflat : a * L ≤ 2 * (1 - 100⁻¹)) :
    modelAt H g s ≤ 100⁻¹ * ⟪g, s⟫ := by
  have hslope : a * ⟪g, s⟫ ≤ -‖s‖ ^ 2 := hs.slope_le hx
  have hcurved : a * ⟪s, H s⟫ ≤ 2 * (1 - 100⁻¹) * ‖s‖ ^ 2 := by
    calc a * ⟪s, H s⟫ ≤ a * (L * ‖s‖ ^ 2) := mul_le_mul_of_nonneg_left (hL s) ha.le
      _ = a * L * ‖s‖ ^ 2 := (mul_assoc _ _ _).symm
      _ ≤ 2 * (1 - 100⁻¹) * ‖s‖ ^ 2 := mul_le_mul_of_nonneg_right hflat (sq_nonneg _)
  have hscaled : a * modelAt H g s ≤ a * (100⁻¹ * ⟪g, s⟫) := by
    rw [modelAt, half_eq]
    linarith
  exact le_of_mul_le_mul_left hscaled ha

/-- A length is short enough if the step of steepest descent stays inside the radius and the
curvature does not use up the decrease. -/
theorem rule_of_le (hs : b.StepTo x (x - a • g) s) (hx : b.Holds (embed (coords x))) (ha : 0 < a)
    {L : ℝ} (hL : ∀ v, ⟪v, H v⟫ ≤ L * ‖v‖ ^ 2) (hshort : a * ‖g‖ ≤ Δ)
    (hflat : a * L ≤ 2 * (1 - 100⁻¹)) : CauchyRule H g Δ s := by
  have hlength : ‖x - a • g - x‖ = a * ‖g‖ := by
    rw [sub_sub_cancel_left, norm_neg, norm_smul, Real.norm_of_nonneg ha.le]
  exact ⟨(hs.norm_le hx).trans (hlength.trans_le hshort), decrease_of_le hs hx ha hL hflat⟩

/-! ## The search -/

/-- How the search for the Cauchy step from the length `a` ends: with the step `s` at the length
`a'`. -/
structure CauchyEnd (b : Box Extended) (H : Point n → Point n) (x g : Point n) (Δ a a' : ℝ)
    (s : Point n) : Prop where
  step : b.StepTo x (x - a' • g) s
  stays : Accepts b H x g Δ a → ¬ Accepts b H x g Δ (a * 10) → a' = a
  rule_iff : CauchyRule H g Δ s ↔ ∃ k < cauchyTrials + 1, Accepts b H x g Δ (a * 10⁻¹ ^ k)
  last : ¬ CauchyRule H g Δ s → a' = a * 10⁻¹ ^ cauchyTrials

/-- Once a length has failed, only the shorter ones count. -/
theorem exists_shorter_iff (hs : b.StepTo x (x - a • g) s) (hrule : ¬ CauchyRule H g Δ s)
    (k : Nat) :
    (∃ i < k + 1, Accepts b H x g Δ (a * 10⁻¹ ^ i)) ↔
      ∃ i < k, Accepts b H x g Δ (a * 10⁻¹ * 10⁻¹ ^ i) := by
  rw [Nat.exists_lt_succ_left, pow_zero, mul_one, accepts_iff hs, or_iff_right hrule]
  simp only [pow_succ', mul_assoc]

/-- A trial computes the step and decides the rule. -/
theorem Path.trial_attempt (hop : op.Multiplies H K F) (hb : b.length = n)
    (hx : b.Holds (embed (coords x))) (g : Point n) (Δ a : ℝ) :
    Attempt K (Path.trial ⟨op, b, embed (coords x), embed (coords g), real Δ⟩ (real a))
      (fun r t => K t ∧ ∃ s good, r = (embed (coords s), good) ∧ b.StepTo x (x - a • g) s ∧
        (good = true ↔ CauchyRule H g Δ s)) F := by
  obtain ⟨s, hs⟩ := Box.exists_stepTo hb hx (x - a • g)
  have hproject : b.project (embed (coords (x - a • g))) = .ok (embed (coords (x + s))) := hs
  unfold Path.trial
  simp only [scale_embed, sub_embed, liftM_ok, pure_bind, hproject, add_sub_cancel_left,
    norm_embed, real_lt, dot_embed]
  split
  · next hlong =>
      refine Attempt.pure fun t ht => ⟨ht, s, false, rfl, hs, ?_⟩
      exact iff_of_false Bool.false_ne_true fun hrule => absurd hrule.short (not_le.mpr hlong)
  · next hshort =>
      refine Attempt.bind (hop.quadratic g s) fun q => Attempt.assume ?_
      rintro rfl
      refine Attempt.pure fun t ht => ⟨ht, s, _, rfl, hs, ?_⟩
      rw [decide_eq_true_iff, hundredth_mul, real_le]
      exact ⟨fun h => ⟨not_lt.mp hshort, h⟩, fun h => h.decrease⟩

/-- The search for a longer length keeps to lengths that are good enough. -/
theorem Path.extrapolate_attempt (hop : op.Multiplies H K F) (hb : b.length = n)
    (hx : b.Holds (embed (coords x))) (k : Nat) (hs : b.StepTo x (x - a • g) s)
    (hrule : CauchyRule H g Δ s) :
    Attempt K (Path.extrapolate ⟨op, b, embed (coords x), embed (coords g), real Δ⟩ k (real a)
      (embed (coords s))) (fun r t => K t ∧ ∃ s' a', r = (embed (coords s'), real a') ∧
        b.StepTo x (x - a' • g) s' ∧ CauchyRule H g Δ s' ∧
        (¬ Accepts b H x g Δ (a * 10) → a' = a)) F := by
  induction k generalizing a s with
  | zero => exact Attempt.pure fun t ht => ⟨ht, s, a, rfl, hs, hrule, fun _ => rfl⟩
  | succ k ih =>
      unfold Path.extrapolate
      dsimp only
      rw [mul_ten]
      refine Attempt.bind (Attempt.adapt (trial_attempt hop hb hx g Δ (a * 10))) ?_
      rintro ⟨next, good⟩
      refine Attempt.assume ?_
      rintro ⟨s', _, ⟨⟩, hs', hgood⟩
      dsimp only
      split
      · exact Attempt.pure fun t ht => ⟨ht, s, a, rfl, hs, hrule, fun _ => rfl⟩
      · next hgoes =>
          rw [Bool.not_eq_true, Bool.or_eq_false_iff, Bool.not_eq_false'] at hgoes
          have hrule' := hgood.mp hgoes.1
          refine Attempt.mono (ih hs' hrule') (fun _ h => h) ?_ fun _ h => h
          rintro r t ⟨ht, s'', a', rfl, hs'', hrule'', -⟩
          exact ⟨ht, s'', a', rfl, hs'', hrule'', fun h => absurd ⟨s', hs', hrule'⟩ h⟩

/-- The search for a shorter length stops at the first that is good enough, or at the last. -/
theorem Path.interpolate_attempt (hop : op.Multiplies H K F) (hb : b.length = n)
    (hx : b.Holds (embed (coords x))) (k : Nat) (hs : b.StepTo x (x - a • g) s)
    (hrule : ¬ CauchyRule H g Δ s) :
    Attempt K (Path.interpolate ⟨op, b, embed (coords x), embed (coords g), real Δ⟩ k (real a)
      (embed (coords s))) (fun r t => K t ∧ ∃ s' a', r = (embed (coords s'), real a') ∧
        b.StepTo x (x - a' • g) s' ∧
        (CauchyRule H g Δ s' ↔ ∃ i < k, Accepts b H x g Δ (a * 10⁻¹ * 10⁻¹ ^ i)) ∧
        (¬ CauchyRule H g Δ s' → a' = a * 10⁻¹ ^ k)) F := by
  induction k generalizing a s with
  | zero =>
      refine Attempt.pure fun t ht => ⟨ht, s, a, rfl, hs, ?_, fun _ => by simp⟩
      exact iff_of_false hrule fun ⟨i, hi, _⟩ => Nat.not_lt_zero i hi
  | succ k ih =>
      unfold Path.interpolate
      dsimp only
      rw [mul_tenth]
      refine Attempt.bind (Attempt.adapt (trial_attempt hop hb hx g Δ (a * 10⁻¹))) ?_
      rintro ⟨next, good⟩
      refine Attempt.assume ?_
      rintro ⟨s', _, ⟨⟩, hs', hgood⟩
      dsimp only
      split
      · next htrue =>
          have hrule' := hgood.mp htrue
          refine Attempt.pure fun t ht =>
            ⟨ht, s', a * 10⁻¹, rfl, hs', ⟨fun _ => ⟨0, k.succ_pos, ?_⟩, fun _ => hrule'⟩,
              fun h => absurd hrule' h⟩
          rw [pow_zero, mul_one]
          exact ⟨s', hs', hrule'⟩
      · next hfalse =>
          have hrule' : ¬ CauchyRule H g Δ s' := fun h => hfalse (hgood.mpr h)
          refine Attempt.mono (ih hs' hrule') (fun _ h => h) ?_ fun _ h => h
          rintro r t ⟨ht, s'', a', rfl, hs'', hiff, hlast⟩
          refine ⟨ht, s'', a', rfl, hs'', ?_, fun h => ?_⟩
          · rw [hiff, exists_shorter_iff hs' hrule']
          · rw [hlast h, mul_assoc, ← pow_succ']

theorem Path.cauchyStep_attempt (hop : op.Multiplies H K F) (hb : b.length = n)
    (hx : b.Holds (embed (coords x))) (g : Point n) (Δ a : ℝ) :
    Attempt K (Path.cauchyStep ⟨op, b, embed (coords x), embed (coords g), real Δ⟩ (real a))
      (fun r t => K t ∧ ∃ s a', r = (embed (coords s), real a') ∧
        CauchyEnd b H x g Δ a a' s) F := by
  unfold Path.cauchyStep
  refine Attempt.bind (Attempt.adapt (trial_attempt hop hb hx g Δ a)) ?_
  rintro ⟨first, good⟩
  refine Attempt.assume ?_
  rintro ⟨s, _, ⟨⟩, hs, hgood⟩
  dsimp only
  split
  · next htrue =>
      have hrule := hgood.mp htrue
      refine Attempt.mono (extrapolate_attempt hop hb hx cauchyTrials hs hrule) (fun _ h => h) ?_
        fun _ h => h
      rintro r t ⟨ht, s', a', rfl, hs', hrule', hstays⟩
      refine ⟨ht, s', a', rfl, hs', fun _ => hstays,
        ⟨fun _ => ⟨0, Nat.succ_pos _, ?_⟩, fun _ => hrule'⟩, fun h => absurd hrule' h⟩
      rw [pow_zero, mul_one]
      exact ⟨s, hs, hrule⟩
  · next hfalse =>
      have hrule : ¬ CauchyRule H g Δ s := fun h => hfalse (hgood.mpr h)
      refine Attempt.mono (interpolate_attempt hop hb hx cauchyTrials hs hrule) (fun _ h => h) ?_
        fun _ h => h
      rintro r t ⟨ht, s', a', rfl, hs', hiff, hlast⟩
      exact ⟨ht, s', a', rfl, hs', fun h => absurd ((accepts_iff hs).mp h) hrule,
        hiff.trans (exists_shorter_iff hs hrule _).symm, hlast⟩

omit [RealConstants] in
/-- Where there is a Cauchy step, the box has an interval for each variable. -/
theorem Path.length_box {α : Type} [Scalar α] {p : Path α σ} {a : α} {r : Vec α × α}
    (h : Returns (p.cauchyStep a) r) : p.box.length = p.x.length :=
  (Attains.iff_returns.mp (Path.cauchyStep_attains a) r h).length_eq

/-- **The search for the Cauchy step ends on the projected path**, with a step that is good enough
if one of the lengths `a, a / 10, …, a / 10 ^ 20` is. So it does if the last of them is short enough
for the radius and for the curvature. -/
theorem Path.cauchyStep_ends {t t' : σ} {r : Vec Extended × Extended}
    (hop : op.Multiplies H K K) (hx : b.Holds (embed (coords x)))
    (h : Leads (Path.cauchyStep ⟨op, b, embed (coords x), embed (coords g), real Δ⟩ (real a))
      t r t') (ht : K t) :
    ∃ s a', r = (embed (coords s), real a') ∧ CauchyEnd b H x g Δ a a' s ∧
      ∀ L, 0 < a → (∀ v, ⟪v, H v⟫ ≤ L * ‖v‖ ^ 2) → a * 10⁻¹ ^ cauchyTrials * ‖g‖ ≤ Δ →
        a * 10⁻¹ ^ cauchyTrials * L ≤ 2 * (1 - 100⁻¹) → CauchyRule H g Δ s := by
  have hb : b.length = n := (Path.length_box h.returns).trans (by simp)
  obtain ⟨-, s, a', rfl, hend⟩ := (Path.cauchyStep_attempt hop hb hx g Δ a).leads h ht
  refine ⟨s, a', rfl, hend, fun L ha hL hshort hflat => ?_⟩
  obtain ⟨last, hlast⟩ := Box.exists_stepTo hb hx (x - (a * 10⁻¹ ^ cauchyTrials) • g)
  exact hend.rule_iff.mpr ⟨cauchyTrials, Nat.lt_succ_self _, last, hlast,
    rule_of_le hlast hx (by positivity) hL hshort hflat⟩

end ProjectedNewton

end Exact

/-! ## A long gradient -/

section Example

attribute [local instance] RealConstants.double

namespace ProjectedNewton

/-- The operator of a linear function of one variable. -/
noncomputable def flat : Operator Extended Unit :=
  .ofMatrix ((Matrix.ofFn 1 1 fun _ _ => 0).map real)

theorem flat_multiplies (K F : Unit → Prop) :
    flat.Multiplies (0 : Point 1 →ₗ[ℝ] Point 1) K F := by
  have hzero : (Matrix.ofFn 1 1 fun _ _ => (0 : ℝ)).toMap 1 = 0 := by
    ext v i
    simp [Matrix.toMap, Matrix.coeff, Matrix.ofFn, pointOf]
  exact hzero ▸ Operator.ofMatrix_multiplies rfl rfl

/-- The setting of a search without bounds, from the origin and with the radius 1. -/
noncomputable def ray (slope : ℝ) : Path Extended Unit :=
  ⟨flat, Box.unbounded 1, embed [0], embed [slope], real 1⟩

theorem ray_eq (slope : ℝ) : ray slope =
    ⟨flat, Box.unbounded 1, embed (coords (0 : Point 1)), embed (coords (pointOf ![slope])),
      real 1⟩ := rfl

theorem norm_pointOf_one (r : ℝ) : ‖pointOf ![r]‖ = |r| := by
  simp [EuclideanSpace.norm_eq, pointOf, Real.sqrt_sq_eq_abs]

theorem length_unbounded : (Box.unbounded 1 : Box Extended).length = 1 := rfl

theorem Path.cauchyStep_ends_ray :
    (Box.unbounded 1).Holds (embed [0]) ∧
      flat.Multiplies (0 : Point 1 →ₗ[ℝ] Point 1) (fun _ => True) (fun _ => True) ∧
      ∃ s a t', Leads ((ray 1).cauchyStep (real 1)) () (embed (coords s), a) t' ∧
        CauchyRule (0 : Point 1 →ₗ[ℝ] Point 1) (pointOf ![1]) 1 s := by
  have hholds := Box.holds_unbounded (0 : Point 1)
  have hop := flat_multiplies (fun _ => True) fun _ => True
  rw [ray_eq]
  refine ⟨hholds, hop, ?_⟩
  obtain ⟨r, t', hleads, -⟩ :=
    (Path.cauchyStep_attempt (flat_multiplies (fun _ => True) fun _ => False) length_unbounded
      hholds (pointOf ![1]) 1 1).exists_leads trivial
  obtain ⟨s, a, rfl, -, hrule⟩ := Path.cauchyStep_ends hop hholds hleads trivial
  refine ⟨s, _, t', hleads, hrule 0 one_pos (by simp) ?_ (by norm_num)⟩
  rw [norm_pointOf_one, cauchyTrials]
  norm_num

/-- **A Cauchy step outside the radius.** The gradient is so long that none of the lengths is short
enough: the last one is taken as it is. -/
theorem Path.cauchyStep_unaccepted :
    (Box.unbounded 1).Holds (embed [0]) ∧
      flat.Multiplies (0 : Point 1 →ₗ[ℝ] Point 1) (fun _ => True) (fun _ => True) ∧
      (0 : Point 1 →ₗ[ℝ] Point 1).IsSymmetric ∧
      Leads ((ray (3 * 10 ^ 24)).cauchyStep (real 1)) () (embed [-30000], real (10⁻¹ ^ 20)) () ∧
      (ray (3 * 10 ^ 24)).radius < norm (embed [-30000]) := by
  have hholds := Box.holds_unbounded (0 : Point 1)
  rw [ray_eq]
  refine ⟨hholds, flat_multiplies _ _, LinearMap.IsSymmetric.zero, ?_, ?_⟩
  · obtain ⟨r, t', hleads, -, s, a, rfl, hend⟩ :=
      (Path.cauchyStep_attempt (flat_multiplies (fun _ => True) fun _ => False) length_unbounded
        hholds (pointOf ![3 * 10 ^ 24]) 1 1).exists_leads trivial
    -- even the last of the lengths leads outside
    have hlong : ∀ k < cauchyTrials + 1,
        ¬ Accepts (Box.unbounded 1) (0 : Point 1 →ₗ[ℝ] Point 1) 0 (pointOf ![3 * 10 ^ 24]) 1
          (1 * 10⁻¹ ^ k) := by
      rintro k hk ⟨s, hs, hrule⟩
      have hpow : (10⁻¹ : ℝ) ^ 20 ≤ 10⁻¹ ^ k :=
        pow_le_pow_of_le_one (by norm_num) (by norm_num) (Nat.lt_succ_iff.mp hk)
      have hshort := hrule.short
      rw [hs.eq_of_unbounded, sub_sub_cancel_left, norm_neg, norm_smul, norm_pointOf_one, one_mul,
        Real.norm_of_nonneg (by positivity), abs_of_nonneg (by norm_num)] at hshort
      norm_num at hpow
      linarith
    have hlast : a = 10⁻¹ ^ 20 := by
      rw [← one_mul (10⁻¹ ^ 20)]
      exact hend.last fun hrule => by
        obtain ⟨k, hk, haccepts⟩ := hend.rule_iff.mp hrule
        exact hlong k hk haccepts
    have hs : s = pointOf ![-30000] := by
      rw [hend.step.eq_of_unbounded, sub_sub_cancel_left, hlast]
      ext i
      fin_cases i
      simp [pointOf]
      norm_num
    rw [hlast, hs] at hleads
    exact hleads
  · show real 1 < norm (embed (coords (pointOf ![-30000])))
    rw [norm_embed, norm_pointOf_one, real_lt]
    norm_num

end ProjectedNewton

end Example

end Descent
