import Descent.Proofs.Extended.Projection
import Descent.Proofs.ProjectedNewton.Face
import Descent.Proofs.Safe.Sizes

/-!
# The way on from a Cauchy step

What a trial step goes on to from the Cauchy step `c`, in exact arithmetic and in terms of points
(`Continues`). If no variable is free, nowhere. Else there is a step `w` within the face of the free
variables, and the search back looks at the points on the way from `x + c` by `w`, by half of it, by
a quarter and so on, all projected onto the box: the first that does as well on the quadratic model
as `c` is the trial point (`SearchEnd`). If none of them does, it is `x + c`.
-/

set_option autoImplicit false

open scoped RealInnerProductSpace

namespace Descent

open Run Extended Vec

variable {σ : Type} {n : Nat} [RealConstants] {b : Box Extended} {x y g c s w : Point n}
  {H : Point n → Point n} {K F : σ → Prop} {Δ : ℝ}

/-! ## Variables on a bound -/

def Box.OnBound (b : Box Extended) (y : Point n) (i : Fin n) : Prop :=
  ∃ j, b[(i : Nat)]? = some j ∧ (j.lower = real (y i) ∨ j.upper = real (y i))

/-- The variables on a bound are binding. -/
theorem Box.exists_bindingMask (hb : b.length = n) (y : Point n) :
    ∃ mask, bindingMask 0 b (embed (coords y)) = .ok mask ∧ mask.length = n ∧
      ∀ i : Fin n, b.OnBound y i → (mask.map not).getD i false = false := by
  obtain ⟨mask, hmask, hlength⟩ :=
    Box.bindingMask_passes (b := b) (x := embed (coords y)) 0 (by simp [hb])
  refine ⟨mask, hmask, by simpa using hlength, fun i hi => ?_⟩
  obtain ⟨j, hj, hend⟩ := hi
  have hbinding : (j.atLower (real (y i)) 0 || j.atUpper (real (y i)) 0) = true := by
    rw [Bool.or_eq_true]
    refine hend.imp (fun hlower => ?_) fun hupper => ?_
    · simp [Interval.atLower, hlower]
    · simp [Interval.atUpper, hupper]
  rw [List.getD_eq_getElem?_getD, List.getElem?_map,
    Box.getElem?_bindingMask hmask (getElem?_embed y i) hj, hbinding]
  rfl

namespace ProjectedNewton

/-! ## The search back -/

/-- The greatest value of the model that the search back is content with. -/
noncomputable def searchBound (q : ℝ) : ℝ := q + RealConstants.epsilon * max 1 |q|

theorem le_searchBound (q : ℝ) : q ≤ searchBound q :=
  le_add_of_nonneg_right
    (mul_nonneg RealConstants.epsilon_pos.le (zero_le_one.trans (le_max_left _ _)))

/-- At the part `β` of the way from `y` by `w` the search finds the step `s` good enough. -/
structure Passes (b : Box Extended) (H : Point n → Point n) (x g y w : Point n) (bound β : ℝ)
    (s : Point n) : Prop where
  step : b.StepTo x (y + β • w) s
  low : modelAt H g s ≤ bound

/-- The trial by the step `s` from the point `x`, where the model has the value `q`. -/
noncomputable def trialBy (x s : Point n) (q : ℝ) (kind : StepKind) : TrustRegion.Trial Extended :=
  ⟨embed (coords (x + s)), embed (coords s), real (-q), kind⟩

/-- What a search of `k` points finds from the part `β` of the way on: the first step that passes.
-/
inductive SearchEnd (b : Box Extended) (H : Point n → Point n) (x g y w : Point n) (bound : ℝ)
    (kind : StepKind) (k : Nat) (β : ℝ) : Option (TrustRegion.Trial Extended) → Prop
  | found (i : Nat) (lt : i < k) (s : Point n) (passes : Passes b H x g y w bound (β * 2⁻¹ ^ i) s)
      (first : ∀ l < i, ∀ s, ¬ Passes b H x g y w bound (β * 2⁻¹ ^ l) s) :
      SearchEnd b H x g y w bound kind k β (some (trialBy x s (modelAt H g s) kind))
  | failed (never : ∀ l < k, ∀ s, ¬ Passes b H x g y w bound (β * 2⁻¹ ^ l) s) :
      SearchEnd b H x g y w bound kind k β none

omit [RealConstants] in
theorem forall_halved {P : ℝ → Prop} {β : ℝ} {k : Nat} (h : P β)
    (hhalf : ∀ l < k, P (β * 2⁻¹ * 2⁻¹ ^ l)) : ∀ l < k + 1, P (β * 2⁻¹ ^ l) := by
  rintro (_ | l) hl
  · rwa [pow_zero, mul_one]
  · rw [pow_succ', ← mul_assoc]
    exact hhalf l (Nat.lt_of_succ_lt_succ hl)

/-- After a point that has not passed the search goes on from half of the way. -/
theorem SearchEnd.halve {kind : StepKind} {bound β : ℝ} {k : Nat}
    {found : Option (TrustRegion.Trial Extended)}
    (h : SearchEnd b H x g y w bound kind k (β * 2⁻¹) found)
    (hfirst : ∀ s, ¬ Passes b H x g y w bound β s) :
    SearchEnd b H x g y w bound kind (k + 1) β found := by
  cases h with
  | found i lt s passes first =>
      rw [mul_assoc, ← pow_succ'] at passes
      exact .found (i + 1) (Nat.succ_lt_succ lt) s passes
        (forall_halved (P := fun β => ∀ s, ¬ Passes b H x g y w bound β s) hfirst first)
  | failed never =>
      exact .failed (forall_halved (P := fun β => ∀ s, ¬ Passes b H x g y w bound β s) hfirst never)

variable {curvature : Curvature Extended σ} {op : Operator Extended σ}

theorem projectedSearch_attempt (hop : op.Multiplies H K F) (hb : b.length = n)
    (hx : b.Holds (embed (coords x))) (g y w : Point n) (bound : ℝ) (kind : StepKind) (k : Nat)
    (β : ℝ) :
    Attempt K (projectedSearch op b (embed (coords x)) (embed (coords g)) (embed (coords y))
      (embed (coords w)) (real bound) kind k (real β)) (fun found t => K t ∧
        SearchEnd b H x g y w bound kind k β found) F := by
  induction k generalizing β with
  | zero => exact Attempt.pure fun t ht => ⟨ht, .failed fun l hl => absurd hl l.not_lt_zero⟩
  | succ k ih =>
      obtain ⟨s, hs⟩ := Box.exists_stepTo hb hx (y + β • w)
      have hproject : b.project (embed (coords (y + β • w))) = .ok (embed (coords (x + s))) := hs
      unfold projectedSearch
      rw [along_embed, liftM_ok, pure_bind, hproject, liftM_ok, pure_bind, sub_embed, liftM_ok,
        pure_bind, add_sub_cancel_left, mul_half]
      refine Attempt.bind (hop.quadratic g s) fun q => Attempt.assume ?_
      rintro rfl
      split
      · next hlow =>
          have hpasses : Passes b H x g y w bound (β * 2⁻¹ ^ 0) s := by
            rw [pow_zero, mul_one]
            exact ⟨hs, hlow⟩
          exact Attempt.pure fun t ht =>
            ⟨ht, .found 0 k.succ_pos s hpasses fun l hl => absurd hl l.not_lt_zero⟩
      · next hhigh =>
          refine Attempt.mono (ih (β * 2⁻¹)) (fun _ h => h) ?_ fun _ h => h
          rintro found t ⟨ht, hend⟩
          exact ⟨ht, hend.halve fun s' hs' => hhigh (hs.unique hs'.step ▸ hs'.low)⟩

/-! ## The trial step -/

/-- How a trial step by `s` from `x` goes on from the Cauchy step `c`: not at all if no variable is
free or the search back fails, else to the first point that passes. The step within the face has
`W`. -/
inductive Continues (b : Box Extended) (H : Point n → Point n) (x g c : Point n) (free : List Bool)
    (W : Point n → Prop) : TrustRegion.Trial Extended → Point n → Prop
  | fixed (bound : free.any id = false) :
      Continues b H x g c free W (trialBy x c (modelAt H g c) .cauchy) c
  | failed {w : Point n} (face : W w) (never : ∀ l < projectedTrials, ∀ s,
        ¬ Passes b H x g (x + c) w (searchBound (modelAt H g c)) (1 * 2⁻¹ ^ l) s) :
      Continues b H x g c free W (trialBy x c (modelAt H g c) .cauchy) c
  | found {w s : Point n} {kind : StepKind} (face : W w) (i : Nat) (lt : i < projectedTrials)
      (passes : Passes b H x g (x + c) w (searchBound (modelAt H g c)) (1 * 2⁻¹ ^ i) s)
      (first : ∀ l < i, ∀ s,
        ¬ Passes b H x g (x + c) w (searchBound (modelAt H g c)) (1 * 2⁻¹ ^ l) s) :
      Continues b H x g c free W (trialBy x s (modelAt H g s) kind) s

variable {iterate : Iterate Extended} {linear : Option (LinearSolver Extended)}
  {cg : TruncatedCg.Config Extended} {gradientNorm : Extended} {mask : List Bool}
  {W : Point n → Prop}

theorem fromCauchy_attempt (hop : curvature.operator.Multiplies H K F) (hb : b.length = n)
    (hiterate : iterate.x = embed (coords x)) (hgradient : iterate.g = embed (coords g))
    (hx : b.Holds (embed (coords x)))
    (hmask : b.bindingMask 0 (embed (coords (x + c))) = .ok mask) (hlength : mask.length = n)
    (hface : Attempt K (faceStep linear cg curvature
        (embed (coords (toFace (mask.map not) (g + H c)))) (mask.map not) (embed (coords c))
        (real Δ) gradientNorm) (fun r t => K t ∧ ∃ w, r.1 = embed (coords w) ∧ W w) F) :
    Attempt K (fromCauchy linear cg curvature b iterate (real Δ) gradientNorm (embed (coords c)))
      (fun trial t => K t ∧ ∃ s, Continues b H x g c (mask.map not) W trial s) F := by
  have hfree : (mask.map not).length = n := by simpa using hlength
  have hbound : real (modelAt H g c) + Scalar.epsilon *
      Scalar.maxNum 1 (Scalar.abs (real (modelAt H g c)))
        = real (searchBound (modelAt H g c)) := by
    show real (modelAt H g c) + real RealConstants.epsilon *
      Scalar.maxNum (real 1) (real |modelAt H g c|) = _
    rw [real_maxNum, real_mul, real_add, searchBound]
  unfold fromCauchy
  rw [hiterate, hgradient]
  refine Attempt.bind (hop.quadratic g c).adapt fun q => Attempt.assume ?_
  rintro rfl
  rw [add_embed, liftM_ok, pure_bind, hmask, liftM_ok, pure_bind]
  dsimp only
  split
  -- no variable is free
  · next hnone =>
      rw [Bool.not_eq_true'] at hnone
      exact Attempt.pure fun t ht => ⟨ht, c, .fixed hnone⟩
  · refine Attempt.bind (hop c).adapt fun hs => Attempt.assume ?_
    rintro rfl
    rw [add_embed, liftM_ok, pure_bind, restrict_embed hfree, liftM_ok, pure_bind]
    refine Attempt.bind hface ?_
    rintro ⟨step, kind⟩
    refine Attempt.assume ?_
    rintro ⟨w, hstep, hw⟩
    dsimp only at hstep ⊢
    rw [hstep, hbound]
    refine Attempt.bind (projectedSearch_attempt hop hb hx g (x + c) w _ kind projectedTrials
      1).adapt fun found => Attempt.assume fun hend => ?_
    cases hend with
    | found i lt s passes first =>
        exact Attempt.pure fun t ht => ⟨ht, s, .found hw i lt passes first⟩
    | failed never =>
        exact Attempt.bind Attempt.emit fun _ =>
          Attempt.pure fun t ht => ⟨ht, c, .failed hw never⟩

end ProjectedNewton

end Descent
