import Descent.Proofs.LineSearch.Conditions
import Descent.Proofs.Safe

/-!
# Backtracking finds a step

If all steps up to some length `ā` have finite values and sufficient decrease, and beyond it nothing
worse happens than failures that a shorter step may mend, then backtracking settles on a step,
which is not much shorter than `ā`: a trial beyond `ā` shortens the step by the factor `ρ` at least,
and by no more than the least of a tenth and `ρ` (`Ray.shorten_far`), and the first trial up to `ā`
is the last (`Ray.shorten_near`).
-/

set_option autoImplicit false

open scoped RealInnerProductSpace

namespace Descent

open Run

namespace Evaluation

variable {σ γ : Type} {K : σ → Prop} {e : Evaluation σ γ} {isFinite : γ → Bool}

/-- Failures that a shorter step may mend are usable answers. -/
theorem usable_succeeds_of_recoverable (h : Settles K e (fun _ => K)
    (fun error s => K s ∧ error.isRecoverable = true) fun _ => False) (what : String) :
    Succeeds K (usable e isFinite what) fun _ => K := by
  refine Settles.bind (Settles.caught h) ?_
  rintro (error | b)
  · refine Settles.assume fun hrecoverable => ?_
    dsimp only
    rw [if_pos hrecoverable]
    exact Settles.pure fun _ hs => hs
  · exact Settles.pure fun _ hs => hs

/-- Finite values are usable, and are what was answered. -/
theorem usable_succeeds_of_finite {R : γ → Prop} (h : Succeeds K e fun b s => K s ∧ R b)
    (hR : ∀ b, R b → isFinite b = true) (what : String) :
    Succeeds K (usable e isFinite what) fun r s => K s ∧ ∃ b, r = .ok b ∧ R b := by
  refine Settles.bind (Settles.caught h) ?_
  rintro (error | b)
  · exact fun _ _ h => h.elim
  · refine Settles.assume fun hb => ?_
    dsimp only
    rw [if_pos (hR b hb)]
    exact Settles.pure fun _ hs => ⟨hs, b, rfl, hb⟩

end Evaluation

namespace LineSearch

open Extended Vec

section Exact

variable [RealConstants] {σ : Type} {n : Nat} {K : σ → Prop} {m : Model Extended σ}
  {p : LineSearchParams Extended} {c₁ c₂ ρ shortest f₀ ā a₀ initial : ℝ} {x g₀ d : Point n}

/-- Up to the length `ā` the values along the ray are finite and decrease enough, and beyond it no
question meets with an error that a shorter step cannot mend. The model keeps to the states with
`K`. -/
structure Tame (K : σ → Prop) (m : Model Extended σ) (x g₀ d : Point n) (f₀ c₁ ā : ℝ) : Prop where
  objective : ∀ a, 0 < a → a ≤ ā → Succeeds K (m.objective (embed (coords (x + a • d))))
    fun f s => K s ∧ ∃ v, f = real v ∧ v ≤ f₀ + c₁ * a * ⟪g₀, d⟫
  gradient : ∀ a, 0 < a → a ≤ ā → Succeeds K (m.gradient (embed (coords (x + a • d))))
    fun g s => K s ∧ Vec.allFinite g = true
  objective_beyond : ∀ a, ā < a → Settles K (m.objective (embed (coords (x + a • d))))
    (fun _ => K) (fun e s => K s ∧ e.isRecoverable = true) fun _ => False
  gradient_beyond : ∀ a, ā < a → Settles K (m.gradient (embed (coords (x + a • d))))
    (fun _ => K) (fun e s => K s ∧ e.isRecoverable = true) fun _ => False

/-- A step length to try next after the length `t`, and the failures in a row. -/
structure Shorter (ρ t : ℝ) (k : Nat) (step : Extended) (f : Failures) : Prop where
  step : ∃ t', step = real t' ∧ min 0.1 ρ * t ≤ t' ∧ t' ≤ ρ * t
  failures : f.run ≤ k

namespace Ray

/-- The first trial up to `ā` is the last. -/
theorem shorten_near (htame : Tame K m x g₀ d f₀ c₁ ā) (hc₁ : p.c1 = real c₁) (k : Nat) {t : ℝ}
    (hpos : 0 < t) (ht : t ≤ ā) (f : Failures) :
    Succeeds K ((Ray.ofPoints p m x d f₀ ⟪g₀, d⟫).shorten k (real t) f) fun out s =>
      K s ∧ ∃ found, out = .inl found ∧ found.stepSize = real t := by
  unfold shorten
  rw [Ray.pointAt_ofPoints, liftM_ok, pure_bind]
  refine Settles.bind (Evaluation.usable_succeeds_of_finite (htame.objective t hpos ht)
    (by rintro _ ⟨v, rfl, -⟩; rfl) _) fun value => Settles.assume ?_
  rintro ⟨_, rfl, v, rfl, hv⟩
  have hdecrease : real v ≤ (Ray.ofPoints p m x d f₀ ⟪g₀, d⟫).armijoBound (real t) := by
    rw [Ray.armijoBound_ofPoints hc₁]
    exact real_le.mpr hv
  dsimp only
  rw [if_pos hdecrease]
  refine Settles.bind (Evaluation.usable_succeeds_of_finite (htame.gradient t hpos ht)
    (fun _ h => h) _) fun gradient => Settles.assume ?_
  rintro ⟨g, rfl, -⟩
  exact Settles.pure fun s hs => ⟨hs, _, rfl, rfl⟩

/-- A trial beyond `ā` settles on the step or shortens it. -/
theorem shorten_far (htame : Tame K m x g₀ d f₀ c₁ ā) (hreal : p.IsReal c₁ c₂ ρ shortest)
    {k : Nat} (hcap : k + 1 ≤ p.maxEvaluationFailures) {t : ℝ} (hpos : 0 < t) (ht : ā < t)
    {f : Failures} (hf : f.run ≤ k) :
    Succeeds K ((Ray.ofPoints p m x d f₀ ⟪g₀, d⟫).shorten k (real t) f) fun out s =>
      K s ∧ match out with
        | .inl found => found.stepSize = real t
        | .inr (step, f) => Shorter ρ t (k + 1) step f := by
  -- a failure shortens the step by the factor
  have hfailed : ∃ t', real t * p.rho = real t' ∧ min 0.1 ρ * t ≤ t' ∧ t' ≤ ρ * t := by
    rw [hreal.rho]
    refine ⟨t * ρ, rfl, ?_, (mul_comm t ρ).le⟩
    rw [mul_comm t ρ]
    exact mul_le_mul_of_nonneg_right (min_le_right 0.1 ρ) hpos.le
  unfold shorten
  rw [Ray.pointAt_ofPoints, liftM_ok, pure_bind]
  refine Settles.bind (Evaluation.usable_succeeds_of_recoverable (htame.objective_beyond t ht) _) ?_
  rintro (reason | value)
  · have hcounts : f.run + 1 ≤ k + 1 := Nat.succ_le_succ hf
    exact Failures.record_bind_of_le (hcounts.trans hcap)
      (Settles.pure fun s hs => ⟨hs, hfailed, hcounts⟩)
  · refine Settles.ite (fun _ => ?_) fun _ => ?_
    · refine Settles.bind
        (Evaluation.usable_succeeds_of_recoverable (htame.gradient_beyond t ht) _) ?_
      rintro (reason | gradient)
      · have hcounts : 1 ≤ k + 1 := Nat.succ_le_succ (Nat.zero_le k)
        exact Failures.record_bind_of_le (hcounts.trans hcap)
          (Settles.pure fun s hs => ⟨hs, hfailed, hcounts⟩)
      · exact Settles.pure fun s hs => ⟨hs, rfl⟩
    · obtain ⟨t', ht', hbounds, -⟩ :=
        interpolated_real (Ray.ofPoints p m x d f₀ ⟪g₀, d⟫) hreal t value
      exact Settles.pure fun s hs => ⟨hs, ⟨t', ht', hbounds hpos⟩, Nat.zero_le _⟩

end Ray

/-- What is known before trial number `k + 1`: `N` shortenings lead to `ā`. -/
structure Approaches (ρ ā a₀ : ℝ) (N k : Nat) (step : Extended) (f : Failures) : Prop where
  step : ∃ t, step = real t ∧ min 0.1 ρ * min ā a₀ ≤ t ∧ t ≤ ρ ^ k * a₀
  failures : f.run ≤ k
  trials : k ≤ N

omit [RealConstants] in
/-- A step beyond `ā` is one of the first `N`. -/
theorem lt_of_beyond (hρ : 0 < ρ) (hρ' : ρ < 1) (ha₀ : 0 < a₀) {N k : Nat} {t : ℝ}
    (hN : ρ ^ N * a₀ ≤ ā) (hbeyond : ā < t) (ht : t ≤ ρ ^ k * a₀) : k < N := by
  by_contra hk
  have hpow : ρ ^ k ≤ ρ ^ N := pow_le_pow_of_le_one hρ.le hρ'.le (Nat.le_of_not_lt hk)
  have hle : ρ ^ k * a₀ ≤ ρ ^ N * a₀ := mul_le_mul_of_nonneg_right hpow ha₀.le
  linarith

theorem Shorter.approaches (hρ : 0 < ρ) {N k : Nat} {t : ℝ} {step : Extended} {f : Failures}
    (h : Shorter ρ t (k + 1) step f) (hk : k < N) (hbeyond : ā < t) (ht : t ≤ ρ ^ k * a₀) :
    Approaches ρ ā a₀ N (k + 1) step f where
  step := by
    have hfactor : 0 < min 0.1 ρ := lt_min (by norm_num) hρ
    obtain ⟨t', rfl, hlower, hupper⟩ := h.step
    refine ⟨t', rfl, ?_, ?_⟩
    · calc min 0.1 ρ * min ā a₀ ≤ min 0.1 ρ * t :=
            mul_le_mul_of_nonneg_left ((min_le_left ā a₀).trans hbeyond.le) hfactor.le
        _ ≤ t' := hlower
    · calc t' ≤ ρ * t := hupper
        _ ≤ ρ * (ρ ^ k * a₀) := mul_le_mul_of_nonneg_left ht hρ.le
        _ = ρ ^ (k + 1) * a₀ := by ring
  failures := h.failures
  trials := hk

/-- The first step is not longer than itself. -/
theorem approaches_start (ha₀ : 0 < a₀) (hā : 0 < ā) (N : Nat) :
    Approaches ρ ā a₀ N 0 (real a₀) {} where
  step := by
    have hfactor : min 0.1 ρ ≤ 1 := (min_le_left 0.1 ρ).trans (by norm_num)
    refine ⟨a₀, rfl, ?_, ?_⟩
    · calc min 0.1 ρ * min ā a₀ ≤ 1 * min ā a₀ :=
            mul_le_mul_of_nonneg_right hfactor (le_min hā.le ha₀.le)
        _ ≤ a₀ := by rw [one_mul]; exact min_le_right ā a₀
    · rw [pow_zero, one_mul]
  failures := Nat.le_refl 0
  trials := Nat.zero_le N

/-- The trials lead to a step up to `ā`. -/
theorem Ray.backtrack_completes (htame : Tame K m x g₀ d f₀ c₁ ā)
    (hreal : p.IsReal c₁ c₂ ρ shortest) (ha₀ : 0 < a₀) (hā : 0 < ā) {N : Nat}
    (hN : ρ ^ N * a₀ ≤ ā) (htrials : N < p.maxTrials) (hfailures : N ≤ p.maxEvaluationFailures)
    (hmin : p.minStepSize ≤ real (min 0.1 ρ * min ā a₀)) :
    Succeeds K ((Ray.ofPoints p m x d f₀ ⟪g₀, d⟫).backtrack p.maxTrials 0 (real a₀) {})
      fun found s => K s ∧ ∃ a, found.stepSize = real a ∧ min 0.1 ρ * min ā a₀ ≤ a := by
  have hshortest : 0 < min 0.1 ρ * min ā a₀ :=
    mul_pos (lt_min (by norm_num) hreal.rho_pos) (lt_min hā ha₀)
  refine Settles.mono (Ray.backtrack_settles
    (I := fun k step f s => K s ∧ Approaches ρ ā a₀ N k step f)
    ?_ ?_ ?_ (Nat.zero_add p.maxTrials) (real a₀) {}) ?_
    (fun _ _ h => h) (fun _ _ h => h) fun _ h => h
  · rintro step f s ⟨-, h⟩
    exact absurd h.trials (Nat.not_le.mpr htrials)
  · rintro k step f s - hshort ⟨-, h⟩
    obtain ⟨t, rfl, hlower, -⟩ := h.step
    exact absurd hshort (not_lt_of_le (le_trans hmin (real_le.mpr hlower)))
  · rintro k step f - - s journal ⟨hs, h⟩
    obtain ⟨t, rfl, hlower, hupper⟩ := h.step
    have hpos : 0 < t := hshortest.trans_le hlower
    rcases le_or_gt t ā with hnear | hfar
    · refine Settles.mono (shorten_near htame hreal.c1 k hpos hnear f) (fun _ h => h) ?_
        (fun _ _ h => h) (fun _ h => h) s journal hs
      rintro _ s' ⟨hs', found, rfl, hfound⟩
      exact ⟨hs', t, hfound, hlower⟩
    · have hk : k < N := lt_of_beyond hreal.rho_pos hreal.rho_lt ha₀ hN hfar hupper
      refine Settles.mono (shorten_far htame hreal (Nat.le_trans hk hfailures) hpos hfar h.failures)
        (fun _ h => h) ?_ (fun _ _ h => h) (fun _ h => h) s journal hs
      rintro (found | ⟨step, f'⟩) s' ⟨hs', hout⟩
      · exact ⟨hs', t, hout, hlower⟩
      · exact ⟨hs', Shorter.approaches hreal.rho_pos hout hk hfar hupper⟩
  · exact fun s hs => ⟨hs, approaches_start ha₀ hā N⟩

/-- **Backtracking is complete.** If the values up to the length `ā` along the ray are finite and
decrease enough, no question beyond it meets with an error that a shorter step cannot mend, and `N`
shortenings of the first step lead there, with the budgets that they may need, then the search
settles on a step, and its length is at least the least of a tenth and `ρ` times `ā` or the first
step. -/
theorem backtracking_completes (hvalid : p.validate = .ok ())
    (hlongest : Scalar.isNaN p.maxStepSize = false) (hc₁ : p.c1 = real c₁) (hρ : p.rho = real ρ)
    (hslope : ⟪g₀, d⟫ < 0) (hfirst : Scalar.minNum (real initial) p.maxStepSize = real a₀)
    (ha₀ : 0 < a₀) (hā : 0 < ā) (htame : Tame K m x g₀ d f₀ c₁ ā) {N : Nat}
    (hN : ρ ^ N * a₀ ≤ ā) (htrials : N < p.maxTrials) (hfailures : N ≤ p.maxEvaluationFailures)
    (hmin : p.minStepSize ≤ real (min 0.1 ρ * min ā a₀)) :
    Succeeds K ((backtracking p).run m (embed (coords x)) (real f₀) (embed (coords g₀))
        (embed (coords d)) (real initial))
      fun found s => K s ∧ ∃ a, found.stepSize = real a ∧ min 0.1 ρ * min ā a₀ ≤ a := by
  obtain ⟨c₁', c₂, ρ', shortest, hreal⟩ := LineSearchParams.exists_isReal hvalid hlongest
  obtain rfl : c₁ = c₁' := Extended.real.inj (hc₁.symm.trans hreal.c1)
  obtain rfl : ρ = ρ' := Extended.real.inj (hρ.symm.trans hreal.rho)
  unfold run
  rw [descentSlope_embed hslope, pure_bind]
  dsimp only [params]
  rw [hfirst]
  exact Ray.backtrack_completes htame hreal ha₀ hā hN htrials hfailures hmin

end Exact

/-! ## The square -/

section Example

attribute [local instance] RealConstants.double

/-- Down the square from 1 every step up to 1 decreases enough. -/
theorem square_tame :
    Tame (fun _ => True) square (linePoint 1) (linePoint 2) (linePoint (-1)) 1 1e-4 1 := by
  have hpoint : ∀ a : ℝ, embed (coords (linePoint 1 + a • linePoint (-1))) = [real (1 - a)] := by
    intro a
    rw [linePoint_add_smul, embed_linePoint, mul_neg_one, sub_eq_add_neg]
  constructor
  · intro a hpos ha
    rw [hpoint, inner_linePoint]
    refine Settles.pure fun _ _ => ⟨trivial, (1 - a) * (1 - a), rfl, ?_⟩
    nlinarith
  · intro a _ _
    rw [hpoint]
    exact Settles.pure fun _ _ => ⟨trivial, rfl⟩
  · intro a _
    rw [hpoint]
    exact Settles.pure fun _ _ => trivial
  · intro a _
    rw [hpoint]
    exact Settles.pure fun _ _ => trivial

/-- The step 4 is too long for the square, and two halvings make it short enough. -/
theorem backtracking_completes_parabola :
    let p : LineSearchParams Extended := {}
    p.validate = .ok () ∧ Scalar.isNaN p.maxStepSize = false ∧ p.c1 = real 1e-4 ∧
      p.rho = real 0.5 ∧ ⟪linePoint 2, linePoint (-1)⟫ < 0 ∧
      Scalar.minNum (real 4) p.maxStepSize = real 4 ∧
      Tame (fun _ => True) square (linePoint 1) (linePoint 2) (linePoint (-1)) 1 1e-4 1 ∧
      (0.5 : ℝ) ^ 2 * 4 ≤ 1 ∧ 2 < p.maxTrials ∧ 2 ≤ p.maxEvaluationFailures ∧
      p.minStepSize ≤ real (min 0.1 0.5 * min 1 4) ∧
      Succeeds (fun _ => True) ((backtracking p).run square (embed (coords (linePoint 1)))
          (real 1) (embed (coords (linePoint 2))) (embed (coords (linePoint (-1)))) (real 4))
        fun found _ => True ∧ ∃ a, found.stepSize = real a ∧ min 0.1 0.5 * min 1 4 ≤ a := by
  intro p
  have hlongest : Scalar.isNaN p.maxStepSize = false := isNaN_real
  have hslope : ⟪linePoint 2, linePoint (-1)⟫ < 0 := by
    rw [inner_linePoint]
    norm_num
  have hfirst : Scalar.minNum (real 4) p.maxStepSize = real 4 := by
    show Scalar.minNum (real 4) (real 1e10) = real 4
    rw [real_minNum]
    norm_num
  have hpow : (0.5 : ℝ) ^ 2 * 4 ≤ 1 := by norm_num
  have hmin : p.minStepSize ≤ real (min 0.1 0.5 * min 1 4) := by
    refine real_le.mpr ?_
    norm_num [RealConstants.minStepSize]
  exact ⟨standard_validate, hlongest, rfl, rfl, hslope, hfirst, square_tame, hpow, by decide,
    by decide, hmin, backtracking_completes standard_validate hlongest rfl rfl hslope hfirst
      (by norm_num) one_pos square_tame hpow (by decide) (by decide) hmin⟩

end Example

end LineSearch

end Descent
