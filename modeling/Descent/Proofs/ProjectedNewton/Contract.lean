import Descent.Proofs.ExactModel.Objective
import Descent.Proofs.ProjectedNewton.Cauchy
import Descent.Proofs.ProjectedNewton.Continued

/-!
# The contract of a trial step

In exact arithmetic a trial step that goes on from the Cauchy step `c` ends in the box, leaves the
variables alone that `c` puts on a bound, is no longer than the radius if `c` is not, and its
predicted decrease is that of the quadratic model, up to a slack no less than that of `c`
(`stepper_contract`). The search back keeps to the radius since projecting onto the box brings a
point no further from `x`, and a point between `c` and a step inside the ball is inside.

The slack is absolute for small values of the model. So a Cauchy step that lowers the model by more
than the machine epsilon is followed by a trial step that lowers it (`stepper_predicts`), but one
that lowers it by less may be followed by one that raises it (`stepper_raises`).
-/

set_option autoImplicit false

open scoped RealInnerProductSpace

namespace Descent

open Run Extended Vec TruncatedCg

variable {σ : Type} {n : Nat}

section Exact

variable [RealConstants] {b : Box Extended} {x g c s w : Point n}
  {H : Point n → Point n} {K F : σ → Prop} {Δ : ℝ}

/-- The Hessian of the model at the point `x` multiplies with `H`, and computing it as a matrix
leads from states with `K` to such states. -/
def Model.HasCurvature (m : Model Extended σ) (x : Point n) (H : Point n → Point n)
    (K F : σ → Prop) : Prop :=
  Attempt K (Curvature.ofModel m (embed (coords x)))
    (fun c t => K t ∧ c.operator.Multiplies H K F ∧ Attains K c.toDense fun _ => True) F

/-- A quadratic model has its linear map for a Hessian. -/
theorem Model.IsQuadratic.hasCurvature {m : Model Extended σ} {L : Point n →ₗ[ℝ] Point n}
    {β : Point n} (hm : m.IsQuadratic L β) (x : Point n) (F : σ → Prop) :
    m.HasCurvature x L (fun _ => True) F := by
  obtain ⟨h, hh, htimes⟩ := hm.sparseHessian x
  unfold Model.HasCurvature Curvature.ofModel
  rw [hh, pure_bind]
  cases h with
  | none =>
      refine Attempt.pure fun t ht => ⟨ht, fun v => ?_, Attains.trivial⟩
      show Attempt _ (m.hessianVector (embed (coords x)) (embed (coords v))) _ F
      rw [hm.hessianVector]
      exact Attempt.pure fun t ht => ⟨ht, rfl⟩
  | some a =>
      refine Attempt.pure fun t ht => ⟨ht, fun v => ?_, Attains.trivial⟩
      show Attempt _ (liftM (a.times (embed (coords v))) : Evaluation σ _) _ F
      rw [htimes a rfl]
      exact Attempt.pure fun t ht => ⟨ht, rfl⟩

omit [RealConstants] in
/-- An operator that has all products applies the linear map it multiplies with. -/
theorem Operator.Multiplies.applies {op : Operator Extended σ} {L : Point n →ₗ[ℝ] Point n}
    (hop : op.Multiplies L K fun _ => False) : op.Applies L K :=
  fun v => Attempt.iff_succeeds.mp (hop v)

namespace ProjectedNewton

variable {iterate : Iterate Extended} {linear : Option (LinearSolver Extended)}
  {cg : TruncatedCg.Config Extended} {gradientNorm : Extended} {W : Point n → Prop}

/-! ## The contract -/

/-- What holds of a trial step by `s` from the point `x` that goes on from the Cauchy step `c`. -/
structure Contract (b : Box Extended) (H : Point n → Point n) (x g c : Point n) (Δ : ℝ)
    (trial : TrustRegion.Trial Extended) (s : Point n) : Prop where
  trial : ∃ kind, trial = trialBy x s (modelAt H g s) kind
  holds : b.Holds (embed (coords (x + s)))
  short : ‖c‖ ≤ Δ → ‖s‖ ≤ Δ
  fixed : ∀ i, b.OnBound (x + c) i → (x + s) i = (x + c) i
  low : modelAt H g s ≤ searchBound (modelAt H g c)

theorem contract_cauchy (hc : b.Holds (embed (coords (x + c)))) (kind : StepKind) :
    Contract b H x g c Δ (trialBy x c (modelAt H g c) kind) c where
  trial := ⟨kind, rfl⟩
  holds := hc
  short := id
  fixed _ _ := rfl
  low := le_searchBound _

omit [RealConstants] in
/-- A part of the way to a step inside the ball is inside. -/
theorem norm_part_le {β : ℝ} (h₀ : 0 ≤ β) (h₁ : β ≤ 1) (hc : ‖c‖ ≤ Δ) (hw : ‖c + w‖ ≤ Δ) :
    ‖c + β • w‖ ≤ Δ := by
  have hmix : c + β • w = (1 - β) • c + β • (c + w) := by
    rw [sub_smul, one_smul, smul_add]
    abel
  calc ‖c + β • w‖ ≤ ‖(1 - β) • c‖ + ‖β • (c + w)‖ := hmix ▸ norm_add_le _ _
    _ = (1 - β) * ‖c‖ + β * ‖c + w‖ := by
        rw [norm_smul, norm_smul, Real.norm_of_nonneg (sub_nonneg.mpr h₁), Real.norm_of_nonneg h₀]
    _ ≤ (1 - β) * Δ + β * Δ :=
        add_le_add (mul_le_mul_of_nonneg_left hc (sub_nonneg.mpr h₁))
          (mul_le_mul_of_nonneg_left hw h₀)
    _ = Δ := by ring

/-- A projected point on the way to a step within the face. -/
theorem contract_projected {free : List Bool} {β : ℝ} (hx : b.Holds (embed (coords x)))
    (hc : b.Holds (embed (coords (x + c))))
    (hfree : ∀ i, b.OnBound (x + c) i → free.getD i false = false)
    (hw : Reaches (face n free) c Δ w) (h₀ : 0 ≤ β) (h₁ : β ≤ 1)
    (hs : Passes b H x g (x + c) w (searchBound (modelAt H g c)) β s) (kind : StepKind) :
    Contract b H x g c Δ (trialBy x s (modelAt H g s) kind) s where
  trial := ⟨kind, rfl⟩
  holds := (hs.step.nearest hx).holds
  short := by
    intro hshort
    calc ‖s‖ ≤ ‖x + c + β • w - x‖ := hs.step.norm_le hx
      _ = ‖c + β • w‖ := by rw [add_assoc, add_sub_cancel_left]
      _ ≤ Δ := norm_part_le h₀ h₁ hshort (hw.inside hshort)
  fixed := by
    intro i hi
    obtain ⟨j, hj, hcontains⟩ := Box.holds_iff.mp hc i
    have hkept : (x + c + β • w) i = (x + c) i := by
      rw [PiLp.add_apply, PiLp.smul_apply, hw.mem i (hfree i hi), smul_zero, add_zero]
    rw [(hs.step.nearest hx).eq_of_contains hj (hkept ▸ hcontains), hkept]
  low := hs.low

/-- Wherever a trial step goes on to, it keeps the contract. -/
theorem Continues.contract {free : List Bool} {trial : TrustRegion.Trial Extended}
    (h : Continues b H x g c free W trial s) (hx : b.Holds (embed (coords x)))
    (hc : b.Holds (embed (coords (x + c))))
    (hfree : ∀ i, b.OnBound (x + c) i → free.getD i false = false)
    (hW : ∀ w, W w → Reaches (face n free) c Δ w) : Contract b H x g c Δ trial s := by
  cases h with
  | fixed => exact contract_cauchy hc _
  | failed => exact contract_cauchy hc _
  | found face i lt passes first =>
      have hpart : 1 * 2⁻¹ ^ i ≤ (1 : ℝ) := by
        rw [one_mul]
        exact pow_le_one₀ (by norm_num) (by norm_num)
      exact contract_projected hx hc hfree (hW _ face) (by positivity) hpart passes _

/-- A trial step is made in stages, and goes on from the Cauchy step under the contract. -/
theorem exists_contract {m : Model Extended σ} (hm : m.HasCurvature x H K K)
    (hiterate : iterate.x = embed (coords x)) (hgradient : iterate.g = embed (coords g))
    (hx : b.Holds iterate.x) {α : ℝ} {t t' : σ} {trial : TrustRegion.Trial Extended}
    {α' : Extended}
    (h : Leads ((stepper linear cg).propose m b iterate (real Δ) gradientNorm (real α)) t
      (trial, α') t') (ht : K t) :
    ∃ curvature c t₁ t₂, Leads (Curvature.ofModel m iterate.x) t curvature t₁ ∧
      Leads (Path.cauchyStep ⟨curvature.operator, b, iterate.x, iterate.g, real Δ⟩ (real α)) t₁
        (embed (coords c), α') t₂ ∧
      ∃ s, Contract b H x g c Δ trial s := by
  obtain ⟨curvature, t₁, hcurvature, h⟩ := h.of_bind
  obtain ⟨⟨cauchy, length⟩, t₂, hcauchy, h⟩ := h.of_bind
  obtain ⟨trial', t₃, htrial, h⟩ := h.of_bind
  obtain ⟨rfl, rfl⟩ := Prod.mk.inj h.returns.of_pure
  replace hcurvature := hcurvature.of_adapt
  replace hcauchy := hcauchy.of_adapt
  replace htrial := htrial.of_adapt
  have hb : b.length = n := (Path.length_box hcauchy.returns).trans (by simp [hiterate])
  rw [hiterate] at hx
  obtain ⟨ht₁, hop, hdense⟩ := hm.leads (hiterate ▸ hcurvature) ht
  have hends : K t₂ ∧ ∃ c a', (cauchy, length) = (embed (coords c), real a') ∧
      CauchyEnd b H x g Δ α a' c := by
    rw [hiterate, hgradient] at hcauchy
    exact (Path.cauchyStep_attempt hop hb hx g Δ α).leads hcauchy ht₁
  obtain ⟨ht₂, c, a', heq, hend⟩ := hends
  cases heq
  have hc : b.Holds (embed (coords (x + c))) := (hend.step.nearest hx).holds
  obtain ⟨mask, hmask, hlength, hfree⟩ := Box.exists_bindingMask hb (x + c)
  obtain ⟨-, s, hs⟩ := (fromCauchy_attempt hop hb hiterate hgradient hx hmask hlength
    (faceStep_attempt linear hop hdense (by simpa using hlength) (toFace_mem _ _))).leads htrial ht₂
  exact ⟨curvature, c, t₁, t₂, hcurvature, hcauchy, s, hs.contract hx hc hfree fun _ hw => hw⟩

/-- The slack is the machine epsilon, or a part of a decrease by more than 1. -/
theorem searchBound_lt (hε : RealConstants.epsilon < 1) {q r : ℝ} (hq : q < 0)
    (hr : q + RealConstants.epsilon < r) (hr₀ : 0 ≤ r) : searchBound q < r := by
  unfold searchBound
  rw [abs_of_neg hq]
  rcases le_total 1 (-q) with h | h
  · rw [max_eq_right h]
    have hpart : RealConstants.epsilon * -q < 1 * -q :=
      mul_lt_mul_of_pos_right hε (neg_pos.mpr hq)
    linarith
  · rwa [max_eq_left h, mul_one]

variable {m : Model Extended σ} {α : ℝ} {t t' : σ} {trial : TrustRegion.Trial Extended}
  {α' : Extended}

/-- **The contract of a trial step.** Whenever there is a trial step and the Cauchy step `c`
computed on the way is no longer than the radius, neither is the trial step; it leads from `x` to
the trial point, which lies in the box, and leaves every variable where it is that `c` puts on a
bound. What is predicted is the decrease of the quadratic model, which is that of `c` but for the
slack. -/
theorem stepper_contract (hm : m.HasCurvature x H K K) (hiterate : iterate.x = embed (coords x))
    (hgradient : iterate.g = embed (coords g)) (hx : b.Holds iterate.x)
    (h : Leads ((stepper linear cg).propose m b iterate (real Δ) gradientNorm (real α)) t
      (trial, α') t') (ht : K t) :
    ∃ curvature c t₁ t₂, Leads (Curvature.ofModel m iterate.x) t curvature t₁ ∧
      Leads (Path.cauchyStep ⟨curvature.operator, b, iterate.x, iterate.g, real Δ⟩ (real α)) t₁
        (embed (coords c), α') t₂ ∧
      (norm (embed (coords c)) ≤ real Δ → ∃ s : Point n, trial.step = embed (coords s) ∧
        add iterate.x trial.step = .ok trial.point ∧ b.Holds trial.point ∧
        norm trial.step ≤ real Δ ∧
        (∀ i, b.OnBound (x + c) i → (x + s) i = (x + c) i) ∧
        trial.predicted = real (-(modelAt H g s)) ∧
        -(modelAt H g c) - RealConstants.epsilon * max 1 |modelAt H g c|
          ≤ -(modelAt H g s)) := by
  obtain ⟨curvature, c, t₁, t₂, hcurvature, hcauchy, s, hs⟩ :=
    exists_contract hm hiterate hgradient hx h ht
  refine ⟨curvature, c, t₁, t₂, hcurvature, hcauchy, fun hshort => ⟨s, ?_⟩⟩
  obtain ⟨kind, rfl⟩ := hs.trial
  have hlow : modelAt H g s ≤ modelAt H g c + RealConstants.epsilon * max 1 |modelAt H g c| :=
    hs.low
  rw [norm_embed, real_le] at hshort
  refine ⟨rfl, ?_, hs.holds, ?_, hs.fixed, rfl, by linarith⟩
  · rw [hiterate]
    exact add_embed x s
  · show norm (embed (coords s)) ≤ real Δ
    rw [norm_embed, real_le]
    exact hs.short hshort

/-- **What a trial step predicts** is a decrease if the Cauchy step computed on the way lowers the
quadratic model by more than the machine epsilon. If it lowers the model by less, an increase is
predicted that is less than the machine epsilon, or a decrease. -/
theorem stepper_predicts (hε : RealConstants.epsilon < 1) (hm : m.HasCurvature x H K K)
    (hiterate : iterate.x = embed (coords x)) (hgradient : iterate.g = embed (coords g))
    (hx : b.Holds iterate.x)
    (h : Leads ((stepper linear cg).propose m b iterate (real Δ) gradientNorm (real α)) t
      (trial, α') t') (ht : K t) :
    ∃ curvature c t₁ t₂, Leads (Curvature.ofModel m iterate.x) t curvature t₁ ∧
      Leads (Path.cauchyStep ⟨curvature.operator, b, iterate.x, iterate.g, real Δ⟩ (real α)) t₁
        (embed (coords c), α') t₂ ∧
      (modelAt H g c < 0 → real (-RealConstants.epsilon) < trial.predicted) ∧
      (modelAt H g c < -RealConstants.epsilon → real 0 < trial.predicted) := by
  obtain ⟨curvature, c, t₁, t₂, hcurvature, hcauchy, s, hs⟩ :=
    exists_contract hm hiterate hgradient hx h ht
  obtain ⟨kind, rfl⟩ := hs.trial
  have hpos : 0 < RealConstants.epsilon := RealConstants.epsilon_pos
  refine ⟨curvature, c, t₁, t₂, hcurvature, hcauchy, fun hfalls => ?_, fun hfalls => ?_⟩
  · have hraised : modelAt H g s < RealConstants.epsilon :=
      hs.low.trans_lt (searchBound_lt hε hfalls (by linarith) hpos.le)
    exact real_lt.mpr (neg_lt_neg hraised)
  · have hlowered : modelAt H g s < 0 :=
      hs.low.trans_lt (searchBound_lt hε (by linarith) (by linarith) le_rfl)
    exact real_lt.mpr (neg_pos.mpr hlowered)

end ProjectedNewton

end Exact

/-! ## A slanted valley -/

section Example

/-- The constants of the double format with the gap as a power of 2. -/
@[reducible] noncomputable def RealConstants.binary : RealConstants :=
  { RealConstants.double with
    epsilon := 0.5 ^ 52
    epsilon_pos := by positivity }

theorem RealConstants.binary_epsilon : binary.epsilon = 2⁻¹ ^ 52 := by
  show (0.5 : ℝ) ^ 52 = 2⁻¹ ^ 52
  norm_num

namespace ProjectedNewton

/-- A unit so small that the slack is 256 of its squares. -/
noncomputable def speck : ℝ := 0.5 ^ 30

theorem speck_eq : speck = 2⁻¹ ^ 30 := by
  rw [speck]
  norm_num

theorem speck_pos : 0 < speck := pow_pos (by norm_num) _

end ProjectedNewton

attribute [local instance] RealConstants.binary

namespace ProjectedNewton

/-- The point of the plane with the coordinates `a` and `b` in units of `η`. -/
noncomputable def plotted (η : ℝ) (a b : ℤ) : Point 2 := pointOf ![η * a, η * b]

variable {η : ℝ} {a b c d k : ℤ}

theorem plotted_add : plotted η a b + plotted η c d = plotted η (a + c) (b + d) := by
  ext i
  fin_cases i <;> simp [plotted, pointOf, mul_add]

theorem smul_plotted : (k : ℝ) • plotted η a b = plotted η (k * a) (k * b) := by
  ext i
  fin_cases i <;> simp [plotted, pointOf, mul_left_comm]

theorem inner_plotted : ⟪plotted η a b, plotted η c d⟫ = η ^ 2 * (a * c + b * d : ℤ) := by
  simp [plotted, pointOf, PiLp.inner_apply, Fin.sum_univ_two]
  ring

theorem norm_plotted_le (hη : 0 < η) {r : ℝ} (hr : 0 ≤ r) :
    ‖plotted η a b‖ ≤ η * r ↔ (a * a + b * b : ℤ) ≤ r ^ 2 := by
  rw [← sq_le_sq₀ (norm_nonneg _) (by positivity), ← real_inner_self_eq_norm_sq, inner_plotted,
    mul_pow, mul_le_mul_iff_right₀ (by positivity)]

/-- The matrix of the form `x₀² - 4 x₀ x₁ + 5 x₁²`. -/
noncomputable def slanted : Matrix ℝ :=
  Matrix.ofFn 2 2 fun i j => ((if i = j then 1 + 4 * i else -2 : ℤ) : ℝ)

theorem slanted_isSymmetric : slanted.IsSymmetric 2 :=
  Matrix.isSymmetric_ofFn fun i j => by
    by_cases h : i = j
    · rw [h]
    · rw [if_neg h, if_neg fun h' => h h'.symm]

theorem slanted_plotted :
    slanted.toMap 2 (plotted η a b) = plotted η (a - 2 * b) (5 * b - 2 * a) := by
  ext i
  fin_cases i <;> simp [slanted, Matrix.toMap, Matrix.coeff, Matrix.ofFn, plotted, pointOf,
    Fin.sum_univ_two, List.range_succ] <;> ring

theorem modelAt_plotted : modelAt (slanted.toMap 2) (plotted η a b) (plotted η c d)
    = η ^ 2 * ((a * c + b * d : ℤ) + (c * (c - 2 * d) + d * (5 * d - 2 * c) : ℤ) * 2⁻¹) := by
  rw [modelAt, half_eq, slanted_plotted, inner_plotted, inner_plotted, mul_assoc, mul_add]

/-- The plane up to 4 units in the second direction. -/
noncomputable def below (η : ℝ) : Box Extended := [⟨bottom, top⟩, ⟨bottom, real (η * 4)⟩]

theorem below_holds (hη : 0 < η) : (below η).Holds (embed (coords (0 : Point 2))) := by
  have hinside : (0 : ℝ) ≤ η * 4 := by positivity
  refine Box.holds_iff.mpr fun i => ?_
  fin_cases i
  · exact ⟨_, rfl, Interval.contains_iff.mpr ⟨trivial, trivial⟩⟩
  · exact ⟨_, rfl, Interval.contains_iff.mpr ⟨trivial, real_le.mpr hinside⟩⟩

theorem below_stepTo (hη : 0 < η) :
    (below η).StepTo 0 (plotted η a b) (plotted η a (min b 4)) := by
  have hraised : ∀ r, Scalar.maxNum (real r) bottom = real r := fun _ => if_pos trivial
  have hkept : (⟨bottom, top⟩ : Interval Extended).clamp (real (η * a)) = real (η * a) := by
    rw [Interval.clamp, hraised]
    exact if_pos trivial
  have hcut : (⟨bottom, real (η * 4)⟩ : Interval Extended).clamp (real (η * b))
      = real (η * min b 4) := by
    rw [Interval.clamp, hraised, real_minNum, Int.cast_min, mul_min_of_nonneg _ _ hη.le]
    rfl
  show Except.ok [_, _] = _
  rw [zero_add]
  exact congrArg Except.ok (congrArg₂ (fun u v => [u, v]) hkept hcut)

noncomputable def steep (η : ℝ) : Point 2 := plotted η (-5) (-2)

/-- The form with the gradient `steep η` at the origin. -/
noncomputable def valley (η : ℝ) : Model Extended Unit :=
  (Classic.Quadratic.ofReal slanted (coords (-steep η)) false).model

theorem valley_hasCurvature (η : ℝ) (F : Unit → Prop) :
    (valley η).HasCurvature (0 : Point 2) (slanted.toMap 2) (fun _ => True) F :=
  (Classic.Quadratic.isQuadratic_ofReal slanted_isSymmetric.nrows slanted_isSymmetric.ncols
    (-steep η) false).hasCurvature 0 F

noncomputable def origin (η : ℝ) : Iterate Extended where
  x := embed (coords (0 : Point 2))
  f := 0
  g := embed (coords (steep η))
  active := [false, false]
  iteration := 0

/-- The trial step from the origin, with the radius of 28 units and a single iteration on the
face. -/
noncomputable def proposal (η : ℝ) :
    ExceptT (SolverError × Extended) (Run Unit) (TrustRegion.Trial Extended × Extended) :=
  (stepper none { maxIterations := some 1 }).propose (valley η) (below η) (origin η) (real (η * 28))
    (norm (origin η).g) (real 1)

/-- The Cauchy step that the proposal computes on the way. -/
noncomputable def valleyPath (η : ℝ) (curvature : Curvature Extended Unit) : Path Extended Unit :=
  ⟨curvature.operator, below η, (origin η).x, (origin η).g, real (η * 28)⟩

/-- The projected path of steepest descent from the origin. -/
theorem below_path (hη : 0 < η) (k : ℤ) :
    (below η).StepTo 0 (0 - (k : ℝ) • steep η) (plotted η (k * 5) (min (k * 2) 4)) := by
  have hpath : 0 - (k : ℝ) • steep η = plotted η (k * 5) (k * 2) := by
    rw [zero_sub, ← neg_smul, steep, ← Int.cast_neg, smul_plotted]
    simp
  exact hpath ▸ below_stepTo hη

/-- The first length of the Cauchy search is good enough, and the next one is not. -/
theorem cauchyEnd_steep (hη : 0 < η) {a : ℝ} {s : Point 2}
    (h : CauchyEnd (below η) (slanted.toMap 2) 0 (steep η) (η * 28) 1 a s) :
    a = 1 ∧ s = plotted η 5 2 := by
  have hstep : (below η).StepTo 0 (0 - (1 : ℝ) • steep η) (plotted η 5 2) := by
    have hone := below_path hη 1
    rwa [Int.cast_one] at hone
  have hlong : (below η).StepTo 0 (0 - (1 * 10 : ℝ) • steep η) (plotted η 50 4) := by
    have hten := below_path hη 10
    rwa [Int.cast_ofNat, ← one_mul (OfNat.ofNat 10 : ℝ)] at hten
  have hfirst : Accepts (below η) (slanted.toMap 2) 0 (steep η) (η * 28) 1 := by
    refine (accepts_iff hstep).mpr ⟨(norm_plotted_le hη (by norm_num)).mpr (by norm_num), ?_⟩
    rw [steep, modelAt_plotted, inner_plotted]
    norm_num
    linarith [sq_nonneg η]
  have hnext : ¬ Accepts (below η) (slanted.toMap 2) 0 (steep η) (η * 28) (1 * 10) := by
    rw [accepts_iff hlong]
    intro hrule
    have hshort := (norm_plotted_le hη (by norm_num)).mp hrule.short
    norm_num at hshort
  obtain rfl : a = 1 := h.stays hfirst hnext
  exact ⟨rfl, h.step.unique hstep⟩

theorem cauchyStep_valley (hη : 0 < η) {curvature : Curvature Extended Unit} {c : Point 2}
    {length : Extended} {t t₁ t₂ : Unit}
    (hcurvature : Leads (Curvature.ofModel (valley η) (origin η).x) t curvature t₁)
    (h : Leads ((valleyPath η curvature).cauchyStep (real 1)) t₁ (embed (coords c), length) t₂) :
    c = plotted η 5 2 := by
  obtain ⟨-, hop, -⟩ := (valley_hasCurvature η fun _ => True).leads hcurvature trivial
  obtain ⟨-, c', a, heq, hend⟩ :=
    (Path.cauchyStep_attempt hop rfl (below_holds hη) (steep η) (η * 28) 1).leads h trivial
  obtain ⟨hc, -⟩ := Prod.mk.inj heq
  rw [coords_injective (embed_injective hc)]
  exact (cauchyEnd_steep hη hend).2

/-- Neither variable is on a bound at the Cauchy point. -/
theorem bindingMask_below (hη : 0 < η) :
    (below η).bindingMask 0 (embed (coords (0 + plotted η 5 2))) = .ok [false, false] := by
  have hinside : ¬ real (η * 4) - 0 ≤ real (η * 2) := by
    rw [real_zero, real_sub, real_le]
    linarith
  rw [zero_add]
  show Except.ok [false, decide (real (η * 4) - 0 ≤ real (η * 2))] = _
  rw [decide_eq_false hinside]

theorem toFace_all (v : Point 2) : toFace [true, true] v = v := by
  ext i
  fin_cases i <;> rfl

/-- The gradient of the model at the Cauchy step. -/
theorem steep_add_slanted : steep η + slanted.toMap 2 (plotted η 5 2) = plotted η (-4) (-2) := by
  rw [slanted_plotted, steep, plotted_add]
  norm_num

/-- The iteration on the face makes the full step of steepest descent. -/
theorem faceStep_valley (hη : 0 < η) {curvature : Curvature Extended Unit}
    (hop : curvature.operator.Multiplies (slanted.toMap 2) (fun _ => True) fun _ => False) :
    Attempt (fun _ => True) (faceStep none { maxIterations := some 1 } curvature
        (embed (coords (plotted η (-4) (-2)))) [true, true] (embed (coords (plotted η 5 2)))
        (real (η * 28)) (norm (origin η).g))
      (fun r _ => True ∧ ∃ w, r.1 = embed (coords w) ∧ w = plotted η 20 10) fun _ => False := by
  obtain ⟨rtol, hrtol⟩ : ∃ rtol, ({ maxIterations := some 1 } : TruncatedCg.Config
      Extended).toleranceAt (norm (origin η).g) = real rtol := by
    have hroot : Scalar.sqrt (norm (origin η).g) = real √‖steep η‖ := by
      rw [origin, norm_embed, real_sqrt (norm_nonneg _)]
    exact ⟨min 0.1 √‖steep η‖, by rw [Config.toleranceAt, hroot, real_ofScientific, real_minNum]⟩
  have hmasked : (curvature.operator.masked [true, true]).Applies (slanted.toMap 2)
      fun _ => True := by
    have hop' : (curvature.operator.masked [true, true]).Multiplies
        (fun v => toFace [true, true] (slanted.toMap 2 (toFace [true, true] v))) (fun _ => True)
        fun _ => False := hop.masked rfl
    simp only [toFace_all] at hop'
    exact hop'.applies
  have hcurved : ⟪plotted η (-4) (-2), slanted.toMap 2 (plotted η (-4) (-2))⟫ = η ^ 2 * 4 := by
    rw [slanted_plotted, inner_plotted]
    norm_num
  have hne : plotted η (-4) (-2) ≠ 0 := by
    intro hzero
    rw [hzero, inner_zero_left] at hcurved
    exact hcurved.not_lt (by positivity)
  have hfull : fullStep (plotted η (-4) (-2)) (plotted η (-4) (-2))
      (slanted.toMap 2 (plotted η (-4) (-2))) = (5 : ℤ) := by
    rw [fullStep, hcurved, ← real_inner_self_eq_norm_sq, inner_plotted]
    field_simp
    norm_num
  have hstep : fullStep (plotted η (-4) (-2)) (plotted η (-4) (-2))
      (slanted.toMap 2 (plotted η (-4) (-2))) • -plotted η (-4) (-2) = plotted η 20 10 := by
    rw [hfull, smul_neg, ← neg_smul, ← Int.cast_neg, smul_plotted]
    rfl
  have hstays : ‖plotted η 5 2 + plotted η 20 10‖ < η * 28 := by
    rw [plotted_add]
    calc ‖plotted η (5 + 20) (2 + 10)‖ ≤ η * 27.9 :=
          (norm_plotted_le hη (by norm_num)).mpr (by norm_num)
      _ < η * 28 := mul_lt_mul_of_pos_left (by norm_num) hη
  have honce : Succeeds (fun _ => True) (solveFrom { maxIterations := some 1 }
      (curvature.operator.masked [true, true]) (embed (coords (plotted η (-4) (-2))))
      (real (η * 28)) (embed (coords (plotted η 5 2))) (real rtol)) fun sol _ =>
        True ∧ sol.step = embed (coords (plotted η 20 10)) := by
    rw [← hstep] at hstays ⊢
    exact solveFrom_once rfl hmasked hne rtol (by rw [hcurved]; positivity) hstays
  unfold faceStep
  dsimp only
  rw [hrtol]
  refine Attempt.bind (Attempt.iff_succeeds.mpr honce).adapt fun sol =>
    Attempt.assume fun hsol => ?_
  exact Attempt.bind Attempt.emit fun _ => Attempt.pure fun _ _ => ⟨trivial, _, hsol, rfl⟩

/-- The proposal is made, and goes on from the Cauchy step by the step on the face. -/
theorem proposal_leads (hη : 0 < η) :
    ∃ trial s t', Leads (proposal η) () (trial, real 1) t' ∧
      Continues (below η) (slanted.toMap 2) 0 (steep η) (plotted η 5 2) [true, true]
        (· = plotted η 20 10) trial s := by
  have hx := below_holds hη
  have hproposal : Attempt (fun _ => True) (proposal η) (fun r _ => ∃ trial s,
      r = (trial, real 1) ∧ Continues (below η) (slanted.toMap 2) 0 (steep η) (plotted η 5 2)
        [true, true] (· = plotted η 20 10) trial s) fun _ => False := by
    refine Attempt.bind (valley_hasCurvature η fun _ => False).adapt fun curvature => ?_
    refine Attempt.assume fun ⟨hop, _⟩ => ?_
    refine Attempt.bind (Path.cauchyStep_attempt hop rfl hx (steep η) (η * 28) 1).adapt ?_
    rintro ⟨cauchy, length⟩
    refine Attempt.assume ?_
    rintro ⟨c, a, heq, hend⟩
    obtain ⟨rfl, rfl⟩ := cauchyEnd_steep hη hend
    cases heq
    have hface := faceStep_valley hη hop
    rw [← steep_add_slanted, ← toFace_all (steep η + _)] at hface
    refine Attempt.bind (fromCauchy_attempt hop rfl rfl rfl hx (bindingMask_below hη) rfl
      hface).adapt fun trial => Attempt.assume ?_
    rintro ⟨s, hs⟩
    exact Attempt.pure fun _ _ => ⟨trial, s, rfl, hs⟩
  obtain ⟨_, t', hleads, trial, s, rfl, hs⟩ := hproposal.exists_leads trivial
  exact ⟨trial, s, t', hleads, hs⟩

theorem stepper_contract_valley :
    (below 1).Holds (origin 1).x ∧
      (valley 1).HasCurvature 0 (slanted.toMap 2) (fun _ => True) (fun _ => True) ∧
      ∃ trial length t' curvature t₁ t₂, Leads (proposal 1) () (trial, length) t' ∧
        Leads (Curvature.ofModel (valley 1) (origin 1).x) () curvature t₁ ∧
        Leads ((valleyPath 1 curvature).cauchyStep (real 1)) t₁
          (embed (coords (plotted 1 5 2)), length) t₂ ∧
        norm (embed (coords (plotted 1 5 2))) ≤ real (1 * 28) ∧
        ∃ s : Point 2, trial.step = embed (coords s) ∧
          add (origin 1).x trial.step = .ok trial.point ∧ (below 1).Holds trial.point ∧
          norm trial.step ≤ real (1 * 28) ∧
          (∀ i, (below 1).OnBound (0 + plotted 1 5 2) i → (0 + s) i = (0 + plotted 1 5 2) i) ∧
          trial.predicted = real (-(modelAt (slanted.toMap 2) (steep 1) s)) ∧
          -(modelAt (slanted.toMap 2) (steep 1) (plotted 1 5 2)) - RealConstants.epsilon *
              max 1 |modelAt (slanted.toMap 2) (steep 1) (plotted 1 5 2)|
            ≤ -(modelAt (slanted.toMap 2) (steep 1) s) := by
  have hx := below_holds one_pos
  have hm := valley_hasCurvature 1 fun _ => True
  have hshort : norm (embed (coords (plotted 1 5 2))) ≤ real (1 * 28) := by
    rw [norm_embed, real_le]
    exact (norm_plotted_le one_pos (by norm_num)).mpr (by norm_num)
  obtain ⟨trial, -, t', hleads, -⟩ := proposal_leads one_pos
  obtain ⟨curvature, c, t₁, t₂, hcurvature, hcauchy, hcontract⟩ :=
    stepper_contract hm rfl rfl hx hleads trivial
  obtain rfl := cauchyStep_valley one_pos hcurvature hcauchy
  exact ⟨hx, hm, trial, _, t', curvature, t₁, t₂, hleads, hcurvature, hcauchy, hshort,
    hcontract hshort⟩

theorem stepper_predicts_valley :
    RealConstants.epsilon < 1 ∧ (below 1).Holds (origin 1).x ∧
      (valley 1).HasCurvature 0 (slanted.toMap 2) (fun _ => True) (fun _ => True) ∧
      ∃ trial length t' curvature t₁ t₂, Leads (proposal 1) () (trial, length) t' ∧
        Leads (Curvature.ofModel (valley 1) (origin 1).x) () curvature t₁ ∧
        Leads ((valleyPath 1 curvature).cauchyStep (real 1)) t₁
          (embed (coords (plotted 1 5 2)), length) t₂ ∧
        modelAt (slanted.toMap 2) (steep 1) (plotted 1 5 2) < -RealConstants.epsilon ∧
        real 0 < trial.predicted := by
  have hε : RealConstants.epsilon < 1 := by
    rw [RealConstants.binary_epsilon]
    norm_num
  have hx := below_holds one_pos
  have hm := valley_hasCurvature 1 fun _ => True
  have hfalls : modelAt (slanted.toMap 2) (steep 1) (plotted 1 5 2) < -RealConstants.epsilon := by
    rw [steep, modelAt_plotted, RealConstants.binary_epsilon]
    norm_num
  obtain ⟨trial, -, t', hleads, -⟩ := proposal_leads one_pos
  obtain ⟨curvature, c, t₁, t₂, hcurvature, hcauchy, -, hpredicts⟩ :=
    stepper_predicts hε hm rfl rfl hx hleads trivial
  obtain rfl := cauchyStep_valley one_pos hcurvature hcauchy
  exact ⟨hε, hx, hm, trial, _, t', curvature, t₁, t₂, hleads, hcurvature, hcauchy, hfalls,
    hpredicts hfalls⟩

/-- The whole step on the face, cut at the bound, passes although it raises the model. -/
theorem passes_speck : Passes (below speck) (slanted.toMap 2) 0 (steep speck)
    (0 + plotted speck 5 2) (plotted speck 20 10)
    (searchBound (modelAt (slanted.toMap 2) (steep speck) (plotted speck 5 2))) (1 * 2⁻¹ ^ 0)
    (plotted speck 25 4) where
  step := by
    have hcut := below_stepTo (a := 25) (b := 12) speck_pos
    rw [zero_add, pow_zero, mul_one, one_smul, plotted_add]
    norm_num at hcut ⊢
    exact hcut
  low := by
    have hslack : RealConstants.epsilon ≤ RealConstants.epsilon *
        max 1 |modelAt (slanted.toMap 2) (steep speck) (plotted speck 5 2)| :=
      le_mul_of_one_le_right RealConstants.epsilon_pos.le (le_max_left _ _)
    refine le_trans ?_ (add_le_add_right hslack _)
    rw [steep, modelAt_plotted, modelAt_plotted, speck_eq, RealConstants.binary_epsilon]
    norm_num

/-- **A trial step that raises the model.** The Cauchy step lowers it, by less than the slack. -/
theorem stepper_raises :
    (Scalar.epsilon : Extended) = real (2⁻¹ ^ 52) ∧ (below speck).Holds (origin speck).x ∧
      (slanted.toMap 2).IsSymmetric ∧
      (valley speck).HasCurvature 0 (slanted.toMap 2) (fun _ => True) (fun _ => False) ∧
      ∃ trial length t' curvature c t₁ t₂, Leads (proposal speck) () (trial, length) t' ∧
        Leads (Curvature.ofModel (valley speck) (origin speck).x) () curvature t₁ ∧
        Leads ((valleyPath speck curvature).cauchyStep (real 1)) t₁ (embed (coords c), length) t₂ ∧
        modelAt (slanted.toMap 2) (steep speck) c < 0 ∧ trial.predicted < 0 := by
  have hx := below_holds speck_pos
  obtain ⟨trial, s, t', hleads, hs⟩ := proposal_leads speck_pos
  obtain ⟨curvature, c, t₁, t₂, hcurvature, hcauchy, -⟩ :=
    exists_contract (valley_hasCurvature _ fun _ => True) rfl rfl hx hleads trivial
  obtain rfl := cauchyStep_valley speck_pos hcurvature hcauchy
  refine ⟨congrArg real RealConstants.binary_epsilon, hx, slanted_isSymmetric.toMap,
    valley_hasCurvature _ _, trial, _, t', curvature, _, t₁, t₂, hleads, hcurvature, hcauchy, ?_,
    ?_⟩
  · rw [steep, modelAt_plotted, speck_eq]
    norm_num
  · cases hs with
    | fixed bound => cases bound
    | failed face never =>
        subst face
        exact absurd passes_speck (never 0 (by decide) _)
    | found face i lt passes first =>
        subst face
        obtain rfl : i = 0 := by
          by_contra hi
          exact first 0 (Nat.pos_of_ne_zero hi) _ passes_speck
        rw [passes.step.unique passes_speck.step]
        show real (-_) < real 0
        rw [real_lt, steep, modelAt_plotted, speck_eq]
        norm_num

end ProjectedNewton

end Example

end Descent
