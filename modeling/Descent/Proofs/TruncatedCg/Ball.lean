import Descent.Proofs.TruncatedCg.Round

/-!
# Truncated conjugate gradients stay in the ball

In exact arithmetic the step of `solveFrom` does not lead out of the ball `‖o + w‖ ≤ Δ`, or not
farther out than the offset is already, and the two kinds of truncated steps end on the sphere
exactly. This holds for every operator whose values are as long as its arguments, linear or not.

The argument is an invariant of the rounds (`Inside`): the direction has the inner product `‖r‖²`
with the residual `r ≠ 0`, so that it never vanishes and the exit step is a root, and the point
reached is not outside.
-/

set_option autoImplicit false

open scoped RealInnerProductSpace

namespace Descent

/-- Whatever the operator returns for a vector of length `n` has length `n`. -/
def Operator.KeepsLength {α σ : Type} (op : Operator α σ) (n : Nat) : Prop :=
  ∀ v hv, v.length = n → Run.Returns (op.apply v) hv → hv.length = n

namespace TruncatedCg

open Run

variable {σ : Type} {n : Nat}

/-- The state of a run in the ball of radius `Δ` around `-o`. -/
structure Inside (o : Point n) (Δ : ℝ) (w r d : Point n) : Prop where
  residual_ne : r ≠ 0
  descent : ⟪d, r⟫ = ‖r‖ ^ 2
  ball : ‖o + w‖ ≤ max Δ ‖o‖

variable {o w r d h : Point n} {Δ tol : ℝ}

/-- The direction of search does not vanish. -/
theorem Inside.direction_ne (hInv : Inside o Δ w r d) : d ≠ 0 := by
  rintro rfl
  have hr : ‖r‖ ^ 2 = 0 := by simpa using hInv.descent.symm
  exact hInv.residual_ne (by simpa using hr)

theorem inside_initial {g : Point n} (hg : g ≠ 0) : Inside o Δ 0 (-g) (-g) where
  residual_ne := neg_ne_zero.mpr hg
  descent := real_inner_self_eq_norm_sq _
  ball := by simp

/-- The new residual is orthogonal to the old direction. -/
theorem inner_direction_residual (hdescent : ⟪d, r⟫ = ‖r‖ ^ 2) (hcurved : 0 < ⟪d, h⟫) :
    ⟪d, r - fullStep r d h • h⟫ = 0 := by
  rw [inner_sub_right, real_inner_smul_right, hdescent, fullStep, div_mul_cancel₀ _ hcurved.ne',
    sub_self]

/-- Whatever is added of the old direction, the new one has the same inner product with the new
residual as that has with itself. -/
theorem inner_next_direction (hdescent : ⟪d, r⟫ = ‖r‖ ^ 2) (hcurved : 0 < ⟪d, h⟫) (c : ℝ) :
    ⟪r - fullStep r d h • h + c • d, r - fullStep r d h • h⟫
      = ‖r - fullStep r d h • h‖ ^ 2 := by
  rw [inner_add_left, real_inner_smul_left, inner_direction_residual hdescent hcurved, mul_zero,
    add_zero, real_inner_self_eq_norm_sq]

/-- The step of a solution does not lead out of the ball, and a truncated one ends on the sphere. -/
def EndsInside (o : Point n) (Δ : ℝ) (sol : Solution ℝ) : Prop :=
  ∃ w : Point n, sol.step = coords w ∧ ‖o + w‖ ≤ max Δ ‖o‖ ∧
    (‖o‖ ≤ Δ → sol.kind = .boundary ∨ sol.kind = .negativeCurvature → ‖o + w‖ = Δ)

/-- A step that is cut at the sphere. -/
theorem Inside.endsInside_exit (hInv : Inside o Δ w r d) (hΔ : 0 ≤ Δ) (kind : StepKind)
    (k : Nat) (residualNorm : ℝ) :
    EndsInside o Δ ⟨coords (w + exitStep (o + w) d Δ • d), kind, k, residualNorm⟩ := by
  have exit : ‖o + (w + exitStep (o + w) d Δ • d)‖ = max Δ ‖o + w‖ := by
    rw [← add_assoc]
    exact norm_add_exitStep hInv.direction_ne hΔ
  refine ⟨_, rfl, ?_, fun ho _ => ?_⟩
  · rw [exit]
    exact max_le (le_max_left _ _) hInv.ball
  · rw [exit]
    exact max_eq_left (hInv.ball.trans_eq (max_eq_left ho))

/-- A step inside the ball that is not truncated. -/
theorem endsInside_interior (hball : ‖o + w‖ ≤ max Δ ‖o‖) (k : Nat) (residualNorm : ℝ) :
    EndsInside o Δ ⟨coords w, .interior, k, residualNorm⟩ :=
  ⟨w, rfl, hball, fun _ hkind => by simp at hkind⟩

/-- A round that ends the run ends it inside. -/
theorem Inside.endsInside (hInv : Inside o Δ w r d) (hΔ : 0 ≤ Δ) {k : Nat} {sol : Solution ℝ}
    (hround : Round o Δ tol k w r d h (.inl sol)) : EndsInside o Δ sol := by
  cases hround with
  | negative curved => exact hInv.endsInside_exit hΔ _ _ _
  | boundary curved leaves => exact hInv.endsInside_exit hΔ _ _ _
  | interior curved stays small =>
      exact endsInside_interior (stays.le.trans (le_max_left _ _)) _ _

/-- The full step keeps the invariant if it stays inside with a residual above the tolerance. -/
theorem Inside.fullStep (hInv : Inside o Δ w r d) (htol : 0 ≤ tol) (curved : 0 < ⟪d, h⟫)
    (stays : ‖o + (w + fullStep r d h • d)‖ < Δ) (large : tol < ‖r - fullStep r d h • h‖) :
    Inside o Δ (w + fullStep r d h • d) (r - fullStep r d h • h)
      (r - fullStep r d h • h + (‖r - fullStep r d h • h‖ ^ 2 / ‖r‖ ^ 2) • d) where
  residual_ne := norm_pos_iff.mp (htol.trans_lt large)
  descent := inner_next_direction hInv.descent curved _
  ball := stays.le.trans (le_max_left _ _)

/-- A round that goes on keeps the invariant. -/
theorem Inside.next (hInv : Inside o Δ w r d) (htol : 0 ≤ tol) {k : Nat} {c : State ℝ}
    (hround : Round o Δ tol k w r d h (.inr c)) :
    ∃ w' r' d', c = State.at w' r' d' ∧ Inside o Δ w' r' d' := by
  cases hround with
  | next curved stays large => exact ⟨_, _, _, rfl, hInv.fullStep htol curved stays large⟩

variable [RealConstants] {op : Operator ℝ σ}

omit [RealConstants] in
theorem attains_of_keepsLength (hop : op.KeepsLength n) (d : Point n) :
    Attains (fun _ => True) (op.apply (coords d)) fun v => ∃ h : Point n, v = coords h ∧ True := by
  refine Attains.iff_returns.mpr fun v hv => ?_
  obtain ⟨h, rfl⟩ := exists_coords (hop _ _ (length_coords d) hv)
  exact ⟨h, rfl, trivial⟩

/-- The ball for points. -/
theorem solveFrom_endsInside (config : Config ℝ) (hop : op.KeepsLength n) (g : Point n)
    (hΔ : 0 ≤ Δ) {rtol : ℝ} (hrtol : 0 ≤ rtol) :
    Attains (fun _ => True) (solveFrom config op (coords g) Δ (coords o) rtol)
      (EndsInside o Δ) := by
  rw [solveFrom_coords]
  split
  · exact Attains.pure (endsInside_interior (by simp) _ _)
  · next hg =>
      have htol : 0 ≤ rtol * ‖g‖ := mul_nonneg hrtol (norm_nonneg g)
      exact iterate_attains (attains_of_keepsLength hop)
        (fun w r d k hInv => endsInside_interior hInv.ball k _)
        (fun w r d h k sol hInv _ hround => hInv.endsInside hΔ hround)
        (fun w r d h k c hInv _ hround => hInv.next htol hround) _ 0 (inside_initial hg)

/-! ## Offsets of another length

They fit no step, so that only the solve that does not iterate ends with a value. -/

theorem prolong_length {p : Problem ℝ σ} {c : State ℝ} {step : Vec ℝ}
    (h : prolong p c = .ok step) : p.offset.length = c.step.length := by
  unfold prolong at h
  cases hsum : Vec.add p.offset c.step with
  | error e =>
      rw [hsum] at h
      cases h
  | ok z => exact (Vec.length_combine hsum).2

/-- An iteration ends with a value only if the offset is as long as the step. -/
theorem advance_length (p : Problem ℝ σ) (k : Nat) (c : State ℝ) :
    Attains (fun _ => True) (advance p k c) fun _ => p.offset.length = c.step.length := by
  unfold advance
  refine Attains.bind Attains.trivial fun hp _ => ?_
  refine Attains.bind (Attains.checked fun _ h => h) fun curvature _ => ?_
  split
  · refine Attains.bind (Attains.checked fun _ h => h) fun next hnext => ?_
    refine Attains.bind (Attains.checked fun _ h => h) fun z hz => ?_
    have hlength : p.offset.length = c.step.length :=
      (Vec.length_combine hz).2.trans (Vec.length_combine hnext).1
    exact Attains.mono Attains.trivial fun _ _ => hlength
  · refine Attains.bind (Attains.checked fun _ h => prolong_length h) fun step hlength => ?_
    exact Attains.mono Attains.trivial fun _ _ => hlength

theorem solveFrom_length (config : Config ℝ) (g : Point n) (offset : Vec ℝ) (rtol : ℝ)
    (hoffset : offset.length ≠ n) :
    Attains (fun _ => True) (solveFrom config op (coords g) Δ offset rtol)
      fun sol => sol.step.length = n := by
  unfold solveFrom
  simp only [initial_coords]
  split
  · exact Attains.pure (length_coords _)
  -- there is a first iteration, and it cannot end with a value
  · obtain ⟨m, hm⟩ : ∃ m, max (config.maxIterations.getD (coords g).length) 1 = m + 1 :=
      ⟨_, (Nat.sub_add_cancel (le_max_right _ _)).symm⟩
    rw [hm]
    refine Attains.bind (advance_length _ _ _) fun out hlength => ?_
    exact absurd (hlength.trans (length_coords _)) hoffset

/-! ## The ball -/

/-- **Truncated conjugate gradients respect the ball.** The step has the length of the gradient, the
point that it leads to from the offset is not outside the ball or not farther out than the offset,
and from an offset inside a truncated step leads to the sphere. -/
theorem solveFrom_stays_in_ball (config : Config ℝ) (op : Operator ℝ σ) (g offset : Vec ℝ)
    {Δ rtol : ℝ} (hΔ : 0 ≤ Δ) (hrtol : 0 ≤ rtol) (hop : op.KeepsLength g.length)
    {sol : Solution ℝ} (hsol : Returns (solveFrom config op g Δ offset rtol) sol) :
    sol.step.length = g.length ∧ ∀ z, Vec.add offset sol.step = .ok z →
      Vec.norm z ≤ max Δ (Vec.norm offset) ∧
      (Vec.norm offset ≤ Δ → sol.kind = .boundary ∨ sol.kind = .negativeCurvature →
        Vec.norm z = Δ) := by
  obtain ⟨x, hx⟩ := exists_coords (v := g) rfl
  rw [← hx] at hsol
  by_cases hlength : offset.length = g.length
  · obtain ⟨o, rfl⟩ := exists_coords hlength
    obtain ⟨w, hw, hball, hsphere⟩ :=
      Attains.iff_returns.mp (solveFrom_endsInside config hop x hΔ hrtol) sol hsol
    refine ⟨by rw [hw, length_coords], fun z hz => ?_⟩
    rw [hw, Vec.add_coords] at hz
    cases hz
    simpa only [Vec.norm_coords] using And.intro hball hsphere
  -- the sum of offset and step is then no vector
  · have hstep := Attains.iff_returns.mp (solveFrom_length config x offset rtol hlength) sol hsol
    refine ⟨hstep, fun z hz => ?_⟩
    exact absurd ((Vec.length_combine hz).2.trans hstep) hlength

end TruncatedCg

/-! ## A run that is cut at the sphere -/

section Example

attribute [local instance] RealConstants.double

def Operator.identity : Operator ℝ Unit := ⟨1, fun v => pure v⟩

theorem Operator.identity_returns {v hv : Vec ℝ} (h : Run.Returns (identity.apply v) hv) :
    hv = v := by
  obtain ⟨s, journal, h⟩ := h
  cases h
  rfl

theorem Operator.identity_keepsLength (n : Nat) : identity.KeepsLength n := by
  intro v hv hn h
  rw [identity_returns h, hn]

namespace TruncatedCg

open Run

/-- From the origin the unit gradient leads down to the sphere of radius one half. -/
theorem boundaryStep_half : boundaryStep [0] [-1] (2⁻¹ : ℝ) = .ok 2⁻¹ := by
  have hroot : √((2 : ℝ)⁻¹ * 2⁻¹) = 2⁻¹ := Real.sqrt_mul_self (by norm_num)
  simp [boundaryStep, Vec.dot, Vec.inner, Vec.sumTerms_eq, Vec.normSquared, hroot]

theorem solveFrom_identity :
    Returns (solveFrom {} Operator.identity [1] (2⁻¹ : ℝ) [0] 0) ⟨[-2⁻¹], .boundary, 1, 1⟩ := by
  have hradius : (2⁻¹ : ℝ) ≤ 1 := by norm_num
  refine ⟨(), #[], ?_⟩
  unfold solveFrom
  simp [State.initial, iterate, advance, Operator.identity, prolong, Vec.negate, Vec.normSquared,
    Vec.inner, Vec.sumTerms_eq, Vec.zeros, Vec.constant, Vec.dot, Vec.along, Vec.add, Vec.combine,
    Vec.scale, Vec.norm, Vec.addMultiple, boundaryStep_half, hradius]
  rfl

theorem solveFrom_stays_in_ball_identity :
    Returns (solveFrom {} Operator.identity [1] (2⁻¹ : ℝ) [0] 0) ⟨[-2⁻¹], .boundary, 1, 1⟩ ∧
      ∀ z, Vec.add [0] [-2⁻¹] = .ok z → Vec.norm z = (2⁻¹ : ℝ) := by
  refine ⟨solveFrom_identity, fun z hz => ?_⟩
  have hoffset : Vec.norm [(0 : ℝ)] ≤ 2⁻¹ := by
    simp [Vec.norm, Vec.normSquared, Vec.inner, Vec.sumTerms_eq]
  exact ((solveFrom_stays_in_ball {} Operator.identity [1] [0] (by norm_num) le_rfl
    (Operator.identity_keepsLength _) solveFrom_identity).2 z hz).2 hoffset (.inl rfl)

end TruncatedCg

end Example

end Descent
