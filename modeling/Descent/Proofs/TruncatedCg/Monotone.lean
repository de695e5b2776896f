import Descent.Proofs.TruncatedCg.Termination

/-!
# Truncated conjugate gradients improve steadily

In exact arithmetic and around the origin, every round for a symmetric linear operator makes the
step longer and better on the quadratic model (`Improves`), or keeps it. That the step grows is
because it never makes an obtuse angle with the direction of search (`Growing`), and this goes back
to the residual being orthogonal to all that has been explored.

Two runs that differ only in the number of iterations go through the same rounds until the shorter
one has used up its own, and from there on the longer one can only improve
(`solve_monotone`). Nothing is asked of the tolerance: one below zero is never met, and a run that
has reached a residual of zero then stays where it is.
-/

set_option autoImplicit false

open scoped RealInnerProductSpace

namespace Descent

namespace TruncatedCg

open Run

variable {σ : Type} {n : Nat} {H : Point n →ₗ[ℝ] Point n} {S : Submodule ℝ (Point n)}
  {g o w r d h w₁ w₂ : Point n} {Δ tol t : ℝ} {k : Nat}

/-- The step `w₂` is at least as long as `w₁` and at least as good on the model. -/
structure Improves (H : Point n →ₗ[ℝ] Point n) (g w₁ w₂ : Point n) : Prop where
  longer : ‖w₁‖ ≤ ‖w₂‖
  better : modelValue H g w₂ ≤ modelValue H g w₁

theorem Improves.refl (w : Point n) : Improves H g w w := ⟨le_rfl, le_rfl⟩

theorem Improves.trans (h₁ : Improves H g w w₁) (h₂ : Improves H g w₁ w₂) : Improves H g w w₂ :=
  ⟨h₁.longer.trans h₂.longer, h₂.better.trans h₁.better⟩

/-! ## Rounds -/

theorem fullStep_nonneg (hcurved : 0 < ⟪d, h⟫) : 0 ≤ fullStep r d h :=
  div_nonneg (sq_nonneg _) hcurved.le

/-- A round that ends the run ends it on the ray from the step along the direction. -/
theorem Round.on_ray {sol : Solution ℝ} (hround : Round o Δ tol k w r d h (.inl sol)) :
    ∃ t : ℝ, 0 ≤ t ∧ sol.step = coords (w + t • d) := by
  cases hround with
  | negative curved => exact ⟨exitStep (o + w) d Δ, exitStep_nonneg _ _ _, rfl⟩
  | boundary curved leaves => exact ⟨exitStep (o + w) d Δ, exitStep_nonneg _ _ _, rfl⟩
  | interior curved stays small => exact ⟨fullStep r d h, fullStep_nonneg curved, rfl⟩

/-- What a round ends with is determined by what it starts from. -/
theorem Round.unique {out out' : Solution ℝ ⊕ State ℝ} (hround : Round o Δ tol k w r d h out)
    (hround' : Round o Δ tol k w r d h out') : out = out' := by
  -- two outcomes of different kinds ask for a different sign, a different side or a different size
  cases hround <;> cases hround' <;> first
    | rfl
    | (exfalso; order)

/-- A move along a direction that makes no obtuse angle with the step does not shorten it. -/
theorem norm_le_norm_add_smul (hforward : 0 ≤ ⟪w, d⟫) (ht : 0 ≤ t) : ‖w‖ ≤ ‖w + t • d‖ := by
  have hcross : 0 ≤ t * ⟪w, d⟫ := mul_nonneg ht hforward
  have hsq : ‖w‖ ^ 2 ≤ ‖w + t • d‖ ^ 2 := by
    calc ‖w‖ ^ 2 ≤ ‖w‖ ^ 2 + 2 * (t * ⟪w, d⟫) + ‖t • d‖ ^ 2 := by linarith [sq_nonneg ‖t • d‖]
      _ = ‖w + t • d‖ ^ 2 := by rw [norm_add_sq_real, real_inner_smul_right]
  exact (sq_le_sq₀ (norm_nonneg _) (norm_nonneg _)).mp hsq

/-- The state of a run around the origin whose residual is not zero. -/
structure Growing (H : Point n →ₗ[ℝ] Point n) (g : Point n) (Δ : ℝ) (w r d : Point n) : Prop
    extends Consistent H g 0 Δ w r d where
  explored : ∃ S, Explored H S w r d
  forward : 0 ≤ ⟪w, d⟫

theorem growing_initial (hg : g ≠ 0) : Growing H g Δ 0 (-g) (-g) where
  toConsistent := consistent_initial hg
  explored := ⟨⊥, explored_initial H g⟩
  forward := by rw [inner_zero_left]

/-- The next direction does not turn back: its part along the residual is orthogonal to the step,
and the rest goes on in the old direction. -/
theorem Explored.forward_next (hS : Explored H S w r d) (hH : H.IsSymmetric)
    (hdescent : ⟪d, r⟫ = ‖r‖ ^ 2) (hcurved : 0 < ⟪d, H d⟫) (hforward : 0 ≤ ⟪w, d⟫) :
    0 ≤ ⟪w + fullStep r d (H d) • d, nextDirection r d (H d)⟫ := by
  have horthogonal : ⟪w + fullStep r d (H d) • d, nextResidual r d (H d)⟫ = 0 := by
    refine hS.orthogonal_next hH hdescent hcurved (Submodule.add_mem _ ?_ ?_)
    · exact Submodule.mem_sup_left hS.step_mem
    · exact Submodule.smul_mem _ _ direction_mem_next
  have honwards : 0 ≤ ⟪w + fullStep r d (H d) • d, d⟫ := by
    rw [inner_add_left, real_inner_smul_left, real_inner_self_eq_norm_sq]
    exact add_nonneg hforward (mul_nonneg (fullStep_nonneg hcurved) (sq_nonneg _))
  calc 0 ≤ ‖nextResidual r d (H d)‖ ^ 2 / ‖r‖ ^ 2 * ⟪w + fullStep r d (H d) • d, d⟫ :=
        mul_nonneg (div_nonneg (sq_nonneg _) (sq_nonneg _)) honwards
    _ = ⟪w + fullStep r d (H d) • d, nextDirection r d (H d)⟫ := by
        rw [inner_add_right, real_inner_smul_right, horthogonal, zero_add]

/-- The full step keeps the invariant unless it leads to a residual of zero. -/
theorem Growing.fullStep (hInv : Growing H g Δ w r d) (hH : H.IsSymmetric)
    (curved : 0 < ⟪d, H d⟫) (stays : ‖0 + (w + fullStep r d (H d) • d)‖ < Δ)
    (hresidual : nextResidual r d (H d) ≠ 0) :
    Growing H g Δ (w + fullStep r d (H d) • d) (nextResidual r d (H d))
      (nextDirection r d (H d)) := by
  obtain ⟨S, hS⟩ := hInv.explored
  exact
    { toConsistent := hInv.toConsistent.fullStep le_rfl curved stays (norm_pos_iff.mpr hresidual)
      explored := ⟨_, hS.next hH hInv.residual_ne hInv.descent curved⟩
      forward := hS.forward_next hH hInv.descent curved hInv.forward }

/-- The state of a run around the origin. Only where no tolerance is met does a run go on from a
residual of zero, and then without a direction. -/
def Steady (H : Point n →ₗ[ℝ] Point n) (g : Point n) (Δ : ℝ) (w r d : Point n) : Prop :=
  Growing H g Δ w r d ∨ d = 0

/-- A round that ends the run improves on the step. -/
theorem Steady.stop (hInv : Steady H g Δ w r d) (hH : H.IsSymmetric) (hΔ : 0 ≤ Δ)
    {sol : Solution ℝ} (hround : Round 0 Δ tol k w r d (H d) (.inl sol)) :
    ∃ w', sol.step = coords w' ∧ Improves H g w w' := by
  obtain ⟨t, ht, hstep⟩ := hround.on_ray
  refine ⟨_, hstep, ?_⟩
  rcases hInv with hInv | rfl
  · have ho : ‖(0 : Point n)‖ ≤ Δ := norm_zero.trans_le hΔ
    obtain ⟨w', hstep', hbest⟩ := hInv.stop hH ho hround
    have hpoint : w' = w + t • d := coords_injective (hstep'.symm.trans hstep)
    rw [hpoint] at hbest
    exact ⟨norm_le_norm_add_smul hInv.forward ht, hbest.le_start (hInv.norm_le ho)⟩
  -- without a direction the step stays what it is
  · rw [smul_zero, add_zero]
    exact .refl w

/-- A round that goes on improves on the step and keeps the invariant. -/
theorem Steady.next (hInv : Steady H g Δ w r d) (hH : H.IsSymmetric) (hΔ : 0 ≤ Δ) {c : State ℝ}
    (hround : Round 0 Δ tol k w r d (H d) (.inr c)) :
    ∃ w' r' d', c = State.at w' r' d' ∧ Steady H g Δ w' r' d' ∧ Improves H g w w' := by
  cases hround with
  | next curved stays large =>
      refine ⟨_, _, _, rfl, ?_⟩
      rcases hInv with hInv | rfl
      · have hbest := hInv.fullStep_best hH curved
        refine ⟨?_, norm_le_norm_add_smul hInv.forward (fullStep_nonneg curved),
          hbest.le_start (hInv.norm_le (norm_zero.trans_le hΔ))⟩
        by_cases hresidual : nextResidual r d (H d) = 0
        · refine .inr ?_
          show nextDirection r d (H d) = 0
          rw [nextDirection, hresidual, norm_zero, zero_pow two_ne_zero, zero_div, zero_smul,
            add_zero]
        · exact .inl (hInv.fullStep hH curved stays hresidual)
      -- without a direction there is no curvature
      · rw [inner_zero_left] at curved
        exact absurd curved (lt_irrefl 0)

/-! ## Whole runs -/

variable [RealConstants] {op : Operator ℝ σ}

/-- Every run improves on the step that it starts from. -/
theorem iterate_improves (hH : H.IsSymmetric) (hop : op.Computes H) (hΔ : 0 ≤ Δ)
    (remaining k : Nat) (hInv : Steady H g Δ w r d) :
    Attains (fun _ => True)
      (iterate ⟨op, coords (0 : Point n), Δ, tol⟩ remaining k (State.at w r d))
      fun sol => ∃ w', sol.step = coords w' ∧ Improves H g w w' := by
  refine iterate_attains (I := fun w' r' d' => Steady H g Δ w' r' d' ∧ Improves H g w w')
    (P := fun d h => h = H d) (fun d => (hop.attains d).mono fun v hv => ⟨_, hv, rfl⟩)
    (fun w' r' d' k hInv => ⟨w', rfl, hInv.2⟩) ?_ ?_ remaining k ⟨hInv, .refl w⟩
  · rintro w₁ r₁ d₁ _ k sol ⟨hInv, hw₁⟩ rfl hround
    obtain ⟨w₂, hstep, hw₂⟩ := hInv.stop hH hΔ hround
    exact ⟨w₂, hstep, hw₁.trans hw₂⟩
  · rintro w₁ r₁ d₁ _ k c ⟨hInv, hw₁⟩ rfl hround
    obtain ⟨w₂, r₂, d₂, rfl, hInv', hw₂⟩ := hInv.next hH hΔ hround
    exact ⟨w₂, r₂, d₂, rfl, hInv', hw₁.trans hw₂⟩

/-- The first iteration of a run is a round, and the run ends with its solution or goes on from its
state. -/
theorem round_of_iterate (hop : op.Computes H) {remaining : Nat} {sol : Solution ℝ}
    (hsol : Returns (iterate ⟨op, coords o, Δ, tol⟩ (remaining + 1) k (State.at w r d)) sol) :
    ∃ out, Round o Δ tol (k + 1) w r d (H d) out ∧
      match out with
      | .inl first => sol = first
      | .inr c => Returns (iterate ⟨op, coords o, Δ, tol⟩ remaining (k + 1) c) sol := by
  obtain ⟨out, hadvance, hrest⟩ := Returns.of_bind hsol
  have hround : Attains (fun _ => True)
      (advance ⟨op, coords o, Δ, tol⟩ (k + 1) (State.at w r d))
      fun out => ∃ h, h = H d ∧ Round o Δ tol (k + 1) w r d h out :=
    advance_round ((hop.attains d).mono fun v hv => ⟨_, hv, rfl⟩)
  obtain ⟨_, rfl, hround⟩ := Attains.iff_returns.mp hround out hadvance
  refine ⟨out, hround, ?_⟩
  cases out with
  | inl first => exact hrest.of_pure.symm
  | inr c => exact hrest

/-- Of two runs from one state the one with more iterations improves on the other. -/
theorem iterate_monotone (hH : H.IsSymmetric) (hop : op.Computes H) (hΔ : 0 ≤ Δ)
    {remaining remaining' : Nat} (hle : remaining ≤ remaining') {sol sol' : Solution ℝ}
    (hInv : Steady H g Δ w r d)
    (hsol : Returns
      (iterate ⟨op, coords (0 : Point n), Δ, tol⟩ remaining k (State.at w r d)) sol)
    (hsol' : Returns
      (iterate ⟨op, coords (0 : Point n), Δ, tol⟩ remaining' k (State.at w r d)) sol') :
    ∃ w₁ w₂, sol.step = coords w₁ ∧ sol'.step = coords w₂ ∧ Improves H g w₁ w₂ := by
  induction remaining generalizing remaining' k w r d with
  -- the shorter run ends where it is, and the longer one improves on that
  | zero =>
      obtain ⟨w₂, hstep, hw₂⟩ :=
        Attains.iff_returns.mp (iterate_improves hH hop hΔ remaining' k hInv) sol' hsol'
      obtain rfl := hsol.of_pure
      exact ⟨w, w₂, rfl, hstep, hw₂⟩
  -- both begin with the same round
  | succ remaining ih =>
      obtain ⟨longer, rfl⟩ : ∃ longer, remaining' = longer + 1 :=
        ⟨_, (Nat.sub_add_cancel (Nat.one_le_of_lt hle)).symm⟩
      obtain ⟨out, hround, hrest⟩ := round_of_iterate hop hsol
      obtain ⟨out', hround', hrest'⟩ := round_of_iterate hop hsol'
      obtain rfl := hround.unique hround'
      cases out with
      | inl first =>
          obtain rfl : sol = first := hrest
          obtain rfl : sol' = sol := hrest'
          obtain ⟨w', hstep, -⟩ := hInv.stop hH hΔ hround
          exact ⟨w', w', hstep, hstep, .refl w'⟩
      | inr c =>
          obtain ⟨w', r', d', rfl, hInv', -⟩ := hInv.next hH hΔ hround
          exact ih (Nat.le_of_succ_le_succ hle) hInv' hrest hrest'

/-- **More iterations make the step longer and better.** Around the origin, of two solves that
differ only in the number of iterations allowed, the one with more of them ends with a step that is
at least as long and has at most the same value of the quadratic model. -/
theorem solve_monotone (op : Operator ℝ σ) {H : Point n →ₗ[ℝ] Point n} (hH : H.IsSymmetric)
    (hop : op.Computes H) (g : Point n) {Δ : ℝ} (hΔ : 0 ≤ Δ) (rtol : ℝ) {k k' : Nat} (hle : k ≤ k')
    {sol sol' : Solution ℝ} (hsol : Returns (solve ⟨rtol, some k⟩ op (coords g) Δ) sol)
    (hsol' : Returns (solve ⟨rtol, some k'⟩ op (coords g) Δ) sol') :
    ∃ w w' : Point n, sol.step = coords w ∧ sol'.step = coords w' ∧ ‖w‖ ≤ ‖w'‖ ∧
      modelValue H g w' ≤ modelValue H g w := by
  have horigin : Vec.zeros (coords g).length = coords (0 : Point n) := by
    simp
  rw [solve, horigin, solveFrom_coords] at hsol hsol'
  split at hsol
  · next hg =>
      rw [if_pos hg] at hsol'
      obtain rfl := hsol.of_pure
      obtain rfl := hsol'.of_pure
      exact ⟨0, 0, rfl, rfl, le_rfl, le_rfl⟩
  · next hg =>
      rw [if_neg hg] at hsol'
      obtain ⟨w, w', hstep, hstep', hw⟩ := iterate_monotone hH hop hΔ (max_le_max_right 1 hle)
        (.inl (growing_initial hg)) hsol hsol'
      exact ⟨w, w', hstep, hstep', hw.longer, hw.better⟩

end TruncatedCg

/-! ## One round and two -/

section Example

attribute [local instance] RealConstants.double

namespace TruncatedCg

open Run

theorem solve_bowl_one : Returns
    (solve ⟨0, some 1⟩ (Operator.ofMatrix (σ := Unit) bowl) [-1, -1] 10)
      ⟨[2 / 3, 2 / 3], .interior, 1, √(2 / 9)⟩ := by
  have hrun : solve ⟨0, some 1⟩ (Operator.ofMatrix (σ := Unit) bowl) [-1, -1] 10
      = pure ⟨[2 / 3, 2 / 3], .interior, 1, √(2 / 9)⟩ := by
    simp [solve, solveFrom, initial_bowl, iterate, advance_bowl_first, Vec.zeros, Vec.constant,
      List.replicate, -one_div]
  rw [hrun]
  exact ⟨(), #[], rfl⟩

theorem solve_bowl_two : Returns
    (solve ⟨0, some 2⟩ (Operator.ofMatrix (σ := Unit) bowl) [-1, -1] 10)
      ⟨[1, 1 / 2], .interior, 2, 0⟩ := by
  have hrun : solve ⟨0, some 2⟩ (Operator.ofMatrix (σ := Unit) bowl) [-1, -1] 10
      = pure ⟨[1, 1 / 2], .interior, 2, 0⟩ := by
    simp [solve, solveFrom, initial_bowl, iterate, advance_bowl_first, advance_bowl_second,
      Vec.zeros, Vec.constant, List.replicate, -one_div]
  rw [hrun]
  exact ⟨(), #[], rfl⟩

theorem solve_monotone_bowl :
    ∃ w w' : Point 2, [2 / 3, 2 / 3] = coords w ∧ [1, 1 / 2] = coords w' ∧ ‖w‖ ≤ ‖w'‖ ∧
      modelValue (bowl.toMap 2) (pointOf fun _ => -1) w'
        ≤ modelValue (bowl.toMap 2) (pointOf fun _ => -1) w := by
  have hg : coords (pointOf fun _ => -1 : Point 2) = [-1, -1] := by simp [List.ofFn_succ]
  have hcomputes := Operator.ofMatrix_computes (σ := Unit) bowl_symmetric.nrows rfl
  have hone := hg.symm ▸ solve_bowl_one
  have htwo := hg.symm ▸ solve_bowl_two
  exact solve_monotone (Operator.ofMatrix bowl) bowl_symmetric.toMap hcomputes _ (by norm_num) 0
    (by decide) hone htwo

end TruncatedCg

end Example

end Descent
