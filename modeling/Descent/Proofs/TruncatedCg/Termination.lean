import Mathlib.Tactic.NormNum.RealSqrt
import Descent.Proofs.Extended.Matrices
import Descent.Proofs.TruncatedCg.Conjugate

/-!
# Truncated conjugate gradients finish

In exact arithmetic a run for a symmetric linear operator on `n` variables needs no more than `n`
iterations. Every round but the last explores one more dimension (`Exploring`), so that the
iterations are not used up as long as `n` of them are allowed. An interior step is then one whose
residual has been found small enough, never one at which the run just stopped
(`solveFrom_interior_converged`).
-/

set_option autoImplicit false

open scoped RealInnerProductSpace

namespace Descent

namespace TruncatedCg

open Run

variable {σ : Type} {n : Nat} {H : Point n →ₗ[ℝ] Point n} {g o w r d : Point n} {Δ tol : ℝ}
  {k : Nat}

/-- The state of a run for a symmetric linear operator after `k` rounds. -/
structure Exploring (H : Point n →ₗ[ℝ] Point n) (g o : Point n) (Δ : ℝ) (k : Nat)
    (w r d : Point n) : Prop extends Consistent H g o Δ w r d where
  explored : ∃ S, Explored H S w r d ∧ Module.finrank ℝ S = k

theorem exploring_initial (hg : g ≠ 0) : Exploring H g o Δ 0 0 (-g) (-g) where
  toConsistent := consistent_initial hg
  explored := ⟨⊥, explored_initial H g, finrank_bot ℝ (Point n)⟩

/-- There is a direction that is not explored, hence a round to come. -/
theorem Exploring.lt (hInv : Exploring H g o Δ k w r d) : k < n := by
  obtain ⟨S, hS, rfl⟩ := hInv.explored
  exact hS.finrank_lt hInv.residual_ne hInv.descent

/-- A round that goes on explores one more dimension. -/
theorem Exploring.next (hInv : Exploring H g o Δ k w r d) (hH : H.IsSymmetric) (htol : 0 ≤ tol)
    {c : State ℝ} (hround : Round o Δ tol (k + 1) w r d (H d) (.inr c)) :
    ∃ w' r' d', c = State.at w' r' d' ∧ Exploring H g o Δ (k + 1) w' r' d' := by
  cases hround with
  | next curved stays large =>
      obtain ⟨S, hS, hk⟩ := hInv.explored
      have hdim : Module.finrank ℝ (S ⊔ ℝ ∙ d : Submodule ℝ (Point n)) = k + 1 := by
        rw [hS.finrank_next hInv.residual_ne hInv.descent, hk]
      exact ⟨_, _, _, rfl, hInv.toConsistent.fullStep htol curved stays large, _,
        hS.next hH hInv.residual_ne hInv.descent curved, hdim⟩

/-- The solution has been found in at most `n` iterations, and if it is an interior one the norm of
its residual, which is that of the gradient of the model, is small enough. -/
def Converged (H : Point n →ₗ[ℝ] Point n) (g : Point n) (tol : ℝ) (sol : Solution ℝ) : Prop :=
  sol.iterations ≤ n ∧ (sol.kind = .interior →
    ∃ w, sol.step = coords w ∧ sol.residualNorm = ‖g + H w‖ ∧ ‖g + H w‖ ≤ tol)

/-- A round that ends the run ends it converged or on the sphere. -/
theorem Exploring.converged (hInv : Exploring H g o Δ k w r d) {sol : Solution ℝ}
    (hround : Round o Δ tol (k + 1) w r d (H d) (.inl sol)) : Converged H g tol sol := by
  cases hround with
  | negative curved => exact ⟨hInv.lt, fun hkind => by cases hkind⟩
  | boundary curved leaves => exact ⟨hInv.lt, fun hkind => by cases hkind⟩
  | interior curved stays small =>
      have hresidual : ‖r - fullStep r d (H d) • H d‖ = ‖g + H (w + fullStep r d (H d) • d)‖ := by
        rw [hInv.fullStep_residual, norm_neg]
      exact ⟨hInv.lt, fun _ => ⟨_, rfl, hresidual, hresidual.ge.trans small⟩⟩

variable [RealConstants] {op : Operator ℝ σ}

/-- A run that has as many rounds left as there are dimensions to explore ends converged or on the
sphere. -/
theorem iterate_converged (hH : H.IsSymmetric) (hop : op.Computes H) (htol : 0 ≤ tol) {cap : Nat}
    (hcap : n ≤ cap) (hInv : Exploring H g o Δ 0 w r d) :
    Attains (fun _ => True) (iterate ⟨op, coords o, Δ, tol⟩ cap 0 (State.at w r d))
      (Converged H g tol) := by
  refine iterate_attains_at (I := Exploring H g o Δ) (P := fun d h => h = H d)
    (fun d => (hop.attains d).mono fun v hv => ⟨_, hv, rfl⟩) ?_ ?_ ?_ cap 0 (Nat.zero_add cap) hInv
  -- the iterations cannot be used up: their number is below that of the variables
  · intro w r d hInv
    exact absurd hcap (not_le.mpr hInv.lt)
  · rintro w r d _ k sol hInv rfl hround
    exact hInv.converged hround
  · rintro w r d _ k c hInv rfl hround
    exact hInv.next hH htol hround

/-- **Truncated conjugate gradients finish in `n` iterations.** With the default number of
iterations, or any that is not below the number of variables, an interior step is one whose residual
has the norm reported, and that is within the tolerance. -/
theorem solveFrom_interior_converged (config : Config ℝ) (op : Operator ℝ σ)
    {H : Point n →ₗ[ℝ] Point n} (hH : H.IsSymmetric) (hop : op.Computes H) (g o : Point n) (Δ : ℝ)
    {rtol : ℝ} (hrtol : 0 ≤ rtol) (hcap : n ≤ config.maxIterations.getD n) {sol : Solution ℝ}
    (hsol : Returns (solveFrom config op (coords g) Δ (coords o) rtol) sol) :
    sol.iterations ≤ n ∧ (sol.kind = .interior →
      ∃ w, sol.step = coords w ∧ sol.residualNorm = ‖g + H w‖ ∧ ‖g + H w‖ ≤ rtol * ‖g‖) := by
  have hattains : Attains (fun _ => True) (solveFrom config op (coords g) Δ (coords o) rtol)
      (Converged H g (rtol * ‖g‖)) := by
    rw [solveFrom_coords]
    split
    · next hg =>
        subst hg
        exact Attains.pure ⟨Nat.zero_le n, fun _ => ⟨0, rfl, by simp, by simp⟩⟩
    · next hg =>
        exact iterate_converged hH hop (mul_nonneg hrtol (norm_nonneg g))
          (hcap.trans (le_max_left _ _)) (exploring_initial hg)
  exact Attains.iff_returns.mp hattains sol hsol

end TruncatedCg

/-! ## A run to the bottom of a bowl -/

/-- The operator of a square matrix computes its linear map. -/
theorem Operator.ofMatrix_computes [RealConstants] {σ : Type} {n : Nat} {a : Matrix ℝ}
    (hrows : a.nrows = n) (hcols : a.ncols = n) :
    (Operator.ofMatrix (σ := σ) a).Computes (a.toMap n) := by
  intro x hv h
  have hlength : ModelError.checkLength a.ncols (coords x) = .ok () :=
    if_pos ((length_coords x).trans hcols.symm)
  have happly : (Operator.ofMatrix (σ := σ) a).apply (coords x)
      = pure (coords (a.toMap n x)) := by
    simp only [Operator.ofMatrix, hlength, Matrix.times_coords hrows hcols]
    rfl
  rw [happly] at h
  exact h.of_pure.symm

section Example

attribute [local instance] RealConstants.double

/-- The bowl whose curvature is twice as great in the second direction as in the first. -/
noncomputable def bowl : Matrix ℝ := .ofFn 2 2 fun i j => if i = j then (i : ℝ) + 1 else 0

theorem bowl_symmetric : bowl.IsSymmetric 2 :=
  Matrix.isSymmetric_ofFn fun i j => by
    by_cases h : i = j
    · rw [h]
    · rw [if_neg h, if_neg fun h' => h h'.symm]

theorem bowl_times (a b : ℝ) : (Operator.ofMatrix (σ := Unit) bowl).apply [a, b]
    = pure [a, 2 * b] := by
  norm_num [Operator.ofMatrix, bowl, Matrix.ofFn, Matrix.times, Matrix.rowTimes,
    ModelError.checkLength, List.range_succ]
  rfl

namespace TruncatedCg

open Run

/-- The first round goes as far as the mean of the two curvatures allows. -/
theorem advance_bowl_first :
    advance ⟨Operator.ofMatrix (σ := Unit) bowl, [0, 0], 10, 0⟩ 1 ⟨[0, 0], [1, 1], [1, 1], 2⟩
      = pure (.inr ⟨[2 / 3, 2 / 3], [1 / 3, -(1 / 3)], [4 / 9, -(2 / 9)], 2 / 9⟩) := by
  have hinside : √8 / 3 < (10 : ℝ) := by
    rw [div_lt_iff₀ (by norm_num), Real.sqrt_lt' (by norm_num)]
    norm_num
  have hlarge : (0 : ℝ) < √2 / 3 := by positivity
  norm_num [advance, bowl_times, Vec.dot, Vec.inner, Vec.sumTerms_eq, Vec.along, Vec.add,
    Vec.combine, Vec.scale, Vec.norm, Vec.normSquared, Vec.addMultiple, hinside.not_ge,
    hlarge.not_ge]

/-- The second one ends at the bottom. -/
theorem advance_bowl_second :
    advance ⟨Operator.ofMatrix (σ := Unit) bowl, [0, 0], 10, 0⟩ 2
        ⟨[2 / 3, 2 / 3], [1 / 3, -(1 / 3)], [4 / 9, -(2 / 9)], 2 / 9⟩
      = pure (.inl ⟨[1, 1 / 2], .interior, 2, 0⟩) := by
  have hinside : √5 / 2 < (10 : ℝ) := by
    rw [div_lt_iff₀ (by norm_num), Real.sqrt_lt' (by norm_num)]
    norm_num
  norm_num [advance, bowl_times, Vec.dot, Vec.inner, Vec.sumTerms_eq, Vec.along, Vec.add,
    Vec.combine, Vec.scale, Vec.norm, Vec.normSquared, Vec.addMultiple, hinside.not_ge]

theorem initial_bowl : State.initial [-1, (-1 : ℝ)] = ⟨[0, 0], [1, 1], [1, 1], 2⟩ := by
  norm_num [State.initial, Vec.zeros, Vec.constant, Vec.negate, Vec.normSquared, Vec.inner,
    Vec.sumTerms_eq, List.replicate]

theorem solveFrom_bowl : Returns
    (solveFrom {} (Operator.ofMatrix (σ := Unit) bowl) [-1, -1] 10 [0, 0] 0)
      ⟨[1, 1 / 2], .interior, 2, 0⟩ := by
  have hrun : solveFrom {} (Operator.ofMatrix (σ := Unit) bowl) [-1, -1] 10 [0, 0] 0
      = pure ⟨[1, 1 / 2], .interior, 2, 0⟩ := by
    simp [solveFrom, initial_bowl, iterate, advance_bowl_first, advance_bowl_second,
      -one_div]
  rw [hrun]
  exact ⟨(), #[], rfl⟩

theorem solveFrom_interior_converged_bowl :
    ∃ w : Point 2, [1, 1 / 2] = coords w ∧ ‖pointOf (fun _ => -1) + bowl.toMap 2 w‖ ≤ 0 := by
  have horigin : coords (0 : Point 2) = [0, 0] := by simp [coords]
  have hsol : Returns (solveFrom {} (Operator.ofMatrix (σ := Unit) bowl)
      (coords (pointOf fun _ => -1 : Point 2)) 10 (coords (0 : Point 2)) 0)
      ⟨[1, 1 / 2], .interior, 2, 0⟩ := by
    simpa [List.ofFn_succ, horigin] using solveFrom_bowl
  obtain ⟨-, hconverged⟩ := solveFrom_interior_converged {} (Operator.ofMatrix bowl)
    bowl_symmetric.toMap (Operator.ofMatrix_computes bowl_symmetric.nrows rfl) _ 0 10 le_rfl le_rfl
    hsol
  obtain ⟨w, hstep, -, hsmall⟩ := hconverged rfl
  exact ⟨w, hstep, hsmall.trans_eq (zero_mul _)⟩

end TruncatedCg

end Example

end Descent
