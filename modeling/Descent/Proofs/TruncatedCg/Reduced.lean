import Descent.Proofs.Reduced
import Descent.Proofs.TruncatedCg.Ball

/-!
# Truncated conjugate gradients on the free variables

In exact arithmetic a solve with a masked operator is a solve of the reduced system: with the
operator that scatters its argument among zeros and gathers the free coordinates of the value, from
the free coordinates of the gradient (`solveFrom_masked`). The two runs go in lock-step, for every
operator, linear or not: the same calls of the operator, the same exits, and states of which one is
scattered from the other. So a fixed coordinate gets into no step, inner product or norm.
-/

set_option autoImplicit false

open scoped RealInnerProductSpace

namespace Descent

variable {σ : Type}

/-- What follows a computation matters for the values that it can end with. -/
theorem Run.bind_congr_returns {β γ ε : Type} {m : ExceptT ε (Run σ) β}
    {f g : β → ExceptT ε (Run σ) γ} (h : ∀ b, Returns m b → f b = g b) : m >>= f = m >>= g := by
  apply ExceptT.ext
  apply ExceptT.ext
  funext s journal
  show (m.run >>= ExceptT.bindCont f).start s journal
    = (m.run >>= ExceptT.bindCont g).start s journal
  rw [start_bind, start_bind]
  rcases hm : Run.start m.run s journal with ⟨⟨e | e | b, s'⟩, journal'⟩
  · rfl
  · rfl
  · show Run.start (f b).run s' journal' = Run.start (g b).run s' journal'
    rw [h b ⟨s, journal, by rw [hm]⟩]

def Operator.reduced {α : Type} [Scalar α] (op : Operator α σ) (free : List Bool) :
    Operator α σ where
  dimension := freeCount free
  apply v := do
    let hv ← op.apply (Vec.scatter free v)
    return Vec.gather free hv

section Masked

variable [RealConstants] {op : Operator ℝ σ} {free : List Bool}

/-- Of a vector of the face the masked operator passes on all. -/
theorem Operator.masked_apply_inclusion (op : Operator ℝ σ) (d : Point (freeCount free)) :
    (op.masked free).apply (coords (inclusion free d))
      = op.apply (coords (inclusion free d)) >>= fun hv => liftM (Vec.restrict free hv) := by
  have hkept : Vec.restrict free (coords (inclusion free d)) = .ok (coords (inclusion free d)) := by
    rw [Vec.restrict_eq_scatter (length_coords _), coords_inclusion,
      Vec.gather_scatter (length_coords d)]
  unfold Operator.masked
  dsimp only
  rw [ModelError.checkLength, if_pos (length_coords _), hkept]
  rfl

theorem Operator.reduced_apply (op : Operator ℝ σ) (d : Point (freeCount free)) :
    (op.reduced free).apply (coords d)
      = op.apply (coords (inclusion free d)) >>= fun hv => pure (Vec.gather free hv) := by
  rw [coords_inclusion]
  rfl

namespace TruncatedCg

open Run

/-! ## Scattered states -/

def Solution.scatter {α : Type} [Scalar α] (free : List Bool) (sol : Solution α) : Solution α :=
  { sol with step := Vec.scatter free sol.step }

def State.scatter {α : Type} [Scalar α] (free : List Bool) (c : State α) : State α :=
  ⟨Vec.scatter free c.step, Vec.scatter free c.residual, Vec.scatter free c.direction,
    c.residualSquared⟩

variable {o w r d : Point (freeCount free)} {Δ tol : ℝ}

theorem State.scatter_at (w r d : Point (freeCount free)) :
    (State.at w r d).scatter free
      = State.at (inclusion free w) (inclusion free r) (inclusion free d) := by
  simp [State.scatter, State.at, coords_inclusion]

omit [RealConstants] in
/-- Isometries keep the exit of a ray. -/
theorem exitStep_map {E F : Type*} [NormedAddCommGroup E] [InnerProductSpace ℝ E]
    [NormedAddCommGroup F] [InnerProductSpace ℝ F] (f : E →ₗᵢ[ℝ] F) (z p : E) (Δ : ℝ) :
    exitStep (f z) (f p) Δ = exitStep z p Δ := by
  simp [exitStep, slack]

/-! ## Lock-step -/

theorem advance_masked (hop : op.KeepsLength free.length) (k : Nat)
    (w r d : Point (freeCount free)) :
    advance ⟨op.masked free, coords (inclusion free o), Δ, tol⟩ k ((State.at w r d).scatter free)
      = Sum.map (Solution.scatter free) (State.scatter free) <$>
          advance ⟨op.reduced free, coords o, Δ, tol⟩ k (State.at w r d) := by
  unfold advance
  rw [State.scatter_at]
  simp only [State.at_direction, Operator.masked_apply_inclusion, Operator.reduced_apply,
    bind_assoc, map_bind, pure_bind]
  refine bind_congr_returns fun hv hret => ?_
  obtain ⟨h, hgather, hrestrict⟩ := exists_restrict (hop _ _ (length_coords _) hret)
  rw [hrestrict, hgather]
  simp only [State.at_step, State.at_residual, State.at_residualSquared, Vec.dot_coords, liftM_ok,
    pure_bind, prolong_at, Vec.along_coords, Vec.add_coords, Vec.addMultiple_coords,
    LinearIsometry.inner_map_map, ← LinearIsometry.map_smul, ← map_add, exitStep_map,
    LinearIsometry.norm_map, Vec.norm_coords, Vec.normSquared_coords]
  -- the same exit on both sides, with the vectors of one scattered from those of the other
  simp only [coords_inclusion]
  split
  · split
    · rw [map_bind]
      rfl
    · split
      · exact (map_pure _ _).symm
      · exact (map_pure _ _).symm
  · rw [map_bind]
    rfl

/-- The states that the reduced run goes on from are those of points. -/
theorem exists_at_of_advance (hop : op.KeepsLength free.length) {k : Nat} {c : State ℝ}
    (h : Returns (advance ⟨op.reduced free, coords o, Δ, tol⟩ k (State.at w r d)) (.inr c)) :
    ∃ w' r' d' : Point (freeCount free), c = State.at w' r' d' := by
  have hvalue : Attains (fun _ => True) ((op.reduced free).apply (coords d))
      fun v => ∃ h : Point (freeCount free), v = coords h ∧ True := by
    rw [Operator.reduced_apply]
    refine Attains.bind Attains.self fun hv hret => ?_
    obtain ⟨h, hgather, -⟩ := exists_restrict (hop _ _ (length_coords _) hret)
    exact Attains.pure ⟨h, hgather, trivial⟩
  obtain ⟨_, -, hround⟩ := Attains.iff_returns.mp (advance_round hvalue) _ h
  cases hround with
  | next => exact ⟨_, _, _, rfl⟩

theorem iterate_masked (hop : op.KeepsLength free.length) (remaining k : Nat)
    (w r d : Point (freeCount free)) :
    iterate ⟨op.masked free, coords (inclusion free o), Δ, tol⟩ remaining k
        ((State.at w r d).scatter free)
      = Solution.scatter free <$>
          iterate ⟨op.reduced free, coords o, Δ, tol⟩ remaining k (State.at w r d) := by
  induction remaining generalizing k w r d with
  | zero => exact (map_pure _ _).symm
  | succ remaining ih =>
      rw [iterate, iterate, advance_masked hop, bind_map_left, map_bind]
      refine bind_congr_returns fun out hret => ?_
      cases out with
      | inl sol => exact (map_pure _ _).symm
      | inr c =>
          obtain ⟨w', r', d', rfl⟩ := exists_at_of_advance hop hret
          exact ih (k + 1) w' r' d'

/-- **Truncated conjugate gradients with a masked operator are those on the reduced system.** From
a gradient that is zero on the fixed variables and with a number of iterations given, the two solves
do the same from call to call of the operator: they end with the same kind, number of iterations and
norm of the residual, or at the same failure, and the one step is the other among zeros. -/
theorem solveFrom_masked (config : Config ℝ) {cap : Nat} (hcap : config.maxIterations = some cap)
    (op : Operator ℝ σ) {free : List Bool} (hop : op.KeepsLength free.length) {g : Vec ℝ}
    (hg : g.length = free.length) (hfixed : ∀ i, free.getD i true = false → g.getD i 0 = 0)
    (Δ rtol : ℝ) :
    solveFrom config (op.masked free) g Δ (Vec.zeros g.length) rtol
      = Solution.scatter free <$> solveFrom config (op.reduced free) (Vec.gather free g) Δ
          (Vec.zeros (freeCount free)) rtol := by
  obtain ⟨γ, hγ⟩ := exists_coords (Vec.length_gather hg)
  have hg' : g = coords (inclusion free γ) := by
    rw [coords_inclusion, hγ, Vec.scatter_gather hg hfixed]
  have hoffset : (Vec.zeros free.length : Vec ℝ) = coords (inclusion free 0) := by
    rw [map_zero, Vec.zeros_eq]
  rw [hg, hoffset, ← hγ, hg', Vec.zeros_eq, solveFrom_coords, solveFrom_coords, hcap]
  by_cases hzero : γ = 0
  · rw [if_pos (by rw [hzero, map_zero]), if_pos hzero, map_pure, ← map_zero (inclusion free),
      coords_inclusion]
    rfl
  · have hne : inclusion free γ ≠ 0 := fun h =>
      hzero ((inclusion free).injective (h.trans (map_zero _).symm))
    rw [if_neg hne, if_neg hzero, LinearIsometry.norm_map, ← map_zero (inclusion free), ← map_neg,
      ← State.scatter_at]
    exact iterate_masked hop _ _ _ _ _

end TruncatedCg

end Masked

/-! ## A fixed variable between two free ones -/

section Example

attribute [local instance] RealConstants.double

def Operator.reversal : Operator ℝ Unit := ⟨3, fun v => pure v.reverse⟩

theorem Operator.reversal_keepsLength : reversal.KeepsLength 3 := by
  intro v hv hlength hret
  rw [← hret.of_pure, List.length_reverse, hlength]

theorem TruncatedCg.solveFrom_masked_reversal :
    Operator.reversal.KeepsLength 3 ∧
      solveFrom ⟨0, some 2⟩ (Operator.reversal.masked [true, false, true]) [1, 0, -2] (5 : ℝ)
          (Vec.zeros 3) 0
        = Solution.scatter [true, false, true] <$>
            solveFrom ⟨0, some 2⟩ (Operator.reversal.reduced [true, false, true]) [1, -2] 5
              (Vec.zeros 2) 0 := by
  have hkeeps : Operator.reversal.KeepsLength [true, false, true].length :=
    Operator.reversal_keepsLength
  refine ⟨hkeeps,
    solveFrom_masked ⟨0, some 2⟩ rfl Operator.reversal hkeeps rfl (fun i hi => ?_) 5 0⟩
  match i with
  | 0 => cases hi
  | 1 => rfl
  | 2 => cases hi
  | i + 3 => cases hi

end Example

end Descent
