import Descent.Proofs.Exit
import Descent.Proofs.Euclid
import Descent.Proofs.Outcome
import Descent.TruncatedCg

/-!
# Rounds of truncated conjugate gradients

What one iteration can do, in exact arithmetic and in terms of points. `Round` lists the four
outcomes: a direction of non-positive curvature is followed to the sphere, the step is cut there,
the residual is small enough, or the recurrence goes on. `advance_round` says that the iteration
does nothing else, whatever vector the operator returns, and `iterate_attains` carries an invariant
of the rounds through a whole run. Nothing is asked of the operator but the length of its values.
-/

set_option autoImplicit false

open scoped RealInnerProductSpace

namespace Descent.TruncatedCg

open Run

variable {σ : Type} {n : Nat}

/-! ## States as points -/

/-- The state of the recurrence at the step `w` with the residual `r` and the direction `d`. -/
noncomputable def State.at (w r d : Point n) : State ℝ :=
  ⟨coords w, coords r, coords d, ‖r‖ ^ 2⟩

section Parts

variable (w r d : Point n)

@[simp] theorem State.at_step : (State.at w r d).step = coords w := rfl

@[simp] theorem State.at_residual : (State.at w r d).residual = coords r := rfl

@[simp] theorem State.at_direction : (State.at w r d).direction = coords d := rfl

@[simp] theorem State.at_residualSquared : (State.at w r d).residualSquared = ‖r‖ ^ 2 := rfl

end Parts

/-- The step along `d` that makes the residual orthogonal to `d`, if the operator maps `d` to
`h`. -/
noncomputable def fullStep {E : Type*} [NormedAddCommGroup E] [InnerProductSpace ℝ E]
    (r d h : E) : ℝ :=
  ‖r‖ ^ 2 / ⟪d, h⟫

/-- What one iteration in the ball of radius `Δ` around `-o` ends with, if the operator maps the
direction `d` to `h`. -/
inductive Round (o : Point n) (Δ tol : ℝ) (k : Nat) (w r d h : Point n) :
    Solution ℝ ⊕ State ℝ → Prop
  /-- The direction has no positive curvature: it is followed to the sphere. -/
  | negative (curved : ⟪d, h⟫ ≤ 0) : Round o Δ tol k w r d h
      (.inl ⟨coords (w + exitStep (o + w) d Δ • d), .negativeCurvature, k, ‖r‖⟩)
  /-- The full step leaves the ball: it is cut at the sphere. -/
  | boundary (curved : 0 < ⟪d, h⟫) (leaves : Δ ≤ ‖o + (w + fullStep r d h • d)‖) :
      Round o Δ tol k w r d h
        (.inl ⟨coords (w + exitStep (o + w) d Δ • d), .boundary, k, ‖r‖⟩)
  /-- The full step stays inside and its residual is small enough. -/
  | interior (curved : 0 < ⟪d, h⟫) (stays : ‖o + (w + fullStep r d h • d)‖ < Δ)
      (small : ‖r - fullStep r d h • h‖ ≤ tol) : Round o Δ tol k w r d h
        (.inl ⟨coords (w + fullStep r d h • d), .interior, k, ‖r - fullStep r d h • h‖⟩)
  /-- The full step stays inside, and the next direction is the new residual with as much of the
  old direction as makes the two conjugate. -/
  | next (curved : 0 < ⟪d, h⟫) (stays : ‖o + (w + fullStep r d h • d)‖ < Δ)
      (large : tol < ‖r - fullStep r d h • h‖) : Round o Δ tol k w r d h
        (.inr (.at (w + fullStep r d h • d) (r - fullStep r d h • h)
          (r - fullStep r d h • h + (‖r - fullStep r d h • h‖ ^ 2 / ‖r‖ ^ 2) • d)))

/-! ## What the recurrence computes -/

variable [RealConstants]

theorem initial_coords (g : Point n) :
    State.initial (coords g) = State.at 0 (-g) (-g) := by
  simp [State.initial, State.at]

/-- The step to the sphere along coordinates is the one along points; a vanishing direction has
the step zero in both. -/
theorem boundaryStep_coords (z p : Point n) (Δ : ℝ) :
    boundaryStep (coords z) (coords p) Δ = .ok (exitStep z p Δ) := by
  unfold boundaryStep
  simp only [Vec.normSquared_coords, Vec.dot_coords, Scalar.real_maxNum, Scalar.real_sqrt]
  by_cases hp : p = 0
  -- the exit step is then a quotient by zero, which is zero
  · subst hp
    simp [exitStep]
    rfl
  · have hpp : ‖p‖ ^ 2 ≠ 0 := by positivity
    rw [if_neg (by simpa using hpp)]
    rfl

variable {op : Operator ℝ σ} {o w r d : Point n} {Δ tol : ℝ} {k : Nat}

theorem prolong_at : prolong ⟨op, coords o, Δ, tol⟩ (State.at w r d)
    = .ok (coords (w + exitStep (o + w) d Δ • d)) := by
  simp only [prolong, State.at_step, State.at_direction, Vec.add_coords]
  show (do
    let tau ← boundaryStep (coords (o + w)) (coords d) Δ
    Vec.addMultiple (coords w) tau (coords d)) = _
  rw [boundaryStep_coords]
  exact Vec.addMultiple_coords d w _

/-- An iteration is a round for the value of the operator at the direction. -/
theorem advance_round {P : Point n → Prop}
    (hop : Attains (fun _ => True) (op.apply (coords d)) fun v => ∃ h, v = coords h ∧ P h) :
    Attains (fun _ => True) (advance ⟨op, coords o, Δ, tol⟩ k (State.at w r d))
      fun out => ∃ h, P h ∧ Round o Δ tol k w r d h out := by
  unfold advance
  refine Attains.bind hop ?_
  rintro _ ⟨h, rfl, hP⟩
  simp only [State.at_step, State.at_direction, State.at_residual, State.at_residualSquared,
    Vec.dot_coords, liftM_ok, pure_bind, prolong_at, Vec.sqrt_norm_sq]
  split
  · next curved =>
      simp only [Vec.along_coords, Vec.add_coords, Vec.norm_coords, Vec.addMultiple_coords,
        liftM_ok, pure_bind, Vec.normSquared_coords, Vec.sqrt_norm_sq, neg_smul,
        ← sub_eq_add_neg]
      split
      · next leaves =>
          refine Attains.bind (Attains.emit (R := fun _ => True) trivial) fun _ _ => ?_
          exact Attains.pure ⟨h, hP, .boundary curved leaves⟩
      · next stays =>
          split
          · next small => exact Attains.pure ⟨h, hP, .interior curved (not_le.mp stays) small⟩
          · next large =>
              exact Attains.pure ⟨h, hP, .next curved (not_le.mp stays) (not_le.mp large)⟩
  · next curved =>
      refine Attains.bind (Attains.emit (R := fun _ => True) trivial) fun _ _ => ?_
      exact Attains.pure ⟨h, hP, .negative (not_lt.mp curved)⟩

/-! ## Whole runs -/

/-- An invariant of the rounds, which may speak of their number, holds to the end of a run. `Good`
is what is asked of a solution: of one that a round ends with, and of the step that is left when the
iterations are used up. -/
theorem iterate_attains_at {I : Nat → Point n → Point n → Point n → Prop}
    {P : Point n → Point n → Prop} {Good : Solution ℝ → Prop} {cap : Nat}
    (hop : ∀ d, Attains (fun _ => True) (op.apply (coords d)) fun v => ∃ h, v = coords h ∧ P d h)
    (hend : ∀ w r d, I cap w r d → Good ⟨coords w, .interior, cap, ‖r‖⟩)
    (hstop : ∀ w r d h k sol, I k w r d → P d h → Round o Δ tol (k + 1) w r d h (.inl sol) →
      Good sol)
    (hnext : ∀ w r d h k c, I k w r d → P d h → Round o Δ tol (k + 1) w r d h (.inr c) →
      ∃ w' r' d', c = State.at w' r' d' ∧ I (k + 1) w' r' d')
    (remaining k : Nat) (hcap : k + remaining = cap) (hInv : I k w r d) :
    Attains (fun _ => True) (iterate ⟨op, coords o, Δ, tol⟩ remaining k (State.at w r d)) Good := by
  induction remaining generalizing k w r d with
  -- the iterations are used up, and the state is the solution
  | zero =>
      obtain rfl : k = cap := hcap
      have h := hend w r d hInv
      exact Attains.pure (by simpa using h)
  | succ remaining ih =>
      refine Attains.bind (advance_round (hop d)) ?_
      rintro (sol | c) ⟨h, hP, hround⟩
      · exact Attains.pure (hstop w r d h k sol hInv hP hround)
      · obtain ⟨w', r', d', rfl, hInv'⟩ := hnext w r d h k c hInv hP hround
        exact ih (k + 1) (by omega) hInv'

/-- An invariant of the rounds holds to the end of a run. -/
theorem iterate_attains {I : Point n → Point n → Point n → Prop} {P : Point n → Point n → Prop}
    {Good : Solution ℝ → Prop}
    (hop : ∀ d, Attains (fun _ => True) (op.apply (coords d)) fun v => ∃ h, v = coords h ∧ P d h)
    (hend : ∀ w r d k, I w r d → Good ⟨coords w, .interior, k, ‖r‖⟩)
    (hstop : ∀ w r d h k sol, I w r d → P d h → Round o Δ tol k w r d h (.inl sol) → Good sol)
    (hnext : ∀ w r d h k c, I w r d → P d h → Round o Δ tol k w r d h (.inr c) →
      ∃ w' r' d', c = State.at w' r' d' ∧ I w' r' d')
    (remaining k : Nat) (hInv : I w r d) :
    Attains (fun _ => True) (iterate ⟨op, coords o, Δ, tol⟩ remaining k (State.at w r d)) Good :=
  iterate_attains_at (I := fun _ => I) hop (fun w r d => hend w r d _)
    (fun w r d h k => hstop w r d h (k + 1)) (fun w r d h k => hnext w r d h (k + 1)) remaining k
    rfl hInv

/-- A solve from a gradient that is not zero is a run of at least one iteration. -/
theorem solveFrom_coords (config : Config ℝ) (g : Point n) (rtol : ℝ) :
    solveFrom config op (coords g) Δ (coords o) rtol =
      if g = 0 then pure ⟨coords (0 : Point n), .interior, 0, 0⟩
      else iterate ⟨op, coords o, Δ, rtol * ‖g‖⟩ (max (config.maxIterations.getD n) 1) 0
        (State.at 0 (-g) (-g)) := by
  unfold solveFrom
  simp only [initial_coords, State.at_step, State.at_residualSquared, length_coords, norm_neg,
    Vec.sqrt_norm_sq]
  by_cases hg : g = 0
  · subst hg
    simp
  · have : ‖g‖ ^ 2 ≠ 0 := by positivity
    rw [if_neg hg, if_neg (by simpa using this)]

end Descent.TruncatedCg
