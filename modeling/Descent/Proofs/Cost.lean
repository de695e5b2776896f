import Descent.Model.Counted
import Descent.Proofs.Simulation.LineSearch

/-!
# What computations evaluate

How often a computation on a counted model evaluates the objective and the gradient.
`Run.Costs k m cost most`: where at most `k` evaluations have been made before, at most `cost b`
have been made when `m` ends with the value `b`, and at most `most` when it fails. The rules charge
a sequence part by part. Failed evaluations are charged like all others; questions about the Hessian
are free (`Model.hessianAlike_within`), and whatever asks for nothing else is so too
(`Run.Costs.kept`).

A trial of a line search costs at most two evaluations (`LineSearch.run_costs`).
-/

set_option autoImplicit false

namespace Descent

open Run

variable {α σ : Type}

/-- At most `k` evaluations of the objective and of the gradient have been made. -/
def Counts.Within (k : Nat) (t : Counts × σ) : Prop := t.1.functionEvaluations ≤ k

theorem Counts.Within.mono {k k' : Nat} {t : Counts × σ} (h : Within k t) (hk : k ≤ k') :
    Within k' t := Nat.le_trans h hk

theorem Counts.functionEvaluations_addObjective (c : Counts) :
    c.addObjective.functionEvaluations = c.functionEvaluations + 1 := by
  simp only [functionEvaluations, addObjective]
  omega

theorem Counts.functionEvaluations_addGradient (c : Counts) :
    c.addGradient.functionEvaluations = c.functionEvaluations + 1 := rfl

namespace Run

variable {β γ ε δ : Type} {k most : Nat} {cost : β → Nat}

/-- After at most `k` evaluations, the computation ends with a value `b` after at most `cost b` and
with a failure after at most `most` of them. -/
def Costs (k : Nat) (m : ExceptT ε (Run (Counts × σ)) β) (cost : β → Nat) (most : Nat) : Prop :=
  Settles (Counts.Within k) m (fun b => Counts.Within (cost b)) (fun _ => Counts.Within most)
    fun _ => True

namespace Costs

variable {m : ExceptT ε (Run (Counts × σ)) β}

theorem pure {b : β} (h : k ≤ cost b) :
    Costs k (Pure.pure b : ExceptT ε (Run (Counts × σ)) β) cost most :=
  Settles.pure fun _ ht => ht.mono h

theorem throw {e : ε} (h : k ≤ most) :
    Costs k (MonadExcept.throw e : ExceptT ε (Run (Counts × σ)) β) cost most :=
  Settles.throw fun _ ht => ht.mono h

/-- What would follow a failure is not charged. -/
theorem throw_bind {cost : γ → Nat} {e : ε} {f : β → ExceptT ε (Run (Counts × σ)) γ}
    (h : k ≤ most) :
    Costs k ((MonadExcept.throw e : ExceptT ε (Run (Counts × σ)) β) >>= f) cost most :=
  Settles.throw_bind fun _ ht => ht.mono h

theorem mono {k' most' : Nat} {cost' : β → Nat} (h : Costs k m cost most) (hk : k' ≤ k)
    (hcost : ∀ b, cost b ≤ cost' b) (hmost : most ≤ most') : Costs k' m cost' most' :=
  Settles.mono h (fun _ ht => ht.mono hk) (fun b _ ht => ht.mono (hcost b))
    (fun _ _ ht => ht.mono hmost) fun _ h => h

theorem bind {cost' : γ → Nat} {f : β → ExceptT ε (Run (Counts × σ)) γ} (h : Costs k m cost most)
    (hf : ∀ b, Costs (cost b) (f b) cost' most) : Costs k (m >>= f) cost' most :=
  Settles.bind h hf

theorem checked {x : Checked β} :
    Costs k (liftM x : ExceptT ε (Run (Counts × σ)) β) (fun _ => k) most :=
  Settles.checked (fun _ _ _ ht => ht) fun _ _ => trivial

/-- A computation without failures of its own, if it evaluates nothing. -/
theorem lift {m : Run (Counts × σ) β}
    (h : Triple (Counts.Within k) m (fun _ => Counts.Within k) fun _ => True) :
    Costs k (liftM m : ExceptT ε (Run (Counts × σ)) β) (fun _ => k) most :=
  Settles.lift h

theorem emit {e : Event} :
    Costs k (Descent.emit e : ExceptT ε (Run (Counts × σ)) Unit) (fun _ => k) most :=
  Settles.emit

/-- Failures that are worded anew. -/
theorem adapt {f : ε → δ} (h : Costs k m cost most) : Costs k (ExceptT.adapt f m) cost most := by
  refine Triple.map (Triple.post h ?_)
  rintro (e | b) s hs
  · exact hs
  · exact hs

/-- A failure that is caught is a value like any other. -/
theorem caught {most' : Nat} (h : Costs k m cost most) :
    Costs k (Run.caught m : ExceptT δ (Run (Counts × σ)) (Except ε β)) (fun
      | .ok b => cost b
      | .error _ => most) most' := by
  refine Settles.mono (Settles.caught h) (fun _ ht => ht) ?_ (fun _ _ ht => ht) fun _ h => h
  rintro (e | b) t ht
  · exact ht
  · exact ht

/-- What keeps every bound on the number of evaluations is free. -/
theorem kept (h : Agrees .same (Kept (Counts.Within k)) m m) (hmost : k ≤ most) :
    Costs k m (fun _ => k) most := by
  refine Triple.mono (relates_kept.mp h) (fun _ ht => ht) ?_ fun _ _ => trivial
  rintro (e | b) t ht
  · exact Counts.Within.mono ht hmost
  · exact ht

end Costs

end Run

/-! ## Answers of counted models -/

variable [Scalar α]

namespace Model

variable {m : Model α σ} {k most : Nat}

/-- An answer of the model inside is charged when it is counted. -/
theorem answer_within {β : Type} {e : Evaluation σ β} :
    Attempt (Counts.Within k) (Run.tryOnSnd e : Evaluation (Counts × σ) β)
      (fun _ => Counts.Within k) (Counts.Within k) := by
  refine Triple.mono (Triple.onSnd_beside (K := fun c : Counts => c.functionEvaluations ≤ k))
    (fun _ ht => ht) ?_ fun _ ht => ht
  rintro (e | b) t ht
  · exact ht
  · exact ht

theorem count_within {change : Counts → Counts} {n : Nat} {F : Counts × σ → Prop}
    (h : ∀ c, (change c).functionEvaluations = c.functionEvaluations + n) :
    Attempt (Counts.Within k) (count change : Evaluation (Counts × σ) Unit)
      (fun _ => Counts.Within (k + n)) F := by
  intro t journal ht
  show (change t.1).functionEvaluations ≤ k + n
  rw [h]
  exact Nat.add_le_add_right ht n

/-- Questions about the Hessian keep every bound. -/
theorem hessianAlike_within :
    m.counted.HessianAlike .same (Kept (Counts.Within k)) m.counted where
  hessianVector x v := agrees_kept.mpr <|
    Attempt.bind (count_within (n := 0) fun _ => rfl) fun _ => answer_within
  hessian x := agrees_kept.mpr <|
    Attempt.bind (count_within (n := 0) fun _ => rfl) fun _ => answer_within
  sparseHessian x := by
    refine agrees_kept.mpr (Attempt.bind answer_within fun h => ?_)
    dsimp only
    split
    · exact Attempt.bind (count_within (n := 0) fun _ => rfl) fun _ => Attempt.pure fun _ ht => ht
    · exact Attempt.pure fun _ ht => ht

theorem count_costs {change : Counts → Counts} {n : Nat}
    (h : ∀ c, (change c).functionEvaluations = c.functionEvaluations + n) :
    Costs k (count change : Evaluation (Counts × σ) Unit) (fun _ => k + n) most :=
  Settles.mono (count_within (F := fun _ => False) h) (fun _ ht => ht) (fun _ _ ht => ht)
    (fun _ _ h => h.elim) fun _ _ => trivial

theorem answer_costs {β : Type} {e : Evaluation σ β} :
    Costs k (Run.tryOnSnd e : Evaluation (Counts × σ) β) (fun _ => k) k :=
  Settles.fault answer_within fun _ _ => trivial

theorem objective_costs (x : Vec α) :
    Costs k (m.counted.objective x) (fun _ => k + 1) (k + 1) :=
  .bind (count_costs Counts.functionEvaluations_addObjective) fun _ => answer_costs

theorem gradient_costs (x : Vec α) : Costs k (m.counted.gradient x) (fun _ => k + 1) (k + 1) :=
  .bind (count_costs Counts.functionEvaluations_addGradient) fun _ => answer_costs

theorem objectiveAndGradient_costs (x : Vec α) :
    Costs k (m.counted.objectiveAndGradient x) (fun _ => k + 2) (k + 2) :=
  .bind (count_costs Counts.functionEvaluations_addObjective) fun _ =>
    .bind (count_costs Counts.functionEvaluations_addGradient) fun _ => answer_costs

/-- The notice of a step evaluates nothing. -/
theorem acceptStep_within (s y : Vec α) :
    Triple (Counts.Within k) (m.counted.acceptStep s y) (fun _ => Counts.Within k)
      fun _ => True :=
  Triple.fault (Triple.onSnd_beside (K := fun c : Counts => c.functionEvaluations ≤ k))
    fun _ _ => trivial

end Model

/-- What is done about an answer that cannot be used is not charged. -/
theorem Evaluation.usable_costs {β : Type} {k n : Nat} {e : Evaluation (Counts × σ) β}
    (h : Costs k e (fun _ => n) n) (isFinite : β → Bool) (what : String) :
    Costs k (usable e isFinite what) (fun _ => n) n := by
  refine .bind (.caught h) ?_
  rintro (e | b)
  · dsimp only
    split
    · exact .pure (Nat.le_refl n)
    · exact .throw (Nat.le_refl n)
  · exact .pure (Nat.le_refl n)

/-! ## Line searches -/

namespace LineSearch

variable {k : Nat}

omit [Scalar α] in
theorem Failures.record_costs (f : Failures) (cap : Nat) (reason : String) {most : Nat}
    (hmost : k ≤ most) :
    Costs k (f.record cap reason : Search (Counts × σ) Failures) (fun _ => k) most :=
  .kept (f.record_agrees cap reason) hmost

variable {m : Model α σ}

section Ray

variable (p : LineSearchParams α) (x : Vec α) (f₀ : α) (d : Vec α) (slope : α)

/-- A trial of the backtracking search evaluates the objective once, and where it falls enough the
gradient once. -/
theorem Ray.backtrack_costs (remaining j : Nat) (a : α) (failures : Failures) :
    Costs k (Ray.backtrack ⟨p, m.counted, x, f₀, d, slope⟩ remaining j a failures)
      (fun _ => k + 2 * remaining) (k + 2 * remaining) := by
  induction remaining generalizing k j a failures with
  | zero => exact .throw (Nat.le_refl k)
  | succ remaining ih =>
      -- what is left after a trial with one or with two evaluations
      have hnext : ∀ n, n ≤ 2 → ∀ j a failures,
          Costs (k + n) (Ray.backtrack ⟨p, m.counted, x, f₀, d, slope⟩ remaining j a failures)
            (fun _ => k + 2 * (remaining + 1)) (k + 2 * (remaining + 1)) :=
        fun n hn j a failures => (ih (k := k + n) j a failures).mono (Nat.le_refl _)
          (fun _ => by omega) (by omega)
      unfold Ray.backtrack
      split
      · exact .throw_bind (by omega)
      · refine .bind .checked fun point => ?_
        refine .bind ((Evaluation.usable_costs (Model.objective_costs point) _ _).mono
          (Nat.le_refl k) (fun _ => Nat.le_refl _) (by omega)) ?_
        rintro (reason | value)
        · exact .bind (failures.record_costs _ _ (by omega)) fun _ => hnext 1 (by omega) _ _ _
        · dsimp only
          split
          · refine .bind ((Evaluation.usable_costs (Model.gradient_costs point) _ _).mono
              (Nat.le_refl _) (fun _ => Nat.le_refl _) (by omega)) ?_
            rintro (reason | gradient)
            · exact .bind (failures.interrupted.record_costs _ _ (by omega)) fun _ =>
                hnext 2 (Nat.le_refl 2) _ _ _
            · exact .pure (by omega)
          · exact hnext 1 (by omega) _ _ _

/-- A trial of the bracketing search evaluates both once. -/
theorem Ray.bracket_costs (remaining j : Nat) (b : Ray.Bracket α) :
    Costs k (Ray.bracket ⟨p, m.counted, x, f₀, d, slope⟩ remaining j b)
      (fun _ => k + 2 * remaining) (k + 2 * remaining) := by
  induction remaining generalizing k j b with
  | zero => exact .pure (Nat.le_refl k)
  | succ remaining ih =>
      -- what is left after a trial
      have hnext : ∀ b, Costs (k + 2)
          (Ray.bracket ⟨p, m.counted, x, f₀, d, slope⟩ remaining (j + 1) b)
          (fun _ => k + 2 * (remaining + 1)) (k + 2 * (remaining + 1)) :=
        fun b => (ih (k := k + 2) _ b).mono (Nat.le_refl _) (fun _ => by omega) (by omega)
      unfold Ray.bracket
      split
      · exact .pure (by omega)
      · refine .bind .checked fun point => ?_
        refine .bind ((Evaluation.usable_costs (Model.objectiveAndGradient_costs point) _ _).mono
          (Nat.le_refl k) (fun _ => Nat.le_refl _) (by omega)) ?_
        rintro (reason | ⟨value, gradient⟩)
        case' error =>
          refine .bind (Failures.record_costs _ _ _ (by omega)) fun failures => ?_
          rw [pure_bind]
        case' ok =>
          refine .bind .checked ?_
          rintro (found | b)
          · exact .pure (by omega)
        -- a bracket of either kind is searched on in the same way
        all_goals
          dsimp only
          split
          · exact hnext _
          · exact .pure (by omega)

end Ray

theorem descentSlope_costs (g₀ d : Vec α) (f₀ : α) {most : Nat} (hmost : k ≤ most) :
    Costs k (descentSlope g₀ d f₀ : Search (Counts × σ) α) (fun _ => k) most := by
  refine .bind .checked fun slope => ?_
  split
  · exact .pure (Nat.le_refl k)
  · exact .throw hmost

/-- A search of so many trials evaluates at most twice as often. -/
theorem run_costs (s : LineSearch α) (x : Vec α) (f₀ : α) (g₀ d : Vec α) (initialStep : α) :
    Costs k (s.run m.counted x f₀ g₀ d initialStep) (fun _ => k + 2 * s.params.maxTrials)
      (k + 2 * s.params.maxTrials) := by
  unfold run
  refine .bind (descentSlope_costs g₀ d f₀ (Nat.le_add_right k _)) fun slope => ?_
  dsimp only
  split
  · exact Ray.backtrack_costs _ _ _ _ _ _ _ _ _
  · refine .bind (Ray.bracket_costs _ _ _ _ _ _ _ _) ?_
    rintro (found | b)
    · exact .pure (Nat.le_refl _)
    · dsimp only
      split
      · exact .bind .emit fun _ => .pure (Nat.le_refl _)
      · exact .throw (Nat.le_refl _)

end LineSearch

end Descent
