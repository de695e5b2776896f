import Descent.Proofs.Outcome
import Descent.Solve

/-!
# Invariants of a solve

Whatever holds of the progress and of the state of the model at the start, and is kept by every
round, holds at the end of a solve (`Solve.iterate_triple`). Observers, budgets and verdicts only
decide when that is. What a budget or a tolerance that ends a solve says is read off its status
(`Solve.exhausted_cases`, `Solve.stepVerdict_cases`).
-/

set_option autoImplicit false

namespace Descent

open Run

/-- The errors that end a solve are failures. -/
theorem Status.isFailure_ofError (e : SolverError) : (ofError e).isFailure = true := by
  cases e <;> rfl

namespace Solve

variable {α σ ω μ : Type} [Scalar α] {s : Solve α σ ω}

/-! ## Budgets and tolerances -/

section Budget

variable {status : Status}

/-- A budget of evaluations or of time is used up. -/
theorem exhausted_cases {counts : Counts} {k : Nat} (h : s.exhausted counts k = some status) :
    (status = .evaluationLimit ∧ ∃ most, s.options.maxEvaluations = some most ∧
        most ≤ counts.functionEvaluations) ∨
      status = .timeLimit ∧ ∃ most, s.options.maxTime = some most ∧
        most.total ≤ (s.clock k).total := by
  unfold exhausted at h
  split at h
  · next hused =>
      cases h
      rw [Option.any_eq_true] at hused
      obtain ⟨most, hmost, hused⟩ := hused
      exact .inl ⟨rfl, most, hmost, of_decide_eq_true hused⟩
  · split at h
    · next hused =>
        cases h
        rw [Option.any_eq_true] at hused
        obtain ⟨most, hmost, hused⟩ := hused
        exact .inr ⟨rfl, most, hmost, of_decide_eq_true hused⟩
    · cases h

/-- While no budget is used up, there is an evaluation left. -/
theorem lt_of_exhausted_eq_none {most : Nat} (hmost : s.options.maxEvaluations = some most)
    {counts : Counts} {k : Nat} (h : s.exhausted counts k = none) :
    counts.functionEvaluations < most := by
  unfold exhausted at h
  rw [hmost, Option.any_some] at h
  split at h
  · cases h
  · next hleft =>
      rw [decide_eq_true_eq] at hleft
      exact Nat.lt_of_not_le hleft

/-- The tolerance that a step meets. -/
theorem stepVerdict_cases {fOld fNew stepNorm xNorm : α}
    (h : s.stepVerdict fOld fNew stepNorm xNorm = some status) :
    (status = .functionTolerance ∧ ∃ tol, s.options.functionTolerance = some tol ∧
        Scalar.abs (fOld - fNew) ≤ tol * Scalar.maxNum 1 (Scalar.abs fOld)) ∨
      status = .stepTolerance ∧ ∃ tol, s.options.stepTolerance = some tol ∧
        stepNorm ≤ tol * Scalar.maxNum 1 xNorm := by
  unfold stepVerdict at h
  split at h
  · next hmet =>
      cases h
      rw [Option.any_eq_true] at hmet
      obtain ⟨tol, htol, hmet⟩ := hmet
      exact .inl ⟨rfl, tol, htol, of_decide_eq_true hmet⟩
  · split at h
    · next hmet =>
        cases h
        rw [Option.any_eq_true] at hmet
        obtain ⟨tol, htol, hmet⟩ := hmet
        exact .inr ⟨rfl, tol, htol, of_decide_eq_true hmet⟩
    · cases h

end Budget

/-! ## Invariants -/

/-- The checks do not touch the model. -/
theorem start_attempt {J : Counts × σ → Prop} (x₀ : Vec α) :
    Attempt (fun t : (Counts × σ) × ω => J t.1) (s.start x₀) (fun _ t => J t.1)
      fun t => J t.1 := by
  refine Attempt.bind (Attempt.ofExcept (fun _ _ _ hs => hs) fun _ hs => hs) fun _ => ?_
  dsimp only
  split
  · exact Attempt.throw fun _ hs => hs
  · refine Attempt.bind (Attempt.lift Triple.onSnd_beside) fun _ => ?_
    exact Attempt.emit

/-- The record is drawn up without touching the model. -/
theorem finish_triple {J : Counts × σ → Prop} (status : Status) (iterate : Iterate α)
    (gradientNorm : α) (iterations : Nat) (error : Option SolverError) :
    Triple (fun t : (Counts × σ) × ω => J t.1)
      (s.finish status iterate gradientNorm iterations error)
      (fun record t => J t.1 ∧ record.iterate = iterate) fun t => J t.1 := by
  refine Triple.bind Triple.get fun t => ?_
  refine Triple.bind Triple.emit fun _ => ?_
  refine Triple.bind Triple.onSnd_beside fun _ => ?_
  exact Triple.pure fun _ hs => ⟨hs, rfl⟩

theorem notify_triple {J : Counts × σ → Prop} (i : Iteration α) :
    Triple (fun t : (Counts × σ) × ω => J t.1) (s.notify i) (fun _ t => J t.1) fun t => J t.1 :=
  Triple.bind Triple.emit fun _ => Triple.onSnd_beside

/-- **The rule of the loop.** `P` speaks of the number of rounds, the progress, the model and the
observer. A round begins only where the gradient is not small and no budget is used up. It takes `P`
to `N`, or fails and takes it to `B`, and the notice of the round takes `N` back to `P`. What is
then drawn up has `R`; without an error its status has `S`, like every status that is no failure. -/
theorem loop_rounds {P : Nat → Progress α μ → Counts × σ → ω → Prop}
    {N : Nat → Round α μ → Counts × σ → ω → Prop}
    {B : Nat → Progress α μ → SolverError → Counts × σ → ω → Prop} {S : Status → Prop}
    {R : Record α → Counts × σ → ω → Prop} {F : (Counts × σ) × ω → Prop} {threshold : α}
    {round : Nat → Progress α μ → Working σ (Round α μ)}
    (hround : ∀ k p w, ¬ p.gradientNorm ≤ threshold →
      Settles (fun t => P k p t w ∧ s.exhausted t.1 k = none) (round (k + 1) p)
        (fun r t => N (k + 1) r t w) (fun e t => B k p e t w) fun t => F (t, w))
    (hnotify : ∀ k r, Triple (fun u => N k r u.1 u.2) (s.notify r.iteration)
      (fun _ u => P k r.progress u.1 u.2) F)
    (hverdict : ∀ k r t w status, N k r t w → r.verdict = some status → S status)
    (hstatus : ∀ status, status.isFailure = false → S status)
    (hfinish : ∀ k p status, S status → Triple (fun u => P k p u.1 u.2)
      (s.finish status p.iterate p.gradientNorm k none) (fun record u => R record u.1 u.2) F)
    (hfail : ∀ k p e, Triple (fun u => B k p e u.1 u.2)
      (s.finish (.ofError e) p.iterate p.gradientNorm (k + 1) (some e))
      (fun record u => R record u.1 u.2) F)
    (remaining k : Nat) (p : Progress α μ) :
    Triple (fun u => P k p u.1 u.2) (s.loop threshold round remaining k p)
      (fun record u => R record u.1 u.2) F := by
  induction remaining generalizing k p with
  | zero =>
      unfold loop
      split
      · exact hfinish k p _ (hstatus _ rfl)
      · exact hfinish k p _ (hstatus _ rfl)
  | succ remaining ih =>
      unfold loop
      split
      · exact hfinish k p _ (hstatus _ rfl)
      · next large =>
          refine Triple.bind Triple.get_eq ?_
          rintro ⟨⟨counts, _⟩, _⟩
          dsimp only
          split
          · next status budget =>
              have hbudget : status.isFailure = false := by
                rcases exhausted_cases budget with ⟨rfl, -⟩ | ⟨rfl, -⟩ <;> rfl
              exact Triple.pre (hfinish k p _ (hstatus _ hbudget)) fun _ hu => hu.2
          · next budget =>
              refine Triple.bind (Triple.pre (Triple.onFst_at fun w => hround k p w large) ?_) ?_
              · rintro u ⟨rfl, hu⟩
                exact ⟨hu, Option.eq_none_iff_forall_ne_some.mpr budget⟩
              · rintro (e | r)
                · exact hfail k p e
                · -- what the verdict can be is known before the notice
                  let settles : Prop := ∀ status, r.verdict = some status → S status
                  have hnotified : Triple (fun u => N (k + 1) r u.1 u.2) (s.notify r.iteration)
                      (fun _ u => settles ∧ P (k + 1) r.progress u.1 u.2) F :=
                    Triple.mono (Triple.frame (hnotify (k + 1) r))
                      (fun u hu => ⟨fun status => hverdict _ _ _ _ status hu, hu⟩)
                      (fun _ _ hu => hu) fun _ hu => hu.2
                  refine Triple.bind hnotified fun goOn => ?_
                  split
                  · exact Triple.pre (hfinish (k + 1) r.progress _ (hstatus _ rfl)) fun _ hu => hu.2
                  · split
                    · next verdict =>
                        exact fun u journal hu =>
                          hfinish (k + 1) r.progress _ (hu.1 _ verdict) u journal hu.2
                    · exact Triple.pre (ih (k + 1) r.progress) fun _ hu => hu.2

/-- **What every round keeps, the loop keeps.** `P` speaks of the number of rounds, the progress,
the model and the observer. A round takes it to `N`, the notice of the round takes it back; a round
that fails keeps it. What is then drawn up has `R`. -/
theorem loop_keeps {P : Nat → Progress α μ → Counts × σ → ω → Prop}
    {N : Nat → Round α μ → Counts × σ → ω → Prop} {R : Record α → Counts × σ → ω → Prop}
    {F : (Counts × σ) × ω → Prop} {threshold : α}
    {round : Nat → Progress α μ → Working σ (Round α μ)}
    (hround : ∀ k p w, Settles (fun t => P k p t w) (round (k + 1) p)
      (fun r t => N (k + 1) r t w) (fun _ t => P k p t w) fun t => F (t, w))
    (hnotify : ∀ k r, Triple (fun u => N k r u.1 u.2) (s.notify r.iteration)
      (fun _ u => P k r.progress u.1 u.2) F)
    (hfinish : ∀ k p status number error, k ≤ number →
      Triple (fun u => P k p u.1 u.2) (s.finish status p.iterate p.gradientNorm number error)
        (fun record u => R record u.1 u.2) F)
    (remaining k : Nat) (p : Progress α μ) :
    Triple (fun u => P k p u.1 u.2) (s.loop threshold round remaining k p)
      (fun record u => R record u.1 u.2) F := by
  refine loop_rounds (B := fun k p _ => P k p) (S := fun _ => True) ?_ hnotify
    (fun _ _ _ _ _ _ _ => trivial) (fun _ _ => trivial) ?_ ?_ remaining k p
  · intro k p w _
    exact Settles.mono (hround k p w) (fun _ ht => ht.1) (fun _ _ h => h) (fun _ _ h => h)
      fun _ h => h
  · intro k p status _
    exact hfinish k p status k none (Nat.le_refl k)
  · intro k p e
    exact hfinish k p _ (k + 1) (some e) (Nat.le_succ k)

/-- An invariant of the rounds holds at the end, for a progress with the iterate of the record. A
round that fails has to leave it for the progress that the round started from. -/
theorem loop_triple {P : Progress α μ → Counts × σ → Prop} {threshold : α}
    {round : Nat → Progress α μ → Working σ (Round α μ)}
    (hround : ∀ k p, Attempt (P p) (round k p) (fun r => P r.progress) (P p))
    (remaining iterations : Nat) (p : Progress α μ) :
    Triple (fun t : (Counts × σ) × ω => P p t.1)
      (s.loop threshold round remaining iterations p)
      (fun record t => ∃ q, P q t.1 ∧ record.iterate = q.iterate) fun t => ∃ q, P q t.1 := by
  refine loop_keeps (P := fun _ p t _ => P p t) (N := fun _ r t _ => P r.progress t)
    (R := fun record t _ => ∃ q, P q t ∧ record.iterate = q.iterate) ?_ ?_ ?_ remaining iterations p
  · intro k p w
    exact Settles.fault (hround (k + 1) p) fun _ h => ⟨p, h⟩
  · intro k r
    exact Triple.fault (notify_triple (J := P r.progress) r.iteration) fun _ h => ⟨r.progress, h⟩
  · intro k p status number error _
    exact Triple.mono (finish_triple (J := P p) status p.iterate p.gradientNorm number error)
      (fun _ h => h) (fun _ _ h => ⟨p, h⟩) fun _ h => ⟨p, h⟩

theorem iterate_triple {P : Progress α μ → Counts × σ → Prop}
    {round : Nat → Progress α μ → Working σ (Round α μ)}
    (hround : ∀ k p, Attempt (P p) (round k p) (fun r => P r.progress) (P p)) (p : Progress α μ) :
    Triple (fun t : (Counts × σ) × ω => P p t.1) (s.iterate round p)
      (fun record t => ∃ q, P q t.1 ∧ record.iterate = q.iterate) fun t => ∃ q, P q t.1 :=
  loop_triple hround _ _ p

end Solve

end Descent
