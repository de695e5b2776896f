import Descent.Proofs.Course
import Descent.Proofs.Noted

/-!
# The trail of a solve

A solve goes from progress to progress, each the end of a round from the one before. A `Course` is
where a solve starts and what its rounds are. A `Trail` is a sequence of rounds with the iterations
that it reports, and `Ending` lists the ways in which a record can follow a trail. Main statement:
the loop leaves a trail whose iterations are those that the observer heard of, and its record is one
of these endings (`loop_trail`).

What every round keeps, a trail keeps (`Trail.keeps`): a statement about whole solves is an
invariant of one round and a look at the endings.
-/

set_option autoImplicit false

namespace Descent

open Run

variable {α σ ω : Type}

/-- After `k` rounds from a state of the counted model the solve stands at a progress and the model
in a state, and the iterations have been reported. -/
inductive Course.Trail (c : Course α σ) (start : Counts × σ) :
    Nat → Progress α c.Memory → Counts × σ → List (Iteration α) → Prop
  | start : Trail c start 0 c.first start []
  | step {k : Nat} {p : Progress α c.Memory} {t t' : Counts × σ} {seen : List (Iteration α)}
      {r : Round α c.Memory} : Trail c start k p t seen → Leads (c.round (k + 1) p) t r t' →
        Trail c start (k + 1) r.progress t' (seen ++ [r.iteration])

/-- A trail with one more round, which ended with `r`. -/
def Course.Went (c : Course α σ) (start : Counts × σ) (k : Nat) (p : Progress α c.Memory)
    (r : Round α c.Memory) (t' : Counts × σ) (seen : List (Iteration α)) : Prop :=
  ∃ t old, c.Trail start k p t old ∧ Leads (c.round (k + 1) p) t r t' ∧
    seen = old ++ [r.iteration]

theorem Course.Went.trail {c : Course α σ} {start t' : Counts × σ} {k : Nat}
    {p : Progress α c.Memory} {r : Round α c.Memory} {seen : List (Iteration α)}
    (h : c.Went start k p r t' seen) : c.Trail start (k + 1) r.progress t' seen := by
  obtain ⟨t, old, trail, leads, rfl⟩ := h
  exact trail.step leads

/-- What holds at the start and is kept by every round holds along a trail. -/
theorem Course.Trail.keeps {c : Course α σ} {start t : Counts × σ} {k : Nat}
    {p : Progress α c.Memory} {seen : List (Iteration α)}
    {I : Nat → Progress α c.Memory → List (Iteration α) → Prop} (h : c.Trail start k p t seen)
    (hfirst : I 0 c.first [])
    (hround : ∀ k p seen r, I k p seen → Returns (c.round (k + 1) p) r →
      I (k + 1) r.progress (seen ++ [r.iteration])) : I k p seen := by
  induction h with
  | start => exact hfirst
  | step _ hr ih => exact hround _ _ _ _ ih hr.returns

/-- There are as many iterations as rounds. -/
theorem Course.Trail.length_seen {c : Course α σ} {start t : Counts × σ} {k : Nat}
    {p : Progress α c.Memory} {seen : List (Iteration α)} (h : c.Trail start k p t seen) :
    seen.length = k :=
  h.keeps (I := fun k _ seen => seen.length = k) rfl fun _ _ _ _ ih _ => by
    rw [List.length_append, List.length_singleton, ih]

/-! ## Figures along a trail -/

/-- From the value `a` of a figure on, each iteration is related by `R` to the value before it. -/
def Stepwise (figure : Iteration α → α) (R : α → Iteration α → Prop) :
    α → List (Iteration α) → Prop
  | _, [] => True
  | a, i :: seen => R a i ∧ Stepwise figure R (figure i) seen

instance Stepwise.decidable {figure : Iteration α → α} {R : α → Iteration α → Prop}
    [∀ a i, Decidable (R a i)] : ∀ a seen, Decidable (Stepwise figure R a seen)
  | _, [] => isTrue trivial
  | a, i :: seen =>
    have : Decidable (Stepwise figure R (figure i) seen) := decidable (figure i) seen
    inferInstanceAs (Decidable (R a i ∧ Stepwise figure R (figure i) seen))

/-- The value of a figure after the iterations, `a` before the first. -/
def lastFigure (figure : Iteration α → α) (a : α) (seen : List (Iteration α)) : α :=
  seen.foldl (fun _ i => figure i) a

section Figures

variable {figure : Iteration α → α} {R : α → Iteration α → Prop}

theorem lastFigure_append (a : α) (seen : List (Iteration α)) (i : Iteration α) :
    lastFigure figure a (seen ++ [i]) = figure i := by
  simp [lastFigure]

theorem Stepwise.append {a : α} {seen : List (Iteration α)} {i : Iteration α}
    (h : Stepwise figure R a seen) (hi : R (lastFigure figure a seen) i) :
    Stepwise figure R a (seen ++ [i]) := by
  induction seen generalizing a with
  | nil => exact ⟨hi, trivial⟩
  | cons j seen ih => exact ⟨h.1, ih h.2 hi⟩

/-- What every round keeps holds at the end of a trail, and a figure that shows a value of the
progress, and that every such round changes as `R` says, changes so along it. -/
theorem Course.Trail.keeps_stepwise {c : Course α σ} {start t : Counts × σ} {k : Nat}
    {p : Progress α c.Memory} {seen : List (Iteration α)} {I : Progress α c.Memory → Prop}
    {v : Progress α c.Memory → α} (h : c.Trail start k p t seen) (hfirst : I c.first)
    (hround : ∀ k p r, I p → Returns (c.round (k + 1) p) r →
      I r.progress ∧ R (v p) r.iteration ∧ v r.progress = figure r.iteration) :
    I p ∧ Stepwise figure R (v c.first) seen ∧ v p = lastFigure figure (v c.first) seen := by
  refine h.keeps (I := fun _ p seen => I p ∧ Stepwise figure R (v c.first) seen ∧
    v p = lastFigure figure (v c.first) seen) ⟨hfirst, trivial, rfl⟩ ?_
  rintro k p seen r ⟨hI, hseen, hlast⟩ hr
  obtain ⟨hI', hR, hshown⟩ := hround k p r hI hr
  rw [hlast] at hR
  exact ⟨hI', hseen.append hR, hshown.trans (lastFigure_append ..).symm⟩

/-- A figure that shows a value of the progress, and that every round changes as `R` says, changes
so along a trail. -/
theorem Course.Trail.stepwise {c : Course α σ} {start t : Counts × σ} {k : Nat}
    {p : Progress α c.Memory} {seen : List (Iteration α)} {I : Progress α c.Memory → Prop}
    {v : Progress α c.Memory → α} (h : c.Trail start k p t seen) (hfirst : I c.first)
    (hround : ∀ k p r, I p → Returns (c.round (k + 1) p) r →
      I r.progress ∧ R (v p) r.iteration ∧ v r.progress = figure r.iteration) :
    Stepwise figure R (v c.first) seen ∧ v p = lastFigure figure (v c.first) seen :=
  (h.keeps_stepwise hfirst hround).2

end Figures

/-! ## Endings -/

variable [Scalar α]

/-- The ways in which a solve ends with a record after its rounds have begun. -/
inductive Solve.Ending (s : Solve α σ ω) (c : Course α σ) (start : Counts × σ)
    (record : Record α) : List (Iteration α) → Prop
  /-- The projected gradient is small enough. -/
  | converged {k : Nat} {p : Progress α c.Memory} {t : Counts × σ} {seen : List (Iteration α)}
      (trail : c.Trail start k p t seen) (bounded : k ≤ s.options.maxIterations)
      (shows : Shows record k p.iterate p.gradientNorm .gradientTolerance none)
      (small : p.gradientNorm ≤ s.threshold c.first.gradientNorm) : Ending s c start record seen
  /-- All rounds are done. -/
  | outOfRounds {p : Progress α c.Memory} {t : Counts × σ} {seen : List (Iteration α)}
      (trail : c.Trail start s.options.maxIterations p t seen)
      (shows : Shows record s.options.maxIterations p.iterate p.gradientNorm .iterationLimit none)
      (large : ¬ p.gradientNorm ≤ s.threshold c.first.gradientNorm) :
      Ending s c start record seen
  /-- Another budget is used up. -/
  | exhausted {k : Nat} {p : Progress α c.Memory} {t : Counts × σ} {seen : List (Iteration α)}
      {status : Status} (trail : c.Trail start k p t seen) (bounded : k < s.options.maxIterations)
      (shows : Shows record k p.iterate p.gradientNorm status none)
      (large : ¬ p.gradientNorm ≤ s.threshold c.first.gradientNorm)
      (budget : s.exhausted record.counts k = some status) : Ending s c start record seen
  /-- The next round fails. -/
  | failed {k : Nat} {p : Progress α c.Memory} {t : Counts × σ} {seen : List (Iteration α)}
      {e : SolverError} (trail : c.Trail start k p t seen)
      (bounded : k < s.options.maxIterations)
      (shows : Shows record (k + 1) p.iterate p.gradientNorm (.ofError e) (some e))
      (fails : Fails (c.round (k + 1) p) e) : Ending s c start record seen
  /-- The observer asks to stop after a round. -/
  | stopped {k : Nat} {p : Progress α c.Memory} {t : Counts × σ} {seen : List (Iteration α)}
      {r : Round α c.Memory} (went : c.Went start k p r t seen)
      (bounded : k < s.options.maxIterations)
      (shows : Shows record (k + 1) r.progress.iterate r.progress.gradientNorm .userRequested
        none) : Ending s c start record seen
  /-- A round meets a tolerance. -/
  | settled {k : Nat} {p : Progress α c.Memory} {t : Counts × σ} {seen : List (Iteration α)}
      {r : Round α c.Memory} {status : Status} (went : c.Went start k p r t seen)
      (bounded : k < s.options.maxIterations) (verdict : r.verdict = some status)
      (shows : Shows record (k + 1) r.progress.iterate r.progress.gradientNorm status none) :
      Ending s c start record seen

namespace Solve

/-- A record shows where the trail ends. -/
theorem Ending.trail_end {s : Solve α σ ω} {c : Course α σ} {start : Counts × σ}
    {record : Record α} {seen : List (Iteration α)} (h : s.Ending c start record seen) :
    ∃ k p t, c.Trail start k p t seen ∧ record.iterate = p.iterate ∧
      record.gradientNorm = p.gradientNorm := by
  cases h with
  | converged trail _ shows => exact ⟨_, _, _, trail, shows.iterate, shows.gradientNorm⟩
  | outOfRounds trail shows => exact ⟨_, _, _, trail, shows.iterate, shows.gradientNorm⟩
  | exhausted trail _ shows => exact ⟨_, _, _, trail, shows.iterate, shows.gradientNorm⟩
  | failed trail _ shows => exact ⟨_, _, _, trail, shows.iterate, shows.gradientNorm⟩
  | stopped went _ shows => exact ⟨_, _, _, went.trail, shows.iterate, shows.gradientNorm⟩
  | settled went _ _ shows => exact ⟨_, _, _, went.trail, shows.iterate, shows.gradientNorm⟩

/-- An error in a record is that of the round after the trail. -/
theorem Ending.error_fails {s : Solve α σ ω} {c : Course α σ} {start : Counts × σ}
    {record : Record α} {seen : List (Iteration α)} (h : s.Ending c start record seen)
    {e : SolverError} (he : record.error = some e) :
    ∃ k p t, c.Trail start k p t seen ∧ Fails (c.round (k + 1) p) e := by
  cases h with
  | failed trail _ shows fails =>
      obtain rfl := Option.some.inj (shows.error.symm.trans he)
      exact ⟨_, _, _, trail, fails⟩
  | converged _ _ shows => cases shows.error.symm.trans he
  | outOfRounds _ shows => cases shows.error.symm.trans he
  | exhausted _ _ shows => cases shows.error.symm.trans he
  | stopped _ _ shows => cases shows.error.symm.trans he
  | settled _ _ _ shows => cases shows.error.symm.trans he

/-! ## The loop -/

section Loop

variable {s : Solve α σ (ω × List (Iteration α))} {o : Observer α ω} {c : Course α σ}
  {start : Counts × σ}

/-- What is drawn up when a trail ends, if that is an ending of it. -/
theorem finish_ending (hs : s.observer = o.noting)
    {K : Counts × σ → List (Iteration α) → Prop} {status : Status} {iterate : Iterate α}
    {gradientNorm : α} {k : Nat} {error : Option SolverError}
    (h : ∀ record t seen, K t seen → Shows record k iterate gradientNorm status error →
      record.counts = t.1 → s.unobserved.Ending c start record seen) :
    Triple (fun u => K u.1 u.2.2) (s.finish status iterate gradientNorm k error)
      (fun record u => s.unobserved.Ending c start record u.2.2)
      fun u => ∃ k p t, c.Trail start k p t u.2.2 :=
  Triple.mono (finish_noted (K := K) hs status iterate gradientNorm k error) (fun _ hu => hu)
    (fun record u hu => h record u.1 u.2.2 hu.1 hu.2.1 hu.2.2) fun _ hF => hF.elim

/-- **The loop leaves a trail.** Its record is an ending of the trail, and where it stops at a fault
there is a trail behind. -/
theorem loop_trail (hs : s.observer = o.noting) (remaining k : Nat) (p : Progress α c.Memory)
    (hlimit : k + remaining = s.options.maxIterations) :
    Triple (fun u => c.Trail start k p u.1 u.2.2)
      (s.loop (s.threshold c.first.gradientNorm) c.round remaining k p)
      (fun record u => s.unobserved.Ending c start record u.2.2)
      fun u => ∃ k p t, c.Trail start k p t u.2.2 := by
  have hbounded : k ≤ s.options.maxIterations := by omega
  induction remaining generalizing k p with
  | zero =>
      obtain rfl : k = s.options.maxIterations := hlimit
      unfold loop
      split
      · next small =>
          exact finish_ending hs fun _ _ _ trail shows _ => .converged trail hbounded shows small
      · next large =>
          exact finish_ending hs fun _ _ _ trail shows _ => .outOfRounds trail shows large
  | succ remaining ih =>
      have hk : k < s.options.maxIterations := by omega
      unfold loop
      split
      · next small =>
          exact finish_ending hs fun _ _ _ trail shows _ => .converged trail hbounded shows small
      · next large =>
          refine Triple.bind Triple.get_eq ?_
          rintro ⟨⟨counts, state⟩, w⟩
          dsimp only
          split
          · next status budget =>
              -- the budget was checked against the counts that the record shows
              refine Triple.pre (finish_ending hs
                (K := fun t seen => t.1 = counts ∧ c.Trail start k p t seen) ?_) ?_
              · rintro record t seen ⟨rfl, trail⟩ shows hcounts
                exact .exhausted trail hk shows large (hcounts ▸ budget)
              · rintro u ⟨rfl, trail⟩
                exact ⟨rfl, trail⟩
          · refine Triple.bind (Triple.mono
              (Triple.onFst_outcome (K := fun t w => c.Trail start k p t w.2)
                (m := c.round (k + 1) p))
              (fun _ hu => hu.2) (fun _ _ h => h) fun _ ⟨t, h⟩ => ⟨k, p, t, h⟩) ?_
            rintro (e | r)
            · refine Triple.pre (finish_ending hs
                (K := fun _ seen => ∃ t, c.Trail start k p t seen ∧ Fails (c.round (k + 1) p) e) ?_)
                fun u ⟨t, trail, breaks⟩ => ⟨t, trail, breaks.fails⟩
              rintro record _ seen ⟨t, trail, fails⟩ shows _
              exact .failed trail hk shows fails
            · -- the round has been made and is reported
              refine Triple.bind (Triple.mono
                (notify_noted hs r.iteration (K := c.Went start k p r))
                (fun u ⟨t, trail, leads⟩ => ⟨t, _, trail, leads, rfl⟩) (fun _ _ h => h)
                fun _ hF => hF.elim) fun goOn => ?_
              split
              · exact finish_ending hs fun _ _ _ went shows _ => .stopped went hk shows
              · split
                · next verdict =>
                    exact finish_ending hs fun _ _ _ went shows _ => .settled went hk verdict shows
                · exact Triple.pre (ih (k + 1) r.progress (by omega) (by omega))
                    fun _ went => went.trail

end Loop

/-! ## Whole solves -/

/-- How a solve whose courses are known ends with a record: at a starting point without values, or
after a trail. -/
inductive Ends (s : Solve α σ ω) (StartsAt : Vec α → Prop)
    (Opens : Course α σ → Counts × σ → Prop) (record : Record α) : List (Iteration α) → Prop
  | atStart {x : Vec α} {e : ModelError} (starts : StartsAt x) (fails : Fails (s.evaluateStart x) e)
      (shows : Shows record 0 (.free x Scalar.nan (Vec.constant x.length Scalar.nan) 0) Scalar.nan
        .evaluationFailure (some (.evaluationFailures 1 e.message))) :
      Ends s StartsAt Opens record []
  | after {c : Course α σ} {start : Counts × σ} {seen : List (Iteration α)}
      (opens : Opens c start) (ending : s.Ending c start record seen) :
      Ends s StartsAt Opens record seen

/-- What a solve has reported wherever it stops: nothing, or the iterations of a trail. -/
inductive Reports (Opens : Course α σ → Counts × σ → Prop) : List (Iteration α) → Prop
  | nothing : Reports Opens []
  | trail {c : Course α σ} {start t : Counts × σ} {k : Nat} {p : Progress α c.Memory}
      {seen : List (Iteration α)} (opens : Opens c start) (trail : c.Trail start k p t seen) :
      Reports Opens seen

section Ends

variable {s : Solve α σ ω} {StartsAt : Vec α → Prop} {Opens : Course α σ → Counts × σ → Prop}
  {record : Record α} {seen : List (Iteration α)}

theorem Ends.reports (h : s.Ends StartsAt Opens record seen) : Reports Opens seen := by
  cases h with
  | atStart => exact .nothing
  | after opens ending =>
      obtain ⟨_, _, _, trail, -, -⟩ := ending.trail_end
      exact .trail opens trail

/-- The record counts the iterations that were reported, and in a failure one more. -/
theorem Ends.length_seen (h : s.Ends StartsAt Opens record seen) :
    seen.length ≤ record.iterations ∧
      (record.status.isFailure = false → seen.length = record.iterations) := by
  have hreported : ∀ k, seen.length = k → record.iterations = k →
      seen.length ≤ record.iterations ∧
        (record.status.isFailure = false → seen.length = record.iterations) := by
    rintro k hk hiterations
    have heq : seen.length = record.iterations := hk.trans hiterations.symm
    exact ⟨Nat.le_of_eq heq, fun _ => heq⟩
  cases h with
  | atStart _ _ shows => exact hreported 0 rfl shows.iterations
  | after _ ending =>
      cases ending with
      | converged trail _ shows => exact hreported _ trail.length_seen shows.iterations
      | outOfRounds trail shows => exact hreported _ trail.length_seen shows.iterations
      | exhausted trail _ shows => exact hreported _ trail.length_seen shows.iterations
      | failed trail _ shows =>
          -- the round that failed is counted and not reported
          rw [trail.length_seen, shows.iterations, shows.status, Status.isFailure_ofError]
          exact ⟨Nat.le_succ _, nofun⟩
      | stopped went _ shows => exact hreported _ went.trail.length_seen shows.iterations
      | settled went _ _ shows => exact hreported _ went.trail.length_seen shows.iterations

end Ends

section Whole

variable {s : Solve α σ (ω × List (Iteration α))} {o : Observer α ω} {StartsAt : Vec α → Prop}
  {Opens : Course α σ → Counts × σ → Prop}

/-- The record of a solve whose starting point has no values. -/
theorem finishAtStart_ends (hs : s.observer = o.noting) {x : Vec α} {e : ModelError}
    {t : Counts × σ} (starts : StartsAt x) (fails : Fails (s.evaluateStart x) e) :
    Triple (fun u => u.1 = t ∧ u.2.2 = []) (s.finishAtStart x e)
      (fun record u => s.unobserved.Ends StartsAt Opens record u.2.2)
      fun u => Reports Opens u.2.2 := by
  refine Triple.mono (finish_noted (K := fun _ seen => seen = []) hs _ _ _ _ _)
    (fun _ hu => hu.2) ?_ fun _ hF => hF.elim
  rintro record u ⟨hseen, shows, -⟩
  rw [hseen]
  exact .atStart starts fails shows

/-- The loop from the first progress of a course. -/
theorem iterate_ends (hs : s.observer = o.noting) {c : Course α σ} {start : Counts × σ}
    (hopens : Opens c start) :
    Triple (fun u => u.1 = start ∧ u.2.2 = []) (s.iterate c.round c.first)
      (fun record u => s.unobserved.Ends StartsAt Opens record u.2.2)
      fun u => Reports Opens u.2.2 := by
  refine Triple.mono (loop_trail hs _ 0 c.first (Nat.zero_add _)) ?_
    (fun _ _ h => .after hopens h) fun _ ⟨_, _, _, trail⟩ => .trail hopens trail
  rintro u ⟨rfl, hseen⟩
  rw [hseen]
  exact .start

end Whole

end Solve

end Descent
