import Descent.Proofs.Cost.Rounds
import Descent.Proofs.Record

/-!
# The budget of evaluations

A budget of evaluations is looked at before every round, so that a solve overruns it by what one
round evaluates and no more. `Course.Frugal` is a trail whose rounds began while there were
evaluations left, and `Solve.Pays` says how a record is paid for by such a trail. Main statement:
every solve with a budget pays so, and the counts of its record are bounded
(`Method.solve_within_budget`).
-/

set_option autoImplicit false

namespace Descent

open Run

variable {α σ ω : Type}

/-! ## Trails within a budget -/

/-- After `k` rounds from a state of the counted model the solve stands at a progress and the model
in a state, and the iterations have been reported. Each round began after fewer than `most`
evaluations of the objective and the gradient. -/
inductive Course.Frugal (c : Course α σ) (start : Counts × σ) (most : Nat) :
    Nat → Progress α c.Memory → Counts × σ → List (Iteration α) → Prop
  | start : Frugal c start most 0 c.first start []
  | round {k : Nat} {p : Progress α c.Memory} {t t' : Counts × σ} {seen : List (Iteration α)}
      {r : Round α c.Memory} (trail : Frugal c start most k p t seen)
      (left : t.1.functionEvaluations < most) (leads : Leads (c.round (k + 1) p) t r t') :
      Frugal c start most (k + 1) r.progress t' (seen ++ [r.iteration])

/-- If no round makes more than `cost` evaluations, the last one ends after at most `cost` more than
the budget allows. -/
theorem Course.Frugal.within {c : Course α σ} {start t : Counts × σ} {most k cost : Nat}
    {p : Progress α c.Memory} {seen : List (Iteration α)} (h : c.Frugal start most k p t seen)
    (hstart : Counts.Within 2 start)
    (hround : ∀ j k p, Costs j (c.round k p) (fun _ => j + cost) (j + cost)) :
    Counts.Within (max 2 (most + cost - 1)) t := by
  cases h with
  | start => exact hstart.mono (Nat.le_max_left ..)
  | round _ left leads =>
      have hlast : most - 1 + cost ≤ max 2 (most + cost - 1) := by omega
      exact ((hround (most - 1) _ _).leads leads (Nat.le_sub_one_of_lt left)).mono hlast

/-- The record is drawn up where a frugal trail ends, or where the next round fails that began
within the budget. -/
inductive Course.Spends (c : Course α σ) (start : Counts × σ) (most : Nat) (record : Record α)
    (seen : List (Iteration α)) : Prop
  | completed {k : Nat} {p : Progress α c.Memory} {t : Counts × σ}
      (trail : c.Frugal start most k p t seen) (iterations : record.iterations = k)
      (counts : record.counts = t.1)
  | failed {k : Nat} {p : Progress α c.Memory} {t t' : Counts × σ} {e : SolverError}
      (trail : c.Frugal start most k p t seen) (left : t.1.functionEvaluations < most)
      (breaks : Breaks (c.round (k + 1) p) t e t') (iterations : record.iterations = k + 1)
      (error : record.error = some e) (counts : record.counts = t'.1)

theorem Course.Spends.counts_le {c : Course α σ} {start : Counts × σ} {most cost : Nat}
    {record : Record α} {seen : List (Iteration α)} (h : c.Spends start most record seen)
    (hstart : Counts.Within 2 start)
    (hround : ∀ j k p, Costs j (c.round k p) (fun _ => j + cost) (j + cost)) :
    record.counts.functionEvaluations ≤ max 2 (most + cost - 1) := by
  cases h with
  | completed trail _ counts =>
      rw [counts]
      exact trail.within hstart hround
  | failed _ left breaks _ _ counts =>
      have hlast : most - 1 + cost ≤ max 2 (most + cost - 1) := by omega
      rw [counts]
      exact ((hround (most - 1) _ _).breaks breaks (Nat.le_sub_one_of_lt left)).mono hlast

variable [Scalar α]

/-- How the evaluations of a solve are spent: at a starting point without values, or on a frugal
trail. -/
inductive Solve.Pays (s : Solve α σ ω) (StartsAt : Vec α → Prop)
    (Opens : Course α σ → Counts × σ → Prop) (state : σ) (most : Nat) (record : Record α) :
    List (Iteration α) → Prop
  | atStart {x : Vec α} {e : ModelError} {t : Counts × σ} (starts : StartsAt x)
      (breaks : Breaks (s.evaluateStart x) ({}, state) e t) (iterations : record.iterations = 0)
      (counts : record.counts = t.1) : Pays s StartsAt Opens state most record []
  | after {c : Course α σ} {start : Counts × σ} {seen : List (Iteration α)}
      (opens : Opens c start) (spends : c.Spends start most record seen) :
      Pays s StartsAt Opens state most record seen

/-! ## The loop -/

namespace Solve

/-- At the starting point the objective and the gradient are evaluated once. -/
theorem evaluateStart_costs (s : Solve α σ ω) (x : Vec α) :
    Costs 0 (s.evaluateStart x) (fun _ => 2) 2 := by
  refine .bind (Model.objectiveAndGradient_costs x) ?_
  rintro ⟨f, g⟩
  dsimp only
  split
  · exact .pure (Nat.le_refl _)
  · exact .throw (Nat.le_refl _)

variable {s : Solve α σ (ω × List (Iteration α))} {o : Observer α ω} {c : Course α σ}
  {start : Counts × σ} {most : Nat}

/-- **The loop spends no more than its budget and one round.** -/
theorem loop_spends (start : Counts × σ) (hs : s.observer = o.noting)
    (hmost : s.options.maxEvaluations = some most)
    (threshold : α) (remaining k : Nat) (p : Progress α c.Memory) :
    Triple (fun u => c.Frugal start most k p u.1 u.2.2)
      (s.loop threshold c.round remaining k p)
      (fun record u => c.Spends start most record u.2.2) fun _ => True := by
  refine loop_rounds
    (P := fun k p t (w : ω × List (Iteration α)) => c.Frugal start most k p t w.2)
    (N := fun k r t w => c.Frugal start most k r.progress t (w.2 ++ [r.iteration]))
    (B := fun k p e t w => ∃ t₀, (c.Frugal start most k p t₀ w.2 ∧
      t₀.1.functionEvaluations < most) ∧ Breaks (c.round (k + 1) p) t₀ e t)
    (S := fun _ => True) (R := fun record _ w => c.Spends start most record w.2)
    ?_ ?_ (fun _ _ _ _ _ _ _ => trivial) (fun _ _ => trivial) ?_ ?_ remaining k p
  · intro k p w _
    refine Settles.mono Settles.reached
      (fun t ht => And.intro ht.1 (lt_of_exhausted_eq_none hmost ht.2)) ?_ (fun _ _ h => h)
      fun _ h => h
    rintro r t ⟨t₀, ⟨trail, left⟩, leads⟩
    exact trail.round left leads
  · exact fun k r => Triple.fault (notify_noted hs r.iteration
      (K := fun t seen => c.Frugal start most k r.progress t seen)) fun _ _ => trivial
  · intro k p status _
    refine Triple.mono
      (finish_noted (K := fun t seen => c.Frugal start most k p t seen) hs _ _ _ _ _)
      (fun _ hu => hu) ?_ fun _ _ => trivial
    rintro record u ⟨trail, shows, counts⟩
    exact .completed trail shows.iterations counts
  · intro k p e
    refine Triple.mono (finish_noted (K := fun t seen => ∃ t₀, (c.Frugal start most k p t₀ seen ∧
      t₀.1.functionEvaluations < most) ∧ Breaks (c.round (k + 1) p) t₀ e t) hs _ _ _ _ _)
      (fun _ hu => hu) ?_ fun _ _ => trivial
    rintro record u ⟨⟨t₀, ⟨trail, left⟩, breaks⟩, shows, counts⟩
    exact .failed trail left breaks shows.iterations shows.error counts

end Solve

/-! ## Whole solves -/

namespace Method

/-- A solve with a budget pays for its record. -/
theorem minimize_pays (method : Method α) (m : Model α σ) (x₀ : Vec α) {o : Options α}
    {most : Nat} (hmost : o.maxEvaluations = some most) (observer : Observer α ω)
    (clock : Nat → Duration) (state : σ) :
    let s := method.solve m o clock
    Settles (fun u => u.1 = ({}, state) ∧ u.2.2 = [])
      (method.minimize m x₀ o observer.noting clock)
      (fun record u => s.Pays (method.StartsAt m x₀) (Opens s x₀ state method) state most record
        u.2.2) (fun _ _ => True) fun _ => True := by
  intro s
  let noted : Solve α σ (ω × List (Iteration α)) := ⟨method.name, m, o, observer.noting, clock⟩
  have hs : noted.observer = observer.noting := rfl
  have hparts : noted.Parts (method.StartsAt m x₀) (Opens s x₀ state method) state
      (fun w => w.2 = []) (fun w => w.2 = [])
      (fun record u => s.Pays (method.StartsAt m x₀) (Opens s x₀ state method) state most record
        u.2.2) (fun _ _ => True) fun _ => True := {
    refused := fun _ _ _ _ _ => trivial
    started := fun _ _ hseen => hseen
    fault := fun _ _ => trivial
    atStart := by
      intro x e t starts breaks
      refine Triple.mono
        (Solve.finish_noted (K := fun t' seen => t' = t ∧ seen = []) hs _ _ _ _ _)
        (fun _ hu => hu) ?_ fun _ _ => trivial
      rintro record u ⟨⟨ht, hseen⟩, shows, counts⟩
      rw [hseen]
      rw [ht] at counts
      exact .atStart starts breaks shows.iterations counts
    rounds := by
      intro c start opens
      refine Triple.mono (Solve.loop_spends start hs hmost _ _ 0 c.first) ?_
        (fun _ _ spends => .after opens spends) fun _ _ => trivial
      rintro u ⟨rfl, hseen⟩
      rw [hseen]
      exact .start }
  exact minimize_settles (s := noted) method rfl hparts fun _ _ _ _ _ _ => trivial

theorem pays_counts_le {method : Method α} {m : Model α σ} {x₀ : Vec α} {o : Options α}
    {clock : Nat → Duration} {state : σ} {most : Nat} {record : Record α}
    {seen : List (Iteration α)}
    (h : (method.solve m o clock).Pays (method.StartsAt m x₀)
      (Opens (method.solve m o clock) x₀ state method) state most record seen) :
    record.counts.functionEvaluations ≤ max 2 (most + method.roundCost o - 1) := by
  have hnothing : Counts.Within 0 (({}, state) : Counts × σ) := Nat.le_refl 0
  cases h with
  | atStart _ breaks _ counts =>
      rw [counts]
      exact ((Solve.evaluateStart_costs _ _).breaks breaks hnothing).mono (Nat.le_max_left ..)
  | after opens spends =>
      refine spends.counts_le ?_ fun j k p => opens.round_costs k p
      exact (Solve.evaluateStart_costs _ _).leads opens.starts.2 hnothing

/-- **The budget of evaluations is overrun by one round at most.** A solve with a budget of `most`
evaluations begins no round after as many, and its record counts at most `most - 1` evaluations and
those of one round, or the two at the starting point. -/
theorem solve_within_budget {method : Method α} {m : Model α σ} {x₀ : Vec α} {o : Options α}
    {observer : Observer α ω} {clock : Nat → Duration} {state : σ} {w : ω} {journal : Journal}
    {most : Nat} {record : Record α} {seen : List (Iteration α)}
    (hmost : o.maxEvaluations = some most)
    (h : solveNoted method m x₀ o observer clock state w journal = (.ok (.ok record), seen)) :
    let s := method.solve m o clock
    record.counts.functionEvaluations ≤ max 2 (most + method.roundCost o - 1) ∧
      s.Pays (method.StartsAt m x₀) (Opens s x₀ state method) state most record seen := by
  intro s
  have hpays := minimize_pays method m x₀ hmost observer clock state (({}, state), (w, [])) journal
    ⟨rfl, rfl⟩
  rw [solveNoted_eq] at h
  generalize Run.start _ _ journal = out at h hpays
  rcases out with ⟨⟨r, u⟩, journal'⟩
  cases h
  exact ⟨pays_counts_le hpays, hpays⟩

/-- With a budget of three evaluations, a BFGS solve of the square stops after the two at the start
and the two of one round. -/
theorem solve_within_budget_square :
    let o : Options Float := { maxEvaluations := some 3 }
    let s := Method.solve (.lbfgs {}) (square : Model Float Unit) o fun _ => .zero
    ∃ record seen, solveNoted (.lbfgs {}) square [3] o (Observer.silent : Observer Float Unit)
        (fun _ => .zero) () () #[] = (.ok (.ok record), seen) ∧
      record.status = .evaluationLimit ∧ record.counts.functionEvaluations = 4 ∧
      record.counts.functionEvaluations ≤ max 2 (3 + (Method.lbfgs {}).roundCost o - 1) ∧
      s.Pays (StartsAt (.lbfgs {}) square [3]) (Opens s [3] () (.lbfgs {})) () 3 record seen := by
  intro o s
  have hends : (match (solveNoted (.lbfgs {}) square [3] o
      (Observer.silent : Observer Float Unit) (fun _ => .zero) () () #[]).1 with
    | .ok (.ok record) => decide (record.status = .evaluationLimit ∧
        record.counts.functionEvaluations = 4)
    | _ => false) = true := by decide +kernel
  generalize hrun : solveNoted (.lbfgs {}) square [3] o
    (Observer.silent : Observer Float Unit) (fun _ => .zero) () () #[] = result at hends
  rcases result with ⟨_ | _ | record, seen⟩
  · cases hends
  · cases hends
  · obtain ⟨hstatus, hcounts⟩ := of_decide_eq_true hends
    have hbudget := solve_within_budget rfl hrun
    exact ⟨record, seen, rfl, hstatus, hcounts, hbudget.1, hbudget.2⟩

end Method

end Descent
