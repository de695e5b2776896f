import Descent.Proofs.Simulation.Solve
import Descent.Proofs.Solve
import Descent.Proofs.Valid

/-!
# What an observer is told

An observer that keeps, beside its own state, the list of all that it is told, with its answers. It
answers as the observer inside (`transcribed_imitates`). The rules say what the parts of a solve add
to the list; the loop adds the iterations one after the other, and then the record
(`loop_told`).
-/

set_option autoImplicit false

namespace Descent

open Run

variable {α σ ω μ : Type}

/-- What an observer is told, an iteration with the answer to it. -/
inductive Notice (α : Type) where
  | started (solver model : String)
  | iterated (i : Iteration α) (goOn : Bool)
  | finished (record : Record α)

def Notice.iterations (heard : List (Iteration α × Bool)) : List (Notice α) :=
  heard.map fun h => .iterated h.1 h.2

namespace Observer

/-- The observer with a list of all that it is told, the latest last. -/
def transcribed (o : Observer α ω) : Observer α (ω × List (Notice α)) where
  onStart solver model := do
    modify fun (w, told) => (w, told ++ [.started solver model])
    Report.onFst (o.onStart solver model)
  onIteration i := do
    let goOn ← Report.onFst (o.onIteration i)
    modify fun (w, told) => (w, told ++ [.iterated i goOn])
    return goOn
  onFinish r := do
    modify fun (w, told) => (w, told ++ [.finished r])
    Report.onFst (o.onFinish r)

/-- But for the list, a transcribed observer is the observer inside. -/
theorem transcribed_imitates (o : Observer α ω) : o.transcribed.Imitates Prod.fst o where
  onStart _ _ _ _ := rfl
  onIteration _ _ _ := rfl
  onFinish _ _ _ := rfl

end Observer

/-! ## The iterations up to a record -/

/-- How many iterations of a solve are reported: all of them, but for one that failed. -/
def Record.reported (record : Record α) : Nat :=
  if record.status.isFailure ∧ 0 < record.iterations then record.iterations - 1
  else record.iterations

/-- The iterations that are reported after the first `k`, with the answers to them, in a solve that
ends with the record. -/
inductive Record.Follows (record : Record α) : Nat → List (Iteration α × Bool) → Prop
  /-- There are no more. -/
  | done {k : Nat} (all : record.reported = k) (status : record.status ≠ .userRequested) :
      Follows record k []
  /-- The answer to the next one stops the solve. -/
  | stopped {k : Nat} {i : Iteration α} (number : i.number = k + 1)
      (all : record.reported = k + 1) (status : record.status = .userRequested) :
      Follows record k [(i, false)]
  /-- The solve goes on after the next one. -/
  | next {k : Nat} {i : Iteration α} {heard : List (Iteration α × Bool)} (number : i.number = k + 1)
      (rest : Follows record (k + 1) heard) : Follows record k ((i, true) :: heard)

namespace Record.Follows

variable {record : Record α} {k : Nat} {heard : List (Iteration α × Bool)}

theorem le_reported (h : record.Follows k heard) : k ≤ record.reported := by
  induction h with
  | done all => omega
  | stopped _ all => omega
  | next _ _ ih => omega

/-- The iterations are numbered in order. -/
theorem numbers (h : record.Follows k heard) :
    heard.map (fun h => h.1.number) = List.range' (k + 1) (record.reported - k) := by
  induction h with
  | @done k all _ =>
      have hnone : record.reported - k = 0 := by omega
      rw [hnone]
      rfl
  | @stopped k i number all _ =>
      have hone : record.reported - k = 1 := by omega
      rw [hone]
      exact congrArg (fun n => [n]) number
  | @next k i heard number rest ih =>
      have hle := rest.le_reported
      have hmore : record.reported - k = (record.reported - (k + 1)) + 1 := by omega
      rw [List.map_cons, ih, hmore, List.range'_succ, number]

/-- Every answer but the last lets the solve go on. -/
theorem goOn (h : record.Follows k heard) : ∀ h ∈ heard.dropLast, h.2 = true := by
  induction h with
  | done => exact fun _ h => absurd h List.not_mem_nil
  | stopped => exact fun _ h => absurd h List.not_mem_nil
  | @next k i heard number rest ih =>
      intro h hh
      by_cases hlast : heard = []
      · rw [hlast] at hh
        exact absurd hh List.not_mem_nil
      · rw [List.dropLast_cons_of_ne_nil hlast] at hh
        rcases List.mem_cons.mp hh with rfl | hh
        · rfl
        · exact ih h hh

/-- An answer stops the solve if and only if the status says so. -/
theorem stopped_iff (h : record.Follows k heard) :
    (∃ h ∈ heard, h.2 = false) ↔ record.status = .userRequested := by
  induction h with
  | done _ status =>
      constructor
      · rintro ⟨_, h, -⟩
        exact absurd h List.not_mem_nil
      · exact fun h => absurd h status
  | @stopped k i _ _ status =>
      exact ⟨fun _ => status, fun _ => ⟨(i, false), List.mem_singleton_self _, rfl⟩⟩
  | @next k i heard _ _ ih =>
      rw [← ih]
      constructor
      · rintro ⟨h, hh, hanswer⟩
        rcases List.mem_cons.mp hh with rfl | hh
        · cases hanswer
        · exact ⟨h, hh, hanswer⟩
      · rintro ⟨h, hh, hanswer⟩
        exact ⟨h, List.mem_cons_of_mem _ hh, hanswer⟩

end Record.Follows

/-- A solve that does not fail reports all its iterations. -/
theorem Record.reported_of_ended {record : Record α} (h : record.status.isFailure = false) :
    record.reported = record.iterations := by
  unfold reported
  rw [h]
  exact if_neg fun h => absurd h.1 Bool.false_ne_true

/-- A solve that fails reports the iterations before the one that failed. -/
theorem Record.reported_of_failure {record : Record α} (h : record.status.isFailure = true)
    {k : Nat} (hk : record.iterations = k + 1) : record.reported = k := by
  unfold reported
  rw [h, hk]
  exact if_pos ⟨rfl, Nat.succ_pos k⟩

/-- A tolerance that is met is not a failure. -/
theorem Status.not_failure_of_converged {status : Status} (h : status.isConverged = true) :
    status.isFailure = false := by
  unfold isFailure
  rw [h]
  rfl

/-! ## The parts of a solve -/

/-- The report on a round has its number, and only a tolerance ends a solve by the verdict. -/
structure Round.Tells (r : Round α μ) (number : Nat) : Prop where
  number : r.iteration.number = number
  verdict : ∀ status, r.verdict = some status → status.isConverged = true

namespace Solve

variable [Scalar α] {s : Solve α σ (ω × List (Notice α))} {o : Observer α ω}

variable {before : List (Notice α)}

theorem notify_told (hs : s.observer = o.transcribed) (i : Iteration α) :
    Triple (fun u => u.2.2 = before) (s.notify i)
      (fun goOn u => u.2.2 = before ++ [.iterated i goOn]) fun _ => True := by
  unfold notify
  rw [hs]
  refine Triple.bind Triple.emit fun _ => ?_
  exact fun u _ hu => congrArg (· ++ _) hu

/-- What is drawn up is told. -/
theorem finish_told (hs : s.observer = o.transcribed) (status : Status) (iterate : Iterate α)
    (gradientNorm : α) (k : Nat) (error : Option SolverError) :
    Triple (fun u => u.2.2 = before) (s.finish status iterate gradientNorm k error)
      (fun record u => u.2.2 = before ++ [.finished record] ∧ record.status = status ∧
        record.iterations = k) fun _ => True := by
  unfold finish
  rw [hs]
  refine Triple.bind Triple.get ?_
  rintro ⟨⟨counts, _⟩, _⟩
  dsimp only
  refine Triple.bind Triple.emit fun _ => ?_
  exact fun u _ hu => ⟨congrArg (· ++ _) hu, rfl, rfl⟩

/-- What a loop has told when it ends with a record: the iterations after the first `k`, and then
the record. -/
def Told (before : List (Notice α)) (k : Nat) (record : Record α)
    (u : (Counts × σ) × ω × List (Notice α)) : Prop :=
  ∃ heard, u.2.2 = before ++ Notice.iterations heard ++ [.finished record] ∧
    record.Follows k heard

omit [Scalar α] in
/-- One more iteration comes before the rest. -/
theorem Told.cons {k : Nat} {i : Iteration α} {record : Record α}
    {u : (Counts × σ) × ω × List (Notice α)} (number : i.number = k + 1)
    (h : Told (before ++ [.iterated i true]) (k + 1) record u) : Told before k record u := by
  obtain ⟨heard, htold, follows⟩ := h
  refine ⟨(i, true) :: heard, ?_, .next number follows⟩
  rw [htold, List.append_assoc before]
  rfl

/-- A solve whose starting point has no values tells no iteration. -/
theorem finishAtStart_told (hs : s.observer = o.transcribed) (x : Vec α) (e : ModelError) :
    Triple (fun u => u.2.2 = before) (s.finishAtStart x e)
      (fun record u => Told before 0 record u) fun _ => True := by
  refine Triple.post (finish_told hs _ _ _ _ _) ?_
  rintro record u ⟨htold, hstatus, hiterations⟩
  have hnone : record.reported = 0 := by
    unfold Record.reported
    rw [hiterations]
    exact if_neg fun h => absurd h.2 (Nat.lt_irrefl 0)
  refine ⟨[], ?_, .done hnone (by rw [hstatus]; exact nofun)⟩
  rw [htold]
  exact congrArg (· ++ _) (List.append_nil before).symm

/-- A solve that ends without a failure tells no more iterations. -/
theorem finish_ended (hs : s.observer = o.transcribed) {status : Status}
    (hfailure : status.isFailure = false) (hgoOn : status ≠ .userRequested) (iterate : Iterate α)
    (gradientNorm : α) (k : Nat) :
    Triple (fun u => u.2.2 = before) (s.finish status iterate gradientNorm k none)
      (fun record u => Told before k record u) fun _ => True := by
  refine Triple.post (finish_told hs _ _ _ _ _) ?_
  rintro record u ⟨htold, rfl, rfl⟩
  refine ⟨[], ?_, .done (Record.reported_of_ended hfailure) hgoOn⟩
  rw [htold]
  exact congrArg (· ++ _) (List.append_nil before).symm

/-- A round that fails is counted and not told. -/
theorem finish_failed (hs : s.observer = o.transcribed) (e : SolverError) (iterate : Iterate α)
    (gradientNorm : α) (k : Nat) :
    Triple (fun u => u.2.2 = before)
      (s.finish (.ofError e) iterate gradientNorm (k + 1) (some e))
      (fun record u => Told before k record u) fun _ => True := by
  refine Triple.post (finish_told hs _ _ _ _ _) ?_
  rintro record u ⟨htold, hstatus, hiterations⟩
  have hfails : record.status.isFailure = true := by
    rw [hstatus]
    exact Status.isFailure_ofError e
  have hgoOn : record.status ≠ .userRequested := by
    intro h
    rw [h] at hfails
    cases hfails
  refine ⟨[], ?_, .done (Record.reported_of_failure hfails hiterations) hgoOn⟩
  rw [htold]
  exact congrArg (· ++ _) (List.append_nil before).symm

/-- The answer to the last iteration asked to stop. -/
theorem finish_stopped (hs : s.observer = o.transcribed) {i : Iteration α} {k : Nat}
    (number : i.number = k + 1) (iterate : Iterate α) (gradientNorm : α) :
    Triple (fun u => u.2.2 = before ++ [.iterated i false])
      (s.finish .userRequested iterate gradientNorm (k + 1) none)
      (fun record u => Told before k record u) fun _ => True := by
  refine Triple.post (finish_told hs _ _ _ _ _) ?_
  rintro record u ⟨htold, hstatus, hiterations⟩
  have hended : record.status.isFailure = false := by
    rw [hstatus]
    rfl
  have hall : record.reported = k + 1 := (Record.reported_of_ended hended).trans hiterations
  exact ⟨[(i, false)], htold, .stopped number hall hstatus⟩

/-- **The loop tells its iterations in order, and then the record.** -/
theorem loop_told (hs : s.observer = o.transcribed) {threshold : α}
    {round : Nat → Progress α μ → Working σ (Round α μ)}
    (hround : ∀ k p, Gives (round k p) (fun r => r.Tells k) fun _ => True)
    (remaining k : Nat) (p : Progress α μ) :
    Triple (fun u => u.2.2 = before) (s.loop threshold round remaining k p)
      (fun record u => Told before k record u) fun _ => True := by
  induction remaining generalizing k p before with
  | zero =>
      unfold loop
      split
      · exact finish_ended hs rfl (by decide) _ _ _
      · exact finish_ended hs rfl (by decide) _ _ _
  | succ remaining ih =>
      unfold loop
      split
      · exact finish_ended hs rfl (by decide) _ _ _
      · refine Triple.bind Triple.get ?_
        rintro ⟨⟨counts, _⟩, _⟩
        dsimp only
        split
        · next status hbudget =>
            rcases exhausted_cases hbudget with ⟨rfl, -⟩ | ⟨rfl, -⟩
            · exact finish_ended hs rfl (by decide) _ _ _
            · exact finish_ended hs rfl (by decide) _ _ _
        · refine Triple.bind (Triple.fault (Triple.onFst_outcome
            (K := fun _ (w : ω × List (Notice α)) => w.2 = before) (m := round (k + 1) p))
            fun _ _ => trivial) ?_
          rintro (e | r)
          · exact Triple.pre (finish_failed hs e _ _ k) fun _ ⟨_, hu, _⟩ => hu
          · -- the report on the round is told before it is looked at again
            refine Triple.pre (P := fun u => u.2.2 = before ∧ r.Tells (k + 1))
              (Triple.assume fun htells => ?_) ?_
            · refine Triple.bind (notify_told hs r.iteration) fun goOn => ?_
              cases goOn with
              | false => exact finish_stopped hs htells.number _ _
              | true =>
                  rw [if_neg (by decide)]
                  split
                  · next status hverdict =>
                      have hconverged := htells.verdict status hverdict
                      have hfailure := Status.not_failure_of_converged hconverged
                      have hgoOn : status ≠ .userRequested := by
                        rintro rfl
                        cases hconverged
                      exact Triple.post (finish_ended hs hfailure hgoOn _ _ _)
                        fun _ _ h => h.cons htells.number
                  · exact Triple.post (ih (k + 1) r.progress) fun _ _ h => h.cons htells.number
            · rintro u ⟨t, hu, leads⟩
              exact ⟨hu, (hround (k + 1) p).returned leads.returns⟩

end Solve

end Descent
