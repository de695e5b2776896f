import Descent.Proofs.Method

/-!
# How a solve halts

An ending names the reason why a solve ends. `Course.Halts` names the place: between two rounds, or
within a round that breaks, from the very state of the model which the rounds before it have left.
A gradient that is small at the start ends a solve before its first round. `Method.solveNoted_ended`
says both of every record.
-/

set_option autoImplicit false

namespace Descent

open Run

variable {α σ ω : Type}

/-- What two rules say of a computation holds together. -/
theorem Run.Triple.and {β : Type} {m : Run σ β} {P P' F F' : σ → Prop} {Q Q' : β → σ → Prop}
    (h : Triple P m Q F) (h' : Triple P' m Q' F') :
    Triple (fun s => P s ∧ P' s) m (fun b s => Q b s ∧ Q' b s) fun s => F s ∧ F' s := by
  rintro s journal ⟨hs, hs'⟩
  have hq := h s journal hs
  have hq' := h' s journal hs'
  generalize Run.start m s journal = out at hq hq' ⊢
  rcases out with ⟨⟨_ | b, t⟩, journal'⟩
  · exact ⟨hq, hq'⟩
  · exact ⟨hq, hq'⟩

variable [Scalar α]

/-- Where a solve ends with a record after its rounds have begun. -/
inductive Course.Halts (c : Course α σ) (start : Counts × σ) (record : Record α)
    (seen : List (Iteration α)) : Prop
  /-- The model has not been asked since the last round. -/
  | between {k : Nat} {p : Progress α c.Memory} {t : Counts × σ} {status : Status}
      (trail : c.Trail start k p t seen)
      (shows : Solve.Shows record k p.iterate p.gradientNorm status none)
      (counts : record.counts = t.1)
  /-- The next round breaks: the record shows its error and the iterate before it. -/
  | within {k : Nat} {p : Progress α c.Memory} {t t' : Counts × σ} {e : SolverError}
      (trail : c.Trail start k p t seen) (breaks : Breaks (c.round (k + 1) p) t e t')
      (shows : Solve.Shows record (k + 1) p.iterate p.gradientNorm (.ofError e) (some e))
      (counts : record.counts = t'.1)

namespace Solve

/-- What is known of a record that was drawn up after the rounds of a course had begun. -/
structure Ended (s : Solve α σ ω) (c : Course α σ) (start : Counts × σ) (record : Record α)
    (seen : List (Iteration α)) : Prop where
  ending : s.Ending c start record seen
  halts : c.Halts start record seen
  /-- A gradient that is small at the start ends the solve there. -/
  prompt : c.first.gradientNorm ≤ s.threshold c.first.gradientNorm → record.iterations = 0

section Loop

variable {s : Solve α σ (ω × List (Iteration α))} {o : Observer α ω} {c : Course α σ}
  {start : Counts × σ}

variable (start) in
/-- The loop halts between two rounds or within one. -/
theorem loop_halts (hs : s.observer = o.noting) (remaining k : Nat) (p : Progress α c.Memory) :
    Triple (fun u => c.Trail start k p u.1 u.2.2)
      (s.loop (s.threshold c.first.gradientNorm) c.round remaining k p)
      (fun record u => c.Halts start record u.2.2) fun _ => True := by
  refine loop_rounds
    (P := fun k p t (w : ω × List (Iteration α)) => c.Trail start k p t w.2)
    (N := fun k r t (w : ω × List (Iteration α)) =>
      c.Trail start k r.progress t (w.2 ++ [r.iteration]))
    (B := fun k p e t (w : ω × List (Iteration α)) =>
      ∃ t₀, c.Trail start k p t₀ w.2 ∧ Breaks (c.round (k + 1) p) t₀ e t)
    (S := fun _ => True) (R := fun record _ w => c.Halts start record w.2) (F := fun _ => True)
    ?_ ?_ (fun _ _ _ _ _ _ _ => trivial) (fun _ _ => trivial) ?_ ?_ remaining k p
  · intro k p w _
    refine Settles.mono (Settles.reached (P := fun t => c.Trail start k p t w.2))
      (fun _ ht => ht.1) ?_ (fun _ _ h => h) fun _ _ => trivial
    rintro r t ⟨t₀, trail, leads⟩
    exact trail.step leads
  · intro k r
    exact Triple.fault (notify_noted hs r.iteration
      (K := fun t seen => c.Trail start k r.progress t seen)) fun _ h => h.elim
  · intro k p status _
    exact Triple.mono (finish_noted (K := fun t seen => c.Trail start k p t seen) hs status
      p.iterate p.gradientNorm k none) (fun _ h => h)
      (fun _ _ ⟨trail, shows, counts⟩ => .between trail shows counts) fun _ h => h.elim
  · intro k p e
    exact Triple.mono (finish_noted
      (K := fun t seen => ∃ t₀, c.Trail start k p t₀ seen ∧ Breaks (c.round (k + 1) p) t₀ e t)
      hs _ p.iterate p.gradientNorm (k + 1) (some e)) (fun _ h => h)
      (fun _ _ ⟨⟨_, trail, breaks⟩, shows, counts⟩ => .within trail breaks shows counts)
      fun _ h => h.elim

/-- Where the gradient is small at the start, no round is made. -/
theorem iterate_prompt (hs : s.observer = o.noting)
    (small : c.first.gradientNorm ≤ s.threshold c.first.gradientNorm) :
    Triple (fun _ => True) (s.iterate c.round c.first) (fun record _ => record.iterations = 0)
      fun _ => False := by
  have hfinish : Triple (fun _ => True)
      (s.finish .gradientTolerance c.first.iterate c.first.gradientNorm 0 none)
      (fun record _ => record.iterations = 0) fun _ => False :=
    Triple.mono (finish_noted (K := fun _ _ => True) hs _ _ _ _ _) (fun _ _ => trivial)
      (fun _ _ h => h.2.1.iterations) fun _ h => h
  unfold iterate
  cases s.options.maxIterations
  all_goals
    unfold loop
    rw [if_pos small]
    exact hfinish

/-- What is known of the record of a course. -/
theorem iterate_ended (hs : s.observer = o.noting) :
    Triple (fun u => u.1 = start ∧ u.2.2 = []) (s.iterate c.round c.first)
      (fun record u => s.unobserved.Ended c start record u.2.2) fun _ => True := by
  have hprompt : Triple (fun _ => True) (s.iterate c.round c.first)
      (fun record _ => c.first.gradientNorm ≤ s.threshold c.first.gradientNorm →
        record.iterations = 0) fun _ => True := by
    by_cases small : c.first.gradientNorm ≤ s.threshold c.first.gradientNorm
    · exact Triple.mono (iterate_prompt hs small) (fun _ h => h) (fun _ _ h _ => h)
        fun _ h => h.elim
    · exact Triple.post Triple.trivial fun _ _ _ h => (small h).elim
  have hending : Triple (fun u => c.Trail start 0 c.first u.1 u.2.2) (s.iterate c.round c.first)
      (fun record u => s.unobserved.Ending c start record u.2.2) fun _ => True :=
    Triple.mono (loop_trail hs _ 0 c.first (Nat.zero_add _)) (fun _ h => h) (fun _ _ h => h)
      fun _ _ => trivial
  refine Triple.mono (Triple.and (Triple.and hending (loop_halts start hs _ 0 c.first)) hprompt)
    ?_ ?_ fun _ _ => trivial
  · rintro ⟨_, _, _⟩ ⟨rfl, rfl⟩
    exact ⟨⟨.start, .start⟩, trivial⟩
  · rintro record u ⟨⟨ending, halts⟩, prompt⟩
    exact ⟨ending, halts, prompt⟩

end Loop

end Solve

namespace Method

variable {method : Method α} {m : Model α σ} {x₀ : Vec α} {o : Options α} {observer : Observer α ω}
  {clock : Nat → Duration} {state : σ} {w : ω} {journal : Journal} {record : Record α}
  {seen : List (Iteration α)} {e : SolverError}

/-- A solve that is refused has reported nothing, and a record is that of a starting point without
values or of a course. -/
theorem minimize_ended (method : Method α) (m : Model α σ) (x₀ : Vec α) (o : Options α)
    (observer : Observer α ω) (clock : Nat → Duration) (state : σ) :
    let s := method.solve m o clock
    Settles (fun u => u.1 = ({}, state) ∧ u.2.2 = [])
      (method.minimize m x₀ o observer.noting clock)
      (fun record u => (u.2.2 = [] ∧ record.status = .evaluationFailure) ∨
        ∃ c start, Opens s x₀ state method c start ∧ s.Ended c start record u.2.2)
      (fun _ u => u.2.2 = []) fun _ => True := by
  intro s
  let noted : Solve α σ (ω × List (Iteration α)) := ⟨method.name, m, o, observer.noting, clock⟩
  have hs : noted.observer = observer.noting := rfl
  have hparts : noted.Parts (method.StartsAt m x₀) (Opens s x₀ state method) state
      (fun w => w.2 = []) (fun w => w.2 = [])
      (fun record u => (u.2.2 = [] ∧ record.status = .evaluationFailure) ∨
        ∃ c start, Opens s x₀ state method c start ∧ s.Ended c start record u.2.2)
      (fun _ u => u.2.2 = []) fun _ => True :=
    { refused := fun _ _ _ _ hseen => hseen
      started := fun _ _ hseen => hseen
      fault := fun _ _ => trivial
      atStart := fun x e t _ _ => Triple.mono
        (Solve.finish_noted (K := fun _ seen => seen = []) hs _ _ _ _ _) (fun _ hu => hu.2)
        (fun _ _ h => .inl ⟨h.1, h.2.1.status⟩) fun _ h => h.elim
      rounds := fun c start opens => Triple.mono (Solve.iterate_ended hs) (fun _ hu => hu)
        (fun _ _ h => .inr ⟨c, start, opens, h⟩) fun _ _ => trivial }
  exact minimize_settles (s := noted) method rfl hparts fun _ _ _ _ _ hseen => hseen

/-- **A record says how its solve ended.** Either the model had no values at the start, or the
rounds of a course ended. -/
theorem solveNoted_ended
    (h : solveNoted method m x₀ o observer clock state w journal = (.ok (.ok record), seen)) :
    (seen = [] ∧ record.status = .evaluationFailure) ∨
      ∃ c start, Opens (method.solve m o clock) x₀ state method c start ∧
        (method.solve m o clock).Ended c start record seen := by
  have hend := minimize_ended method m x₀ o observer clock state (({}, state), (w, [])) journal
    ⟨rfl, rfl⟩
  rw [solveNoted_eq] at h
  generalize Run.start _ _ journal = out at h hend
  rcases out with ⟨⟨r, u⟩, journal'⟩
  cases h
  exact hend

/-- A solve that is refused has reported nothing. -/
theorem solveNoted_refused
    (h : solveNoted method m x₀ o observer clock state w journal = (.ok (.error e), seen)) :
    seen = [] := by
  have hend := minimize_ended method m x₀ o observer clock state (({}, state), (w, [])) journal
    ⟨rfl, rfl⟩
  rw [solveNoted_eq] at h
  generalize Run.start _ _ journal = out at h hend
  rcases out with ⟨⟨r, u⟩, journal'⟩
  cases h
  exact hend

end Method

end Descent
