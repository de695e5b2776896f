import Descent.Proofs.Ended
import Descent.Proofs.Record
import Descent.Proofs.Rounded

/-!
# Restarts of the limited-memory BFGS method

A search that fails along a direction of the pairs is not the end of a solve: the pairs are
forgotten, and the next round follows the steepest descent. A round without pairs has nothing to
forget. It moves, or its search ends the solve (`round_steepest`). So no two rounds in a row stay
where they are, and what comes after one that does is known (`Method.lbfgs_restarts_once`).
-/

set_option autoImplicit false

namespace Descent

open Run

variable {α σ ω : Type}

/-- The trail up to a report and the round that the report is of. -/
theorem Course.Trail.split {c : Course α σ} {start t : Counts × σ} {k : Nat}
    {p : Progress α c.Memory} {before after seen : List (Iteration α)} {i : Iteration α}
    (h : c.Trail start k p t seen) (hseen : seen = before ++ i :: after) :
    ∃ q u r u', c.Trail start before.length q u before ∧
      Leads (c.round (before.length + 1) q) u r u' ∧ r.iteration = i := by
  induction h generalizing after with
  | start => simp at hseen
  | @step k p t t' seen r trail leads ih =>
      rcases List.eq_nil_or_concat after with rfl | ⟨after, last, rfl⟩
      · obtain ⟨rfl, hi⟩ := List.append_inj' hseen rfl
        rw [trail.length_seen]
        exact ⟨p, t, r, t', trail, leads, List.singleton_inj.mp hi⟩
      · rw [List.concat_eq_append, ← List.cons_append, ← List.append_assoc] at hseen
        exact ih (List.append_inj' hseen rfl).1

variable [Scalar α]

/-! ## The steepest descent -/

theorem Vec.scale_one [Scalar.Rounded α] {v : Vec α} (h : Vec.allFinite v = true) :
    Vec.scale v 1 = v := by
  have hone : ∀ a ∈ v, a * 1 = id a :=
    fun a ha => Scalar.Rounded.mul_one (List.all_eq_true.mp h a ha)
  rw [Vec.scale, List.map_congr_left hone, List.map_id]

/-- Without pairs the inverse approximation is the identity. -/
theorem History.applyInverse_of_no_pairs [Scalar.Rounded α] {h : History α} {v : Vec α}
    (hpairs : h.pairs = []) (hv : Vec.allFinite v = true) : h.applyInverse v = .ok v := by
  have hgamma : h.gamma = 1 := by
    rw [gamma, hpairs]
    rfl
  rw [applyInverse, hgamma, hpairs]
  exact congrArg Except.ok (Vec.scale_one hv)

namespace Lbfgs

/-- Without pairs the direction is the steepest descent, and there is nothing to forget. -/
theorem direction_steepest [Scalar.Rounded α] (solver : String) {h : History α} {g : Vec α}
    (hpairs : h.pairs = []) (hg : Vec.allFinite g = true) (t : σ) :
    Triple (fun t' => t' = t) (direction solver h g : Run σ (Vec α × History α))
      (fun r t' => t' = t ∧ r = (Vec.negate g, h)) fun _ => True := by
  have hclear : h.clear = h := by
    rw [History.clear, ← hpairs]
  unfold direction
  rw [History.applyInverse_of_no_pairs hpairs hg]
  refine Triple.bind (Triple.checked (Q := fun v t' => t' = t ∧ v = g) ?_ fun _ _ => trivial) ?_
  · rintro _ ⟨⟩ _ rfl
    exact ⟨rfl, rfl⟩
  · intro v
    refine Triple.assume ?_
    rintro rfl
    refine Triple.bind (Triple.checked (Q := fun _ t' => t' = t) (fun _ _ _ ht => ht)
      fun _ _ => trivial) fun slope => ?_
    split
    · exact Triple.pure fun _ ht => ⟨ht, rfl⟩
    · refine Triple.bind Triple.emit fun _ => Triple.pure fun _ ht => ⟨ht, ?_⟩
      rw [hclear]

/-- The search of a round without pairs, from the point of an iterate along the steepest descent,
with a first step of length 1 at most. -/
def steepestSearch (s : Solve α σ ω) (search : LineSearch α) (iterate : Iterate α) :
    Working σ (LineSearch.Found α) :=
  search.run s.model.counted iterate.x iterate.f iterate.g (Vec.negate iterate.g)
    (Scalar.minNum 1 (1 / Vec.norm iterate.g))

variable {s : Solve α σ ω} {search : LineSearch α} {initialStepSize : α} {number : Nat}
  {p : Progress α (History α)}

/-- **A round without pairs does not restart.** It moves to what the search along the steepest
descent finds, or breaks as that search does. -/
theorem round_steepest [Scalar.Rounded α] (hpairs : p.memory.pairs = [])
    (hg : Vec.allFinite p.iterate.g = true) (hnorm : p.gradientNorm = Vec.norm p.iterate.g)
    (t : Counts × σ) :
    Settles (fun t' => t' = t) (round s search initialStepSize number p)
      (fun r _ => r.iteration.accepted = true ∧ ∃ found t',
        Leads (steepestSearch s search p.iterate) t found t' ∧
          r.iteration.objective = found.value ∧ r.iteration.radius = found.stepSize)
      (fun e t' => Breaks (steepestSearch s search p.iterate) t e t') fun _ => True := by
  have hempty : p.memory.pairs.isEmpty = true := by
    rw [hpairs]
    rfl
  refine Settles.bind (Settles.lift (direction_steepest s.solver hpairs hg t)) ?_
  rintro ⟨d, h⟩
  refine Settles.assume ?_
  rintro ⟨⟩
  dsimp only
  rw [hempty, if_pos rfl, hnorm]
  refine Settles.bind (Settles.caught Settles.reached) ?_
  rintro (e | found)
  · refine Settles.throw ?_
    rintro t' ⟨_, rfl, breaks⟩
    exact breaks
  · -- what follows the search leaves its result alone and cannot fail
    refine Settles.mono (P := fun _ => True ∧ ∃ t', Leads (steepestSearch s search p.iterate) t
      found t') (Settles.assume fun leads => ?_) ?_ (fun _ _ h => h) (fun _ _ h => h) fun _ h => h
    · refine Settles.bind (Settles.checked (Q := fun _ _ => True) (fun _ _ _ _ => trivial)
        fun _ _ => trivial) fun step => ?_
      refine Settles.bind (Settles.checked (Q := fun _ _ => True) (fun _ _ _ _ => trivial)
        fun _ _ => trivial) fun change => ?_
      refine Settles.bind (Settles.lift Triple.trivial) fun _ => ?_
      refine Settles.bind (Settles.lift Triple.trivial) ?_
      rintro ⟨stored, h⟩
      obtain ⟨t', leads⟩ := leads
      dsimp only
      split
      · exact Settles.bind Settles.emit fun _ =>
          Settles.pure fun _ _ => ⟨rfl, found, t', leads, rfl, rfl⟩
      · exact Settles.pure fun _ _ => ⟨rfl, found, t', leads, rfl, rfl⟩
    · rintro t' ⟨_, rfl, leads⟩
      exact ⟨trivial, t', leads⟩

/-! ## Trails -/

/-- A round that leaves the iterate had pairs and has forgotten them. -/
theorem Step.of_unaccepted {r : Round α (History α)} (h : Step s search initialStepSize number p r)
    (hr : r.iteration.accepted = false) : p.memory.pairs ≠ [] ∧ r.progress.memory.pairs = [] := by
  cases h with
  | moved => cases hr
  | restarted directed paired =>
      refine ⟨fun hpairs => ?_, rfl⟩
      cases directed with
      | shaped =>
          rw [hpairs] at paired
          cases paired
      | steepest => cases paired

/-- Of two rounds in a row one at least has moved, and after a round that has not there are no
pairs. -/
structure RestartsOnce (memory : History α) (seen : List (Iteration α)) : Prop where
  chain : seen.IsChain fun i j => i.accepted = true ∨ j.accepted = true
  forgotten : ∀ i ∈ seen.getLast?, i.accepted = false → memory.pairs = []

/-- Every round keeps to one restart at a time. -/
theorem RestartsOnce.step {r : Round α (History α)} {seen : List (Iteration α)}
    (hseen : RestartsOnce p.memory seen) (h : Step s search initialStepSize number p r) :
    RestartsOnce r.progress.memory (seen ++ [r.iteration]) where
  chain := by
    refine List.isChain_append.mpr ⟨hseen.chain, .singleton _, ?_⟩
    rintro i hi _ ⟨⟩
    by_cases hr : r.iteration.accepted = true
    · exact .inr hr
    · refine .inl (Bool.of_not_eq_false fun hrejected => ?_)
      exact (h.of_unaccepted (Bool.of_not_eq_true hr)).1 (hseen.forgotten i hi hrejected)
  forgotten := by
    rintro i hi hrejected
    rw [List.getLast?_concat] at hi
    obtain rfl : r.iteration = i := Option.some.inj hi
    exact (h.of_unaccepted hrejected).2

/-- After `k` rounds, reported as `seen`, a solve stands at the progress `p` and its model in the
state `t`. -/
def Reached (s : Solve α σ Unit) (c : Config α) (x₀ : Vec α) (state : σ) (k : Nat)
    (p : Progress α (History α)) (t : Counts × σ) (seen : List (Iteration α)) : Prop :=
  ∃ h f g start, Opens s c x₀ state
      (course s (c.search s.options) c.initialStepSize h x₀ f g) start ∧
    (course s (c.search s.options) c.initialStepSize h x₀ f g).Trail start k p t seen

variable {s : Solve α σ Unit} {c : Config α} {x₀ : Vec α} {state : σ} {k : Nat}
  {t : Counts × σ} {seen before after : List (Iteration α)} {i : Iteration α}

theorem Reached.restartsOnce (h : Reached s c x₀ state k p t seen) :
    RestartsOnce p.memory seen := by
  obtain ⟨h, f, g, start, -, trail⟩ := h
  refine trail.keeps (I := fun _ (p : Progress α (History α)) seen => RestartsOnce p.memory seen)
    ⟨.nil, nofun⟩ ?_
  intro k p seen r hp hr
  exact hp.step ((round_gives s _ _ _ _).returned hr)

theorem Reached.length_seen (h : Reached s c x₀ state k p t seen) : seen.length = k := by
  obtain ⟨_, _, _, _, -, trail⟩ := h
  exact trail.length_seen

/-- Where a solve has stood before one of its rounds. -/
theorem Reached.split (h : Reached s c x₀ state k p t seen) (hseen : seen = before ++ i :: after) :
    ∃ q u r u', Reached s c x₀ state before.length q u before ∧
      Leads (round s (c.search s.options) c.initialStepSize (before.length + 1) q) u r u' ∧
      r.iteration = i := by
  obtain ⟨h, f, g, start, opens, trail⟩ := h
  obtain ⟨q, u, r, u', prior, leads, hr⟩ := trail.split hseen
  exact ⟨q, u, r, u', ⟨h, f, g, start, opens, prior⟩, leads, hr⟩

/-- A solve that has reported iterations has made as many rounds. -/
theorem exists_reached (h : Solve.Reports (Method.Opens s x₀ state (.lbfgs c)) seen)
    (hseen : seen ≠ []) : ∃ k p t, Reached s c x₀ state k p t seen := by
  cases h with
  | nothing => exact absurd rfl hseen
  | trail opens trail =>
      cases opens with
      | lbfgs opens =>
          cases opens with
          | intro positive settings memory options length evaluate =>
              exact ⟨_, _, _, _, _, _, _,
                .intro positive settings memory options length evaluate, trail⟩

/-- After a round that has not moved there are no pairs. -/
theorem Reached.no_pairs (h : Reached s c x₀ state k p t (before ++ [i]))
    (hi : i.accepted = false) : p.memory.pairs = [] :=
  h.restartsOnce.forgotten i (by rw [List.getLast?_concat]; rfl) hi

/-- After a round that has not moved, the next one follows the steepest descent. -/
theorem Reached.round_settles [Scalar.Rounded α]
    (h : Reached s c x₀ state k p t (before ++ [i])) (hi : i.accepted = false) :
    Settles (fun t' => t' = t) (round s (c.search s.options) c.initialStepSize (k + 1) p)
      (fun r _ => r.iteration.accepted = true ∧ ∃ found t',
        Leads (steepestSearch s (c.search s.options) p.iterate) t found t' ∧
          r.iteration.objective = found.value ∧ r.iteration.radius = found.stepSize)
      (fun e t' => Breaks (steepestSearch s (c.search s.options) p.iterate) t e t')
      fun _ => True := by
  have hpairs := h.no_pairs hi
  obtain ⟨_, _, _, _, opens, trail⟩ := h
  obtain ⟨evaluated, hnorm, -⟩ := (Method.Opens.lbfgs opens).trail_stands trail
  exact round_steepest hpairs evaluated.allFinite_gradient hnorm t

/-- What comes after `k` rounds, of which the last has not moved, from the progress `p` and the
state `t` of the model: the outcome of the solve and the iterations that are still reported. -/
inductive Restart (s : Solve α σ Unit) (search : LineSearch α) (k : Nat)
    (p : Progress α (History α)) (t : Counts × σ) :
    Except Fault (Except SolverError (Record α)) → List (Iteration α) → Prop
  /-- The search along the steepest descent finds a step, and the next round moves. -/
  | moved {outcome : Except Fault (Except SolverError (Record α))} {j : Iteration α}
      {rest : List (Iteration α)} {found : LineSearch.Found α} {t' : Counts × σ}
      (leads : Leads (steepestSearch s search p.iterate) t found t') (accepted : j.accepted = true)
      (objective : j.objective = found.value) (radius : j.radius = found.stepSize) :
      Restart s search k p t outcome (j :: rest)
  /-- The search fails. The solve ends in this round, where it stands. -/
  | failed {record : Record α} {e : SolverError} {t' : Counts × σ}
      (breaks : Breaks (steepestSearch s search p.iterate) t e t')
      (shows : Solve.Shows record (k + 1) p.iterate p.gradientNorm (.ofError e) (some e)) :
      Restart s search k p t (.ok (.ok record)) []
  /-- The solve ends before the next round: there is no search, for the model is not asked again. -/
  | halted {record : Record α} {status : Status}
      (shows : Solve.Shows record k p.iterate p.gradientNorm status none)
      (counts : record.counts = t.1) : Restart s search k p t (.ok (.ok record)) []
  /-- A fault leaves no record. -/
  | faulted {fault : Fault} : Restart s search k p t (.error fault) []

/-- The next round after one that has not moved, if it is reported. -/
theorem Restart.of_reported [Scalar.Rounded α] {j : Iteration α}
    {outcome : Except Fault (Except SolverError (Record α))}
    (h : Reached s c x₀ state k p t seen) (hseen : seen = (before ++ [i]) ++ j :: after)
    (hi : i.accepted = false) :
    ∃ p t, Reached s c x₀ state (before.length + 1) p t (before ++ [i]) ∧
      Restart s (c.search s.options) (before.length + 1) p t outcome (j :: after) := by
  obtain ⟨q, u, r, u', reached, leads, rfl⟩ := h.split hseen
  rw [List.length_append, List.length_singleton] at reached leads
  obtain ⟨accepted, found, t', search, objective, radius⟩ :=
    (reached.round_settles hi).leads leads rfl
  exact ⟨q, u, reached, .moved search accepted objective radius⟩

/-- The record after a round that has not moved. -/
theorem Restart.of_halts [Scalar.Rounded α] {course : Course α σ} {start : Counts × σ}
    {record : Record α} (opens : Method.Opens s x₀ state (.lbfgs c) course start)
    (halts : course.Halts start record (before ++ [i])) (hi : i.accepted = false) :
    ∃ p t, Reached s c x₀ state (before.length + 1) p t (before ++ [i]) ∧
      Restart s (c.search s.options) (before.length + 1) p t (.ok (.ok record)) [] := by
  have hlength : (before ++ [i]).length = before.length + 1 := List.length_append
  cases opens with
  | lbfgs opens =>
      cases opens with
      | intro positive settings memory options length evaluate =>
          have opens := Opens.intro positive settings memory options length evaluate
          cases halts with
          | between trail shows counts =>
              obtain rfl := trail.length_seen.symm.trans hlength
              exact ⟨_, _, ⟨_, _, _, _, opens, trail⟩, .halted shows counts⟩
          | within trail breaks shows =>
              obtain rfl := trail.length_seen.symm.trans hlength
              have reached : Reached s c x₀ state _ _ _ (before ++ [i]) :=
                ⟨_, _, _, _, opens, trail⟩
              exact ⟨_, _, reached, .failed ((reached.round_settles hi).breaks breaks rfl) shows⟩

end Lbfgs

/-- **There is one restart at most between two steps.** Of two iterations in a row one at least is
accepted. After one that is not, the history is empty, and the next iteration searches from the
iterate `x` along `-g` exactly, with the first step `min(1, 1/‖g‖)`: it moves to what the search
finds, or, if the search fails, the solve ends in it with the error of the search, at `x`. -/
theorem Method.lbfgs_restarts_once [Scalar.Rounded α] (c : Lbfgs.Config α) (m : Model α σ)
    (x₀ : Vec α) (o : Options α) (observer : Observer α ω) (clock : Nat → Duration) (state : σ)
    (w : ω) (journal : Journal) :
    let s := Method.solve (.lbfgs c) m o clock
    let out := solveNoted (.lbfgs c) m x₀ o observer clock state w journal
    out.2.IsChain (fun i j => i.accepted = true ∨ j.accepted = true) ∧
      ∀ before i after, out.2 = before ++ i :: after → i.accepted = false →
        ∃ p t, Lbfgs.Reached s c x₀ state (before.length + 1) p t (before ++ [i]) ∧
          p.memory.pairs = [] ∧
          Lbfgs.Restart s (c.search o) (before.length + 1) p t out.1 after := by
  intro s out
  have hreports : Solve.Reports (Opens s x₀ state (.lbfgs c)) out.2 := solveNoted_reports
  generalize hout : out = result at hreports ⊢
  obtain ⟨outcome, seen⟩ := result
  constructor
  · by_cases hseen : seen = []
    · exact hseen ▸ .nil
    · obtain ⟨k, p, t, reached⟩ := Lbfgs.exists_reached hreports hseen
      exact reached.restartsOnce.chain
  · rintro before i after rfl hi
    obtain ⟨k, p, t, reached⟩ := Lbfgs.exists_reached hreports (by simp)
    have hrestart : ∃ p t, Lbfgs.Reached s c x₀ state (before.length + 1) p t (before ++ [i]) ∧
        Lbfgs.Restart s (c.search o) (before.length + 1) p t outcome after := by
      cases after with
      | cons j after => exact Lbfgs.Restart.of_reported reached (List.append_cons ..) hi
      | nil =>
          rcases outcome with fault | e | record
          · obtain rfl := reached.length_seen
            exact ⟨p, t, by simpa using reached, .faulted⟩
          · cases List.append_ne_nil_of_right_ne_nil _ (by simp) (solveNoted_refused hout)
          · rcases solveNoted_ended hout with ⟨hnone, -⟩ | ⟨course, start, opens, ended⟩
            · cases List.append_ne_nil_of_right_ne_nil _ (by simp) hnone
            · exact Lbfgs.Restart.of_halts opens ended.halts hi
    obtain ⟨p, t, reached, restart⟩ := hrestart
    exact ⟨p, t, reached, reached.no_pairs hi, restart⟩

/-- The solve of the square from 2 with one trial for each search: the step along the direction of
the pair is far too long, so the second round restarts, and the third follows the steepest
descent. -/
theorem Method.lbfgs_restarts_once_square :
    let c : Lbfgs.Config Float := { lineSearch := .backtracking, initialStepSize := 1e10 }
    let o : Options Float := { lineSearchMaxTrials := 1 }
    let s := Method.solve (.lbfgs c) (square : Model Float Unit) o fun _ => .zero
    let out := solveNoted (.lbfgs c) square [2] o (Observer.silent : Observer Float Unit)
      (fun _ => .zero) () () #[]
    out.2.map (·.accepted) = [true, false, true] ∧
      out.2.IsChain (fun i j => i.accepted = true ∨ j.accepted = true) ∧
      ∃ before i after p t, out.2 = before ++ i :: after ∧ i.accepted = false ∧
        Lbfgs.Reached s c [2] () (before.length + 1) p t (before ++ [i]) ∧
        p.memory.pairs = [] ∧
        Lbfgs.Restart s (c.search o) (before.length + 1) p t out.1 after := by
  intro c o s out
  have hflags : out.2.map (·.accepted) = [true, false, true] := by decide +kernel
  have honce := Method.lbfgs_restarts_once c square [2] o (Observer.silent : Observer Float Unit)
    (fun _ => .zero) () () #[]
  refine ⟨hflags, honce.1, ?_⟩
  obtain ⟨first, rest, hout, -, hrest⟩ := List.map_eq_cons_iff.mp hflags
  obtain ⟨second, third, rfl, hsecond, -⟩ := List.map_eq_cons_iff.mp hrest
  obtain ⟨p, t, hreached, hpairs, hrestart⟩ := honce.2 [first] second third hout hsecond
  exact ⟨[first], second, third, p, t, hout, hsecond, hreached, hpairs, hrestart⟩

end Descent
