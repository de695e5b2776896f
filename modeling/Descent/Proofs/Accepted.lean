import Descent.Proofs.QuasiNewton
import Descent.Proofs.Record

/-!
# Accepted steps

A round that is not accepted leaves the iterate as it was, with everything known of it, and the
model hears nothing of it. A round that is accepted moves the iterate, and the model is told once:
of the step and of the change of the gradient along it (`Round.Follows`). So whatever a method does,
the steps that the model is told of lead from the start of a solve to the iterate of its record
(`Journey`).
-/

set_option autoImplicit false

namespace Descent

open Run

variable {α σ ω μ : Type} [Scalar α]

/-! ## Rounds -/

/-- What round `number` from the progress `p` did to the iterate, and which step it added to those
that the model was told of. -/
inductive Round.Follows (r : Round α μ) (number : Nat) (p : Progress α μ)
    (steps : List (Vec α × Vec α)) : List (Vec α × Vec α) → Prop
  /-- The step was not accepted. -/
  | stayed (reported : r.Reported number) (rejected : r.iteration.accepted = false)
      (iterate : r.progress.iterate = p.iterate)
      (gradientNorm : r.progress.gradientNorm = p.gradientNorm) : Follows r number p steps steps
  /-- The step was accepted. -/
  | moved {s y : Vec α} (reported : r.Reported number) (accepted : r.iteration.accepted = true)
      (step : Vec.sub r.progress.iterate.x p.iterate.x = .ok s)
      (change : Vec.sub r.progress.iterate.g p.iterate.g = .ok y) :
      Follows r number p steps (steps ++ [(s, y)])

/-- The model is told of a step. -/
theorem acceptStep_steps (m : Model α σ) (steps : List (Vec α × Vec α)) (s y : Vec α) :
    Triple (fun t => t.2.2 = steps) (m.hooked.counted.acceptStep s y)
      (fun _ t => t.2.2 = steps ++ [(s, y)]) fun _ => True := by
  have hinside : ∀ steps', Triple (fun _ => steps' = steps) (m.acceptStep s y)
      (fun _ _ => steps' ++ [(s, y)] = steps ++ [(s, y)])
      fun _ => steps' ++ [(s, y)] = steps ++ [(s, y)] := by
    intro steps'
    refine Triple.pre (Triple.always (steps' ++ [(s, y)] = steps ++ [(s, y)])) ?_
    rintro _ rfl
    rfl
  exact Triple.fault (Triple.onSnd (Model.acceptStep_hooked (I := fun _ l => l = steps)
    (L := fun _ l => l = steps ++ [(s, y)]) s y hinside)) fun _ _ => trivial

namespace TrustRegion

/-- An accepted step leads to its end, and the model is told of it. -/
theorem moveTo_steps (m : Model α σ) (box : Box α) (iterate : Iterate α) (point : Vec α) (value : α)
    (gradient : Vec α) (number : Nat) (steps : List (Vec α × Vec α)) :
    Triple (fun t => t.2.2 = steps)
      (moveTo m.hooked.counted box iterate point value gradient number)
      (fun r t => ∃ s y, Vec.sub r.1.x iterate.x = .ok s ∧ Vec.sub r.1.g iterate.g = .ok y ∧
        t.2.2 = steps ++ [(s, y)]) fun _ => True := by
  refine Triple.bind (Triple.checked
    (Q := fun s t => t.2.2 = steps ∧ Vec.sub point iterate.x = .ok s)
    (fun _ h _ ht => ⟨ht, h⟩) fun _ _ => trivial) fun s => Triple.assume fun step => ?_
  refine Triple.bind (Triple.checked
    (Q := fun y t => t.2.2 = steps ∧ Vec.sub gradient iterate.g = .ok y)
    (fun _ h _ ht => ⟨ht, h⟩) fun _ _ => trivial) fun y => Triple.assume fun change => ?_
  refine Triple.bind (acceptStep_steps m steps s y) fun _ => ?_
  refine Triple.bind (Triple.checked (fun _ _ _ ht => ht) fun _ _ => trivial) ?_
  rintro ⟨norm, active⟩
  exact Triple.pure fun t ht => ⟨s, y, step, change, ht⟩

theorem round_steps {s : Solve α (σ × List (Vec α × Vec α)) ω} {m : Model α σ}
    {stepper : Stepper α (Counts × (σ × List (Vec α × Vec α))) μ} (hs : s.model = m.hooked)
    (steps : List (Vec α × Vec α))
    (hstepper : stepper.Alike .same (Kept fun t => t.2.2 = steps) stepper) (c : Config α)
    (box : Box α) (number : Nat) (p : Progress α (Memory α μ)) :
    Settles (fun t => t.2.2 = steps) (round s stepper c box number p)
      (fun r t => r.Follows number p steps t.2.2) (fun _ t => t.2.2 = steps) fun _ => True := by
  have hanswers := (m.answersAlike_hooked (· = steps)).counted
  rw [both_kept] at hanswers
  have hattempt := agrees_kept.mp (attempt_agrees hanswers hstepper c box p.iterate
    p.memory.region.radius p.gradientNorm p.memory.stepper)
  unfold round
  rw [hs]
  refine Settles.bind (Settles.fault hattempt fun _ _ => trivial) ?_
  rintro ⟨reason | ⟨trial, value, ratio⟩ | ⟨trial, value, gradient, ratio⟩ | ⟨found, ratio⟩, memory⟩
  · refine Settles.bind Settles.emit fun _ => ?_
    refine Settles.ite (fun _ => Settles.throw_bind fun _ h => h) fun _ => Settles.pure ?_
    rintro t rfl
    exact .stayed ⟨rfl, rfl, rfl⟩ rfl rfl rfl
  · refine Settles.ite (fun _ => Settles.throw_bind fun _ h => h) fun _ => Settles.pure ?_
    rintro t rfl
    exact .stayed ⟨rfl, rfl, rfl⟩ rfl rfl rfl
  · refine Settles.bind (Settles.lift (moveTo_steps m box p.iterate _ _ _ _ steps)) ?_
    rintro ⟨iterate, norm⟩
    refine Settles.pure ?_
    rintro t ⟨s, y, step, change, ht⟩
    rw [ht]
    exact .moved ⟨rfl, rfl, rfl⟩ rfl step change
  · refine Settles.bind (Settles.checked (fun _ _ _ h => h) fun _ _ => trivial) fun _ => ?_
    refine Settles.bind Settles.emit fun _ => ?_
    refine Settles.bind (Settles.lift (moveTo_steps m box p.iterate _ _ _ _ steps)) ?_
    rintro ⟨iterate, norm⟩
    refine Settles.pure ?_
    rintro t ⟨s, y, step, change, ht⟩
    rw [ht]
    exact .moved ⟨rfl, rfl, rfl⟩ rfl step change

end TrustRegion

namespace Lbfgs

theorem round_steps {s : Solve α (σ × List (Vec α × Vec α)) ω} {m : Model α σ}
    (hs : s.model = m.hooked) (steps : List (Vec α × Vec α)) (search : LineSearch α)
    (initialStepSize : α) (number : Nat) (p : Progress α (History α)) :
    Settles (fun t => t.2.2 = steps) (round s search initialStepSize number p)
      (fun r t => r.Follows number p steps t.2.2) (fun _ t => t.2.2 = steps) fun _ => True := by
  have hanswers := (m.answersAlike_hooked (· = steps)).counted
  rw [both_kept] at hanswers
  have hdirection := relates_kept.mp (direction_relates (J := .same)
    (V := Kept fun t : Counts × (σ × List (Vec α × Vec α)) => t.2.2 = steps) s.solver p.memory
    p.iterate.g)
  unfold round
  rw [hs]
  refine Settles.bind (Settles.lift (Triple.fault hdirection fun _ _ => trivial)) ?_
  rintro ⟨d, h⟩
  have hsearch := fun first => agrees_kept.mp (LineSearch.run_agrees search hanswers p.iterate.x
    p.iterate.f p.iterate.g d first)
  refine Settles.bind (Settles.caught (Settles.fault (hsearch _) fun _ _ => trivial)) ?_
  rintro (e | found)
  · refine Settles.ite (fun _ => ?_) fun _ => Settles.throw fun _ h => h
    refine Settles.bind Settles.emit fun _ => Settles.pure ?_
    rintro t rfl
    exact .stayed ⟨rfl, rfl, rfl⟩ rfl rfl rfl
  · refine Settles.bind (Settles.checked
      (Q := fun step t => t.2.2 = steps ∧ Vec.sub found.point p.iterate.x = .ok step)
      (fun _ h _ ht => ⟨ht, h⟩) fun _ _ => trivial) fun step => Settles.assume fun step_eq => ?_
    refine Settles.bind (Settles.checked
      (Q := fun change t => t.2.2 = steps ∧ Vec.sub found.gradient p.iterate.g = .ok change)
      (fun _ h _ ht => ⟨ht, h⟩) fun _ _ => trivial) fun change =>
      Settles.assume fun change_eq => ?_
    refine Settles.bind (Settles.lift (acceptStep_steps m steps step change)) fun _ => ?_
    -- the pair goes into the history of the method, which is no part of the model
    have hpush := relates_kept.mp (Relates.inside (J := .same)
      (V := Kept fun t : Counts × (σ × List (Vec α × Vec α)) => t.2.2 = steps ++ [(step, change)])
      (tryPush_relates step change) h)
    refine Settles.bind (Settles.lift (Triple.fault hpush fun _ _ => trivial)) ?_
    rintro ⟨stored, h'⟩
    have hmoved : ∀ {r : Round α (History α)} (t : Counts × (σ × List (Vec α × Vec α))),
        r.Reported number → r.iteration.accepted = true → r.progress.iterate.x = found.point →
        r.progress.iterate.g = found.gradient → t.2.2 = steps ++ [(step, change)] →
        r.Follows number p steps t.2.2 := by
      intro r t reported accepted hx hg ht
      rw [ht]
      exact .moved reported accepted (hx ▸ step_eq) (hg ▸ change_eq)
    refine Settles.ite (fun _ => ?_) fun _ => ?_
    · refine Settles.bind Settles.emit fun _ => Settles.pure fun t => ?_
      exact hmoved t ⟨rfl, rfl, rfl⟩ rfl rfl rfl
    · exact Settles.pure fun t => hmoved t ⟨rfl, rfl, rfl⟩ rfl rfl rfl

end Lbfgs

/-! ## Journeys -/

/-- A way from an iterate, with the norm of the projected gradient there, to another: the iterations
that were reported and the steps that the model was told of, in order. -/
inductive Journey (first : Iterate α) (norm₀ : α) :
    Iterate α → α → List (Iteration α) → List (Vec α × Vec α) → Prop
  | start : Journey first norm₀ first norm₀ [] []
  /-- An iteration that is not accepted leaves the iterate as it was. -/
  | stay {iterate : Iterate α} {norm : α} {i : Iteration α} {seen : List (Iteration α)}
      {steps : List (Vec α × Vec α)} (before : Journey first norm₀ iterate norm seen steps)
      (rejected : i.accepted = false) (objective : i.objective = iterate.f)
      (gradientNorm : i.gradientNorm = norm) :
      Journey first norm₀ iterate norm (seen ++ [i]) steps
  /-- An accepted iteration leads to the next iterate, and the model is told of the step. -/
  | move {iterate next : Iterate α} {norm norm' : α} {i : Iteration α} {seen : List (Iteration α)}
      {steps : List (Vec α × Vec α)} {s y : Vec α}
      (before : Journey first norm₀ iterate norm seen steps) (accepted : i.accepted = true)
      (objective : i.objective = next.f) (gradientNorm : i.gradientNorm = norm')
      (step : Vec.sub next.x iterate.x = .ok s) (change : Vec.sub next.g iterate.g = .ok y) :
      Journey first norm₀ next norm' (seen ++ [i]) (steps ++ [(s, y)])

namespace Journey

variable {first iterate : Iterate α} {norm₀ norm : α} {seen : List (Iteration α)}
  {steps : List (Vec α × Vec α)}

/-- A round goes on from where a journey has led. -/
theorem follow {number : Nat} {p : Progress α μ} {r : Round α μ} {after : List (Vec α × Vec α)}
    (h : Journey first norm₀ p.iterate p.gradientNorm seen steps)
    (hr : r.Follows number p steps after) :
    Journey first norm₀ r.progress.iterate r.progress.gradientNorm (seen ++ [r.iteration])
      after := by
  cases hr with
  | stayed reported rejected iterate gradientNorm =>
      rw [iterate, gradientNorm]
      refine h.stay rejected ?_ ?_
      · rw [reported.objective, iterate]
      · rw [reported.gradientNorm, gradientNorm]
  | moved reported accepted step change =>
      exact h.move accepted reported.objective reported.gradientNorm step change

/-- The model is told of as many steps as there are accepted iterations. -/
theorem length_steps (h : Journey first norm₀ iterate norm seen steps) :
    steps.length = seen.countP (·.accepted) := by
  induction h with
  | start => rfl
  | stay _ rejected _ _ ih =>
      rw [List.countP_append, List.countP_singleton, rejected, ih]
      rfl
  | move _ accepted _ _ _ _ ih =>
      rw [List.countP_append, List.countP_singleton, accepted, List.length_append, ih]
      rfl

end Journey

/-! ## All methods -/

namespace Method

section Opens

variable {s : Solve α (σ × List (Vec α × Vec α)) Unit} {m : Model α σ} {x₀ : Vec α}
  {state : σ × List (Vec α × Vec α)} {method : Method α}
  {c : Course α (σ × List (Vec α × Vec α))} {start : Counts × (σ × List (Vec α × Vec α))}

/-- What every round of a solve does. A round that fails tells the model of nothing. -/
theorem Opens.round_steps (opens : Opens s x₀ state method c start) (hs : s.model = m.hooked)
    (steps : List (Vec α × Vec α)) (number : Nat) (p : Progress α c.Memory) :
    Settles (fun t => t.2.2 = steps) (c.round number p)
      (fun r t => r.Follows number p steps t.2.2) (fun _ t => t.2.2 = steps) fun _ => True := by
  cases opens with
  | projectedNewton opens =>
      cases opens with
      | intro => exact TrustRegion.round_steps hs steps (ProjectedNewton.stepper_alike _ _) _ _ _ _
  | newtonCg _ opens =>
      cases opens with
      | intro => exact TrustRegion.round_steps hs steps (NewtonCg.stepper_alike _ _ _) _ _ _ _
  | lbfgs opens =>
      cases opens with
      | intro => exact Lbfgs.round_steps hs steps _ _ _ _

end Opens

/-- The values at the start are found without a step. -/
theorem evaluateStart_steps {s : Solve α (σ × List (Vec α × Vec α)) ω} {m : Model α σ}
    (hs : s.model = m.hooked) (steps : List (Vec α × Vec α)) (x : Vec α) :
    Settles (fun t => t.2.2 = steps) (s.evaluateStart x) (fun _ t => t.2.2 = steps)
      (fun _ t => t.2.2 = steps) fun t => t.2.2 = steps := by
  have hanswers := m.answersAlike_hooked (· = steps)
  rw [← hs] at hanswers
  have hvalues := Solve.evaluateStart_agrees hanswers x
  rw [both_kept] at hvalues
  exact agrees_kept.mp hvalues

/-- A journey from the start of a course to an iterate. -/
def Reaches (c : Course α (σ × List (Vec α × Vec α))) (iterate : Iterate α) (norm : α)
    (seen : List (Iteration α)) (t : Counts × (σ × List (Vec α × Vec α))) : Prop :=
  Journey c.first.iterate c.first.gradientNorm iterate norm seen t.2.2

/-- The rounds of a course continue the journey from its start. -/
theorem iterate_journey {s : Solve α (σ × List (Vec α × Vec α)) (ω × List (Iteration α))}
    {o : Observer α ω} (hs : s.observer = o.noting) {c : Course α (σ × List (Vec α × Vec α))}
    (hround : ∀ steps k p, Settles (fun t => t.2.2 = steps) (c.round k p)
      (fun r t => r.Follows k p steps t.2.2) (fun _ t => t.2.2 = steps) fun _ => True) :
    Triple (fun u => u.1.2.2 = [] ∧ u.2.2 = []) (s.iterate c.round c.first)
      (fun record u => Reaches c record.iterate record.gradientNorm u.2.2 u.1) fun _ => True := by
  -- between a round and its notice the iteration is missing in the list of the observer
  have hrounds : ∀ k p (w : ω × List (Iteration α)),
      Settles (fun t => Reaches c p.iterate p.gradientNorm w.2 t) (c.round (k + 1) p)
        (fun r t => Reaches c r.progress.iterate r.progress.gradientNorm (w.2 ++ [r.iteration]) t)
        (fun _ t => Reaches c p.iterate p.gradientNorm w.2 t) fun _ => True := by
    intro k p w t journal hreaches
    have hend := hround t.2.2 (k + 1) p t journal rfl
    generalize (c.round (k + 1) p).run.start t journal = out at hend ⊢
    rcases out with ⟨⟨_ | e | r, t'⟩, journal'⟩
    · exact trivial
    · have hsteps : t'.2.2 = t.2.2 := hend
      show Journey _ _ _ _ w.2 t'.2.2
      rw [hsteps]
      exact hreaches
    · exact Journey.follow hreaches hend
  have hloop : Triple (fun u => Reaches c c.first.iterate c.first.gradientNorm u.2.2 u.1)
      (s.iterate c.round c.first)
      (fun record u => Reaches c record.iterate record.gradientNorm u.2.2 u.1) fun _ => True := by
    refine Solve.loop_keeps
      (P := fun _ p t (w : ω × List (Iteration α)) => Reaches c p.iterate p.gradientNorm w.2 t)
      (N := fun _ r t w => Reaches c r.progress.iterate r.progress.gradientNorm
        (w.2 ++ [r.iteration]) t)
      (R := fun record t w => Reaches c record.iterate record.gradientNorm w.2 t) hrounds ?_ ?_ _ 0
      c.first
    · intro k r
      exact Triple.fault (Solve.notify_noted hs r.iteration
        (K := fun t seen => Reaches c r.progress.iterate r.progress.gradientNorm seen t))
        fun _ _ => trivial
    · intro k p status number error _
      refine Triple.mono (Solve.finish_noted hs status p.iterate p.gradientNorm number error
        (K := fun t seen => Reaches c p.iterate p.gradientNorm seen t)) (fun _ h => h) ?_
        fun _ h => h.elim
      rintro record u ⟨hreaches, shows, -⟩
      rw [shows.iterate, shows.gradientNorm]
      exact hreaches
  refine Triple.pre hloop ?_
  rintro u ⟨hsteps, hseen⟩
  show Journey _ _ _ _ u.2.2 u.1.2.2
  rw [hsteps, hseen]
  exact .start

/-- A solve of a hooked model by any method leaves a journey to the iterate of its record. -/
theorem minimize_journey (method : Method α) (m : Model α σ) (x₀ : Vec α) (o : Options α)
    (observer : Observer α ω) (clock : Nat → Duration) (state : σ) :
    Settles (fun u => u.1 = ({}, (state, [])) ∧ u.2.2 = [])
      (method.minimize m.hooked x₀ o observer.noting clock)
      (fun record u => ∃ first norm₀, method.StartsAt m.hooked x₀ first.x ∧
        Journey first norm₀ record.iterate record.gradientNorm u.2.2 u.1.2.2)
      (fun _ _ => True) fun _ => True := by
  let s : Solve α (σ × List (Vec α × Vec α)) (ω × List (Iteration α)) :=
    ⟨method.name, m.hooked, o, observer.noting, clock⟩
  have hs : s.observer = observer.noting := rfl
  have hmodel : s.model = m.hooked := rfl
  have hparts : s.Parts (method.StartsAt m.hooked x₀)
      (Opens s.unobserved x₀ (state, []) method) (state, []) (fun w => w.2 = [])
      (fun w => w.2 = [])
      (fun record u => ∃ first norm₀, method.StartsAt m.hooked x₀ first.x ∧
        Journey first norm₀ record.iterate record.gradientNorm u.2.2 u.1.2.2)
      (fun _ _ => True) fun _ => True := by
    refine ⟨fun _ _ _ _ _ => trivial, fun _ _ hseen => hseen, fun _ _ => trivial, ?_, ?_⟩
    · intro x e t hx breaks
      have hsteps : t.2.2 = [] := (evaluateStart_steps hmodel [] x).breaks breaks rfl
      refine Triple.mono (Solve.finish_noted (K := fun t seen => t.2.2 = [] ∧ seen = []) hs
        _ _ _ _ _) ?_ ?_ fun _ h => h.elim
      · rintro u ⟨rfl, hseen⟩
        exact ⟨hsteps, hseen⟩
      · rintro record u ⟨⟨hsteps, hseen⟩, shows, -⟩
        refine ⟨record.iterate, record.gradientNorm, ?_, ?_⟩
        · rw [shows.iterate]
          exact hx
        · rw [hsteps, hseen]
          exact .start
    · intro c start opens
      have hsteps : start.2.2 = [] :=
        (evaluateStart_steps hmodel [] _).leads opens.starts.2 rfl
      refine Triple.mono (iterate_journey hs (opens.round_steps hmodel)) ?_
        (fun record u h => ⟨_, _, opens.starts.1, h⟩) fun _ h => h
      rintro u ⟨rfl, hseen⟩
      exact ⟨hsteps, hseen⟩
  exact minimize_settles (s := s) method rfl hparts fun _ _ _ _ _ _ => trivial

/-- What comes of a solve, with the counts and the state of the model that it leaves; the iterations
that its observer hears of; and the steps that its model is told of, which are those that a hooked
model leaves. -/
def solveHooked (method : Method α) (m : Model α σ) (x₀ : Vec α) (o : Options α)
    (observer : Observer α ω) (clock : Nat → Duration) (state : σ) (w : ω) (journal : Journal) :
    (Except Fault (Except SolverError (Record α)) × (Counts × σ)) ×
      (List (Iteration α) × List (Vec α × Vec α)) :=
  let out := Run.start (method.minimize m x₀ o observer clock).run (({}, state), w) journal
  let hooked := Run.start (method.minimize m.hooked x₀ o observer.noting clock).run
    (({}, (state, [])), (w, [])) journal
  ((out.1.1, out.1.2.1), (hooked.1.2.2.2, hooked.1.2.1.2.2))

section Hooked

variable (method : Method α) (m : Model α σ) (x₀ : Vec α) (o : Options α) (observer : Observer α ω)
  (clock : Nat → Duration) (state : σ) (w : ω) (journal : Journal)

/-- The result, the model and the lists are those of one run. -/
theorem solveHooked_eq :
    let hooked := Run.start (method.minimize m.hooked x₀ o observer.noting clock).run
      (({}, (state, [])), (w, [])) journal
    solveHooked method m x₀ o observer clock state w journal =
      ((hooked.1.1, (hooked.1.2.1.1, hooked.1.2.1.2.1)), (hooked.1.2.2.2, hooked.1.2.1.2.2)) := by
  intro hooked
  have hagrees := method.minimize_agrees m.hooked_imitates.alike observer.noting_imitates.alike
    x₀ o clock
  rw [whole_sees] at hagrees
  have h := imitates_iff.mpr hagrees (({}, (state, [])), (w, [])) journal
  have hplain : Run.start (method.minimize m x₀ o observer clock).run (({}, state), w) journal
      = Run.seen (Prod.map (Prod.map id Prod.fst) Prod.fst) hooked := h.symm
  exact congrArg
    (fun plain : End ((Counts × σ) × ω) (Except SolverError (Record α)) =>
      ((plain.1.1, plain.1.2.1), (hooked.1.2.2.2, hooked.1.2.1.2.2))) hplain

variable {method m x₀ o observer clock state w journal} {left : Counts × σ}
  {seen : List (Iteration α)} {steps : List (Vec α × Vec α)}

/-- The steps that the model is told of lead to the iterate of the record. -/
theorem solveHooked_journey {record : Record α}
    (h : solveHooked method m x₀ o observer clock state w journal
      = ((.ok (.ok record), left), (seen, steps))) :
    ∃ first norm₀, method.StartsAt m x₀ first.x ∧
      Journey first norm₀ record.iterate record.gradientNorm seen steps := by
  have hends := minimize_journey method m x₀ o observer clock state
    (({}, (state, [])), (w, [])) journal ⟨rfl, rfl⟩
  rw [solveHooked_eq] at h
  generalize Run.start _ _ journal = out at h hends
  rcases out with ⟨⟨r, u⟩, journal'⟩
  cases h
  obtain ⟨first, norm₀, starts, journey⟩ := hends
  refine ⟨first, norm₀, ?_, journey⟩
  cases method with
  | projectedNewton => exact starts
  | newtonCg => exact starts
  | lbfgs => exact starts

end Hooked

/-- A quasi-Newton model that starts without pairs ends with those of the last steps that it was
told of. -/
theorem solveHooked_pairs (method : Method α) (m : Model α σ) (x₀ : Vec α) (o : Options α)
    (observer : Observer α ω) (clock : Nat → Duration) (state : σ) (w : ω) (journal : Journal)
    {n : Nat} {h : History α} (hempty : History.empty n = .ok h)
    {result : Except Fault (Except SolverError (Record α))} {left : Counts × (History α × σ)}
    {seen : List (Iteration α)} {steps : List (Vec α × Vec α)}
    (hsolve : solveHooked method m.quasiNewton x₀ o observer clock (h, state) w journal
      = ((result, left), (seen, steps))) :
    left.2.1.pairs = recent n (steps.filterMap History.admitted) := by
  obtain ⟨hn, hstart⟩ := History.remembers_of_empty hempty
  have hagrees := method.minimize_agrees (m.quasiNewton_hooked_alike hn) observer.noting.alike_self
    x₀ o clock
  have hkept := (hagrees (({}, ((h, state), [])), (w, [])) (({}, ((h, state), [])), (w, [])) journal
    journal ⟨⟨rfl, rfl, hstart⟩, rfl⟩ rfl).states.1.2.2.pairs
  rw [solveHooked_eq] at hsolve
  generalize Run.start _ _ journal = out at hsolve hkept
  rcases out with ⟨⟨r, u⟩, journal'⟩
  cases hsolve
  exact hkept

/-- **Only accepted steps move a solve, and the model is told of these.** A round that is not
accepted leaves the iterate and the norm of the projected gradient as they were and tells the model
nothing, and so does a round that fails; an accepted round tells it once, of the step and of the
change of the gradient. So the steps that the model is told of lead from the start to the iterate of
the record, and a quasi-Newton model that starts without pairs ends with those of the last steps
whose curvature is safely positive. -/
theorem only_accepted_steps_move (method : Method α) (m : Model α σ) (x₀ : Vec α) (o : Options α)
    (observer : Observer α ω) (clock : Nat → Duration) (state : σ) (w : ω) (journal : Journal) :
    (∀ c start, Opens (method.solve m.hooked o clock) x₀ (state, []) method c start → ∀ k p t,
      (∀ r t', Leads (c.round k p) t r t' → r.Follows k p t.2.2 t'.2.2) ∧
        ∀ e t', Breaks (c.round k p) t e t' → t'.2.2 = t.2.2) ∧
    (∀ record left seen steps, solveHooked method m x₀ o observer clock state w journal
        = ((.ok (.ok record), left), (seen, steps)) →
      ∃ first norm₀, method.StartsAt m x₀ first.x ∧
        Journey first norm₀ record.iterate record.gradientNorm seen steps) ∧
    ∀ n h, History.empty n = .ok h → ∀ result left seen steps,
      solveHooked method m.quasiNewton x₀ o observer clock (h, state) w journal
        = ((result, left), (seen, steps)) →
      left.2.1.pairs = recent n (steps.filterMap History.admitted) := by
  refine ⟨?_, fun _ _ _ _ h => solveHooked_journey h,
    fun _ _ hempty _ _ _ _ h => solveHooked_pairs method m x₀ o observer clock state w journal
      hempty h⟩
  intro c start opens k p t
  have hround := opens.round_steps rfl t.2.2 k p
  exact ⟨fun r t' leads => hround.leads leads rfl, fun e t' breaks => hround.breaks breaks rfl⟩

/-- The square's solve by projected Newton steps from 3, with the curvature of one pair, rejects one
step and accepts two. -/
theorem only_accepted_steps_move_square :
    ∃ record left seen steps, solveHooked (.projectedNewton {}) square.quasiNewton [3] {}
        (Observer.silent : Observer Float Unit) (fun _ => .zero) (⟨1, []⟩, ()) () #[]
          = ((.ok (.ok record), left), (seen, steps)) ∧
      seen.map (·.accepted) = [false, true, true] ∧ steps.length = 2 ∧
      (∃ first norm₀, (Method.projectedNewton {}).StartsAt square.quasiNewton [3] first.x ∧
        Journey first norm₀ record.iterate record.gradientNorm seen steps) ∧
      left.2.1.pairs = recent 1 (steps.filterMap History.admitted) := by
  have hends : (match solveHooked (.projectedNewton {}) square.quasiNewton [3] {}
      (Observer.silent : Observer Float Unit) (fun _ => .zero) (⟨1, []⟩, ()) () #[] with
    | ((.ok (.ok _), _), (seen, steps)) =>
        decide (seen.map (·.accepted) = [false, true, true] ∧ steps.length = 2)
    | _ => false) = true := by decide +kernel
  generalize hrun : solveHooked (.projectedNewton {}) square.quasiNewton [3] {}
    (Observer.silent : Observer Float Unit) (fun _ => .zero) (⟨1, []⟩, ()) () #[] = out at hends
  rcases out with ⟨⟨_ | _ | record, left⟩, seen, steps⟩
  · cases hends
  · cases hends
  · obtain ⟨haccepted, hsteps⟩ := of_decide_eq_true hends
    have hjourney := (only_accepted_steps_move (.projectedNewton {}) square.quasiNewton [3] {}
      (Observer.silent : Observer Float Unit) (fun _ => .zero) (⟨1, []⟩, ()) () #[]).2.1
    have hpairs := (only_accepted_steps_move (.projectedNewton {}) square [3] {}
      (Observer.silent : Observer Float Unit) (fun _ => .zero) () () #[]).2.2
    exact ⟨record, left, seen, steps, rfl, haccepted, hsteps, hjourney _ _ _ _ hrun,
      hpairs 1 ⟨1, []⟩ rfl _ _ _ _ hrun⟩

end Method

end Descent
