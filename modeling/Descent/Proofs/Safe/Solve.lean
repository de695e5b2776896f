import Descent.Proofs.Method
import Descent.Proofs.Record
import Descent.Proofs.Safe.Steps

/-!
# Solves without faults

A solve of a model whose answers have the right size stops at no fault, whatever their values, the
bounds, the starting point, the options, the settings and the observer are: it is refused, or it
ends with a record (`Method.minimize_never_faults`). What carries this from round to round is that
the iterate, and the pairs of the history, have as many entries as the model has variables. So no
linear solver is given a right-hand side of the wrong length, which the error of the record would
tell.
-/

set_option autoImplicit false

namespace Descent

open Checked Run

variable {α σ ω μ : Type} [Scalar α] {n : Nat}

/-! ## Trust-region rounds -/

namespace TrustRegion

def Outcome.Sized (n : Nat) : Outcome α → Prop
  | failed _ => True
  | rejected trial _ _ => trial.Sized n
  | accepted trial _ gradient _ => trial.Sized n ∧ gradient.length = n
  | rescued found _ => found.Sized n

variable {m : Model α σ}

theorem assess_safe (c : Config α) (hm : m.WellSized) (iterate : Iterate α) {trial : Trial α}
    (htrial : trial.Sized m.dimension) :
    Safe (assess c m iterate trial) (Outcome.Sized m.dimension) SolverError.Fits := by
  refine .bind (Evaluation.usable_safe (hm.objective _ htrial.point) _ _) ?_
  rintro (reason | value) -
  · exact .pure trivial
  · dsimp only
    split
    · refine .bind (Evaluation.usable_safe (hm.gradient _ htrial.point) _ _) ?_
      rintro (reason | gradient) hgradient
      · exact .pure trivial
      · exact .pure ⟨htrial, hgradient _ rfl⟩
    · exact .pure htrial

theorem attempt_safe {stepper : Stepper α σ μ} (hstepper : stepper.Safe m) (c : Config α)
    (hm : m.WellSized) {box : Box α} (hbox : box.length = m.dimension) {iterate : Iterate α}
    (hiterate : iterate.Sized m.dimension) (radius gradientNorm : α) (memory : μ) :
    Safe (attempt stepper c m box iterate radius gradientNorm memory)
      (fun r => r.1.Sized m.dimension) SolverError.Fits := by
  refine .bind (.caught (hstepper.propose box iterate radius gradientNorm memory hbox hiterate)) ?_
  rintro (⟨e, memory⟩ | ⟨trial, memory⟩) h
  · cases e with
    | model e =>
        dsimp only
        split
        · exact .pure trivial
        · exact .throw trivial
    | _ => exact .throw h
  · refine .bind (assess_safe c hm iterate h) ?_
    rintro (reason | ⟨trial, value, ratio⟩ | ⟨trial, value, gradient, ratio⟩ | ⟨found, ratio⟩) hout
    · exact .pure hout
    · refine .bind (hstepper.rescue iterate trial value hiterate hout) ?_
      rintro (_ | found) hfound
      · exact .pure hout
      · exact .pure (hfound found rfl)
    · exact .pure hout
    · exact .pure hout

theorem optimality_passes {box : Box α} (hbox : box.length = n) {x g : Vec α} (hx : x.length = n)
    (hg : g.length = n) : Passes (optimality box x g) fun _ => True := by
  refine .bind (Box.projectedGradient_passes hbox hx hg) fun projected _ => ?_
  refine .bind (Box.activeMask_passes 0 (by omega) (by omega)) fun active _ => ?_
  exact .ok trivial

theorem moveTo_sure (hm : m.WellSized) {box : Box α} (hbox : box.length = m.dimension)
    {iterate : Iterate α} (hiterate : iterate.Sized m.dimension) {point gradient : Vec α}
    (hpoint : point.length = m.dimension) (value : α) (hgradient : gradient.length = m.dimension)
    (iteration : Nat) :
    Sure (moveTo m box iterate point value gradient iteration) fun r =>
      r.1.Sized m.dimension := by
  refine .bind (.checked (Vec.sub_passes hpoint hiterate.point)) fun s hs => ?_
  refine .bind (.checked (Vec.sub_passes hgradient hiterate.gradient)) fun y hy => ?_
  refine .bind (hm.acceptStep s y hs hy) fun _ _ => ?_
  refine .bind (.checked (optimality_passes hbox hpoint hgradient)) fun _ _ => ?_
  exact .pure ⟨hpoint, hgradient⟩

theorem round_safe {s : Solve α σ ω} (hm : s.model.WellSized)
    {stepper : Stepper α (Counts × σ) μ} (hstepper : stepper.Safe s.model.counted) (c : Config α)
    {box : Box α} (hbox : box.length = s.model.dimension) (number : Nat)
    {p : Progress α (Memory α μ)} (hp : p.iterate.Sized s.model.dimension) :
    Safe (round s stepper c box number p) (fun r => r.progress.iterate.Sized s.model.dimension)
      SolverError.Fits := by
  have hcounted := hm.counted
  refine .bind (attempt_safe hstepper c hcounted hbox hp _ _ _) ?_
  rintro ⟨reason | ⟨trial, value, ratio⟩ | ⟨trial, value, gradient, ratio⟩ | ⟨found, ratio⟩,
    memory⟩ hout
  · refine .bind .emit fun _ _ => ?_
    split
    · exact .throw_bind trivial
    · exact .pure hp
  · dsimp only
    split
    · exact .throw_bind trivial
    · exact .pure hp
  · refine .bind (.lift (moveTo_sure hcounted hbox hp hout.1.point value hout.2 number)) ?_
    rintro ⟨iterate, norm⟩ hiterate
    exact .pure hiterate
  · refine .bind (.checked (Vec.sub_passes hout.point hp.point)) fun step _ => ?_
    refine .bind .emit fun _ _ => ?_
    refine .bind (.lift (moveTo_sure hcounted hbox hp hout.point _ hout.gradient number)) ?_
    rintro ⟨iterate, norm⟩ hiterate
    exact .pure hiterate

end TrustRegion

/-! ## Quasi-Newton rounds -/

namespace Lbfgs

theorem direction_sure (solver : String) {h : History α} (hh : h.Sized n) {g : Vec α}
    (hg : g.length = n) :
    Sure (direction solver h g : Run σ _) fun r => r.1.length = n ∧ r.2.Sized n := by
  refine .bind (.checked (hh.applyInverse_passes hg)) fun v hv => ?_
  have hd : (Vec.negate v).length = n := by simpa using hv
  refine .bind (.checked (Vec.dot_passes hg hd)) fun slope _ => ?_
  split
  · exact .pure ⟨hd, hh⟩
  · exact .bind .emit fun _ _ => .pure ⟨by simpa using hg, h.sized_clear⟩

def ProgressSized (n : Nat) (p : Progress α (History α)) : Prop :=
  p.iterate.Sized n ∧ p.memory.Sized n

theorem round_safe {s : Solve α σ ω} (hm : s.model.FirstOrderSized) (search : LineSearch α)
    (initialStepSize : α) (number : Nat) {p : Progress α (History α)}
    (hp : ProgressSized s.model.dimension p) :
    Safe (round s search initialStepSize number p)
      (fun r => ProgressSized s.model.dimension r.progress) SolverError.Fits := by
  have hcounted := hm.counted
  obtain ⟨hiterate, hmemory⟩ := hp
  refine .bind (.lift (direction_sure s.solver hmemory hiterate.gradient)) ?_
  rintro ⟨d, h⟩ ⟨hd, hh⟩
  refine .bind (.caught (LineSearch.run_safe search hcounted hiterate.point hiterate.gradient hd
    _ _)) ?_
  rintro (e | found) hfound
  · dsimp only
    split
    · exact .bind .emit fun _ _ => .pure ⟨hiterate, h.sized_clear⟩
    · exact .throw hfound
  · refine .bind (.checked (Vec.sub_passes hfound.point hiterate.point)) fun step hstep => ?_
    refine .bind (.checked (Vec.sub_passes hfound.gradient hiterate.gradient)) fun y hy => ?_
    refine .bind (.lift (hcounted.acceptStep step y hstep hy)) fun _ _ => ?_
    refine .bind (.lift (.inside (Q := fun r => r.2.Sized s.model.dimension) hh
      (History.tryPush_triple (n := s.model.dimension) hstep hy))) ?_
    rintro ⟨stored, h⟩ hh
    dsimp only
    split
    · exact .bind .emit fun _ _ => .pure ⟨⟨hfound.point, hfound.gradient⟩, hh⟩
    · exact .pure ⟨⟨hfound.point, hfound.gradient⟩, hh⟩

end Lbfgs

/-! ## Whole solves -/

/-- The error of a record, if it has one, does not complain of a size. -/
def Record.Fits (record : Record α) : Prop := ∀ e, record.error = some e → e.Fits

namespace Solve

variable {s : Solve α σ ω}

theorem start_safe (x₀ : Vec α) :
    Safe (s.start x₀) (fun _ => x₀.length = s.model.dimension) fun _ => True := by
  refine .bind (Q := fun _ => True) (.ofExcept (fun _ _ => trivial) fun _ _ => trivial)
    fun _ _ => ?_
  dsimp only
  split
  · exact .throw_bind trivial
  · next hlength =>
      refine .bind (Q := fun _ => True) (.lift (.onSnd .report)) fun _ _ => ?_
      exact Safe.mono .emit (fun _ _ => Decidable.not_not.mp hlength) fun _ h => h

theorem evaluateStart_safe (hm : s.model.FirstOrderSized) {x : Vec α}
    (hx : x.length = s.model.dimension) :
    Safe (s.evaluateStart x) (fun fg => fg.2.length = s.model.dimension) fun _ => True := by
  refine .bind (hm.counted.objectiveAndGradient x hx) ?_
  rintro ⟨f, g⟩ hg
  dsimp only
  split
  · exact .pure hg
  · exact .throw trivial

theorem notify_sure (i : Iteration α) : Sure (s.notify i) fun _ => True :=
  .bind .emit fun _ _ => .onSnd .report

theorem finish_sure (status : Status) (iterate : Iterate α) (gradientNorm : α) (iterations : Nat)
    {error : Option SolverError} (herror : ∀ e, error = some e → e.Fits) :
    Sure (s.finish status iterate gradientNorm iterations error) Record.Fits := by
  refine .bind (Q := fun _ => True) (fun _ _ _ => trivial) fun t _ => ?_
  refine .bind .emit fun _ _ => ?_
  refine .bind (Q := fun _ => True) (.onSnd .report) fun _ _ => ?_
  exact .pure herror

/-- What every round keeps without a fault, the loop keeps without a fault. -/
theorem loop_sure {P : Progress α μ → Prop} {threshold : α}
    {round : Nat → Progress α μ → Working σ (Round α μ)}
    (hround : ∀ k p, P p → Safe (round k p) (fun r => P r.progress) SolverError.Fits)
    (remaining k : Nat) {p : Progress α μ} (hp : P p) :
    Sure (s.loop threshold round remaining k p) Record.Fits := by
  refine Triple.pre (loop_rounds (P := fun _ p _ _ => P p) (N := fun _ r _ _ => P r.progress)
    (B := fun _ _ e _ _ => e.Fits) (S := fun _ => True) (R := fun record _ _ => record.Fits)
    (F := fun _ => False) ?_ ?_ (fun _ _ _ _ _ _ _ => trivial) (fun _ _ => trivial) ?_ ?_
    remaining k p) fun _ _ => hp
  · rintro k p w - t journal ⟨hp, -⟩
    have h := hround (k + 1) p hp t journal trivial
    revert h
    generalize Run.start (round (k + 1) p).run t journal = out
    rcases out with ⟨⟨_ | _ | r, _⟩, _⟩
    · exact id
    · exact id
    · exact id
  · rintro k r u journal hp
    have h := notify_sure (s := s) r.iteration u journal trivial
    revert h
    generalize Run.start (s.notify r.iteration) u journal = out
    rcases out with ⟨⟨_ | _, _⟩, _⟩
    · exact id
    · exact fun _ => hp
  · exact fun k p status _ => Triple.pre (finish_sure status _ _ k nofun) fun _ _ => trivial
  · intro k p e u journal he
    exact finish_sure _ _ _ (k + 1) (by rintro _ ⟨⟩; exact he) u journal trivial

end Solve

theorem TrustRegion.minimize_safe {s : Solve α σ ω} (hm : s.model.WellSized)
    {stepper : Stepper α (Counts × σ) μ} (hstepper : stepper.Safe s.model.counted) (c : Config α)
    (x₀ : Vec α) : Safe (minimize s stepper c x₀) Record.Fits fun _ => True := by
  refine .bind (Q := fun _ => True) (.ofExcept (fun _ _ => trivial) fun _ _ => trivial)
    fun _ _ => ?_
  refine .bind (Solve.start_safe x₀) fun _ hx₀ => ?_
  refine .bind (Q := fun box => box.length = s.model.dimension)
    (.ofExcept (fun box hbox => ?_) fun _ _ => trivial) fun box hbox => ?_
  · cases h : s.model.box with
    | error e => rw [h] at hbox; cases hbox
    | ok b =>
        rw [h] at hbox
        cases hbox
        exact Model.length_box h
  refine .bind (.checked (Box.project_passes hbox hx₀)) fun x hx => ?_
  refine .bind (.lift (.onFst (Solve.evaluateStart_safe hm.firstOrder hx))) ?_
  rintro (e | ⟨f, g⟩) hstart
  · exact .lift (Solve.finish_sure _ _ _ _ (by rintro _ ⟨⟩; trivial))
  · refine .bind (.checked (optimality_passes hbox hx hstart)) ?_
    rintro ⟨norm, active⟩ -
    refine .bind .emit fun _ _ => ?_
    exact .lift (Solve.loop_sure (P := fun p => p.iterate.Sized s.model.dimension)
      (fun k p hp => round_safe hm hstepper c hbox k hp) _ _ ⟨hx, hstart⟩)

theorem Lbfgs.minimize_safe (c : Config α) {m : Model α σ} (hm : m.FirstOrderSized) (x₀ : Vec α)
    (o : Options α) (observer : Observer α ω) (clock : Nat → Duration) :
    Safe (minimize c m x₀ o observer clock) Record.Fits fun _ => True := by
  unfold minimize
  dsimp only
  split
  · exact .throw_bind trivial
  split
  · exact .throw_bind trivial
  refine .bind (Q := fun _ => True) (.ofExcept (fun _ _ => trivial) fun _ _ => trivial)
    fun _ _ => ?_
  refine .bind (Q := fun h => h.Sized m.dimension)
    (.ofExcept (fun _ hh => History.sized_of_empty hh) fun _ _ => trivial) fun h hh => ?_
  refine .bind (Solve.start_safe x₀) fun _ hx₀ => ?_
  refine .bind (.lift (.onFst (Solve.evaluateStart_safe hm hx₀))) ?_
  rintro (e | ⟨f, g⟩) hstart
  · exact .lift (Solve.finish_sure _ _ _ _ (by rintro _ ⟨⟩; trivial))
  · exact .lift (Solve.loop_sure (P := ProgressSized m.dimension)
      (fun k p hp => round_safe hm _ _ k hp) _ _ ⟨⟨hx₀, hstart⟩, hh⟩)

namespace Method

/-- Without a fault a solve is refused or ends with a record. -/
theorem minimize_safe (method : Method α) {m : Model α σ} (hm : m.WellSized) (x₀ : Vec α)
    (o : Options α) (observer : Observer α ω) (clock : Nat → Duration) :
    Safe (method.minimize m x₀ o observer clock) Record.Fits fun _ => True := by
  cases method with
  | projectedNewton c =>
      exact TrustRegion.minimize_safe hm (ProjectedNewton.stepper_safe
        (fun _ => LinearSolver.square_of_subproblem) c.cg hm.counted) c x₀
  | newtonCg c withRescue =>
      -- the solve behind the checks
      have hsolve := fun params => TrustRegion.minimize_safe
        (s := ⟨NewtonCg.name, m, o, observer, clock⟩) hm (NewtonCg.stepper_safe
          (fun _ => LinearSolver.square_of_subproblem (p := c.subproblem)) c.cg params hm.counted)
        c x₀
      show Safe (NewtonCg.minimize c withRescue m x₀ o observer clock) _ _
      unfold NewtonCg.minimize
      dsimp only
      split
      · exact .throw_bind trivial
      cases withRescue with
      | false => exact hsolve _
      | true =>
          exact .bind (Q := fun _ => True) (.ofExcept (fun _ _ => trivial) fun _ _ => trivial)
            fun _ _ => hsolve _
  | lbfgs c => exact Lbfgs.minimize_safe c hm.firstOrder x₀ o observer clock

/-- **Solves are free of faults.** From every starting point, in every state and under every
setting, a solve of a model with answers of the right size ends: it is refused, or it returns a
record, whose error does not complain of a size. -/
theorem minimize_never_faults (method : Method α) {m : Model α σ} (hm : m.WellSized) (x₀ : Vec α)
    (o : Options α) (observer : Observer α ω) (clock : Nat → Duration) (t : (Counts × σ) × ω)
    (journal : Journal) :
    ∃ r, (Run.start (method.minimize m x₀ o observer clock).run t journal).1.1 = .ok r ∧
      ∀ record, r = .ok record → record.Fits := by
  obtain ⟨r, hr, h⟩ := (method.minimize_safe hm x₀ o observer clock).exists_ok t journal
  refine ⟨r, hr, ?_⟩
  rintro record rfl
  exact h

/-- The answers of the square have the right size. -/
theorem wellSized_square : (square : Model α Unit).WellSized :=
  .ofGradient (fun _ _ => Safe.pure trivial) (fun _ _ => Safe.pure rfl) rfl rfl rfl rfl rfl

/-- A solve of the square from a point that is no number ends. -/
theorem minimize_never_faults_square : (square : Model Float Unit).WellSized ∧
    ∃ r, (Run.start (minimize (.projectedNewton {}) square [Scalar.nan] {}
        (Observer.silent : Observer Float Unit) fun _ => .zero).run (({}, ()), ()) #[]).1.1
        = .ok r ∧
      ∀ record, r = .ok record → record.Fits :=
  ⟨wellSized_square, minimize_never_faults _ wellSized_square _ _ _ _ _ _⟩

end Method

end Descent
