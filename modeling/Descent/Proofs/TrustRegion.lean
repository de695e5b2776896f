import Descent.Proofs.Box
import Descent.Proofs.Solve
import Descent.Proofs.Watched

/-!
# Where a trust-region solve evaluates the objective

A solve visits the starting point and the trial points, nothing else. If its stepper only proposes
points of the box and Cauchy points (`Stepper.StaysClose`), all visited points lie in the box unless
a Cauchy point escaped from it (`Accounts`). This is an invariant of the rounds (`round_tracked`),
and with it the iterate is always a visited point with a gradient of the model (`Tracked`).
-/

set_option autoImplicit false

namespace Descent

open Run

variable {α σ μ ω : Type} [Scalar α] {m : Model α σ} {b : Box α} {x g p : Vec α}
  {visited : List (Vec α)}

/-! ## Visited points -/

/-- From a visited point of the box a solve went to a Cauchy point outside. -/
def Escaped (m : Model α σ) (b : Box α) (visited : List (Vec α)) : Prop :=
  ∃ x ∈ visited, ∃ p ∈ visited, ∃ g,
    b.Holds x ∧ m.HasGradient x g ∧ b.CauchyPoint x g p ∧ ¬ b.Holds p

/-- The visited points lie in the box, or one escaped. -/
def Accounts (m : Model α σ) (b : Box α) (visited : List (Vec α)) : Prop :=
  (∀ p ∈ visited, b.Holds p) ∨ Escaped m b visited

structure Located (m : Model α σ) (b : Box α) (x : Vec α) (visited : List (Vec α)) : Prop where
  mem : x ∈ visited
  accounts : Accounts m b visited

structure Tracked (m : Model α σ) (b : Box α) (x g : Vec α) (visited : List (Vec α)) : Prop
    extends Located m b x visited where
  gradient : m.HasGradient x g

/-- The solve stands at `x` and has also visited `p`. -/
def Moved (m : Model α σ) (b : Box α) (x g p : Vec α) (visited : List (Vec α)) : Prop :=
  Tracked m b x g visited ∧ p ∈ visited

theorem Escaped.append (h : Escaped m b visited) (p : Vec α) : Escaped m b (visited ++ [p]) := by
  obtain ⟨x, hx, q, hq, hout⟩ := h
  exact ⟨x, List.mem_append_left _ hx, q, List.mem_append_left _ hq, hout⟩

/-- A visit to a candidate. -/
theorem Tracked.visit (h : Tracked m b x g visited) (hp : b.Candidate x g p) :
    Moved m b x g p (visited ++ [p]) := by
  have hlast : p ∈ visited ++ [p] := List.mem_append_right _ (List.mem_singleton_self p)
  have haccounts : Accounts m b (visited ++ [p]) := by
    rcases h.accounts with hall | hescaped
    · by_cases hholds : b.Holds p
      · refine .inl fun q hq => ?_
        rcases List.mem_append.mp hq with hq | hq
        · exact hall q hq
        · rw [List.mem_singleton.mp hq]
          exact hholds
      · -- outside the box the candidate can only be a Cauchy point
        have hcauchy : b.CauchyPoint x g p := hp.resolve_left hholds
        exact .inr ⟨x, List.mem_append_left _ h.mem, p, hlast, g, hall x h.mem, h.gradient,
          hcauchy, hholds⟩
    · exact .inr (hescaped.append p)
  exact ⟨⟨⟨List.mem_append_left _ h.mem, haccounts⟩, h.gradient⟩, hlast⟩

/-- The first visit. -/
theorem located_start (hx : b.Holds x) : Located m b x ([] ++ [x]) :=
  ⟨List.mem_singleton_self x, .inl fun q hq => by rw [List.mem_singleton.mp hq]; exact hx⟩

/-- An unusable value leaves what a usable one leaves. -/
theorem Evaluation.usable_attempt {τ β : Type} {P R : τ → Prop} {V : β → Prop} {e : Evaluation τ β}
    (h : Attempt P e (fun value t => R t ∧ V value) R) (isFinite : β → Bool) (what : String) :
    Attempt P (Evaluation.usable e isFinite what)
      (fun r t => R t ∧ ∀ value, r = .ok value → V value) R := by
  refine Attempt.bind (Attempt.caught h) ?_
  rintro (e | value)
  · dsimp only
    split
    · exact Attempt.pure fun _ hs => ⟨hs, fun _ h => by cases h⟩
    · exact Attempt.throw fun _ hs => hs
  · refine Attempt.assume fun hvalue => Attempt.pure fun _ hs => ⟨hs, fun _ h => ?_⟩
    split at h
    · cases h
      exact hvalue
    · cases h

namespace TrustRegion

/-- The stepper proposes points of the box and Cauchy points only, does not visit any point itself
and never rescues a step. -/
structure Stepper.StaysClose (stepper : Stepper α (Counts × (σ × List (Vec α))) μ) (m : Model α σ)
    (b : Box α) : Prop where
  propose : ∀ K iterate radius gradientNorm memory,
    Attains (Visited K)
      (stepper.propose m.watched.counted b iterate radius gradientNorm memory)
      fun r => b.Candidate iterate.x iterate.g r.1.point
  rescue : ∀ iterate trial value, stepper.rescue m.watched.counted iterate trial value = pure none

/-- What is known of the visited points after an attempt from `x` with the gradient `g`. -/
def Outcome.Leaves (m : Model α σ) (b : Box α) (x g : Vec α) : Outcome α → List (Vec α) → Prop
  | .accepted trial _ gradient _, visited =>
    Moved m b x g trial.point visited ∧ m.HasGradient trial.point gradient
  | .rescued .., _ => False
  | _, visited => Tracked m b x g visited

variable {stepper : Stepper α (Counts × (σ × List (Vec α))) μ}

theorem assess_tracked (c : Config α) (iterate : Iterate α) {trial : Trial α}
    (htrial : b.Candidate iterate.x iterate.g trial.point) :
    Attempt (Visited (Tracked m b iterate.x iterate.g))
      (assess c m.watched.counted iterate trial)
      (fun outcome => Visited (outcome.Leaves m b iterate.x iterate.g))
      (Visited (Tracked m b iterate.x iterate.g)) := by
  have hobjective : Attempt (Visited (Tracked m b iterate.x iterate.g))
      (m.watched.counted.objective trial.point)
      (fun _ t => Visited (Moved m b iterate.x iterate.g trial.point) t ∧ True)
      (Visited (Moved m b iterate.x iterate.g trial.point)) :=
    Attempt.mono (objective_visited _ fun _ h => h.visit htrial) (fun _ h => h)
      (fun _ _ h => ⟨h, trivial⟩) fun _ h => h
  have hgradient : Attempt (Visited (Moved m b iterate.x iterate.g trial.point))
      (m.watched.counted.gradient trial.point)
      (fun gradient t => Visited (Moved m b iterate.x iterate.g trial.point) t ∧
        m.HasGradient trial.point gradient)
      (Visited (Moved m b iterate.x iterate.g trial.point)) :=
    gradient_visited trial.point
  -- wherever the assessment ends early, the iterate is still the old one
  have hearly : ∀ t : Counts × (σ × List (Vec α)),
      Visited (Moved m b iterate.x iterate.g trial.point) t →
        Visited (Tracked m b iterate.x iterate.g) t := fun _ h => h.1
  refine Attempt.bind (Attempt.mono (Evaluation.usable_attempt hobjective Scalar.isFinite _)
    (fun _ h => h) (fun _ _ h => h.1) hearly) ?_
  rintro (reason | value)
  · exact Attempt.pure hearly
  · dsimp only
    split
    · refine Attempt.bind (Attempt.mono (Evaluation.usable_attempt hgradient Vec.allFinite _)
        (fun _ h => h) (fun _ _ h => h) hearly) ?_
      rintro (reason | gradient)
      · exact Attempt.pure fun t h => hearly t h.1
      · exact Attempt.pure fun _ h => ⟨h.1, h.2 gradient rfl⟩
    · exact Attempt.pure hearly

theorem attempt_tracked (hstepper : stepper.StaysClose m b) (c : Config α) (iterate : Iterate α)
    (radius gradientNorm : α) (memory : μ) :
    Attempt (Visited (Tracked m b iterate.x iterate.g))
      (attempt stepper c m.watched.counted b iterate radius gradientNorm memory)
      (fun r => Visited (r.1.Leaves m b iterate.x iterate.g))
      (Visited (Tracked m b iterate.x iterate.g)) := by
  refine Attempt.bind (Attempt.caught (hstepper.propose _ iterate radius gradientNorm memory)) ?_
  rintro (⟨error, memory⟩ | ⟨trial, memory⟩)
  · -- without a proposal nothing was visited
    rcases error with e | _ | _ | _ | _ | _ | _ | _
    · dsimp only
      split
      · exact Attempt.pure fun _ hs => hs
      · exact Attempt.throw fun _ hs => hs
    all_goals exact Attempt.throw fun _ hs => hs
  · refine Attempt.assume fun htrial => ?_
    refine Attempt.bind (assess_tracked c iterate htrial) ?_
    rintro (reason | ⟨trial, value, ratio⟩ | ⟨trial, value, gradient, ratio⟩ | ⟨found, ratio⟩)
    · exact Attempt.pure fun _ hs => hs
    · dsimp only
      rw [hstepper.rescue, pure_bind]
      exact Attempt.pure fun _ hs => hs
    · exact Attempt.pure fun _ hs => hs
    · exact Attempt.pure fun _ hs => hs

/-- The move to an accepted point ends there and visits no other. -/
theorem moveTo_visited {K : List (Vec α) → Prop} (iterate : Iterate α) (point : Vec α) (value : α)
    (gradient : Vec α) (iteration : Nat) :
    Ensures (Visited K) (moveTo m.watched.counted b iterate point value gradient iteration)
      fun r => r.1.x = point ∧ r.1.g = gradient := by
  refine Ensures.bind (Ensures.checked fun _ _ => trivial) fun s _ => ?_
  refine Ensures.bind (Ensures.checked fun _ _ => trivial) fun y _ => ?_
  refine Ensures.bind (acceptStep_visited s y) fun _ _ => ?_
  exact Ensures.bind (Ensures.checked fun _ _ => trivial) fun _ _ => Ensures.pure ⟨rfl, rfl⟩

/-- After a round the solve stands at the new iterate, after a failed one at the old. -/
theorem round_tracked {s : Solve α (σ × List (Vec α)) ω} (hs : s.model = m.watched)
    (hstepper : stepper.StaysClose m b) (c : Config α) (number : Nat)
    (p : Progress α (Memory α μ)) :
    Attempt (Visited (Tracked m b p.iterate.x p.iterate.g)) (round s stepper c b number p)
      (fun r => Visited (Tracked m b r.progress.iterate.x r.progress.iterate.g))
      (Visited (Tracked m b p.iterate.x p.iterate.g)) := by
  unfold round
  rw [hs]
  refine Attempt.bind (attempt_tracked hstepper c p.iterate _ _ _) ?_
  rintro ⟨reason | ⟨trial, value, ratio⟩ | ⟨trial, value, gradient, ratio⟩ | ⟨found, ratio⟩, memory⟩
  · refine Attempt.bind Attempt.emit fun _ => ?_
    dsimp only
    split
    · exact Attempt.throw fun _ hs => hs
    · exact Attempt.pure fun _ hs => hs
  · dsimp only
    split
    · exact Attempt.throw fun _ hs => hs
    · exact Attempt.pure fun _ hs => hs
  · refine Attempt.assume fun hgradient => ?_
    have hmove := moveTo_visited (m := m) (b := b)
      (K := Moved m b p.iterate.x p.iterate.g trial.point) p.iterate trial.point value gradient
      number
    refine Attempt.bind (Attempt.mono (Attempt.lift hmove) (fun _ h => h) (fun _ _ h => h)
      fun _ h => h.1) ?_
    rintro ⟨iterate, norm⟩
    -- the new iterate is the trial point, which has just been visited
    refine Attempt.assume fun hmoved => Attempt.pure fun t ht => ?_
    obtain ⟨hx, hg⟩ : iterate.x = trial.point ∧ iterate.g = gradient := hmoved
    show Tracked m b iterate.x iterate.g t.2.2
    rw [hx, hg]
    exact ⟨⟨ht.2, ht.1.accounts⟩, hgradient⟩
  · -- there is no rescue
    exact fun _ _ h => h.elim

/-! ## Whole solves -/

variable {s : Solve α (σ × List (Vec α)) ω}

/-- The start visits the projected starting point, and no other before. -/
theorem evaluateStart_tracked (hs : s.model = m.watched) (hx : b.Holds x) :
    Attempt (Visited fun visited => visited = []) (s.evaluateStart x)
      (fun r => Visited (Tracked m b x r.2)) (Visited (Located m b x)) := by
  unfold Solve.evaluateStart
  rw [hs]
  refine Attempt.bind (objectiveAndGradient_visited x ?_) ?_
  · rintro _ rfl
    exact located_start hx
  · rintro ⟨f, g⟩
    refine Attempt.assume fun hg => ?_
    dsimp only
    split
    · exact Attempt.pure fun _ h => ⟨h, hg⟩
    · exact Attempt.throw fun _ h => h

/-- Every record has a visited point, and the visited points are accounted for, however the solve
ends. -/
theorem minimize_located [Scalar.Ordered α] (hs : s.model = m.watched) (hbox : m.box = .ok b)
    (hstepper : stepper.StaysClose m b) (c : Config α) (x₀ : Vec α) :
    Attempt (fun t => t.1.2.2 = []) (minimize s stepper c x₀)
      (fun record t => Located m b record.iterate.x t.1.2.2) fun t => Accounts m b t.1.2.2 := by
  have hempty : ∀ t : (Counts × (σ × List (Vec α))) × ω, t.1.2.2 = [] →
      Accounts m b t.1.2.2 := by
    intro t ht
    rw [ht]
    exact .inl fun p hp => absurd hp List.not_mem_nil
  have hmodel : s.model.box = .ok b := by
    rw [hs]
    exact hbox
  unfold minimize
  refine Attempt.bind (Attempt.ofExcept (fun _ _ _ h => h) hempty) fun _ => ?_
  refine Attempt.bind (Attempt.mono (Solve.start_attempt (J := fun t => t.2.2 = []) x₀)
    (fun _ h => h) (fun _ _ h => h) hempty) fun _ => ?_
  rw [hmodel]
  refine Attempt.bind (Attempt.ofExcept (Q := fun box t => t.1.2.2 = [] ∧ box = b)
    (fun box h _ ht => ⟨ht, by cases h; rfl⟩) hempty) fun box => Attempt.assume ?_
  rintro rfl
  refine Attempt.bind (Attempt.checked (Q := fun x t => t.1.2.2 = [] ∧ box.Holds x)
    (fun x h _ ht => ⟨ht, Box.holds_project (Model.isValid_box hbox) h⟩) hempty)
    fun x => Attempt.assume fun hx => ?_
  refine Attempt.bind (Attempt.lift (Triple.fault (Triple.onFst (evaluateStart_tracked hs hx))
    fun _ h => h.accounts)) ?_
  rintro (e | ⟨f, g⟩)
  · exact Attempt.lift (Triple.mono (Solve.finish_triple (J := Visited (Located m box x)) _ _ _ _ _)
      (fun _ h => h) (fun record t h => by rw [h.2]; exact h.1) fun _ h => h.accounts)
  · refine Attempt.bind (Attempt.checked (fun _ _ _ h => h) fun _ h => h.accounts) ?_
    rintro ⟨norm, active⟩
    refine Attempt.bind Attempt.emit fun _ => ?_
    have hrounds := Solve.iterate_triple (s := s)
      (P := fun (p : Progress α (Memory α μ)) =>
        Visited (Tracked m box p.iterate.x p.iterate.g))
      (round_tracked hs hstepper c)
    refine Attempt.lift (Triple.mono (hrounds _) (fun _ h => h) ?_ ?_)
    · rintro record t ⟨q, hq, hiterate⟩
      rw [hiterate]
      exact hq.toLocated
    · rintro t ⟨q, hq⟩
      exact hq.accounts

end TrustRegion

end Descent
