import Descent.Proofs.Method
import Descent.Proofs.ProjectedNewton.Trial
import Descent.Proofs.TrustRegion

/-!
# The projected Newton method and the box

The method evaluates the objective at the projected starting point, at projected points and at
Cauchy points `x + (P(x - a g) - x)`. Since the last are rounded sums, the method leaves the box
exactly if one of them does (`minimize_stays_in_box_iff`). In exact arithmetic none does
(`minimize_stays_in_box_exact`), in doubles one can (`minimize_leaves_box`). The points are those
that the solve of the watched model leaves, which is otherwise the same solve (`minimize_watched`).
-/

set_option autoImplicit false

namespace Descent.ProjectedNewton

open Run

variable {α σ ω : Type} [Scalar α] {m : Model α σ} {b : Box α}

theorem stepper_staysClose [Scalar.Ordered α] (hb : b.IsValid) (linear : Option (LinearSolver α))
    (cg : TruncatedCg.Config α) :
    TrustRegion.Stepper.StaysClose (stepper linear cg) m b where
  propose _ iterate radius gradientNorm memory := by
    have hagrees := fun visited => propose_agrees
      (m.hessianImitates_watched visited).alike.counted linear cg b iterate radius gradientNorm
      memory
    exact Attains.beside hagrees
      (stepper_attains linear cg _ hb iterate radius gradientNorm memory)
  rescue _ _ _ := rfl

/-- But for the list, the solve of a watched model is the solve of the model inside. -/
theorem minimize_watched (c : TrustRegion.Config α) (m : Model α σ) (x₀ : Vec α) (o : Options α)
    (observer : Observer α ω) (clock : Nat → Duration) (s : σ) (visited : List (Vec α)) (w : ω)
    (journal : Journal) :
    seen (Prod.map (Prod.map id Prod.fst) id)
        (Run.start (minimize c m.watched x₀ o observer clock).run (({}, (s, visited)), w) journal)
      = Run.start (minimize c m x₀ o observer clock).run (({}, s), w) journal := by
  have hsolve : Agrees .same (Both (Both Eq (Sees Prod.fst)) Eq)
      (minimize c m.watched x₀ o observer clock) (minimize c m x₀ o observer clock) :=
    (Method.projectedNewton c).minimize_agrees m.watched_imitates.alike observer.alike_self x₀ o
      clock
  have hview : Both (Both Eq (Sees Prod.fst)) Eq
      = Sees (Prod.map (Prod.map id Prod.fst) id : (Counts × (σ × List (Vec α))) × ω → _) :=
    whole_sees
  rw [hview] at hsolve
  exact imitates_iff.mpr hsolve (({}, (s, visited)), w) journal

/-- What comes of a solve, and the points at which it evaluates the objective: those that the solve
of the watched model leaves. -/
def solveWatched (c : TrustRegion.Config α) (m : Model α σ) (x₀ : Vec α) (o : Options α)
    (observer : Observer α ω) (clock : Nat → Duration) (s : σ) (w : ω) (journal : Journal) :
    Except Fault (Except SolverError (Record α)) × List (Vec α) :=
  ((Run.start (minimize c m x₀ o observer clock).run (({}, s), w) journal).1.1,
    (Run.start (minimize c m.watched x₀ o observer clock).run (({}, (s, [])), w) journal).1.2.1.2.2)

/-- The objective is evaluated in the box only, and the record ends there. -/
def StaysInBox (b : Box α)
    (out : Except Fault (Except SolverError (Record α)) × List (Vec α)) : Prop :=
  (∀ p ∈ out.2, b.Holds p) ∧ ∀ record, out.1 = .ok (.ok record) → b.Holds record.iterate.x

section Solve

variable (c : TrustRegion.Config α) (x₀ : Vec α) (o : Options α) (observer : Observer α ω)
  (clock : Nat → Duration) (s : σ) (w : ω) (journal : Journal)

/-- The points of a solve are accounted for, and a record ends at one of them. -/
theorem solveWatched_accounts [Scalar.Ordered α] (hbox : m.box = .ok b) :
    Accounts m b (solveWatched c m x₀ o observer clock s w journal).2 ∧
      ∀ record, (solveWatched c m x₀ o observer clock s w journal).1 = .ok (.ok record) →
        record.iterate.x ∈ (solveWatched c m x₀ o observer clock s w journal).2 := by
  have hb := Model.isValid_box hbox
  have located := TrustRegion.minimize_located (s := ⟨name, m.watched, o, observer, clock⟩) rfl hbox
    (stepper_staysClose hb c.subproblem.linearSolver c.cg) c x₀
  have hend := located (({}, (s, [])), w) journal rfl
  -- the record is the one of the watched solve, whose points are known
  unfold solveWatched
  rw [← minimize_watched c m x₀ o observer clock s [] w journal]
  unfold minimize seen
  dsimp only
  generalize Run.start _ _ journal = out at hend ⊢
  rcases out with ⟨⟨_ | _ | record, t⟩, journal'⟩
  · exact ⟨hend, fun _ h => by cases h⟩
  · exact ⟨hend, fun _ h => by cases h⟩
  · exact ⟨hend.accounts, fun _ h => by cases h; exact hend.mem⟩

/-- A solve stays in the box if and only if no Cauchy point leaves it. -/
theorem staysInBox_iff [Scalar.Ordered α] (hbox : m.box = .ok b) :
    StaysInBox b (solveWatched c m x₀ o observer clock s w journal) ↔
      ∀ x ∈ (solveWatched c m x₀ o observer clock s w journal).2, b.Holds x →
        ∀ g, m.HasGradient x g →
          ∀ p ∈ (solveWatched c m x₀ o observer clock s w journal).2, b.CauchyPoint x g p →
            b.Holds p := by
  obtain ⟨haccounts, hrecord⟩ :=
    solveWatched_accounts c x₀ o observer clock s w journal hbox
  constructor
  · intro hstays x _ _ g _ p hp _
    exact hstays.1 p hp
  · intro hcauchy
    have hall : ∀ p ∈ (solveWatched c m x₀ o observer clock s w journal).2, b.Holds p := by
      refine haccounts.resolve_right ?_
      rintro ⟨x, hx, p, hp, g, hin, hgradient, hpoint, hout⟩
      exact hout (hcauchy x hx hin g hgradient p hp hpoint)
    exact ⟨hall, fun record h => hall _ (hrecord record h)⟩

end Solve

/-- In exact arithmetic the method never leaves the box. -/
theorem minimize_stays_in_box_exact [RealConstants] (c : TrustRegion.Config ℝ) {m : Model ℝ σ}
    {b : Box ℝ} (hbox : m.box = .ok b) (x₀ : Vec ℝ) (o : Options ℝ) (observer : Observer ℝ ω)
    (clock : Nat → Duration) (s : σ) (w : ω) (journal : Journal) :
    StaysInBox b (solveWatched c m x₀ o observer clock s w journal) := by
  rw [staysInBox_iff c x₀ o observer clock s w journal hbox]
  intro x _ _ g _ p _ hp
  exact hp.holds (Model.isValid_box hbox)

/-- **When the method leaves the box.** In doubles all points at which it evaluates the objective,
its iterates among them, and the point of the record, lie in the box if and only if every visited
`x + (P(x - a g) - x)` does where `x` is a visited point of the box and `g` a gradient of the model
there. -/
theorem minimize_stays_in_box_iff (c : TrustRegion.Config Float) (m : Model Float σ) {b : Box Float}
    (hbox : m.box = .ok b) (x₀ : Vec Float) (o : Options Float) (observer : Observer Float ω)
    (clock : Nat → Duration) (s : σ) (w : ω) (journal : Journal) :
    StaysInBox b (solveWatched c m x₀ o observer clock s w journal) ↔
      ∀ x ∈ (solveWatched c m x₀ o observer clock s w journal).2, b.Holds x →
        ∀ g, m.HasGradient x g →
          ∀ p ∈ (solveWatched c m x₀ o observer clock s w journal).2, b.CauchyPoint x g p →
            b.Holds p :=
  staysInBox_iff c x₀ o observer clock s w journal hbox

/-! ## A bound that rounding skips -/

/-- The identity of one variable above a bound. -/
def descending (lower : Float) : Model Float Unit where
  dimension := 1
  objective x := pure (x.headD 0)
  gradient _ := pure [1]
  hessianVector _ _ := pure [0]
  sides := ([lower], [1 / 0])

/-- Its solve from 1 with all settings at their defaults. -/
def descend (lower : Float) : Except Fault (Except SolverError (Record Float)) × List (Vec Float) :=
  solveWatched {} (descending lower) [1] {} (Observer.silent : Observer Float Unit)
    (fun _ => .zero) () () #[]

/-- From 1 the method goes to the bound 0 and stays in the box. -/
theorem minimize_stays_in_box_zero :
    (descending 0).box = .ok [⟨0, 1 / 0⟩] ∧ StaysInBox [⟨0, 1 / 0⟩] (descend 0) := by
  have hall : ∀ p ∈ (descend 0).2, Box.Holds [⟨0, 1 / 0⟩] p := by decide +kernel
  have hbox : (descending 0).box = .ok [⟨0, 1 / 0⟩] := rfl
  have hiff := minimize_stays_in_box_iff {} (descending 0) hbox [1] {}
    (Observer.silent : Observer Float Unit) (fun _ => .zero) () () #[]
  exact ⟨hbox, hiff.mpr fun x _ _ g _ p hp _ => hall p hp⟩

/-- With the bound `1e-20` the computed Cauchy step from 1 is `-1`: the method evaluates the
objective at 0, below the bound, and ends there. -/
theorem minimize_leaves_box :
    (descending 1e-20).box = .ok [⟨1e-20, 1 / 0⟩] ∧
      (¬ ∀ p ∈ (descend 1e-20).2, Box.Holds [⟨1e-20, 1 / 0⟩] p) ∧
      ¬ ∀ record, (descend 1e-20).1 = .ok (.ok record) →
        Box.Holds [⟨1e-20, 1 / 0⟩] record.iterate.x := by
  refine ⟨rfl, by decide +kernel, fun h => ?_⟩
  have hend : (match (descend 1e-20).1 with
    | .ok (.ok record) => decide (Box.Holds [⟨1e-20, 1 / 0⟩] record.iterate.x)
    | _ => true) = false := by decide +kernel
  generalize (descend 1e-20).1 = result at h hend
  rcases result with _ | _ | record
  · cases hend
  · cases hend
  · exact of_decide_eq_false hend (h record rfl)

end Descent.ProjectedNewton
