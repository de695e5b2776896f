import Descent.NewtonCg
import Descent.ProjectedNewton
import Descent.Proofs.Lbfgs
import Descent.Proofs.Simulation.Lbfgs
import Descent.Proofs.Simulation.NewtonCg
import Descent.Proofs.Simulation.ProjectedNewton
import Descent.Proofs.Trail
import Descent.Proofs.TrustRegion.Step

/-!
# The methods and what they report

The three methods of this library as one type, each with its settings. What the parts of a solve do,
a solve does (`Method.minimize_settles`), and where two solves make rounds that do the same, the
solves do (`Method.minimize_compares`, `Method.minimize_agrees`). `Method.solveNoted` is what comes
of a solve together with the iterations that its observer hears of. Whatever the method, these are
the iterations of a trail of its rounds, and a record is an ending of the trail
(`Method.solveNoted_ends`, `Method.solveNoted_reports`): a statement about all solves is a statement
about the rounds of each method.
-/

set_option autoImplicit false

namespace Descent

open Run

variable {α σ τ ω ω' : Type} [Scalar α]

/-! ## Methods -/

inductive Method (α : Type) [Scalar α] where
  | projectedNewton (c : TrustRegion.Config α)
  | newtonCg (c : TrustRegion.Config α) (withRescue : Bool)
  | lbfgs (c : Lbfgs.Config α)

/-- The parameters of the searches that rescue rejected steps. -/
def NewtonCg.rescueParams (withRescue : Bool) (o : Options α) : Option (LineSearchParams α) :=
  if withRescue then some (LineSearchKind.backtracking.params.withBudgets o) else none

namespace Method

def name : Method α → String
  | projectedNewton _ => ProjectedNewton.name
  | newtonCg _ _ => NewtonCg.name
  | lbfgs _ => Lbfgs.name

def minimize (method : Method α) (m : Model α σ) (x₀ : Vec α) (o : Options α)
    (observer : Observer α ω) (clock : Nat → Duration) :
    ExceptT SolverError (Run ((Counts × σ) × ω)) (Record α) :=
  match method with
  | projectedNewton c => ProjectedNewton.minimize c m x₀ o observer clock
  | newtonCg c withRescue => NewtonCg.minimize c withRescue m x₀ o observer clock
  | lbfgs c => Lbfgs.minimize c m x₀ o observer clock

def solve (method : Method α) (m : Model α σ) (o : Options α) (clock : Nat → Duration) :
    Solve α σ Unit :=
  ⟨method.name, m, o, .silent, clock⟩

/-- A solve from `x₀` starts at its projection, if there may be bounds. -/
def StartsAt (method : Method α) (m : Model α σ) (x₀ : Vec α) : Vec α → Prop :=
  match method with
  | projectedNewton _ | newtonCg _ _ => TrustRegion.StartsAt m x₀
  | lbfgs _ => Lbfgs.StartsAt x₀

theorem StartsAt.unique {method : Method α} {m : Model α σ} {x₀ x y : Vec α}
    (hx : method.StartsAt m x₀ x) (hy : method.StartsAt m x₀ y) : x = y := by
  have region : TrustRegion.StartsAt m x₀ x → TrustRegion.StartsAt m x₀ y → x = y := by
    rintro ⟨b, hb, hx⟩ ⟨b', hb', hy⟩
    cases hb.symm.trans hb'
    cases hx.symm.trans hy
    rfl
  cases method with
  | projectedNewton => exact region hx hy
  | newtonCg => exact region hx hy
  | lbfgs => exact Eq.trans hx (Eq.symm hy)

/-- The courses that a solve by the method from `x₀` and a state of the model can take, with the
state in which the first round finds the model. -/
inductive Opens (s : Solve α σ Unit) (x₀ : Vec α) (state : σ) :
    Method α → Course α σ → Counts × σ → Prop
  | projectedNewton {c : TrustRegion.Config α} {course : Course α σ} {start : Counts × σ}
      (opens : TrustRegion.Opens s (ProjectedNewton.stepper c.subproblem.linearSolver c.cg) c x₀
        state course start) : Opens s x₀ state (.projectedNewton c) course start
  | newtonCg {c : TrustRegion.Config α} {withRescue : Bool} {course : Course α σ}
      {start : Counts × σ}
      (params : ∀ p, NewtonCg.rescueParams withRescue s.options = some p → p.validate = .ok ())
      (opens : TrustRegion.Opens s (NewtonCg.stepper c.subproblem.linearSolver c.cg
        (NewtonCg.rescueParams withRescue s.options)) c x₀ state course start) :
      Opens s x₀ state (.newtonCg c withRescue) course start
  | lbfgs {c : Lbfgs.Config α} {course : Course α σ} {start : Counts × σ}
      (opens : Lbfgs.Opens s c x₀ state course start) : Opens s x₀ state (.lbfgs c) course start

/-- A course begins at the starting point with the values of the model there. -/
theorem Opens.starts {s : Solve α σ Unit} {x₀ : Vec α} {state : σ} {method : Method α}
    {c : Course α σ} {start : Counts × σ} (opens : Opens s x₀ state method c start) :
    method.StartsAt s.model x₀ c.first.iterate.x ∧
      Leads (s.evaluateStart c.first.iterate.x) ({}, state)
        (c.first.iterate.f, c.first.iterate.g) start := by
  cases opens with
  | projectedNewton opens =>
      cases opens with
      | intro _ _ _ hbox project evaluate => exact ⟨⟨_, hbox, project⟩, evaluate⟩
  | newtonCg _ opens =>
      cases opens with
      | intro _ _ _ hbox project evaluate => exact ⟨⟨_, hbox, project⟩, evaluate⟩
  | lbfgs opens =>
      cases opens with
      | intro _ _ _ _ _ evaluate => exact ⟨rfl, evaluate⟩

section Parts

variable {s : Solve α σ ω} {x₀ : Vec α} {state : σ} {K₀ K₁ : ω → Prop}
  {R : Record α → (Counts × σ) × ω → Prop} {E : SolverError → (Counts × σ) × ω → Prop}
  {F : (Counts × σ) × ω → Prop}

theorem newtonCg_settles (hname : s.solver = NewtonCg.name) (c : TrustRegion.Config α)
    (withRescue : Bool)
    (h : s.Parts (StartsAt (newtonCg c withRescue) s.model x₀)
      (Opens s.unobserved x₀ state (newtonCg c withRescue)) state K₀ K₁ R E F)
    (hbounds : ∀ inner u, s.model.box = .error inner → u.1 = ({}, state) → K₁ u.2 →
      E (.model inner) u) :
    Settles (fun u => u.1 = ({}, state) ∧ K₀ u.2)
      (NewtonCg.minimize c withRescue s.model x₀ s.options s.observer s.clock) R E F := by
  obtain ⟨_, m, o, observer, clock⟩ := s
  obtain rfl : _ = NewtonCg.name := hname
  -- the solve behind the checks
  have hsolve : (∀ p, NewtonCg.rescueParams withRescue o = some p → p.validate = .ok ()) →
      Settles (fun u => u.1 = ({}, state) ∧ K₀ u.2)
        (TrustRegion.minimize ⟨NewtonCg.name, m, o, observer, clock⟩
          (NewtonCg.stepper c.subproblem.linearSolver c.cg (NewtonCg.rescueParams withRescue o))
          c x₀) R E F :=
    fun params => TrustRegion.minimize_settles _ c (h.mono fun _ _ => .newtonCg params) hbounds
  have hrefused : ∀ e, (∀ inner, e ≠ .model inner) → ∀ u : (Counts × σ) × ω,
      u.1 = ({}, state) ∧ K₀ u.2 → E e u :=
    fun e he u hu => h.refused e u he hu.1 hu.2
  unfold NewtonCg.minimize
  refine Settles.ite (fun _ => Settles.throw_bind (hrefused _ nofun)) fun _ => ?_
  dsimp only
  cases withRescue with
  | false => exact hsolve fun _ h => (nomatch h)
  | true =>
      refine Settles.bind (Settles.ofExcept (fun _ h _ hu => And.intro hu h) fun e he =>
        hrefused e ((LineSearchParams.namesSetting_validate _).not_model he)) fun _ =>
        Settles.assume fun hvalid => ?_
      exact hsolve fun p hp => by cases hp; exact hvalid

/-- **What the parts of a solve do, a solve does.** Only the methods with a trust region look at the
bounds after the start. -/
theorem minimize_settles (method : Method α) (hname : s.solver = method.name)
    (h : s.Parts (method.StartsAt s.model x₀) (Opens s.unobserved x₀ state method) state K₀ K₁
      R E F)
    (hbounds : (∀ c, method ≠ .lbfgs c) → ∀ inner u, s.model.box = .error inner →
      u.1 = ({}, state) → K₁ u.2 → E (.model inner) u) :
    Settles (fun u => u.1 = ({}, state) ∧ K₀ u.2)
      (method.minimize s.model x₀ s.options s.observer s.clock) R E F := by
  cases method with
  | projectedNewton c =>
      obtain ⟨_, m, o, observer, clock⟩ := s
      obtain rfl : _ = ProjectedNewton.name := hname
      exact TrustRegion.minimize_settles _ c (h.mono fun _ _ => .projectedNewton) (hbounds nofun)
  | newtonCg c withRescue => exact newtonCg_settles hname c withRescue h (hbounds nofun)
  | lbfgs c => exact Lbfgs.minimize_settles hname c (h.mono fun _ _ => .lbfgs)

end Parts

/-- A solve ends with a record at its starting point or after a trail of its rounds, and the
observer has heard of these rounds, wherever it stops. -/
theorem minimize_ends (method : Method α) (m : Model α σ) (x₀ : Vec α) (o : Options α)
    (observer : Observer α ω) (clock : Nat → Duration) (state : σ) :
    let s := method.solve m o clock
    Attempt (fun u => u.1 = ({}, state) ∧ u.2.2 = [])
      (method.minimize m x₀ o observer.noting clock)
      (fun record u => s.Ends (method.StartsAt m x₀) (Opens s x₀ state method) record u.2.2)
      fun u => Solve.Reports (Opens s x₀ state method) u.2.2 := by
  intro s
  let noted : Solve α σ (ω × List (Iteration α)) := ⟨method.name, m, o, observer.noting, clock⟩
  have hs : noted.observer = observer.noting := rfl
  have hnothing : ∀ u : (Counts × σ) × ω × List (Iteration α), u.2.2 = [] →
      Solve.Reports (Opens s x₀ state method) u.2.2 := by
    intro u hseen
    rw [hseen]
    exact .nothing
  have hparts : noted.Parts (method.StartsAt m x₀) (Opens s x₀ state method) state
      (fun w => w.2 = []) (fun w => w.2 = [])
      (fun record u => s.Ends (method.StartsAt m x₀) (Opens s x₀ state method) record u.2.2)
      (fun _ u => Solve.Reports (Opens s x₀ state method) u.2.2)
      fun u => Solve.Reports (Opens s x₀ state method) u.2.2 :=
    { refused := fun _ u _ _ hseen => hnothing u hseen
      started := fun _ _ hseen => hseen
      fault := hnothing
      atStart := fun x e t hx breaks => Solve.finishAtStart_ends hs hx breaks.fails
      rounds := fun c start opens => Solve.iterate_ends hs opens }
  exact minimize_settles (s := noted) method rfl hparts fun _ _ u _ _ hseen => hnothing u hseen

/-! ## Side by side -/

/-- The rounds of two solves by a method, in the same box or with the same search. -/
inductive Rounds (s' : Solve α τ ω') (s : Solve α σ ω) : Method α → ∀ {μ : Type},
    (Nat → Progress α μ → Working τ (Round α μ)) →
    (Nat → Progress α μ → Working σ (Round α μ)) → Prop
  | projectedNewton (c : TrustRegion.Config α) (b : Box α) :
      Rounds s' s (.projectedNewton c)
        (TrustRegion.round s' (ProjectedNewton.stepper c.subproblem.linearSolver c.cg) c b)
        (TrustRegion.round s (ProjectedNewton.stepper c.subproblem.linearSolver c.cg) c b)
  | newtonCg (c : TrustRegion.Config α) (withRescue : Bool) (params : Option (LineSearchParams α))
      (b : Box α) : Rounds s' s (.newtonCg c withRescue)
        (TrustRegion.round s' (NewtonCg.stepper c.subproblem.linearSolver c.cg params) c b)
        (TrustRegion.round s (NewtonCg.stepper c.subproblem.linearSolver c.cg params) c b)
  | lbfgs (c : Lbfgs.Config α) (search : LineSearch α) :
      Rounds s' s (.lbfgs c) (Lbfgs.round s' search c.initialStepSize)
        (Lbfgs.round s search c.initialStepSize)

section Compare

variable {J : Journals} {V : τ → σ → Prop} {W : ω' → ω → Prop} {m' : Model α τ} {m : Model α σ}
  {o' : Observer α ω'} {observer : Observer α ω} {μ : Type}

/-- On models that are alike the rounds do the same. -/
theorem Rounds.agrees {method : Method α} {s : Solve α σ ω} (hm : m'.Alike J V s.model)
    {round' : Nat → Progress α μ → Working τ (Round α μ)}
    {round : Nat → Progress α μ → Working σ (Round α μ)}
    (h : Rounds (s.on m' o') s method round' round) (k : Nat) (p : Progress α μ) :
    Agrees J (Both Eq V) (round' k p) (round k p) := by
  cases h with
  | projectedNewton c b =>
      exact TrustRegion.round_agrees hm (ProjectedNewton.stepper_alike _ _) c b k p
  | newtonCg c _ params b =>
      exact TrustRegion.round_agrees hm (NewtonCg.stepper_alike _ _ params) c b k p
  | lbfgs c search => exact Lbfgs.round_agrees hm search c.initialStepSize k p

/-- **Two solves side by side.** They are alike up to the loop, or end before it alike. -/
theorem minimize_compares (method : Method α) (x₀ : Vec α) {o₁ o : Options α}
    {clock' clock : Nat → Duration}
    {Q : End ((Counts × τ) × ω') (Except SolverError (Record α)) →
      End ((Counts × σ) × ω) (Except SolverError (Record α)) → Prop} :
    let s' : Solve α τ ω' := ⟨method.name, m', o₁, o', clock'⟩
    let s : Solve α σ ω := ⟨method.name, m, o, observer, clock⟩
    s'.Alike J V W s →
    (∀ (r : Except Fault (Except SolverError (Record α))) t u j' j,
      (∀ record, r ≠ .ok (.ok record)) → Both (Both Eq V) W t u → J.Match j' j →
        Q ((r, t), j') ((r, u), j)) →
    (∀ x e, Compares J (Both (Both Eq V) W) (s'.finishAtStart x e) (s.finishAtStart x e)
      fun out' out => Q (End.map .ok out') (End.map .ok out)) →
    (∀ {μ : Type} (round' : Nat → Progress α μ → Working τ (Round α μ))
      (round : Nat → Progress α μ → Working σ (Round α μ)), Rounds s' s method round' round → ∀ p,
        Compares J (Both (Both Eq V) W) (s'.iterate round' p) (s.iterate round p)
          fun out' out => Q (End.map .ok out') (End.map .ok out)) →
    Compares J (Both (Both Eq V) W) (method.minimize m' x₀ o₁ o' clock').run
      (method.minimize m x₀ o observer clock).run Q := by
  intro s' s h hend hfinish hiterate
  cases method with
  | projectedNewton c =>
      exact TrustRegion.minimize_compares h rfl c x₀ hend hfinish fun b =>
        hiterate _ _ (.projectedNewton c b)
  | newtonCg c withRescue =>
      exact NewtonCg.minimize_compares c withRescue x₀ h hend hfinish fun params b =>
        hiterate _ _ (.newtonCg c withRescue params b)
  | lbfgs c =>
      exact Lbfgs.minimize_compares c x₀ h hend hfinish fun search =>
        hiterate _ _ (.lbfgs c search)

/-- On models that are alike, under observers that are told the same, a method does the same. -/
theorem minimize_agrees (method : Method α) (hm : m'.Alike J V m) (ho : o'.Alike J W observer)
    (x₀ : Vec α) (o : Options α) (clock : Nat → Duration) :
    Agrees J (Both (Both Eq V) W) (method.minimize m' x₀ o o' clock)
      (method.minimize m x₀ o observer clock) := by
  let s : Solve α σ ω := ⟨method.name, m, o, observer, clock⟩
  have hsolve : (s.on m' o').Alike J V W s := Solve.alike_on hm ho
  refine method.minimize_compares x₀ hsolve (fun r t u j' j _ hK hj => ⟨rfl, hK, hj⟩) ?_ ?_
  · intro x e
    have hfinish := Solve.finishAtStart_relates (s := s) hm ho x e
    exact hfinish.mono (fun _ _ h => h) fun _ _ h => h.map _
  · intro μ round' round hrounds p
    have hround : ∀ k q, Agrees J (Both Eq V) (round' k q) (round k q) :=
      Rounds.agrees (s := s) hm hrounds
    have hiterate := Solve.iterate_relates (s := s) hm ho hround p
    exact hiterate.mono (fun _ _ h => h) fun _ _ h => h.map _

end Compare

/-! ## What an observer hears -/

/-- What another observer hears is all that it changes. -/
theorem minimize_heard {look : ω' → ω} {o' : Observer α ω'} {observer : Observer α ω}
    (method : Method α) (ho : o'.Imitates look observer) (m : Model α σ) (x₀ : Vec α)
    (o : Options α) (clock : Nat → Duration) :
    Imitates (Prod.map id look) (method.minimize m x₀ o o' clock)
      (method.minimize m x₀ o observer clock) := by
  have hagrees := method.minimize_agrees m.alike_self ho.alike x₀ o clock
  have hview : Both (Both Eq Eq) (Sees look)
      = Sees (Prod.map id look : (Counts × σ) × ω' → (Counts × σ) × ω) :=
    (whole_sees : Both (Both Eq (Sees id)) (Sees look) = Sees (Prod.map (Prod.map id id) look))
  rw [hview] at hagrees
  exact imitates_iff.mpr hagrees

/-- But for the list of iterations, a noted solve is the solve. -/
theorem minimize_noted (method : Method α) (m : Model α σ) (x₀ : Vec α) (o : Options α)
    (observer : Observer α ω) (clock : Nat → Duration) :
    Imitates (Prod.map id Prod.fst) (method.minimize m x₀ o observer.noting clock)
      (method.minimize m x₀ o observer clock) :=
  method.minimize_heard observer.noting_imitates m x₀ o clock

/-- What comes of a solve, and the iterations that its observer hears of: those that a noting
observer leaves. -/
def solveNoted (method : Method α) (m : Model α σ) (x₀ : Vec α) (o : Options α)
    (observer : Observer α ω) (clock : Nat → Duration) (state : σ) (w : ω) (journal : Journal) :
    Except Fault (Except SolverError (Record α)) × List (Iteration α) :=
  ((Run.start (method.minimize m x₀ o observer clock).run (({}, state), w) journal).1.1,
    (Run.start (method.minimize m x₀ o observer.noting clock).run
      (({}, state), (w, [])) journal).1.2.2.2)

section Noted

variable (method : Method α) (m : Model α σ) (x₀ : Vec α) (o : Options α) (observer : Observer α ω)
  (clock : Nat → Duration) (state : σ) (w : ω) (journal : Journal)

/-- The result and the list are those of one run. -/
theorem solveNoted_eq :
    solveNoted method m x₀ o observer clock state w journal =
      ((Run.start (method.minimize m x₀ o observer.noting clock).run
          (({}, state), (w, [])) journal).1.1,
        (Run.start (method.minimize m x₀ o observer.noting clock).run
          (({}, state), (w, [])) journal).1.2.2.2) := by
  have h := minimize_noted method m x₀ o observer clock (({}, state), (w, [])) journal
  exact congrArg (·, _) (congrArg (fun out => out.1.1) h).symm

variable {method m x₀ o observer clock state w journal} {record : Record α}
  {seen : List (Iteration α)}

/-- A record is an ending of the trail that the observer has heard of. -/
theorem solveNoted_ends
    (h : solveNoted method m x₀ o observer clock state w journal = (.ok (.ok record), seen)) :
    (method.solve m o clock).Ends (method.StartsAt m x₀)
      (Opens (method.solve m o clock) x₀ state method) record seen := by
  have hend := minimize_ends method m x₀ o observer clock state (({}, state), (w, [])) journal
    ⟨rfl, rfl⟩
  rw [solveNoted_eq] at h
  generalize Run.start _ _ journal = out at h hend
  rcases out with ⟨⟨r, u⟩, journal'⟩
  cases h
  exact hend

/-- However the solve ends, the observer has heard of a trail of its rounds. -/
theorem solveNoted_reports :
    Solve.Reports (Opens (method.solve m o clock) x₀ state method)
      (solveNoted method m x₀ o observer clock state w journal).2 := by
  have hend := minimize_ends method m x₀ o observer clock state (({}, state), (w, [])) journal
    ⟨rfl, rfl⟩
  rw [solveNoted_eq]
  generalize Run.start _ _ journal = out at hend ⊢
  rcases out with ⟨⟨_ | _ | record, u⟩, journal'⟩
  · exact hend
  · exact hend
  · exact Solve.Ends.reports hend

end Noted

end Method

end Descent
