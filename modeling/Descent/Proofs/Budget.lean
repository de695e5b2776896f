import Descent.Proofs.Method
import Descent.Proofs.QuasiNewton
import Descent.Proofs.Record

/-!
# Larger budgets

What a solve does depends neither on how many iterations it may make nor on who watches it, as long
as the answers are the same. A solve with a larger budget of iterations repeats the smaller one and
goes on from there, and two observers that never stop a solve see it end alike; only the time may
differ (`Method.larger_budget_extends`).

Two solves of a model that does not read the journal are compared. Their rounds do the same
(`round_timed`), so that their loops stay side by side until the smaller budget is used up
(`iterate_extends`). From there on the longer solve only adds to what its observer has heard
(`loop_appends`).
-/

set_option autoImplicit false

namespace Descent

open Run

variable {α σ ω ω' μ : Type}

/-! ## All but the time -/

def Iteration.untimed (i : Iteration α) : Iteration α := { i with elapsed := .zero }

def Record.untimed (r : Record α) : Record α := { r with elapsed := .zero }

def Round.timed (elapsed : Duration) (r : Round α μ) : Round α μ :=
  { r with iteration := { r.iteration with elapsed } }

/-- The iterations are the same but for the time. -/
def Untimed (seen' seen : List (Iteration α)) : Prop :=
  seen'.map Iteration.untimed = seen.map Iteration.untimed

/-! ## Observers -/

namespace Observer

/-- Told the same but for the time, the observers give the same answers, from states that `W`
relates. -/
structure AnswersAlike (W : ω' → ω → Prop) (o' : Observer α ω') (o : Observer α ω) : Prop where
  onStart : ∀ solver model, Relates .any W (ExceptT.lift (o'.onStart solver model))
    (ExceptT.lift (o.onStart solver model))
  onIteration : ∀ i' i, i'.untimed = i.untimed →
    Relates .any W (ExceptT.lift (o'.onIteration i')) (ExceptT.lift (o.onIteration i))

def NeverStops (o : Observer α ω) : Prop :=
  ∀ i w journal, (o.onIteration i w journal).1.1 = true

variable {W : ω' → ω → Prop} {o' : Observer α ω'} {o : Observer α ω}

/-- Observers that never stop a solve give the same answers. -/
theorem NeverStops.answersAlike (ho' : o'.NeverStops) (ho : o.NeverStops) :
    o'.AnswersAlike (fun _ _ => True) o where
  onStart _ _ _ _ _ _ _ _ := ⟨rfl, trivial, trivial⟩
  onIteration i' i _ w' w j' j _ _ := by
    refine ⟨?_, trivial, trivial⟩
    show Except.ok (o'.onIteration i' w' j').1.1 = Except.ok (o.onIteration i w j).1.1
    rw [ho' i' w' j', ho i w j]

/-- What they note is then the same. -/
theorem AnswersAlike.noting (ho : o'.AnswersAlike W o) :
    o'.noting.AnswersAlike (Both W Untimed) o.noting where
  onStart solver model := .onFst (ho.onStart solver model)
  onIteration i' i hi := by
    rintro ⟨w', seen'⟩ ⟨w, seen⟩ j' j ⟨hw, hseen⟩ hj
    have hseen_next : Untimed (seen' ++ [i']) (seen ++ [i]) := by
      unfold Untimed at hseen ⊢
      rw [List.map_append, List.map_append, hseen, List.map_singleton, List.map_singleton, hi]
    have hanswer : Relates .any (Both W (Untimed (α := α)))
        (Run.onFst (ExceptT.lift (o'.onIteration i')))
        (Run.onFst (ExceptT.lift (o.onIteration i))) := .onFst (ho.onIteration i' i hi)
    exact hanswer (w', seen' ++ [i']) (w, seen ++ [i]) j' j ⟨hw, hseen_next⟩ hj

end Observer

/-! ## Solves with another budget -/

variable [Scalar α]

/-- What a model does depends on its state only, not on what has been reported. -/
def Model.IgnoresJournal (m : Model α σ) : Prop := m.Alike .any Eq m

/-- A quasi-Newton layer does not read the journal. -/
theorem Model.IgnoresJournal.quasiNewton {m : Model α σ} (hm : m.IgnoresJournal) :
    m.quasiNewton.IgnoresJournal := by
  have hlayer := Model.Alike.quasiNewton hm
  have hstates : Both (Eq : History α → History α → Prop) (Eq : σ → σ → Prop) = Eq :=
    (both_sees : Both (Sees id) (Sees id) = Sees (Prod.map id id))
  rw [hstates] at hlayer
  exact hlayer

/-- The same solve with another budget of iterations, another observer and another clock. -/
def Solve.renewed (s : Solve α σ ω) (most : Nat) (o' : Observer α ω') (clock' : Nat → Duration) :
    Solve α σ ω' :=
  ⟨s.solver, s.model, { s.options with maxIterations := most }, o', clock'⟩

/-- What is made of both branches is made of the one that is taken. -/
theorem ite_eq_map {M : Type → Type} [Functor M] {β γ : Type} {p : Prop} [Decidable p] {f : β → γ}
    {a b : M β} {a' b' : M γ} (ha : a' = f <$> a) (hb : b' = f <$> b) :
    (if p then a' else b') = f <$> if p then a else b := by
  rw [ha, hb, apply_ite (f <$> ·)]

/-- A round does the same, told at another time. -/
theorem TrustRegion.round_timed (s : Solve α σ ω) (most : Nat) (o' : Observer α ω')
    (clock' : Nat → Duration) (stepper : TrustRegion.Stepper α (Counts × σ) μ)
    (c : TrustRegion.Config α) (box : Box α) (k : Nat)
    (p : Progress α (TrustRegion.Memory α μ)) :
    TrustRegion.round (s.renewed most o' clock') stepper c box k p
      = Round.timed (clock' k) <$> TrustRegion.round s stepper c box k p := by
  unfold round
  rw [map_bind]
  refine bind_congr ?_
  rintro ⟨reason | ⟨trial, value, ratio⟩ | ⟨trial, value, gradient, ratio⟩ | ⟨found, ratio⟩, memory⟩
  · rw [map_bind]
    refine bind_congr fun _ => ?_
    exact ite_eq_map rfl rfl
  · exact ite_eq_map rfl rfl
  · rw [map_bind]
    exact bind_congr fun _ => rfl
  · rw [map_bind]
    refine bind_congr fun step => ?_
    rw [map_bind]
    refine bind_congr fun _ => ?_
    rw [map_bind]
    exact bind_congr fun _ => rfl

/-- So does a round of the limited-memory BFGS method. -/
theorem Lbfgs.round_timed (s : Solve α σ ω) (most : Nat) (o' : Observer α ω')
    (clock' : Nat → Duration) (search : LineSearch α) (initialStepSize : α) (k : Nat)
    (p : Progress α (History α)) :
    Lbfgs.round (s.renewed most o' clock') search initialStepSize k p
      = Round.timed (clock' k) <$> Lbfgs.round s search initialStepSize k p := by
  unfold round
  rw [map_bind]
  refine bind_congr ?_
  rintro ⟨d, h⟩
  rw [map_bind]
  refine bind_congr ?_
  rintro (e | found)
  · refine ite_eq_map ?_ rfl
    rw [map_bind]
    rfl
  · rw [map_bind]
    refine bind_congr fun step => ?_
    rw [map_bind]
    refine bind_congr fun change => ?_
    rw [map_bind]
    refine bind_congr fun _ => ?_
    rw [map_bind]
    refine bind_congr ?_
    rintro ⟨stored, h'⟩
    cases stored with
    | false => rfl
    | true => rfl

/-! ## Side by side until the smaller budget is used up -/

/-- The result of a solve without the time since the start. -/
def untimed (result : Except Fault (Except SolverError (Record α))) :
    Except Fault (Except SolverError (Record α)) :=
  result.map (Except.map Record.untimed)

/-- What comes of a run under a noting observer, with the iterations that it leaves. -/
def Run.End.noted {ρ β : Type} (out : End (ρ × ω × List (Iteration α)) β) :
    Except Fault β × List (Iteration α) :=
  (out.1.1, out.1.2.2.2)

/-- But for the time, the longer solve ends as the shorter did, or it has gone on from where the
shorter solve was out of its `limit` iterations. -/
inductive Extends (limit most : Nat) :
    Except Fault (Except SolverError (Record α)) × List (Iteration α) →
    Except Fault (Except SolverError (Record α)) × List (Iteration α) → Prop
  | same {result' result : Except Fault (Except SolverError (Record α))}
      {seen' seen : List (Iteration α)} (results : untimed result' = untimed result)
      (iterations : Untimed seen' seen) : Extends limit most (result', seen') (result, seen)
  | more {result' : Except Fault (Except SolverError (Record α))} {record : Record α}
      {seen' seen : List (Iteration α)} (larger : limit < most)
      (spent : record.iterations = limit) (status : record.status = .iterationLimit)
      (iterations : seen.map Iteration.untimed <+: seen'.map Iteration.untimed) :
      Extends limit most (result', seen') (.ok (.ok record), seen)

namespace Solve

variable {s : Solve α σ (ω × List (Iteration α))} {o : Observer α ω} {o' : Observer α ω'}
  {W : ω' → ω → Prop}

/-- A loop only adds to what its observer has heard. -/
theorem loop_appends (hs : s.observer = o.noting) (before : List (Iteration α))
    (threshold : α) (round : Nat → Progress α μ → Working σ (Round α μ)) (remaining k : Nat)
    (p : Progress α μ) :
    Triple (fun u => before <+: u.2.2) (s.loop threshold round remaining k p)
      (fun _ u => before <+: u.2.2) fun u => before <+: u.2.2 := by
  have hround : ∀ k p (w : ω × List (Iteration α)), Settles (fun _ => before <+: w.2)
      (round (k + 1) p) (fun _ _ => before <+: w.2) (fun _ _ => before <+: w.2)
      fun _ => before <+: w.2 := fun _ _ w => Settles.always (before <+: w.2)
  have hnotify : ∀ i, Triple (fun u : (Counts × σ) × ω × List (Iteration α) => before <+: u.2.2)
      (s.notify i) (fun _ u => before <+: u.2.2) fun u => before <+: u.2.2 := by
    intro i
    refine Triple.mono (notify_noted (K := fun _ seen => before <+: seen) hs i)
      (fun u h => ?_) (fun _ _ h => h) fun _ h => h.elim
    exact h.trans (List.prefix_append _ _)
  have hfinish : ∀ status iterate norm number error,
      Triple (fun u : (Counts × σ) × ω × List (Iteration α) => before <+: u.2.2)
        (s.finish status iterate norm number error) (fun _ u => before <+: u.2.2)
        fun u => before <+: u.2.2 := by
    intro status iterate norm number error
    exact Triple.mono (finish_noted (K := fun _ seen => before <+: seen) hs status iterate norm
      number error) (fun _ h => h) (fun _ _ h => h.1) fun _ h => h.elim
  exact loop_keeps (P := fun _ _ _ (w : ω × List (Iteration α)) => before <+: w.2)
    (N := fun _ _ _ w => before <+: w.2) (R := fun _ _ w => before <+: w.2) hround
    (fun _ r => hnotify r.iteration) (fun _ p status number error _ => hfinish _ _ _ _ _)
    remaining k p

/-- Without a budget of time the budgets depend on the counts only. -/
theorem exhausted_renewed {s : Solve α σ ω} (htime : s.options.maxTime = none) (most : Nat)
    (o' : Observer α ω') (clock' : Nat → Duration) (counts : Counts) (k : Nat) :
    (s.renewed most o' clock').exhausted counts k = s.exhausted counts k := by
  simp only [exhausted, renewed, htime, Option.any_none]

variable {s' : Solve α σ (ω' × List (Iteration α))}

/-- A notice told at another time has the same answer. -/
theorem notify_relates (hs' : s'.observer = o'.noting) (hs : s.observer = o.noting)
    (ho : o'.AnswersAlike W o) {V : Counts × σ → Counts × σ → Prop} {i' i : Iteration α}
    (hi : i'.untimed = i.untimed) :
    Relates .any (Both V (Both W Untimed)) (s'.notify i') (s.notify i) := by
  unfold notify
  rw [hs', hs]
  exact .bind .emit_any fun _ => .onSnd (ho.noting.onIteration _ _ hi)

/-- The records are drawn up from the same, told at other times. -/
theorem finish_extends (hs' : s'.observer = o'.noting) (hs : s.observer = o.noting)
    (hsolver : s'.solver = s.solver) (hmodel : s'.model = s.model)
    {V : σ → σ → Prop} (limit most : Nat) (status : Status) (iterate : Iterate α) (gradientNorm : α)
    (k : Nat) (error : Option SolverError) :
    Compares .any (Both (Both Eq V) (Both W Untimed))
      (s'.finish status iterate gradientNorm k error) (s.finish status iterate gradientNorm k error)
      fun out' out => Extends limit most (End.map .ok out').noted (End.map .ok out).noted := by
  obtain ⟨_, _, options', _, clock'⟩ := s'
  obtain ⟨solver, m, options, _, clock⟩ := s
  obtain rfl : _ = o'.noting := hs'
  obtain rfl : _ = o.noting := hs
  obtain rfl : _ = solver := hsolver
  obtain rfl : _ = m := hmodel
  rintro ⟨⟨counts', t⟩, w', seen'⟩ ⟨⟨counts, u⟩, w, seen⟩ j' j ⟨⟨hcounts, -⟩, -, hseen⟩ -
  obtain rfl : counts' = counts := hcounts
  exact .same rfl hseen

/-- When the smaller budget is used up, the longer solve goes on from there. -/
theorem loop_extends (hs' : s'.observer = o'.noting) (hs : s.observer = o.noting)
    {V : Counts × σ → Counts × σ → Prop} (threshold : α)
    (round : Nat → Progress α μ → Working σ (Round α μ)) {limit most : Nat}
    (hlarger : limit < most) (extra : Nat) (p : Progress α μ) :
    Compares .any (Both V (Both W Untimed)) (s'.loop threshold round extra limit p)
      (s.finish .iterationLimit p.iterate p.gradientNorm limit none)
      fun out' out => Extends limit most (End.map .ok out').noted (End.map .ok out).noted := by
  intro t u j' j htu _
  have hseen : t.2.2.map Iteration.untimed = u.2.2.map Iteration.untimed := htu.2.2
  have hlonger := loop_appends hs' t.2.2 threshold round extra limit p t j' (List.prefix_refl _)
  have hshorter := finish_noted (K := fun _ seen => seen = u.2.2) hs .iterationLimit p.iterate
    p.gradientNorm limit none u j rfl
  generalize Run.start (s'.loop threshold round extra limit p) t j' = out' at hlonger ⊢
  generalize Run.start (s.finish _ _ _ _ _) u j = out at hshorter ⊢
  rcases out' with ⟨⟨result', t'⟩, j₁'⟩
  rcases out with ⟨⟨_ | record, u'⟩, j₁⟩
  · exact hshorter.elim
  · obtain ⟨hlist, shows, -⟩ := hshorter
    have hprefix : t.2.2 <+: t'.2.2 := by
      cases result' with
      | error => exact hlonger
      | ok => exact hlonger
    refine .more hlarger shows.iterations shows.status ?_
    show u'.2.2.map Iteration.untimed <+: t'.2.2.map Iteration.untimed
    rw [hlist, ← hseen]
    exact hprefix.map _

/-- **Where rounds do the same, a solve with a larger budget extends the one with the smaller.** -/
theorem iterate_extends (hs : s.observer = o.noting) (ho : o'.AnswersAlike W o)
    (htime : s.options.maxTime = none) {most : Nat} (hmost : s.options.maxIterations ≤ most)
    {clock' : Nat → Duration} {round' round : Nat → Progress α μ → Working σ (Round α μ)}
    (hretime : ∀ k p, round' k p = Round.timed (clock' k) <$> round k p)
    (hround : ∀ k p, Agrees .any (Both Eq Eq) (round k p) (round k p)) (p : Progress α μ) :
    Compares .any (Both (Both Eq Eq) (Both W Untimed))
      ((s.renewed most o'.noting clock').iterate round' p) (s.iterate round p) fun out' out =>
        Extends s.options.maxIterations most (End.map .ok out').noted (End.map .ok out).noted := by
  let s' := s.renewed most o'.noting clock'
  have hs' : s'.observer = o'.noting := rfl
  have hexhausted : ∀ counts k, s'.exhausted counts k = s.exhausted counts k :=
    exhausted_renewed htime most o'.noting clock'
  have hnotify : ∀ k (r : Round α μ), Relates .any (Both (Both Eq Eq) (Both W Untimed))
      (s'.notify (Round.timed (clock' k) r).iteration) (s.notify r.iteration) :=
    fun k r => notify_relates hs' hs ho rfl
  obtain ⟨extra, rfl⟩ : ∃ extra, most = s.options.maxIterations + extra :=
    ⟨most - s.options.maxIterations, by omega⟩
  exact loop_compares hexhausted hretime (fun _ _ => rfl) (fun _ _ => rfl) hround hnotify
    (fun e t u j' j htu _ => .same rfl htu.2.2) (finish_extends hs' hs rfl rfl _ _)
    (fun hextra => loop_extends hs' hs _ _ (by omega) extra) _ 0 p (Nat.zero_add _)

end Solve

/-! ## All methods -/

namespace Method

variable {m : Model α σ} {o : Observer α ω} {o' : Observer α ω'} {W : ω' → ω → Prop}

/-- The rounds of a renewed solve do the same, told at another time. -/
theorem Rounds.timed {method : Method α} {s : Solve α σ ω} {most : Nat} {clock' : Nat → Duration}
    {round' round : Nat → Progress α μ → Working σ (Round α μ)}
    (h : Rounds (s.renewed most o' clock') s method round' round) (k : Nat) (p : Progress α μ) :
    round' k p = Round.timed (clock' k) <$> round k p := by
  cases h with
  | projectedNewton c b => exact TrustRegion.round_timed s most o' clock' _ c b k p
  | newtonCg c _ params b => exact TrustRegion.round_timed s most o' clock' _ c b k p
  | lbfgs c search => exact Lbfgs.round_timed s most o' clock' search c.initialStepSize k p

/-- The rounds of one of two solves, side by side with themselves. -/
theorem Rounds.self {method : Method α} {s' : Solve α σ ω'} {s : Solve α σ ω}
    {round' round : Nat → Progress α μ → Working σ (Round α μ)}
    (h : Rounds s' s method round' round) : Rounds s s method round round := by
  cases h with
  | projectedNewton c b => exact .projectedNewton c b
  | newtonCg c withRescue params b => exact .newtonCg c withRescue params b
  | lbfgs c search => exact .lbfgs c search

/-- Solves under noting observers, one of them with a larger budget of iterations. -/
theorem minimize_extends (method : Method α) (hm : m.IgnoresJournal)
    (ho : o'.AnswersAlike W o) {options : Options α} (htime : options.maxTime = none) {most : Nat}
    (hmost : options.maxIterations ≤ most) (clock' clock : Nat → Duration) (x₀ : Vec α) :
    Compares .any (Both (Both Eq Eq) (Both W Untimed))
      (method.minimize m x₀ { options with maxIterations := most } o'.noting clock').run
      (method.minimize m x₀ options o.noting clock).run
      fun out' out => Extends options.maxIterations most out'.noted out.noted := by
  let s : Solve α σ (ω × List (Iteration α)) := ⟨method.name, m, options, o.noting, clock⟩
  let s' := s.renewed most o'.noting clock'
  have hs : s.observer = o.noting := rfl
  have hs' : s'.observer = o'.noting := rfl
  have halike : s'.Alike .any Eq (Both W Untimed) s := ⟨rfl, hm, rfl, ho.noting.onStart⟩
  -- ends before the loop
  have hend : ∀ (r : Except Fault (Except SolverError (Record α)))
      (t : (Counts × σ) × ω' × List (Iteration α)) (u : (Counts × σ) × ω × List (Iteration α))
      (j' j : Journal), (∀ record, r ≠ .ok (.ok record)) → Both (Both Eq Eq) (Both W Untimed) t u →
        Journals.any.Match j' j → Extends options.maxIterations most (End.noted ((r, t), j'))
          (End.noted ((r, u), j)) :=
    fun r t u j' j _ htu _ => .same rfl htu.2.2
  have hatStart : ∀ x e, Compares .any (Both (Both Eq Eq) (Both W Untimed)) (s'.finishAtStart x e)
      (s.finishAtStart x e) fun out' out =>
        Extends options.maxIterations most (End.map .ok out').noted (End.map .ok out).noted :=
    fun x e => Solve.finish_extends hs' hs rfl rfl _ _ _ _ _ _ _
  refine method.minimize_compares x₀ halike hend hatStart ?_
  intro μ round' round hrounds p
  have hretime : ∀ k q, round' k q = Round.timed (clock' k) <$> round k q :=
    Rounds.timed (s := s) hrounds
  have hround : ∀ k q, Agrees .any (Both Eq Eq) (round k q) (round k q) :=
    Rounds.agrees (s := s) hm hrounds.self
  exact Solve.iterate_extends hs ho htime hmost hretime hround p

/-- The noted solves: one ends as the other or extends it. -/
theorem solveNoted_extends (method : Method α) (hm : m.IgnoresJournal)
    (ho : o'.AnswersAlike W o) (options : Options α) (htime : options.maxTime = none) {most : Nat}
    (hmost : options.maxIterations ≤ most) (clock' clock : Nat → Duration) (x₀ : Vec α)
    (state : σ) (w' : ω') (w : ω) (hw : W w' w) (journal' journal : Journal) :
    Extends options.maxIterations most
      (solveNoted method m x₀ { options with maxIterations := most } o' clock' state w' journal')
      (solveNoted method m x₀ options o clock state w journal) := by
  rw [solveNoted_eq, solveNoted_eq]
  exact minimize_extends method hm ho htime hmost clock' clock x₀ (({}, state), (w', []))
    (({}, state), (w, [])) journal' journal ⟨⟨rfl, rfl⟩, hw, rfl⟩ trivial

/-- What a solve from a state of the model does depends neither on its budget of iterations, until
that is used up, nor on its observer, as long as that gives the same answers. -/
structure Steady (method : Method α) (m : Model α σ) (state : σ) (x₀ : Vec α) (o : Options α) :
    Prop where
  /-- With a larger budget the same iterations are reported, and then perhaps more. If that takes
  fewer of them than the smaller budget allows, the record is the same. -/
  larger : ∀ {ω' ω : Type} {W : ω' → ω → Prop} {observer' : Observer α ω'}
    {observer : Observer α ω}, observer'.AnswersAlike W observer → ∀ w' w, W w' w →
    ∀ limit most, limit ≤ most → ∀ clock' clock journal' journal result' result seen' seen,
    solveNoted method m x₀ { o with maxIterations := most } observer' clock' state w' journal'
      = (result', seen') →
    solveNoted method m x₀ { o with maxIterations := limit } observer clock state w journal
      = (result, seen) →
    seen.map Iteration.untimed <+: seen'.map Iteration.untimed ∧
      ∀ record', result' = .ok (.ok record') →
        record'.iterations < limit ∨ seen'.length < limit →
        ∃ record, result = .ok (.ok record) ∧ record'.untimed = record.untimed
  /-- Observers that never stop a solve do not change what comes of it. -/
  watched : ∀ {ω' ω : Type} {observer' : Observer α ω'} {observer : Observer α ω},
    observer'.NeverStops → observer.NeverStops → ∀ w' w clock' clock journal' journal,
    untimed (solveNoted method m x₀ o observer' clock' state w' journal').1
      = untimed (solveNoted method m x₀ o observer clock state w journal).1

/-- The solves of a model that does not read the journal are steady. -/
theorem steady_of_ignoresJournal (method : Method α) (hm : m.IgnoresJournal) (state : σ)
    (x₀ : Vec α) {o : Options α} (htime : o.maxTime = none) : method.Steady m state x₀ o where
  larger := by
    intro ω' ω W observer' observer hobservers w' w hw limit most hmost clock' clock journal'
      journal result' result seen' seen hlonger hshorter
    have hextends := method.solveNoted_extends hm hobservers { o with maxIterations := limit } htime
      hmost clock' clock x₀ state w' w hw journal' journal
    have hlonger_ends : ∀ record', result' = .ok (.ok record') →
        seen'.length ≤ record'.iterations := by
      rintro record' rfl
      exact (solveNoted_ends hlonger).length_seen.1
    rw [hlonger, hshorter] at hextends
    cases hextends with
    | same results iterations =>
        refine ⟨iterations ▸ List.prefix_refl _, ?_⟩
        rintro record' rfl -
        rcases result with _ | _ | record
        · cases results
        · cases results
        · exact ⟨record, rfl, Except.ok.inj (Except.ok.inj results)⟩
    | @more _ record _ _ _ spent status iterations =>
        refine ⟨iterations, fun record' hresult' hfewer => ?_⟩
        -- the shorter solve has reported as many iterations as it may make
        have hended : record.status.isFailure = false := by
          rw [status]
          rfl
        have hreported : seen.length = limit :=
          ((solveNoted_ends hshorter).length_seen.2 hended).trans spent
        have hle := iterations.length_le
        rw [List.length_map, List.length_map] at hle
        have hlong := hlonger_ends record' hresult'
        have hspent : ¬ (record'.iterations < limit ∨ seen'.length < limit) := by omega
        exact absurd hfewer hspent
  watched := by
    intro ω' ω observer' observer hobserver' hobserver w' w clock' clock journal' journal
    have hextends := method.solveNoted_extends hm (hobserver'.answersAlike hobserver) o htime
      (Nat.le_refl o.maxIterations) clock' clock x₀ state w' w trivial journal' journal
    generalize solveNoted method m x₀ _ observer' clock' state w' journal' = out' at hextends ⊢
    generalize solveNoted method m x₀ _ observer clock state w journal = out at hextends ⊢
    cases hextends with
    | same results => exact results
    | more larger => exact absurd larger (Nat.lt_irrefl _)

/-- **A larger budget only extends a solve, and watching it changes nothing.** Without a budget of
time the solves of a model that does not read the journal are steady, and so are those of its
quasi-Newton model from any history. -/
theorem larger_budget_extends (method : Method α) (hm : m.IgnoresJournal) (state : σ)
    (h : History α) (x₀ : Vec α) {o : Options α} (htime : o.maxTime = none) :
    method.Steady m state x₀ o ∧ method.Steady m.quasiNewton (h, state) x₀ o := by
  constructor
  · exact method.steady_of_ignoresJournal hm state x₀ htime
  · exact method.steady_of_ignoresJournal hm.quasiNewton (h, state) x₀ htime

/-- The answers about the square do not depend on anything. -/
theorem square_ignoresJournal : (square : Model α Unit).IgnoresJournal := by
  have hproduct : ∀ x v, Agrees .any Eq ((square : Model α Unit).hessianVector x v)
      (square.hessianVector x v) := by
    intro x v
    refine .ite (fun _ => .pure) fun _ => ?_
    refine .bind .checked fun _ => ?_
    refine .bind .pure fun _ => ?_
    refine .bind .pure fun _ => ?_
    exact .bind .checked fun _ => .pure
  exact {
    dimension := rfl
    name := rfl
    sides := rfl
    objective := fun _ => .pure
    gradient := fun _ => .pure
    objectiveAndGradient := fun _ => .bind .pure fun _ => .bind .pure fun _ => .pure
    hessianVector := hproduct
    hessian := Model.hessianByColumns_agrees _ hproduct
    sparseHessian := fun _ => .pure
    acceptStep := fun _ _ => .pure }

/-- The square's solve by BFGS steps from 3 is steady: its two iterations begin with the one that a
budget of one allows. -/
theorem larger_budget_extends_square :
    let reported most := (solveNoted (.lbfgs {}) square [3] { maxIterations := most }
      (Observer.silent : Observer Float Unit) (fun _ => .zero) () () #[]).2.length
    (square : Model Float Unit).IgnoresJournal ∧ ({} : Options Float).maxTime = none ∧
      reported 1 = 1 ∧ reported 5 = 2 ∧
      (Method.lbfgs {}).Steady (square : Model Float Unit) () [3] {} ∧
      (Method.lbfgs {}).Steady (square : Model Float Unit).quasiNewton (⟨1, []⟩, ()) [3] {} := by
  have hreported : (solveNoted (.lbfgs {}) square [3] { maxIterations := 1 }
        (Observer.silent : Observer Float Unit) (fun _ => .zero) () () #[]).2.length = 1 ∧
      (solveNoted (.lbfgs {}) square [3] { maxIterations := 5 }
        (Observer.silent : Observer Float Unit) (fun _ => .zero) () () #[]).2.length = 2 := by
    decide +kernel
  exact ⟨square_ignoresJournal, rfl, hreported.1, hreported.2,
    larger_budget_extends (.lbfgs {}) square_ignoresJournal () ⟨1, []⟩ [3] rfl⟩

end Method

end Descent
