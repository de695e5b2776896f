import Descent.Proofs.Simulation.Model
import Descent.Solve

/-!
# Solves side by side

Two solves that are alike differ in who watches them, in the clock and in the budget of iterations
(`Solve.Alike`). They start alike (`start_agrees`, `evaluateStart_agrees`). If their rounds do the
same, up to how the time is told, and nothing that is heard changes the course, then their loops go
side by side until the smaller budget is used up (`loop_compares`). With the same budget and under
observers that are told the same they do the same to the end (`loop_relates`).
-/

set_option autoImplicit false

namespace Descent

open Run

variable {α σ τ ω ω' μ : Type} {J : Journals} {V : τ → σ → Prop} {W : ω' → ω → Prop}
  {look : ω' → ω}

/-! ## Observers -/

namespace Observer

/-- The observer hears and answers what another does. -/
structure Imitates (look : ω' → ω) (o' : Observer α ω') (o : Observer α ω) : Prop where
  onStart : ∀ solver model,
    Simulates look (ExceptT.lift (o'.onStart solver model)) (ExceptT.lift (o.onStart solver model))
  onIteration : ∀ i,
    Simulates look (ExceptT.lift (o'.onIteration i)) (ExceptT.lift (o.onIteration i))
  onFinish : ∀ r, Simulates look (ExceptT.lift (o'.onFinish r)) (ExceptT.lift (o.onFinish r))

/-- Observers that are told the same answer the same. -/
structure Alike (J : Journals) (W : ω' → ω → Prop) (o' : Observer α ω') (o : Observer α ω) :
    Prop where
  onStart : ∀ solver model,
    Relates J W (ExceptT.lift (o'.onStart solver model)) (ExceptT.lift (o.onStart solver model))
  onIteration : ∀ i,
    Relates J W (ExceptT.lift (o'.onIteration i)) (ExceptT.lift (o.onIteration i))
  onFinish : ∀ r, Relates J W (ExceptT.lift (o'.onFinish r)) (ExceptT.lift (o.onFinish r))

theorem Imitates.alike {o' : Observer α ω'} {o : Observer α ω} (ho : o'.Imitates look o) :
    o'.Alike .same (Sees look) o where
  onStart solver model := simulates_iff.mp (ho.onStart solver model)
  onIteration i := simulates_iff.mp (ho.onIteration i)
  onFinish r := simulates_iff.mp (ho.onFinish r)

/-- Every observer answers as it does. -/
theorem alike_self (o : Observer α ω) : o.Alike .same Eq o := by
  have himitates : o.Imitates id o := {
    onStart := fun _ _ _ _ => rfl
    onIteration := fun _ _ _ => rfl
    onFinish := fun _ _ _ => rfl }
  exact himitates.alike

end Observer

/-! ## The parts of a solve -/

namespace Solve

variable [Scalar α]

def on (s : Solve α σ ω) (m' : Model α τ) (o' : Observer α ω') : Solve α τ ω' :=
  ⟨s.solver, m', s.options, o', s.clock⟩

/-- The same algorithm works on models that are alike, under options that agree but for the budget
of iterations, and the start is heard alike. -/
structure Alike (J : Journals) (V : τ → σ → Prop) (W : ω' → ω → Prop) (s' : Solve α τ ω')
    (s : Solve α σ ω) : Prop where
  solver : s'.solver = s.solver
  model : s'.model.Alike J V s.model
  options : s'.options = { s.options with maxIterations := s'.options.maxIterations }
  onStart : ∀ solver model, Relates J W (ExceptT.lift (s'.observer.onStart solver model))
    (ExceptT.lift (s.observer.onStart solver model))

theorem alike_on {s : Solve α σ ω} {m' : Model α τ} {o' : Observer α ω'}
    (hm : m'.Alike J V s.model) (ho : o'.Alike J W s.observer) : (s.on m' o').Alike J V W s where
  solver := rfl
  model := hm
  options := rfl
  onStart := ho.onStart

variable {s' : Solve α τ ω'} {s : Solve α σ ω}

theorem start_agrees (h : s'.Alike J V W s) (x₀ : Vec α) :
    Agrees J (Both (Both Eq V) W) (s'.start x₀) (s.start x₀) := by
  have hvalid : s'.options.validate = s.options.validate := by
    rw [h.options]
    rfl
  unfold start
  rw [hvalid, h.solver, h.model.name, h.model.dimension]
  refine .bind .ofExcept fun _ => ?_
  refine .ite (fun _ => .throw_bind) fun _ => ?_
  exact .bind (.lift (.onSnd (h.onStart _ _))) fun _ => .emit

theorem evaluateStart_agrees (hm : s'.model.AnswersAlike J V s.model) (x : Vec α) :
    Agrees J (Both Eq V) (s'.evaluateStart x) (s.evaluateStart x) :=
  .bind (hm.counted.objectiveAndGradient x) fun _ => .ite (fun _ => .pure) fun _ => .throw

/-! ## The loop -/

section Loop

variable {Q : End ((Counts × τ) × ω') (Record α) → End ((Counts × σ) × ω) (Record α) → Prop}
  {threshold : α} {round' round₀ : Nat → Progress α μ → Working τ (Round α μ)}
  {round : Nat → Progress α μ → Working σ (Round α μ)} {retime : Nat → Round α μ → Round α μ}
  {extra limit : Nat}

/-- **Two loops side by side.** The rounds do the same, told at another time; what is left when the
smaller budget of `limit` iterations is used up is `hmore`. -/
theorem loop_compares
    (hexhausted : ∀ counts k, s'.exhausted counts k = s.exhausted counts k)
    (hretime : ∀ k p, round' k p = retime k <$> round₀ k p)
    (hprogress : ∀ k r, (retime k r).progress = r.progress)
    (hverdict : ∀ k r, (retime k r).verdict = r.verdict)
    (hround : ∀ k p, Agrees J (Both Eq V) (round₀ k p) (round k p))
    (hnotify : ∀ k r, Relates J (Both (Both Eq V) W) (s'.notify (retime k r).iteration)
      (s.notify r.iteration))
    (hfault : ∀ e t u j' j, Both (Both Eq V) W t u → J.Match j' j →
      Q ((.error e, t), j') ((.error e, u), j))
    (hfinish : ∀ status iterate norm k error, Compares J (Both (Both Eq V) W)
      (s'.finish status iterate norm k error) (s.finish status iterate norm k error) Q)
    (hmore : 0 < extra → ∀ p, Compares J (Both (Both Eq V) W)
      (s'.loop threshold round' extra limit p)
      (s.finish .iterationLimit p.iterate p.gradientNorm limit none) Q)
    (remaining iterations : Nat) (p : Progress α μ) (hlimit : iterations + remaining = limit) :
    Compares J (Both (Both Eq V) W) (s'.loop threshold round' (remaining + extra) iterations p)
      (s.loop threshold round remaining iterations p) Q := by
  induction remaining generalizing iterations p with
  | zero =>
      obtain rfl : iterations = limit := hlimit
      rw [Nat.zero_add]
      rcases Nat.eq_zero_or_pos extra with rfl | hpos
      · unfold loop
        exact .ite (fun _ => hfinish _ _ _ _ _) fun _ => hfinish _ _ _ _ _
      · by_cases hsmall : p.gradientNorm ≤ threshold
        · obtain ⟨n, rfl⟩ : ∃ n, extra = n + 1 := ⟨extra - 1, by omega⟩
          unfold loop
          rw [if_pos hsmall, if_pos hsmall]
          exact hfinish _ _ _ _ _
        · have hstop : s.loop threshold round 0 iterations p
              = s.finish .iterationLimit p.iterate p.gradientNorm iterations none := by
            unfold loop
            rw [if_neg hsmall]
          rw [hstop]
          exact hmore hpos p
  | succ remaining ih =>
      rw [Nat.add_right_comm]
      unfold loop
      refine .ite (fun _ => hfinish _ _ _ _ _) fun _ => ?_
      refine .get_bind ?_
      rintro ⟨⟨counts', t⟩, w'⟩ ⟨⟨counts, u⟩, w⟩ ⟨⟨hcounts, -⟩, -⟩
      -- the budgets look at the counts, which are the same in both runs
      obtain rfl : counts' = counts := hcounts
      dsimp only
      rw [hexhausted]
      rcases s.exhausted counts' iterations with _ | status
      · rw [hretime]
        have hmap : Run.outcome (retime (iterations + 1) <$> round₀ (iterations + 1) p)
            = Except.map (retime (iterations + 1)) <$> Run.outcome (round₀ (iterations + 1) p) :=
          ExceptT.run_map _ _
        rw [hmap, onFst_map, bind_map_left]
        refine .bind (.onFst (hround (iterations + 1) p)) ?_ hfault
        rintro (e | r)
        · exact hfinish _ _ _ _ _
        · refine .bind (hnotify (iterations + 1) r) (fun goOn => ?_) hfault
          rw [hprogress, hverdict]
          refine .ite (fun _ => hfinish _ _ _ _ _) fun _ => ?_
          rcases r.verdict with _ | status
          · exact ih (iterations + 1) r.progress (by omega)
          · exact hfinish _ _ _ _ _
      · exact hfinish _ _ _ _ _

end Loop

section Same

variable {s : Solve α σ ω} {m' : Model α τ} {o' : Observer α ω'}

theorem finish_relates (hm : m'.Alike J V s.model) (ho : o'.Alike J W s.observer)
    (status : Status) (iterate : Iterate α) (gradientNorm : α) (iterations : Nat)
    (error : Option SolverError) :
    Relates J (Both (Both Eq V) W)
      ((s.on m' o').finish status iterate gradientNorm iterations error)
      (s.finish status iterate gradientNorm iterations error) := by
  have hname : (s.on m' o').model.name = s.model.name := hm.name
  unfold finish
  rw [hname]
  refine Compares.get_bind ?_
  rintro ⟨⟨counts', t⟩, w'⟩ ⟨⟨counts, u⟩, w⟩ ⟨⟨hcounts, -⟩, -⟩
  -- the record shows the counts, which are the same in both runs
  obtain rfl : counts' = counts := hcounts
  have hshown : ∀ record : Record α, Relates J (Both (Both Eq V) W)
      (Run.onSnd (ExceptT.lift ((s.on m' o').observer.onFinish record)) : Solving τ ω' Unit)
      (Run.onSnd (ExceptT.lift (s.observer.onFinish record))) :=
    fun record => .onSnd (ho.onFinish record)
  exact Relates.bind .emit fun _ => Relates.bind (hshown _) fun _ => .pure

theorem finishAtStart_relates (hm : m'.Alike J V s.model) (ho : o'.Alike J W s.observer)
    (x : Vec α) (e : ModelError) : Relates J (Both (Both Eq V) W)
      ((s.on m' o').finishAtStart x e) (s.finishAtStart x e) :=
  finish_relates hm ho _ _ _ _ _

/-- If the rounds do the same, whole loops do. -/
theorem loop_relates (hm : m'.Alike J V s.model) (ho : o'.Alike J W s.observer) {threshold : α}
    {round' : Nat → Progress α μ → Working τ (Round α μ)}
    {round : Nat → Progress α μ → Working σ (Round α μ)}
    (hround : ∀ k p, Agrees J (Both Eq V) (round' k p) (round k p)) (remaining iterations : Nat)
    (p : Progress α μ) :
    Relates J (Both (Both Eq V) W) ((s.on m' o').loop threshold round' remaining iterations p)
      (s.loop threshold round remaining iterations p) := by
  have hexhausted : ∀ counts k, (s.on m' o').exhausted counts k = s.exhausted counts k :=
    fun _ _ => rfl
  have hsame : ∀ k p, round' k p = id <$> round' k p := fun k p => (id_map (round' k p)).symm
  have hnotify : ∀ i, Relates J (Both (Both Eq V) W) ((s.on m' o').notify i) (s.notify i) :=
    fun i => .bind .emit fun _ => .onSnd (ho.onIteration i)
  show Relates J _ ((s.on m' o').loop threshold round' (remaining + 0) iterations p) _
  exact loop_compares hexhausted hsame (fun _ _ => rfl) (fun _ _ => rfl) hround
    (fun _ r => hnotify r.iteration) (fun _ _ _ _ _ hK hj => ⟨rfl, hK, hj⟩)
    (finish_relates hm ho) (fun h => absurd h (Nat.lt_irrefl 0)) remaining iterations p rfl

theorem iterate_relates (hm : m'.Alike J V s.model) (ho : o'.Alike J W s.observer)
    {round' : Nat → Progress α μ → Working τ (Round α μ)}
    {round : Nat → Progress α μ → Working σ (Round α μ)}
    (hround : ∀ k p, Agrees J (Both Eq V) (round' k p) (round k p)) (p : Progress α μ) :
    Relates J (Both (Both Eq V) W) ((s.on m' o').iterate round' p) (s.iterate round p) :=
  loop_relates hm ho hround _ _ _

end Same

end Solve

end Descent
