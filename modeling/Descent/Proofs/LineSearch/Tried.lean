import Mathlib.Data.List.Induction
import Mathlib.Data.List.ModifyLast
import Descent.Proofs.Evaluated
import Descent.Proofs.LineSearch.Trials
import Descent.Proofs.Simulation.LineSearch

/-!
# Models that keep the trial points

A model that keeps, beside its own state, the list of the points at which a search asked it for the
objective, each with the questions that failed there (`Model.tried`). It imitates the model inside
(`tried_imitates`), so that the list which a search leaves tells at which points any model is
evaluated in that search, and with what success (`LineSearch.trace`).

What a search counts of its failures is a function of this list (`Failures.after`): how many trials
have failed, and how many of them in a row. A row is read as the searches read it: after its first
trial every one has failed in the question for the objective (`Unbroken`).
-/

set_option autoImplicit false

namespace Descent

open Run

variable {α σ : Type} [Scalar α]

/-! ## Trials -/

namespace LineSearch

/-- A point at which a search asked the model. A question fails if the answer is an error that a
shorter step may mend, or is not finite. -/
structure Trial (α : Type) where
  point : Vec α
  /-- The question for the objective failed, or that for both at once. -/
  valueFailed : Bool
  /-- The question for the gradient, which followed, failed. -/
  gradientFailed : Bool := false

def Trial.failed {α : Type} (t : Trial α) : Bool := t.valueFailed || t.gradientFailed

end LineSearch

open LineSearch

namespace Evaluation

variable {β : Type} {isFinite : β → Bool}

/-- The answer is an error that a shorter step may mend, or is not finite. -/
def isFailure (isFinite : β → Bool) : Except ModelError β → Bool
  | .ok b => !isFinite b
  | .error e => e.isRecoverable

/-- Asks the model inside, and writes down whether the answer is a failure. -/
def noted (e : Evaluation σ β) (isFinite : β → Bool)
    (note : Bool → List (Trial α) → List (Trial α)) : Evaluation (σ × List (Trial α)) β := do
  let answer ← Run.caught (Run.tryOnFst e)
  modify fun (s, trials) => (s, note (isFailure isFinite answer) trials)
  liftM answer

end Evaluation

/-- The model with a list of the trial points, the latest last. A question for the objective, alone
or with the gradient, makes a trial; one for the gradient belongs to the last trial. -/
def Model.tried (m : Model α σ) : Model α (σ × List (Trial α)) where
  dimension := m.dimension
  name := m.name
  objective x :=
    (m.objective x).noted Scalar.isFinite fun failed trials => trials ++ [⟨x, failed, false⟩]
  gradient x :=
    (m.gradient x).noted Vec.allFinite fun failed =>
      List.modifyLast fun t => { t with gradientFailed := failed }
  objectiveAndGradient x :=
    (m.objectiveAndGradient x).noted isFinitePair fun failed trials =>
      trials ++ [⟨x, failed, false⟩]
  hessianVector x v := Run.tryOnFst (m.hessianVector x v)
  hessian x := Run.tryOnFst (m.hessian x)
  sparseHessian x := Run.tryOnFst (m.sparseHessian x)
  sides := m.sides
  initialPoint := m.initialPoint
  acceptStep s y := Run.onFst (m.acceptStep s y)

namespace Evaluation

variable {β : Type} {isFinite : β → Bool} {note : Bool → List (Trial α) → List (Trial α)}

omit [Scalar α] in
/-- Writing down leaves the answer and the model as they are. -/
theorem noted_imitates (e : Evaluation σ β) :
    Run.Imitates Prod.fst (e.noted isFinite note) e := by
  rintro ⟨s, trials⟩ journal
  -- the question first, the rest depends on its answer alone
  show seen Prod.fst (Run.start ((Except.ok <$> Run.onFst e.run) >>= ExceptT.bindCont _)
    (s, trials) journal) = _
  rw [start_bind, start_map, start_onFst]
  rcases e.run.start s journal with ⟨⟨_ | _ | b, s'⟩, journal'⟩
  · rfl
  · rfl
  · rfl

omit [Scalar α] in
/-- What comes of an answer that is written down. -/
theorem usable_noted (e : Evaluation σ β) (what : String) (trials : List (Trial α)) :
    Settles (fun t => t.2 = trials) (usable (e.noted isFinite note) isFinite what)
      (fun r t => t.2 = note (!r.isOk) trials ∧ ∀ b, r = .ok b → Returns e b ∧ isFinite b = true)
      (fun error t => t.2 = note false trials ∧ ∃ inner, error = .model inner)
      fun t => t.2 = trials := by
  have hasked : Settles (fun t : σ × List (Trial α) => t.2 = trials) (e.noted isFinite note)
      (fun b t => t.2 = note (!isFinite b) trials ∧ Returns e b)
      (fun error t => t.2 = note error.isRecoverable trials) fun t => t.2 = trials := by
    have hanswer : Settles (fun t : σ × List (Trial α) => t.2 = trials) (Run.tryOnFst e)
        (fun b t => t.2 = trials ∧ Returns e b) (fun _ t => t.2 = trials) fun t => t.2 = trials :=
      Attempt.tryOnFst_beside (K := (· = trials))
    refine Settles.bind (Settles.caught hanswer) ?_
    rintro (error | b)
    · rintro ⟨s, _⟩ journal rfl
      rfl
    · rintro ⟨s, _⟩ journal ⟨rfl, hb⟩
      exact ⟨rfl, hb⟩
  refine Settles.bind (Settles.caught hasked) ?_
  rintro (error | b)
  · refine Settles.ite (fun h => ?_) fun h => ?_
    · refine Settles.pure fun t ht => ⟨?_, nofun⟩
      exact ht.trans (congrArg (note · trials) h)
    · refine Settles.throw fun t ht => ⟨?_, error, rfl⟩
      exact ht.trans (congrArg (note · trials) (Bool.eq_false_iff.mpr h))
  · refine Settles.pure fun t ⟨ht, hb⟩ => ?_
    cases hfinite : isFinite b with
    | false => exact ⟨ht.trans (congrArg (fun f => note (!f) trials) hfinite), nofun⟩
    | true =>
        refine ⟨ht.trans (congrArg (fun f => note (!f) trials) hfinite), fun b' hb' => ?_⟩
        cases hb'
        exact ⟨hb, hfinite⟩

omit [Scalar α] in
/-- What follows an answer that is written down. -/
theorem usable_noted_bind {γ : Type} {e : Evaluation σ β} {what : String}
    {trials : List (Trial α)} {rest : Except String β → Search (σ × List (Trial α)) γ}
    {Q : γ → σ × List (Trial α) → Prop} {E : SolverError → σ × List (Trial α) → Prop}
    {F : σ × List (Trial α) → Prop}
    (hmodel : ∀ inner u, u.2 = note false trials → E (.model inner) u)
    (hfault : ∀ u, u.2 = trials → F u)
    (hfailed : ∀ reason, Settles (fun u => u.2 = note true trials) (rest (.error reason)) Q E F)
    (hok : ∀ b, Returns e b → isFinite b = true →
      Settles (fun u => u.2 = note false trials) (rest (.ok b)) Q E F) :
    Settles (fun u => u.2 = trials) (usable (e.noted isFinite note) isFinite what >>= rest)
      Q E F := by
  refine Settles.bind (Settles.mono (usable_noted e what trials) (fun _ h => h)
    (fun _ _ h => h) ?_ hfault) ?_
  · rintro _ u ⟨hu, inner, rfl⟩
    exact hmodel inner u hu
  · rintro (reason | b)
    · exact Settles.mono (hfailed reason) (fun _ hu => hu.1) (fun _ _ h => h) (fun _ _ h => h)
        fun _ h => h
    · refine Settles.assume fun hb => ?_
      exact hok b (hb b rfl).1 (hb b rfl).2

end Evaluation

namespace Model

section Questions

variable (m : Model α σ) (x : Vec α)

theorem objective_tried : m.tried.objective x = (m.objective x).noted Scalar.isFinite
    fun failed trials => trials ++ [⟨x, failed, false⟩] := rfl

theorem gradient_tried : m.tried.gradient x = (m.gradient x).noted Vec.allFinite
    fun failed => List.modifyLast fun t => { t with gradientFailed := failed } := rfl

theorem objectiveAndGradient_tried : m.tried.objectiveAndGradient x
    = (m.objectiveAndGradient x).noted isFinitePair
      fun failed trials => trials ++ [⟨x, failed, false⟩] := rfl

end Questions

/-- But for the list, the model is the one inside. -/
theorem tried_imitates (m : Model α σ) : m.tried.Imitates Prod.fst m where
  dimension := rfl
  name := rfl
  sides := rfl
  objective x := by
    rw [objective_tried]
    exact Evaluation.noted_imitates _
  gradient x := by
    rw [gradient_tried]
    exact Evaluation.noted_imitates _
  objectiveAndGradient x := by
    rw [objectiveAndGradient_tried]
    exact Evaluation.noted_imitates _
  hessianVector _ _ _ _ := rfl
  hessian _ _ _ := rfl
  sparseHessian _ _ _ := rfl
  acceptStep _ _ _ _ := rfl

end Model

namespace LineSearch

/-! ## Searches with their trials -/

section Trace

variable (search : LineSearch α) (m : Model α σ) (x : Vec α) (f₀ : α) (g₀ d : Vec α)
  (initialStep : α) (state : σ) (journal : Journal)

/-- What comes of a search, with the state of the model that it leaves, and the trial points, which
are those that a model leaves which keeps them. -/
def trace : (Except Fault (Except SolverError (Found α)) × σ) × List (Trial α) :=
  ((Run.start (search.run m x f₀ g₀ d initialStep).run state journal).1,
    (Run.start (search.run m.tried x f₀ g₀ d initialStep).run (state, []) journal).1.2.2)

/-- The result and the list are those of one run. -/
theorem trace_eq :
    let out := (Run.start (search.run m.tried x f₀ g₀ d initialStep).run (state, []) journal).1
    search.trace m x f₀ g₀ d initialStep state journal = ((out.1, out.2.1), out.2.2) := by
  have hagrees := search.run_agrees m.tried_imitates.alike.toAnswersAlike x f₀ g₀ d initialStep
  have hplain : seen Prod.fst (Run.start (search.run m.tried x f₀ g₀ d initialStep).run (state, [])
      journal) = Run.start (search.run m x f₀ g₀ d initialStep).run state journal :=
    imitates_iff.mpr hagrees (state, []) journal
  rw [trace, ← hplain]
  rfl

variable {search m x f₀ g₀ d initialStep}

/-- What a search on a model that keeps the trial points ends with, it ends with on any. -/
theorem trace_settles {P F : σ × List (Trial α) → Prop}
    {Q : Found α → σ × List (Trial α) → Prop} {E : SolverError → σ × List (Trial α) → Prop}
    (h : Settles P (search.run m.tried x f₀ g₀ d initialStep) Q E F) (hP : P (state, [])) :
    let out := search.trace m x f₀ g₀ d initialStep state journal
    (∀ found, out.1.1 = .ok (.ok found) → Q found (out.1.2, out.2)) ∧
      (∀ e, out.1.1 = .ok (.error e) → E e (out.1.2, out.2)) ∧
      ∀ f, out.1.1 = .error f → F (out.1.2, out.2) := by
  rw [trace_eq]
  have hends := h (state, []) journal hP
  generalize Run.start (search.run m.tried x f₀ g₀ d initialStep).run (state, []) journal = out
    at hends
  obtain ⟨⟨r, t⟩, _⟩ := out
  refine ⟨?_, ?_, ?_⟩
  · rintro found ⟨⟩
    exact hends
  · rintro e ⟨⟩
    exact hends
  · rintro f ⟨⟩
    exact hends

end Trace

/-! ## Counting failures -/

variable {α : Type} {trials : List (Trial α)} {t : Trial α} {n : Nat}

/-- The count after one more trial. A value interrupts the run even if there is no gradient. -/
def Failures.next (f : Failures) (t : Trial α) : Failures :=
  if t.valueFailed then ⟨f.run + 1, f.total + 1⟩
  else if t.gradientFailed then ⟨1, f.total + 1⟩
  else f.interrupted

def Failures.after (trials : List (Trial α)) : Failures := trials.foldl Failures.next {}

@[simp] theorem Failures.after_nil : after ([] : List (Trial α)) = {} := rfl

@[simp] theorem Failures.after_append : after (trials ++ [t]) = (after trials).next t := by
  rw [after, List.foldl_append]
  rfl

theorem Failures.run_next_le (f : Failures) (t : Trial α) : (f.next t).run ≤ f.run + 1 := by
  unfold next
  split
  · exact Nat.le_refl _
  · split
    · exact Nat.le_add_left 1 f.run
    · exact Nat.zero_le _

/-- All trials that have failed. -/
theorem Failures.total_after (trials : List (Trial α)) :
    (after trials).total = trials.countP Trial.failed := by
  induction trials using List.reverseRecOn with
  | nil => rfl
  | append_singleton trials t ih =>
      rw [after_append, List.countP_append, ← ih, next, List.countP_singleton, Trial.failed]
      cases t.valueFailed <;> cases t.gradientFailed <;> rfl

/-- Trials that have failed in a row: after the first one each has failed in the question for the
objective. -/
structure Unbroken (block : List (Trial α)) : Prop where
  failed : ∀ t ∈ block, t.failed = true
  tail : ∀ t ∈ block.tail, t.valueFailed = true

theorem unbroken_nil : Unbroken ([] : List (Trial α)) := ⟨nofun, nofun⟩

theorem Trial.failed_of_value (h : t.valueFailed = true) : t.failed = true := by
  rw [failed, h, Bool.true_or]

/-- One more trial goes on with a row if it has failed in the question for the objective, and starts
one if it has failed at all. -/
theorem unbroken_append {block : List (Trial α)} :
    Unbroken (block ++ [t]) ↔
      Unbroken block ∧ (t.valueFailed = true ∨ block = [] ∧ t.failed = true) := by
  cases block with
  | nil =>
      constructor
      · intro h
        exact ⟨unbroken_nil, .inr ⟨rfl, h.failed t (List.mem_singleton_self t)⟩⟩
      · rintro ⟨-, h⟩
        refine ⟨fun u hu => ?_, nofun⟩
        obtain rfl := List.mem_singleton.mp hu
        exact h.elim Trial.failed_of_value And.right
  | cons u block =>
      have hne : u :: block ≠ [] := List.cons_ne_nil u block
      constructor
      · rintro ⟨hfailed, htail⟩
        rw [List.forall_mem_append] at hfailed
        rw [List.cons_append, List.tail_cons, List.forall_mem_append] at htail
        exact ⟨⟨hfailed.1, htail.1⟩, .inl (htail.2 t (List.mem_singleton_self t))⟩
      · rintro ⟨⟨hfailed, htail⟩, hlast⟩
        have ht : t.valueFailed = true := hlast.resolve_right fun h => hne h.1
        refine ⟨List.forall_mem_append.mpr ⟨hfailed, ?_⟩, ?_⟩
        · exact List.forall_mem_singleton.mpr (Trial.failed_of_value ht)
        · rw [List.cons_append, List.tail_cons, List.forall_mem_append]
          exact ⟨htail, List.forall_mem_singleton.mpr ht⟩

/-- A row that is not empty ends with the last trial. -/
theorem exists_unbroken_append :
    (∃ block, block <:+ trials ++ [t] ∧ block.length = n + 1 ∧ Unbroken block) ↔
      ∃ block, block <:+ trials ∧ block.length = n ∧ Unbroken (block ++ [t]) := by
  constructor
  · rintro ⟨block, hblock, hlength, hrow⟩
    rcases List.suffix_concat_iff.mp hblock with rfl | ⟨earlier, rfl, hearlier⟩
    · cases hlength
    · exact ⟨earlier, hearlier, by simpa using hlength, hrow⟩
  · rintro ⟨block, hblock, rfl, hrow⟩
    exact ⟨block ++ [t], List.suffix_concat_iff.mpr (.inr ⟨block, rfl, hblock⟩), by simp, hrow⟩

/-- The run of failures is the longest row of failed trials at the end. -/
theorem Failures.le_run_after_iff :
    n ≤ (after trials).run ↔ ∃ block, block <:+ trials ∧ block.length = n ∧ Unbroken block := by
  induction trials using List.reverseRecOn generalizing n with
  | nil =>
      simp only [after_nil, Nat.le_zero_eq, List.suffix_nil]
      constructor
      · rintro rfl
        exact ⟨[], rfl, rfl, unbroken_nil⟩
      · rintro ⟨_, rfl, rfl, -⟩
        rfl
  | append_singleton trials t ih =>
      cases n with
      | zero => exact ⟨fun _ => ⟨[], List.nil_suffix, rfl, unbroken_nil⟩, fun _ => Nat.zero_le _⟩
      | succ n =>
          rw [exists_unbroken_append, after_append, next]
          simp only [unbroken_append, Trial.failed]
          cases t.valueFailed with
          | true => simp [ih]
          | false =>
              cases t.gradientFailed with
              -- the row starts with this trial
              | true =>
                  simp only [Bool.false_eq_true, if_false, if_true, Bool.or_true, false_or,
                    and_true]
                  constructor
                  · intro hn
                    obtain rfl : n = 0 := by omega
                    exact ⟨[], List.nil_suffix, rfl, unbroken_nil, rfl⟩
                  · rintro ⟨_, -, rfl, -, rfl⟩
                    exact Nat.le_refl 1
              | false => simp [interrupted]

end LineSearch

end Descent
