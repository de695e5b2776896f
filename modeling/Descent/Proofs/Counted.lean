import Mathlib.Data.List.DropRight
import Mathlib.Data.List.Induction
import Descent.Model.Layered
import Descent.Proofs.Outcome

/-!
# Counted models over time

A counted model is asked one question after another (`Query`), and between them its counts may start
again (`Request`). What becomes of each request is kept in a log (`Model.serve`). One question has
the answer of the model inside, and the counts go on by what the question and its answer call for
(`Model.ask_counted`). So the log of the counted model is the log of the model inside, and the
counts are a tally of its last part (`Model.counted_transparent`).

Objectives, gradients, products and dense Hessians are counted when they are asked for, sparse
Hessians when they have come. A question for a sparse Hessian that fails is therefore missing in the
count (`Model.failed_sparse_hessian_uncounted`).
-/

set_option autoImplicit false

namespace Descent

variable {α σ : Type}

namespace Model

/-! ## Questions and answers -/

inductive Query (α : Type) where
  | dimension
  | name
  | objective (x : Vec α)
  | gradient (x : Vec α)
  | objectiveAndGradient (x : Vec α)
  | hessianVector (x v : Vec α)
  | hessian (x : Vec α)
  | sparseHessian (x : Vec α)
  | sides
  | hasBounds
  | project (x : Vec α)
  | initialPoint
  | acceptStep (s y : Vec α)

/-- What a question is answered with, failures included. -/
def Query.Answer : Query α → Type
  | .dimension => Nat
  | .name => String
  | .objective _ => Except ModelError α
  | .gradient _ | .hessianVector _ _ => Except ModelError (Vec α)
  | .objectiveAndGradient _ => Except ModelError (α × Vec α)
  | .hessian _ => Except ModelError (Matrix α)
  | .sparseHessian _ => Except ModelError (Option (Sparse α))
  | .sides => Vec α × Vec α
  | .hasBounds => Bool
  | .project _ => Vec α
  | .initialPoint => Option (Vec α)
  | .acceptStep _ _ => Unit

def ask [Scalar α] (m : Model α σ) : (q : Query α) → Run σ q.Answer
  | .dimension => return m.dimension
  | .name => return m.name
  | .objective x => Run.outcome (m.objective x)
  | .gradient x => Run.outcome (m.gradient x)
  | .objectiveAndGradient x => Run.outcome (m.objectiveAndGradient x)
  | .hessianVector x v => Run.outcome (m.hessianVector x v)
  | .hessian x => Run.outcome (m.hessian x)
  | .sparseHessian x => Run.outcome (m.sparseHessian x)
  | .sides => return m.sides
  | .hasBounds => return m.hasBounds
  | .project x => liftM (m.project x)
  | .initialPoint => return m.initialPoint
  | .acceptStep s y => m.acceptStep s y

inductive Request (α : Type) where
  | ask (q : Query α)
  | restart

inductive Entry (α : Type) where
  | answered (q : Query α) (answer : Except Fault q.Answer)
  | restarted

/-- Answers requests one after another. A fault ends no more than the question that it arises in. -/
def serve [Scalar α] (m : Model α σ) (restart : σ → σ) :
    List (Request α) → Report σ (List (Entry α))
  | [] => return []
  | .ask q :: requests => do
    let answer ← (m.ask q).run
    return .answered q answer :: (← m.serve restart requests)
  | .restart :: requests => do
    modify restart
    return .restarted :: (← m.serve restart requests)

/-! ## Kinds of entries -/

namespace Entry

def isRestart : Entry α → Bool
  | .restarted => true
  | .answered _ _ => false

/-- The entries since counting was last started again. -/
def sinceRestart (log : List (Entry α)) : List (Entry α) := log.rtakeWhile fun e => !e.isRestart

def asksObjective : Entry α → Bool
  | .answered (.objective _) _ | .answered (.objectiveAndGradient _) _ => true
  | _ => false

def asksGradient : Entry α → Bool
  | .answered (.gradient _) _ | .answered (.objectiveAndGradient _) _ => true
  | _ => false

def asksProduct : Entry α → Bool
  | .answered (.hessianVector _ _) _ => true
  | _ => false

/-- A question for the Hessian, dense or sparse, unless the answer is that there is no sparse
one. -/
def asksHessian : Entry α → Bool
  | .answered (.hessian _) _ => true
  | .answered (.sparseHessian _) (.ok (.ok none)) => false
  | .answered (.sparseHessian _) (.ok (.ok (some _))) => true
  | .answered (.sparseHessian _) (.ok (.error _)) => true
  | .answered (.sparseHessian _) (.error _) => true
  | _ => false

/-- A question for a sparse Hessian that has no answer but a failure or a fault. -/
def lacksSparse : Entry α → Bool
  | .answered (.sparseHessian _) (.ok (.ok _)) => false
  | .answered (.sparseHessian _) (.ok (.error _)) => true
  | .answered (.sparseHessian _) (.error _) => true
  | _ => false

variable {q : Query α} {answer : Except Fault q.Answer} {e : Entry α}

theorem sinceRestart_restarted (log : List (Entry α)) : sinceRestart (log ++ [.restarted]) = [] :=
  List.rtakeWhile_concat_neg _ _ _ (by simp [isRestart])

theorem sinceRestart_answered (log : List (Entry α)) :
    sinceRestart (log ++ [.answered q answer]) = sinceRestart log ++ [.answered q answer] :=
  List.rtakeWhile_concat_pos _ _ _ rfl

theorem asksHessian_of_lacksSparse (h : e.lacksSparse = true) : e.asksHessian = true := by
  cases e with
  | restarted => cases h
  | answered q answer =>
      cases q with
      | sparseHessian x =>
          obtain fault | failure | answer := answer
          · rfl
          · rfl
          · cases h
      | _ => cases h

end Entry

end Model

open Model Entry

namespace Counts

def restart (t : Counts × σ) : Counts × σ := ({}, t.2)

example [Scalar α] (m : Layered α) : (Layered.counted m).resetCounts = restart := rfl

def after (c : Counts) : Entry α → Counts
  | .answered (.objective _) _ => c.addObjective
  | .answered (.gradient _) _ => c.addGradient
  | .answered (.objectiveAndGradient _) _ => c.addObjective.addGradient
  | .answered (.hessianVector _ _) _ => c.addHessianVector
  | .answered (.hessian _) _ => c.addHessian
  | .answered (.sparseHessian _) (.ok (.ok (some _))) => c.addHessian
  | .answered (.sparseHessian _) (.ok (.ok none)) => c
  | .answered (.sparseHessian _) (.ok (.error _)) => c
  | .answered (.sparseHessian _) (.error _) => c
  | .answered _ _ => c
  | .restarted => {}

def tally (entries : List (Entry α)) : Counts where
  objective := entries.countP asksObjective
  gradient := entries.countP asksGradient
  hessianVector := entries.countP asksProduct
  hessian := entries.countP fun e => e.asksHessian && !e.lacksSparse

theorem tally_nil : tally ([] : List (Entry α)) = {} := rfl

theorem after_tally (entries : List (Entry α)) (q : Query α) (answer : Except Fault q.Answer) :
    (tally entries).after (.answered q answer) = tally (entries ++ [.answered q answer]) := by
  cases q with
  | sparseHessian x =>
      obtain _ | _ | _ | _ := answer <;>
        simp [tally, after, asksObjective, asksGradient, asksProduct, asksHessian, lacksSparse,
          addHessian]
  | _ =>
      simp [tally, after, asksObjective, asksGradient, asksProduct, asksHessian, lacksSparse,
        addObjective, addGradient, addHessianVector, addHessian]

/-- The counts are a tally of the entries since they last started again. -/
theorem foldl_after (log : List (Entry α)) : log.foldl after {} = tally (sinceRestart log) := by
  induction log using List.reverseRecOn with
  | nil => rfl
  | append_singleton log e ih =>
      rw [List.foldl_append, List.foldl_cons, List.foldl_nil, ih]
      cases e with
      | restarted => rw [sinceRestart_restarted, after, tally_nil]
      | answered q answer => rw [sinceRestart_answered, after_tally]

/-- The questions for the Hessian are those that are counted and those that lack a sparse one. -/
theorem tally_hessian_add (entries : List (Entry α)) :
    (tally entries).hessian + entries.countP lacksSparse = entries.countP asksHessian := by
  have hlacks : entries.countP lacksSparse
      = entries.countP fun e => e.asksHessian && e.lacksSparse :=
    List.countP_congr fun e _ => by
      rw [Bool.and_eq_true, iff_and_self]
      exact asksHessian_of_lacksSparse
  rw [List.countP_eq_countP_filter_add entries asksHessian lacksSparse, List.countP_filter,
    List.countP_filter, hlacks, Nat.add_comm]
  rfl

end Counts

namespace Model

variable [Scalar α] (m : Model α σ)

/-- Whether a sparse Hessian is counted depends on the answer. -/
theorem start_sparseHessian (x : Vec α) (c : Counts) (s : σ) (journal : Journal) :
    (m.counted.sparseHessian x).run.start (c, s) journal =
      let out := (m.sparseHessian x).run.start s journal
      ((out.1.1, (c.after (.answered (.sparseHessian x) out.1.1), out.1.2)), out.2) := by
  show (Run.onSnd (m.sparseHessian x).run >>= ExceptT.bindCont fun h => do
    if h.isSome then
      count .addHessian
    return h : Run (Counts × σ) _).start (c, s) journal = _
  rw [Run.start_bind, Run.start_onSnd]
  generalize (m.sparseHessian x).run.start s journal = out
  obtain ⟨⟨_ | _ | _ | _, _⟩, _⟩ := out
  · rfl
  · rfl
  · rfl
  · rfl

theorem start_project (x : Vec α) (c : Counts) (s : σ) (journal : Journal) :
    (liftM (m.counted.project x) : Run (Counts × σ) (Vec α)).start (c, s) journal =
      let out := (liftM (m.project x) : Run σ (Vec α)).start s journal
      ((out.1.1, (c, out.1.2)), out.2) := by
  show (liftM (m.project x) : Run (Counts × σ) (Vec α)).start (c, s) journal = _
  cases m.project x with
  | error fault => rfl
  | ok y => rfl

/-- One question: the answer is that of the model inside, and the counts follow the entry. -/
theorem ask_counted (q : Query α) (c : Counts) (s : σ) (journal : Journal) :
    (m.counted.ask q).start (c, s) journal =
      let out := (m.ask q).start s journal
      ((out.1.1, (c.after (.answered q out.1.1), out.1.2)), out.2) := by
  cases q with
  | dimension => rfl
  | name => rfl
  | objective x => rfl
  | gradient x => rfl
  | objectiveAndGradient x => rfl
  | hessianVector x v => rfl
  | hessian x => rfl
  | sparseHessian x => exact m.start_sparseHessian x c s journal
  | sides => rfl
  | hasBounds => rfl
  | project x => exact m.start_project x c s journal
  | initialPoint => rfl
  | acceptStep s y => rfl

/-! ## Sequences of requests -/

theorem serve_ask (restart : σ → σ) (q : Query α) (requests : List (Request α)) (s : σ)
    (journal : Journal) :
    ((m.serve restart (.ask q :: requests)).run s).run journal =
      let out := (m.ask q).start s journal
      let rest := ((m.serve restart requests).run out.1.2).run out.2
      ((.answered q out.1.1 :: rest.1.1, rest.1.2), rest.2) := rfl

theorem serve_restart (restart : σ → σ) (requests : List (Request α)) (s : σ)
    (journal : Journal) :
    ((m.serve restart (.restart :: requests)).run s).run journal =
      let rest := ((m.serve restart requests).run (restart s)).run journal
      ((.restarted :: rest.1.1, rest.1.2), rest.2) := rfl

/-- The log of a counted model is that of the model inside, and its counts follow the log. -/
theorem serve_counted (requests : List (Request α)) (c : Counts) (s : σ) (journal : Journal) :
    ((m.counted.serve Counts.restart requests).run (c, s)).run journal =
      let out := ((m.serve id requests).run s).run journal
      ((out.1.1, (out.1.1.foldl Counts.after c, out.1.2)), out.2) := by
  induction requests generalizing c s journal with
  | nil => rfl
  | cons request requests ih =>
      cases request with
      | ask q =>
          rw [serve_ask, serve_ask, ask_counted]
          dsimp only
          rw [ih]
          rfl
      | restart =>
          rw [serve_restart, serve_restart, Counts.restart, ih]
          rfl

/-- **A counted model is transparent, and it counts failures.** Whatever is asked in whatever order,
and whenever counting starts again, the answers, the state and the journal are those of the model
inside. Each counter has the number of questions of its kind since counting last started again, but
that of the Hessians: it lacks the questions for a sparse Hessian that failed. -/
theorem counted_transparent (requests : List (Request α)) (s : σ) (journal : Journal) :
    let inside := ((m.serve id requests).run s).run journal
    let recent := sinceRestart inside.1.1
    ∃ counts : Counts,
      ((m.counted.serve Counts.restart requests).run ({}, s)).run journal
        = ((inside.1.1, (counts, inside.1.2)), inside.2) ∧
      counts.objective = recent.countP asksObjective ∧
      counts.gradient = recent.countP asksGradient ∧
      counts.hessianVector = recent.countP asksProduct ∧
      counts.hessian + recent.countP lacksSparse = recent.countP asksHessian ∧
      (counts.hessian = recent.countP asksHessian ↔ ∀ e ∈ recent, e.lacksSparse = false) := by
  intro inside recent
  have hcounts : inside.1.1.foldl Counts.after {} = Counts.tally recent :=
    Counts.foldl_after inside.1.1
  have hhessian := Counts.tally_hessian_add recent
  refine ⟨Counts.tally recent, hcounts ▸ m.serve_counted requests {} s journal, rfl, rfl, rfl,
    hhessian, ?_⟩
  have hnone : recent.countP lacksSparse = 0 ↔ ∀ e ∈ recent, e.lacksSparse = false := by
    simp [List.countP_eq_zero]
  rw [← hnone]
  omega

/-- No curvature can be evaluated. -/
def straight : Model Float Unit where
  dimension := 1
  objective x := pure (x.headD 0)
  gradient _ := pure [1]
  hessian _ := throw (.evaluation "no curvature")
  sparseHessian _ := throw (.evaluation "no curvature")

/-- Of two Hessians that fail, the dense one is counted and the sparse one is not. -/
theorem failed_sparse_hessian_uncounted :
    let out := ((straight.counted.serve Counts.restart
      [.ask (.hessian [0]), .ask (.sparseHessian [0])]).run ({}, ())).run #[]
    out.1.1 = [.answered (.hessian [0]) (.ok (.error (.evaluation "no curvature"))),
        .answered (.sparseHessian [0]) (.ok (.error (.evaluation "no curvature")))] ∧
      (sinceRestart out.1.1).countP asksHessian = 2 ∧ out.1.2.1.hessian = 1 :=
  ⟨rfl, rfl, rfl⟩

end Model

end Descent
