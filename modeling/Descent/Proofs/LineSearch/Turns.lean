import Mathlib.Logic.Relation
import Descent.Proofs.Evaluated
import Descent.Proofs.LineSearch.Trials

/-!
# A bracketing search on its way

Where a bracketing search stands before a trial is a `Head`: the trials that have been made with
what the model answered, the bracket, and what the model and the journal have become. A trial after
which the search goes on leads from one head to the next (`Ray.Turn`). The heads that are reached
from the first one are the starts of the trials of a run: what comes of the search from a head is
what comes of it from the next (`Ray.Turn.outcome_eq`), and where there is no next one the search
makes one more trial at most (`Ray.turn_or_last`).

A trial moves one end of the bracket to its step: the lower one if the step is too short
(`Ray.Undershoots`), the upper one if it is too long (`Ray.Overshoots`).
-/

set_option autoImplicit false

namespace Descent

namespace Run

variable {σ β γ ε : Type}

/-- From `s` and `journal` the computation ends with the value `b`, in the state `s'` and with the
journal `journal'`. -/
def Arrives (m : ExceptT ε (Run σ) β) (s : σ) (journal : Journal) (b : β) (s' : σ)
    (journal' : Journal) : Prop :=
  Run.start m.run s journal = ((.ok (.ok b), s'), journal')

namespace Arrives

variable {m : ExceptT ε (Run σ) β} {f : β → ExceptT ε (Run σ) γ} {s s' : σ}
  {journal journal' : Journal} {b : β} {c : γ}

theorem returns (h : Arrives m s journal b s' journal') : Returns m b :=
  ⟨s, journal, by rw [h]⟩

/-- A sequence goes on from where its first part ends. -/
theorem start_bind (h : Arrives m s journal b s' journal') :
    Run.start (m >>= f).run s journal = Run.start (f b).run s' journal' := by
  show Run.start (m.run >>= ExceptT.bindCont f) s journal = _
  rw [Run.start_bind, h]
  rfl

/-- A sequence that ends with a value passes through the end of its first part. -/
theorem of_bind (h : Arrives (m >>= f) s journal c s' journal') :
    ∃ b t between, Arrives m s journal b t between ∧ Arrives (f b) t between c s' journal' := by
  have hsequence : Run.start (m.run >>= ExceptT.bindCont f) s journal
      = ((.ok (.ok c), s'), journal') := h
  rw [Run.start_bind] at hsequence
  rcases hm : Run.start m.run s journal with ⟨⟨fault | error | b, t⟩, between⟩
  · rw [hm] at hsequence
    cases hsequence
  · rw [hm] at hsequence
    cases hsequence
  · rw [hm] at hsequence
    exact ⟨b, t, between, hm, hsequence⟩

/-- A check that passes leaves all as it is. -/
theorem of_checked {x : Checked β}
    (h : Arrives (liftM x : ExceptT ε (Run σ) β) s journal b s' journal') :
    x = .ok b ∧ s = s' ∧ journal = journal' := by
  cases x with
  | error fault => cases h
  | ok b' =>
      cases h
      exact ⟨rfl, rfl, rfl⟩

end Arrives

/-- Without a value there is nothing to go on with. -/
theorem arrives_or_start_bind (m : ExceptT ε (Run σ) β) (f : β → ExceptT ε (Run σ) β) (s : σ)
    (journal : Journal) : (∃ b s' journal', Arrives m s journal b s' journal') ∨
      Run.start (m >>= f).run s journal = Run.start m.run s journal := by
  have hsequence : Run.start (m >>= f).run s journal
      = Run.start (m.run >>= ExceptT.bindCont f) s journal := rfl
  rcases hm : Run.start m.run s journal with ⟨⟨fault | error | b, s'⟩, journal'⟩
  · exact .inr (by rw [hsequence, Run.start_bind, hm])
  · refine .inr ?_
    rw [hsequence, Run.start_bind, hm]
    rfl
  · exact .inl ⟨b, s', journal', hm⟩

end Run

namespace LineSearch

open Run

variable {α σ : Type} [Scalar α]

/-! ## Heads -/

/-- A trial of a bracketing search: the length of its step, and the values there or why there are
none that can be used. -/
structure Probe (α : Type) where
  step : α
  answer : Except String (α × Vec α)

/-- Where a bracketing search stands before a trial. -/
structure Head (α σ : Type) [Scalar α] where
  probes : List (Probe α)
  bracket : Ray.Bracket α
  state : σ
  journal : Journal

/-- What comes of a computation that is started where the search stands. -/
def Head.outcome {β : Type} (h : Head α σ) (m : Search σ β) :
    (Except Fault (Except SolverError β) × σ) × Journal :=
  Run.start m.run h.state h.journal

/-- Where two searches come to the same, so do they with what follows. -/
theorem Head.outcome_bind {β γ : Type} {h h' : Head α σ} {m m' : Search σ β}
    (heq : h.outcome m = h'.outcome m') (f : β → Search σ γ) :
    h.outcome (m >>= f) = h'.outcome (m' >>= f) := by
  show Run.start (m.run >>= ExceptT.bindCont f) h.state h.journal
    = Run.start (m'.run >>= ExceptT.bindCont f) h'.state h'.journal
  unfold outcome at heq
  rw [start_bind, start_bind, heq]

namespace Ray

variable {r : Ray α σ} {h h' : Head α σ}

def ask (r : Ray α σ) (point : Vec α) : Search σ (Except String (α × Vec α)) :=
  Evaluation.usable (r.model.objectiveAndGradient point) isFinitePair "objective or gradient"

/-- What trial number `k + 1` makes of the bracket with the answer to what it asked. -/
def weigh (r : Ray α σ) (k : Nat) (b : Bracket α) (point : Vec α) :
    Except String (α × Vec α) → Search σ (Found α ⊕ Bracket α)
  | .ok (value, gradient) =>
    r.judge (k + 1) { b with failures := b.failures.interrupted } point value gradient
  | .error reason => do
    let failures ← b.failures.record r.params.maxEvaluationFailures reason
    return .inr { b.closed with failures }

theorem narrow_eq (r : Ray α σ) (k : Nat) (b : Bracket α) : r.narrow k b = (do
    let point ← r.pointAt b.step
    let answer ← r.ask point
    r.weigh k b point answer) := by
  unfold narrow ask
  refine bind_congr fun point => bind_congr fun answer => ?_
  rcases answer with reason | ⟨value, gradient⟩
  · rfl
  · rfl

/-- One trial, after which the search goes on with a next step. -/
inductive Turn (r : Ray α σ) (h : Head α σ) : Head α σ → Prop
  | mk {point : Vec α} {answer : Except String (α × Vec α)} {b : Bracket α} {step : α}
    {asked state : σ} {between journal : Journal}
    (budget : h.probes.length < r.params.maxTrials)
    (long : ¬ h.bracket.step < r.params.minStepSize)
    (point_eq : r.pointAt h.bracket.step = .ok point)
    (answered : Arrives (r.ask point) h.state h.journal answer asked between)
    (weighed : Arrives (r.weigh h.probes.length h.bracket point answer) asked between (.inr b)
      state journal)
    (next : r.nextStep b = some step) :
    Turn r h ⟨h.probes ++ [⟨h.bracket.step, answer⟩], { b with step }, state, journal⟩

def onward (r : Ray α σ) (h : Head α σ) : Search σ (Found α ⊕ Bracket α) :=
  r.bracket (r.params.maxTrials - h.probes.length) h.probes.length h.bracket

/-- The trial that is made at a head, if one is, and no other. -/
def single (r : Ray α σ) (h : Head α σ) : Search σ (Found α ⊕ Bracket α) :=
  if h.probes.length < r.params.maxTrials ∧ ¬ h.bracket.step < r.params.minStepSize then
    r.narrow h.probes.length h.bracket
  else return .inr h.bracket

/-- Within the budget a trial is made unless the step is too short. -/
theorem onward_eq (hbudget : h.probes.length < r.params.maxTrials) : r.onward h =
    if h.bracket.step < r.params.minStepSize then return .inr h.bracket
    else do
      match ← r.narrow h.probes.length h.bracket with
      | .inl found => return .inl found
      | .inr b =>
        match r.nextStep b with
        | some step =>
          r.bracket (r.params.maxTrials - (h.probes.length + 1)) (h.probes.length + 1)
            { b with step }
        | none => return .inr b := by
  have hremaining : r.params.maxTrials - h.probes.length
      = r.params.maxTrials - (h.probes.length + 1) + 1 := by omega
  calc r.onward h
      = r.bracket (r.params.maxTrials - (h.probes.length + 1) + 1) h.probes.length h.bracket := by
        rw [onward, hremaining]
    _ = _ := bracket_succ ..

/-- What comes of a search from a head is what comes of it from the next one. -/
theorem Turn.outcome_eq (ht : r.Turn h h') :
    h.outcome (r.onward h) = h'.outcome (r.onward h') := by
  obtain ⟨hbudget, hlong, hpoint, hanswered, hweighed, hnext⟩ := ht
  rw [Head.outcome, onward_eq hbudget, if_neg hlong, narrow_eq, hpoint, liftM_ok, pure_bind,
    bind_assoc, hanswered.start_bind, hweighed.start_bind]
  dsimp only
  rw [hnext]
  simp only [Head.outcome, onward, List.length_append, List.length_singleton]

/-- The same for heads that are further apart. -/
theorem outcome_eq_of_reaches (hr : Relation.ReflTransGen r.Turn h h') :
    h.outcome (r.onward h) = h'.outcome (r.onward h') := by
  induction hr with
  | refl => rfl
  | tail _ ht ih => exact ih.trans ht.outcome_eq

/-- A trial that narrows the bracket, followed by a next step, is a turn. -/
theorem exists_turn {b : Bracket α} {step : α} {state : σ} {journal : Journal}
    (hbudget : h.probes.length < r.params.maxTrials)
    (hlong : ¬ h.bracket.step < r.params.minStepSize)
    (harrives : Arrives (r.narrow h.probes.length h.bracket) h.state h.journal (.inr b) state
      journal)
    (hnext : r.nextStep b = some step) : ∃ h', r.Turn h h' := by
  rw [narrow_eq] at harrives
  obtain ⟨point, _, _, hchecked, hrest⟩ := harrives.of_bind
  obtain ⟨hpoint, rfl, rfl⟩ := hchecked.of_checked
  obtain ⟨answer, asked, between, hanswered, hweighed⟩ := hrest.of_bind
  exact ⟨_, .mk hbudget hlong hpoint hanswered hweighed hnext⟩

/-- From a head the search goes on to another one, or makes one more trial at most. -/
theorem turn_or_last (r : Ray α σ) (h : Head α σ) :
    (∃ h', r.Turn h h') ∨ h.outcome (r.onward h) = h.outcome (r.single h) := by
  by_cases hbudget : h.probes.length < r.params.maxTrials
  · rw [onward_eq hbudget]
    by_cases hshort : h.bracket.step < r.params.minStepSize
    · rw [if_pos hshort, single, if_neg fun htrial => htrial.2 hshort]
      exact .inr rfl
    · rw [if_neg hshort, single, if_pos ⟨hbudget, hshort⟩]
      rcases arrives_or_start_bind (r.narrow h.probes.length h.bracket) _ h.state h.journal with
        ⟨found | b, state, journal, harrives⟩ | hnone
      · exact .inr (harrives.start_bind.trans harrives.symm)
      · cases hnext : r.nextStep b with
        | none =>
            refine .inr (harrives.start_bind.trans ?_)
            dsimp only
            rw [hnext]
            exact harrives.symm
        | some step => exact .inl (exists_turn hbudget hshort harrives hnext)
      · exact .inr hnone
  -- the trials are used up
  · rw [single, if_neg fun htrial => hbudget htrial.1, onward,
      Nat.sub_eq_zero_of_le (Nat.not_lt.mp hbudget), bracket]
    exact .inr rfl

/-- What a bracketing search makes of a step that it has found, or of the bracket that is left. -/
def conclude (r : Ray α σ) : Found α ⊕ Bracket α → Search σ (Found α)
  | .inl found => return found
  | .inr b =>
    match b.fallback with
    | some found => do
      emit (.armijoStepKept (wolfe r.params).name (Scalar.toFloat found.stepSize))
      return { found with evaluationFailures := b.failures.total }
    | none =>
      throw (r.failure "no step satisfying the Wolfe conditions" r.params.maxTrials b.step)

/-! ## What a trial moves -/

/-- The step is too short: it has sufficient decrease, but the slope there is too steep. -/
def Undershoots (r : Ray α σ) (q : Probe α) : Prop :=
  ∃ value gradient slope, q.answer = .ok (value, gradient) ∧ ¬ r.armijoBound q.step < value ∧
    Vec.dot gradient r.direction = .ok slope ∧ slope < r.params.c2 * r.slope

/-- The step is too long: there are no values to use, or the decrease is not sufficient, or the
slope rises too much for the strong condition. -/
def Overshoots (r : Ray α σ) (q : Probe α) : Prop :=
  (∃ reason, q.answer = .error reason) ∨
    ∃ value gradient, q.answer = .ok (value, gradient) ∧
      (r.armijoBound q.step < value ∨ r.params.condition = .strong ∧
        ∃ slope, Vec.dot gradient r.direction = .ok slope ∧ -r.params.c2 * r.slope < slope)

/-- The ends of the bracket `b'` are those of `b`, but for one, which a trial has moved. -/
inductive Moves (r : Ray α σ) (b : Bracket α) (q : Probe α) (b' : Bracket α) : Prop
  | lower (short : r.Undershoots q) (lower : b'.lower = b.step) (upper : b'.upper = b.upper)
    (step : b'.step = b.step)
  | upper (long : r.Overshoots q) (lower : b'.lower = b.lower)
    (upper : b'.upper = b.closed.upper) (step : b'.step = b.step)

theorem judge_moves {k : Nat} {b b' : Bracket α} {point : Vec α} {value : α} {gradient : Vec α}
    (h : r.judge k b point value gradient = .ok (.inr b')) :
    r.Moves b ⟨b.step, .ok (value, gradient)⟩ b' := by
  unfold judge at h
  split at h
  · next habove =>
      cases h
      exact .upper (.inr ⟨value, gradient, rfl, .inl habove⟩) rfl rfl rfl
  · next hdecrease =>
      obtain ⟨slope, hslope, h⟩ := exists_of_bind_ok h
      dsimp only at h
      split at h
      · next hsteep =>
          cases h
          exact .lower ⟨value, gradient, slope, rfl, hdecrease, hslope, hsteep⟩ rfl rfl rfl
      · split at h
        · next hpast =>
            cases h
            exact .upper (.inr ⟨value, gradient, rfl, .inr ⟨hpast.1, slope, hslope, hpast.2⟩⟩)
              rfl rfl rfl
        · cases h

theorem weigh_moves {k : Nat} {b b' : Bracket α} {point : Vec α}
    {answer : Except String (α × Vec α)} {s s' : σ} {journal journal' : Journal}
    (h : Arrives (r.weigh k b point answer) s journal (.inr b') s' journal') :
    r.Moves b ⟨b.step, answer⟩ b' := by
  rcases answer with reason | ⟨value, gradient⟩
  · obtain ⟨failures, -, hreturns⟩ := h.returns.of_bind
    obtain rfl := Sum.inr.inj hreturns.of_pure
    exact .upper (.inl ⟨reason, rfl⟩) rfl rfl rfl
  · obtain ⟨hjudge, -, -⟩ := Arrives.of_checked h
    cases judge_moves hjudge with
    | lower short lower upper step => exact .lower short lower upper step
    | upper long lower upper step => exact .upper long lower upper step

/-- The values that are answered are finite. -/
theorem isFinite_of_ask {point : Vec α} {answer : Except String (α × Vec α)}
    (h : Returns (r.ask point) answer) (value : α) (gradient : Vec α)
    (hanswer : answer = .ok (value, gradient)) :
    Scalar.isFinite value = true ∧ Vec.allFinite gradient = true := by
  have husable := (Evaluation.usable_gives _ _ _).returned h _ hanswer
  exact (Bool.and_eq_true _ _).mp husable.2

/-- The step after a trial is the middle of a closed bracket, else the double of the last one, if
that is not the longest. -/
theorem nextStep_eq_some {b : Bracket α} {step : α} (h : r.nextStep b = some step) :
    (∃ upper, b.upper = some upper ∧ step = (b.lower + upper) * 0.5) ∨
      b.upper = none ∧ ¬ r.params.maxStepSize ≤ b.step ∧
        step = Scalar.minNum (2.0 * b.step) r.params.maxStepSize := by
  unfold nextStep at h
  split at h
  · next upper hupper =>
      cases h
      exact .inl ⟨upper, hupper, rfl⟩
  · next hupper =>
      split at h
      · cases h
      · next hlong =>
          cases h
          exact .inr ⟨hupper, hlong, rfl⟩

end Ray

/-- A bracketing search makes its way from a first head, if the direction descends. -/
theorem run_wolfe_eq (p : LineSearchParams α) (m : Model α σ) (x : Vec α) (f₀ : α)
    (g₀ d : Vec α) (initialStep : α) :
    (wolfe p).run m x f₀ g₀ d initialStep = (do
      let slope ← descentSlope g₀ d f₀
      let r : Ray α σ := ⟨p, m, x, f₀, d, slope⟩
      let out ← r.bracket p.maxTrials 0 { step := Scalar.minNum initialStep p.maxStepSize }
      r.conclude out) := by
  unfold run
  refine bind_congr fun slope => bind_congr fun out => ?_
  rcases out with found | b
  · rfl
  · rfl

end LineSearch

end Descent
