import Mathlib.Data.List.Count
import Descent.Proofs.LineSearch
import Descent.Proofs.LineSearch.Tried

/-!
# What searches count

A line search counts its trials and the failures among them. On a model that keeps the trial points
both counts are functions of the list that it leaves: one trial adds its point to the list and takes
the count from `f` to `f.next` of it (`Ray.shorten_tried`, `Ray.narrow_tried`), and so do all trials
of a search, whatever it ends with (`run_tried`). From this follow what a cap on failures in a row
cuts off, and what a step or an error tells of the trials before it.
-/

set_option autoImplicit false

namespace Descent.LineSearch

open Run

variable {α σ : Type} [Scalar α]

/-! ## Rows that are too long -/

section Rows

variable {α : Type} {cap : Nat} {trials : List (Trial α)} {t : Trial α}

/-- At no time had more than `cap` trials failed in a row. -/
def Tolerated (cap : Nat) (trials : List (Trial α)) : Prop :=
  ∀ earlier, earlier <+: trials → (Failures.after earlier).run ≤ cap

/-- With the last trial, and not before, more than `cap` trials have failed in a row. -/
structure Exceeds (cap : Nat) (trials : List (Trial α)) : Prop where
  run : (Failures.after trials).run = cap + 1
  before : ∀ earlier, earlier <+: trials → earlier ≠ trials → (Failures.after earlier).run ≤ cap

theorem tolerated_nil : Tolerated cap ([] : List (Trial α)) := by
  intro earlier h
  rw [List.prefix_nil.mp h]
  exact Nat.zero_le cap

theorem Tolerated.append (h : Tolerated cap trials)
    (ht : ((Failures.after trials).next t).run ≤ cap) : Tolerated cap (trials ++ [t]) := by
  intro earlier hearlier
  rcases List.prefix_concat_iff.mp hearlier with rfl | hearlier
  · rwa [Failures.after_append]
  · exact h earlier hearlier

theorem Tolerated.append_of_value (h : Tolerated cap trials) (ht : t.failed = false) :
    Tolerated cap (trials ++ [t]) := by
  rw [Trial.failed, Bool.or_eq_false_iff] at ht
  refine h.append ?_
  simp [Failures.next, ht.1, ht.2, Failures.interrupted]

/-- The first trial with more than `cap` failures in a row has one more of them. -/
theorem Tolerated.exceeds (h : Tolerated cap trials)
    (ht : cap < ((Failures.after trials).next t).run) : Exceeds cap (trials ++ [t]) where
  run := by
    have hlast : (Failures.after trials).run ≤ cap := h trials (List.prefix_refl trials)
    have hnext := (Failures.after trials).run_next_le t
    rw [Failures.after_append]
    omega
  before earlier hearlier hne := by
    rcases List.prefix_concat_iff.mp hearlier with rfl | hearlier
    · exact absurd rfl hne
    · exact h earlier hearlier

end Rows

/-! ## One trial -/

/-- What ends a search in the middle of a trial: an error of the model that no shorter step mends,
or a failure after which there are more than `cap` in a row. -/
inductive Failures.Ends {α : Type} (f : Failures) (cap : Nat) (t : Trial α) : SolverError → Prop
  | model (inner : ModelError) (h : t.failed = false) : Ends f cap t (.model inner)
  | exceeded (reason : String) (h : cap < (f.next t).run) :
    Ends f cap t (.evaluationFailures (f.next t).run reason)

/-- What follows a failure that is counted, unless it is one too many. -/
theorem Failures.record_bind {γ : Type} {P F : σ → Prop} {f : Failures} {cap : Nat}
    {reason : String} {rest : Failures → Search σ γ} {Q : γ → σ → Prop}
    {E : SolverError → σ → Prop}
    (hmore : cap < f.run + 1 → ∀ s, P s → E (.evaluationFailures (f.run + 1) reason) s)
    (hrest : f.run + 1 ≤ cap → Settles P (rest ⟨f.run + 1, f.total + 1⟩) Q E F) :
    Settles P (f.record cap reason >>= rest) Q E F := by
  have hrecord : Settles P (f.record cap reason : Search σ Failures)
      (fun f' s => P s ∧ f.run + 1 ≤ cap ∧ f' = ⟨f.run + 1, f.total + 1⟩) E F := by
    refine Settles.bind Settles.emit fun _ => Settles.ite (fun h => ?_) fun h => ?_
    · exact Settles.throw (hmore h)
    · exact Settles.pure fun s hs => ⟨hs, Nat.not_lt.mp h, rfl⟩
  refine Settles.bind hrecord fun f' => Settles.assume ?_
  rintro ⟨hcap, rfl⟩
  exact hrest hcap

/-- What follows a failure that is not one too many. -/
theorem Failures.record_bind_of_le {γ : Type} {P F : σ → Prop} {f : Failures} {cap : Nat}
    {reason : String} {rest : Failures → Search σ γ} {Q : γ → σ → Prop}
    {E : SolverError → σ → Prop} (hcap : f.run + 1 ≤ cap)
    (hrest : Settles P (rest ⟨f.run + 1, f.total + 1⟩) Q E F) :
    Settles P (f.record cap reason >>= rest) Q E F :=
  Failures.record_bind (fun h => absurd h (Nat.not_lt.mpr hcap)) fun _ => hrest

namespace Ray

variable {r : Ray α σ}

def tried (r : Ray α σ) : Ray α (σ × List (Trial α)) := { r with model := r.model.tried }

theorem model_tried (r : Ray α σ) : r.tried.model = r.model.tried := rfl

theorem judge_tried (r : Ray α σ) : r.tried.judge = r.judge := rfl

/-- What a trial of backtracking at step length `a` makes of the step and the count. -/
inductive Shortens (r : Ray α σ) (k : Nat) (a : α)
    (f : Failures) : Trial α → Found α ⊕ α × Failures → Prop
  | failed (t : Trial α) (h : t.failed = true) :
    Shortens r k a f t (.inr (a * r.params.rho, f.next t))
  | above (point : Vec α) (value : α) (hvalue : Returns (r.model.objective point) value)
    (h : ¬ value ≤ r.armijoBound a) :
    Shortens r k a f ⟨point, false, false⟩ (.inr (r.interpolated a value, f.interrupted))
  | settled (point : Vec α) (value : α) (gradient : Vec α)
    (hvalue : Returns (r.model.objective point) value) (h : value ≤ r.armijoBound a) :
    Shortens r k a f ⟨point, false, false⟩
      (.inl ⟨a, point, value, gradient, k + 1, f.interrupted.total⟩)

theorem shorten_tried (r : Ray α σ) (k : Nat) (a : α) (f : Failures)
    (trials : List (Trial α)) :
    Settles (fun u => u.2 = trials) (r.tried.shorten k a f)
      (fun out u => ∃ t, u.2 = trials ++ [t] ∧ r.pointAt a = .ok t.point ∧
        r.Shortens k a f t out ∧ (f.next t).run ≤ r.params.maxEvaluationFailures)
      (fun e u => ∃ t, u.2 = trials ++ [t] ∧ f.Ends r.params.maxEvaluationFailures t e)
      fun u => u.2 = trials ∨ ∃ t, t.failed = false ∧ u.2 = trials ++ [t] := by
  refine Settles.bind (Q := fun point u => u.2 = trials ∧ r.pointAt a = .ok point)
    (Settles.checked (fun point hpoint u hu => ⟨hu, hpoint⟩) fun u hu => .inl hu) fun point => ?_
  refine Settles.assume fun hpoint => ?_
  rw [model_tried, Model.objective_tried, Model.gradient_tried]
  refine Evaluation.usable_noted_bind ?_ (fun u hu => .inl hu) (fun reason => ?_)
    fun value hvalue _ => Settles.ite (fun h => ?_) fun h => ?_
  · exact fun inner u hu => ⟨_, hu, .model inner rfl⟩
  · refine Failures.record_bind (fun h u hu => ⟨_, hu, .exceeded reason h⟩) fun h => ?_
    exact Settles.pure fun u hu => ⟨_, hu, hpoint, .failed ⟨point, true, false⟩ rfl, h⟩
  · refine Evaluation.usable_noted_bind ?_ (fun u hu => .inr ⟨_, rfl, hu⟩) (fun reason => ?_)
      fun gradient hgradient _ => ?_
    all_goals rw [List.modifyLast_concat]
    · exact fun inner u hu => ⟨_, hu, .model inner rfl⟩
    · refine Failures.record_bind (fun h u hu => ⟨_, hu, .exceeded reason h⟩) fun h => ?_
      exact Settles.pure fun u hu => ⟨_, hu, hpoint, .failed ⟨point, false, true⟩ rfl, h⟩
    · exact Settles.pure fun u hu =>
        ⟨_, hu, hpoint, .settled point value gradient hvalue h, Nat.zero_le _⟩
  · exact Settles.pure fun u hu => ⟨_, hu, hpoint, .above point value hvalue h, Nat.zero_le _⟩

/-- The curvature condition that the parameters ask for holds at the step. -/
def Bends (r : Ray α σ) (found : Found α) : Prop :=
  ∃ slope, Vec.dot found.gradient r.direction = .ok slope ∧ ¬ slope < r.params.c2 * r.slope ∧
    ¬ (r.params.condition = .strong ∧ -r.params.c2 * r.slope < slope)

/-- What a trial of bracketing finds at the step of the bracket, if it has sufficient decrease. -/
structure Passes (r : Ray α σ) (k : Nat) (b : Bracket α)
    (found : Found α) : Prop where
  stepSize : found.stepSize = b.step
  answered : Returns (r.model.objectiveAndGradient found.point) (found.value, found.gradient)
  isFinite : isFinitePair (found.value, found.gradient) = true
  decrease : ¬ r.armijoBound b.step < found.value
  slope : ∃ slope, Vec.dot found.gradient r.direction = .ok slope
  trials : found.trials = k
  evaluationFailures : found.evaluationFailures = b.failures.total

inductive Judges (r : Ray α σ) (k : Nat) (b : Bracket α)
    (point : Vec α) : Found α ⊕ Bracket α → Prop
  | above : Judges r k b point (.inr b.closed)
  | steep (found : Found α) (hpoint : found.point = point) (h : r.Passes k b found)
    (hbends : ¬ r.Bends found) :
    Judges r k b point (.inr { b with lower := b.step, fallback := some found })
  | past (found : Found α) (hpoint : found.point = point) (h : r.Passes k b found)
    (hbends : ¬ r.Bends found) :
    Judges r k b point (.inr { b.closed with fallback := some found })
  | settled (found : Found α) (hpoint : found.point = point) (h : r.Passes k b found)
    (hbends : r.Bends found) : Judges r k b point (.inl found)

theorem judge_judges {k : Nat} {b : Bracket α} {point : Vec α}
    {value : α} {gradient : Vec α} {judged : Found α ⊕ Bracket α}
    (hanswered : Returns (r.model.objectiveAndGradient point) (value, gradient))
    (hfinite : isFinitePair (value, gradient) = true)
    (h : r.judge k b point value gradient = .ok judged) : r.Judges k b point judged := by
  unfold judge at h
  split at h
  · cases h
    exact .above
  · next hdecrease =>
      obtain ⟨slope, hslope, h⟩ := exists_of_bind_ok h
      have hpasses : r.Passes k b ⟨b.step, point, value, gradient, k, b.failures.total⟩ :=
        ⟨rfl, hanswered, hfinite, hdecrease, ⟨slope, hslope⟩, rfl, rfl⟩
      -- the condition is one on this slope
      have hunique : ∀ {slope'}, Vec.dot gradient r.direction = .ok slope' → slope' = slope :=
        fun h' => Except.ok.inj (h'.symm.trans hslope)
      dsimp only at h
      split at h
      · next hsteep =>
          cases h
          refine .steep _ rfl hpasses ?_
          rintro ⟨slope', hslope', hnot, -⟩
          exact hnot (hunique hslope' ▸ hsteep)
      · next hsteep =>
          split at h
          · next hpast =>
              cases h
              refine .past _ rfl hpasses ?_
              rintro ⟨slope', hslope', -, hnot⟩
              exact hnot (hunique hslope' ▸ hpast)
          · next hpast =>
              cases h
              exact .settled _ rfl hpasses ⟨slope, hslope, hsteep, hpast⟩

inductive Narrows (r : Ray α σ) (k : Nat) (b : Bracket α) :
    Trial α → Found α ⊕ Bracket α → Prop
  | failed (point : Vec α) :
    Narrows r k b ⟨point, true, false⟩
      (.inr { b.closed with failures := b.failures.next ⟨point, true, false⟩ })
  | judged (point : Vec α) (out : Found α ⊕ Bracket α)
    (h : r.Judges (k + 1) { b with failures := b.failures.interrupted } point out) :
    Narrows r k b ⟨point, false, false⟩ out

theorem narrow_tried (r : Ray α σ) (k : Nat) (b : Bracket α)
    (trials : List (Trial α)) :
    Settles (fun u => u.2 = trials) (r.tried.narrow k b)
      (fun out u => ∃ t, u.2 = trials ++ [t] ∧ r.pointAt b.step = .ok t.point ∧
        r.Narrows k b t out ∧ (b.failures.next t).run ≤ r.params.maxEvaluationFailures)
      (fun e u => ∃ t, t.gradientFailed = false ∧ u.2 = trials ++ [t] ∧
        b.failures.Ends r.params.maxEvaluationFailures t e)
      fun u => u.2 = trials ∨ ∃ t, t.failed = false ∧ u.2 = trials ++ [t] := by
  refine Settles.bind (Q := fun point u => u.2 = trials ∧ r.pointAt b.step = .ok point)
    (Settles.checked (fun point hpoint u hu => ⟨hu, hpoint⟩) fun u hu => .inl hu) fun point => ?_
  refine Settles.assume fun hpoint => ?_
  rw [model_tried, judge_tried, Model.objectiveAndGradient_tried]
  refine Evaluation.usable_noted_bind ?_ (fun u hu => .inl hu) (fun reason => ?_) ?_
  · exact fun inner u hu => ⟨_, rfl, hu, .model inner rfl⟩
  · refine Failures.record_bind (fun h u hu => ⟨_, rfl, hu, .exceeded reason h⟩) fun h => ?_
    exact Settles.pure fun u hu => ⟨_, hu, hpoint, .failed point, h⟩
  · rintro ⟨value, gradient⟩ hanswered hfinite
    refine Settles.checked (fun out hout u hu => ?_) fun u hu => .inr ⟨_, rfl, hu⟩
    exact ⟨_, hu, hpoint, .judged point out (judge_judges hanswered hfinite hout), Nat.zero_le _⟩

end Ray

/-! ## All trials -/

section Counts

variable {α : Type} {cap k : Nat} {f : Failures} {trials : List (Trial α)} {t : Trial α}
  {found : Found α}

/-- The counts of a search after `k` trials, before which it has not been ended. -/
structure Counted (cap k : Nat) (f : Failures) (trials : List (Trial α)) : Prop where
  length : trials.length = k
  failures : f = Failures.after trials
  tolerated : Tolerated cap trials

theorem counted_nil : Counted cap 0 {} ([] : List (Trial α)) := ⟨rfl, rfl, tolerated_nil⟩

theorem Counted.append (h : Counted cap k f trials) (ht : (f.next t).run ≤ cap) :
    Counted cap (k + 1) (f.next t) (trials ++ [t]) := by
  obtain ⟨rfl, rfl, htolerated⟩ := h
  exact ⟨by simp, Failures.after_append.symm, htolerated.append ht⟩

/-- The error of the model, or the first row of failures that is too long, ends a search with these
trials. -/
inductive Cut (cap : Nat) (trials : List (Trial α)) : SolverError → Prop
  | model (inner : ModelError) (h : Tolerated cap trials) : Cut cap trials (.model inner)
  | exceeded (reason : String) (h : Exceeds cap trials) :
    Cut cap trials (.evaluationFailures (cap + 1) reason)

theorem Counted.cut (h : Counted cap k f trials) {e : SolverError} (he : f.Ends cap t e) :
    Cut cap (trials ++ [t]) e := by
  obtain ⟨-, rfl, htolerated⟩ := h
  cases he with
  | model inner ht => exact .model inner (htolerated.append_of_value ht)
  | exceeded reason ht =>
      have hexceeds := htolerated.exceeds ht
      rw [← Failures.after_append, hexceeds.run]
      exact .exceeded reason hexceeds

/-- The step ends at the trial point with the number that it gives, and that trial had not
failed. -/
def Found.AtTrial (found : Found α) (trials : List (Trial α)) : Prop :=
  ∃ n t, found.trials = n + 1 ∧ trials[n]? = some t ∧ t.point = found.point ∧ t.failed = false

theorem Found.AtTrial.append (h : found.AtTrial trials) : found.AtTrial (trials ++ [t]) := by
  obtain ⟨n, t', hn, ht', h⟩ := h
  refine ⟨n, t', hn, ?_, h⟩
  rw [List.getElem?_append_left (List.getElem?_eq_some_iff.mp ht').1, ht']

theorem Counted.atTrial (h : Counted cap k f trials) (hk : found.trials = k + 1)
    (hpoint : t.point = found.point) (ht : t.failed = false) : found.AtTrial (trials ++ [t]) :=
  ⟨k, t, hk, by simp [← h.length], hpoint, ht⟩

/-- One of the trials has not failed. -/
theorem Found.AtTrial.countP_lt (h : found.AtTrial trials) :
    trials.countP Trial.failed < trials.length := by
  obtain ⟨n, t, -, ht, -, hfailed⟩ := h
  refine List.countP_lt_length_iff.mpr ⟨t, List.mem_of_getElem? ht, ?_⟩
  rw [hfailed]

end Counts

/-- What a search that has settled on a step says of its trials, of which there were `budget` at
most. -/
structure Found.Accounts {α : Type} (found : Found α) (budget : Nat) (trials : List (Trial α)) :
    Prop where
  budget : trials.length ≤ budget
  failures : found.evaluationFailures = trials.countP Trial.failed
  fewer : found.evaluationFailures < trials.length
  atTrial : found.AtTrial trials

theorem Found.AtTrial.accounts {α : Type} {found : Found α} {budget : Nat}
    {trials : List (Trial α)} (h : found.AtTrial trials) (hbudget : trials.length ≤ budget)
    (hfailures : found.evaluationFailures = (Failures.after trials).total) :
    found.Accounts budget trials := by
  rw [Failures.total_after] at hfailures
  exact ⟨hbudget, hfailures, hfailures ▸ h.countP_lt, h⟩

namespace Ray

variable (r : Ray α σ) (first : α)

/-- Backtracking goes on at step length `a` after a trial at `last`. -/
inductive Shortened (t : Trial α) (last : α) : α → Prop
  | failed (h : t.failed = true) : Shortened t last (last * r.params.rho)
  | above (value : α) (ht : t.failed = false) (hvalue : Returns (r.model.objective t.point) value)
    (h : ¬ value ≤ r.armijoBound last) : Shortened t last (r.interpolated last value)

/-- The step length at which backtracking goes on after its trials. -/
def Backtracked (trials : List (Trial α)) (a : α) : Prop :=
  trials = [] ∧ a = first ∨ ∃ earlier t last, trials = earlier ++ [t] ∧
    r.pointAt last = .ok t.point ∧ r.Shortened t last a

theorem backtrack_tried :
    Settles (fun u => u.2 = []) (r.tried.backtrack r.params.maxTrials 0 first {})
      (fun found u => Tolerated r.params.maxEvaluationFailures u.2 ∧
        found.Accounts r.params.maxTrials u.2 ∧ found.trials = u.2.length)
      (fun e u => Cut r.params.maxEvaluationFailures u.2 e ∨
        Tolerated r.params.maxEvaluationFailures u.2 ∧ u.2.length ≤ r.params.maxTrials ∧
          ∃ reason n a, e = r.failure reason n a ∧ n = u.2.length ∧ r.Backtracked first u.2 a)
      fun u => Tolerated r.params.maxEvaluationFailures u.2 := by
  refine Settles.mono (Ray.backtrack_settles
    (I := fun k a f u => Counted r.params.maxEvaluationFailures k f u.2 ∧
      r.Backtracked first u.2 a) ?_ ?_ ?_ (Nat.zero_add r.params.maxTrials) first {}) ?_
    (fun _ _ h => h) (fun _ _ h => h) fun _ h => h
  · rintro a f u ⟨hcounted, ha⟩
    exact .inr ⟨hcounted.tolerated, Nat.le_of_eq hcounted.length, _, _, a, rfl,
      hcounted.length.symm, ha⟩
  · rintro k a f u hk - ⟨hcounted, ha⟩
    exact .inr ⟨hcounted.tolerated, hcounted.length ▸ Nat.le_of_lt hk, _, k, a, rfl,
      hcounted.length.symm, ha⟩
  · rintro k a f hk - u journal ⟨hcounted, -⟩
    refine Settles.mono (r.shorten_tried k a f u.2) (fun _ h => h) ?_ ?_ ?_ u journal rfl
    · rintro out v ⟨t, hv, hpoint, hshortens, hcap⟩
      have hnext := hcounted.append hcap
      rw [← hv] at hnext
      cases hshortens with
      | failed t ht => exact ⟨hnext, .inr ⟨_, t, a, hv, hpoint, .failed ht⟩⟩
      | above point value hvalue h =>
          exact ⟨hnext, .inr ⟨_, _, a, hv, hpoint, .above value rfl hvalue h⟩⟩
      | settled point value gradient hvalue h =>
          have hlast : Found.AtTrial ⟨a, point, value, gradient, k + 1, f.interrupted.total⟩ v.2 :=
            hv ▸ hcounted.atTrial rfl rfl rfl
          refine ⟨hnext.tolerated, hlast.accounts ?_ ?_, hnext.length.symm⟩
          · rw [hnext.length]
            exact hk
          · rw [← hnext.failures]
            rfl
    · rintro e v ⟨t, hv, hends⟩
      exact .inl (hv ▸ hcounted.cut hends)
    · rintro v (hv | ⟨t, ht, hv⟩)
      · exact hv ▸ hcounted.tolerated
      · exact hv ▸ hcounted.tolerated.append_of_value ht
  · rintro ⟨state, _⟩ rfl
    exact ⟨counted_nil, .inl ⟨rfl, rfl⟩⟩

/-- The step length that bracketing tries next, or stops at, if none of its trials had sufficient
decrease: the interval from zero to the last step is halved. -/
def Halved (trials : List (Trial α)) (a : α) : Prop :=
  trials = [] ∧ a = first ∨ ∃ earlier t last, trials = earlier ++ [t] ∧
    r.pointAt last = .ok t.point ∧ a = (r.nextStep (Bracket.closed { step := last })).getD last

/-- The state of bracketing after `k` trials, where `a` is the step to try next. -/
structure Kept (k : Nat) (b : Bracket α) (a : α) (trials : List (Trial α)) : Prop where
  counted : Counted r.params.maxEvaluationFailures k b.failures trials
  /-- Both evaluations of a trial are one question. -/
  whole : ∀ t ∈ trials, t.gradientFailed = false
  fallback : ∀ found, b.fallback = some found → found.AtTrial trials ∧ ¬ r.Bends found
  start : b.fallback = none → b.lower = 0 ∧ r.Halved first trials a

variable {r first} {k : Nat} {b b' : Bracket α} {t : Trial α} {trials : List (Trial α)}

theorem Kept.whole_append {a : α} (h : r.Kept first k b a trials) (ht : t.gradientFailed = false) :
    ∀ t' ∈ trials ++ [t], t'.gradientFailed = false :=
  List.forall_mem_append.mpr ⟨h.whole, List.forall_mem_singleton.mpr ht⟩

/-- The bracket closes at a step without sufficient decrease. -/
theorem Kept.closed {a : α} (h : r.Kept first k b a trials)
    (hpoint : r.pointAt b.step = .ok t.point) (ht : t.gradientFailed = false)
    (hcap : (b.failures.next t).run ≤ r.params.maxEvaluationFailures) :
    let b' : Bracket α := { b.closed with failures := b.failures.next t }
    r.Kept first (k + 1) b' ((r.nextStep b').getD b'.step) (trials ++ [t]) where
  counted := h.counted.append hcap
  whole := h.whole_append ht
  fallback found hfound := ⟨(h.fallback found hfound).1.append, (h.fallback found hfound).2⟩
  start hnone := by
    have hlower : b.lower = 0 := (h.start hnone).1
    refine ⟨hlower, .inr ⟨trials, t, b.step, rfl, hpoint, ?_⟩⟩
    simp only [nextStep, Bracket.closed, hlower]

/-- What a trial keeps. -/
theorem Kept.narrows {a : α} (h : r.Kept first k b a trials)
    (hpoint : r.pointAt b.step = .ok t.point) (hnarrows : r.Narrows k b t (.inr b'))
    (hcap : (b.failures.next t).run ≤ r.params.maxEvaluationFailures) :
    r.Kept first (k + 1) b' ((r.nextStep b').getD b'.step) (trials ++ [t]) := by
  cases hnarrows with
  | failed point => exact h.closed hpoint rfl hcap
  | judged point out hjudges =>
      -- a step with sufficient decrease is the one to fall back on
      have hfound : ∀ {found found' : Found α}, found.point = point → found.trials = k + 1 →
          ¬ r.Bends found → some found = some found' →
          found'.AtTrial (trials ++ [⟨point, false, false⟩]) ∧ ¬ r.Bends found' := by
        rintro found _ hfound hk hbends ⟨⟩
        exact ⟨h.counted.atTrial hk hfound.symm rfl, hbends⟩
      cases hjudges with
      | above => exact h.closed hpoint rfl hcap
      | steep found hfound' hpasses hbends =>
          exact ⟨h.counted.append hcap, h.whole_append rfl,
            fun _ => hfound hfound' hpasses.trials hbends, nofun⟩
      | past found hfound' hpasses hbends =>
          exact ⟨h.counted.append hcap, h.whole_append rfl,
            fun _ => hfound hfound' hpasses.trials hbends, nofun⟩

/-- What bracketing says of its trials, whatever it ends with. -/
theorem bracket_tried (r : Ray α σ) (first : α) :
    Settles (fun u => u.2 = []) (r.tried.bracket r.params.maxTrials 0 { step := first })
      (fun out u => match out with
        | .inl found => Tolerated r.params.maxEvaluationFailures u.2 ∧
            (∀ t ∈ u.2, t.gradientFailed = false) ∧ found.Accounts r.params.maxTrials u.2 ∧
            found.trials = u.2.length
        | .inr b => ∃ k ≤ r.params.maxTrials, r.Kept first k b b.step u.2)
      (fun e u => Cut r.params.maxEvaluationFailures u.2 e ∧ ∀ t ∈ u.2, t.gradientFailed = false)
      fun u => Tolerated r.params.maxEvaluationFailures u.2 ∧
        ∀ t ∈ u.2, t.gradientFailed = false := by
  refine Settles.mono (Ray.bracket_settles (I := fun k b u => r.Kept first k b b.step u.2)
    ?_ ?_ ?_ (Nat.zero_add r.params.maxTrials) { step := first }) ?_
    (fun _ _ h => h) (fun _ _ h => h) fun _ h => h
  · exact fun b u h => ⟨_, Nat.le_refl _, h⟩
  · exact fun k b u hk _ h => ⟨k, Nat.le_of_lt hk, h⟩
  · rintro k b hk - u journal h
    refine Settles.mono (r.narrow_tried k b u.2) (fun _ h => h) ?_ ?_ ?_ u journal rfl
    · rintro (found | b') v ⟨t, hv, hpoint, hnarrows, hcap⟩
      · have hcounted := h.counted.append hcap
        rw [← hv] at hcounted
        obtain _ | ⟨point, _, hjudges⟩ := hnarrows
        obtain _ | _ | _ | ⟨_, hfound, hpasses, -⟩ := hjudges
        have hlast : found.AtTrial v.2 := hv ▸ h.counted.atTrial hpasses.trials hfound.symm rfl
        refine ⟨hcounted.tolerated, hv ▸ h.whole_append rfl, hlast.accounts ?_ ?_, ?_⟩
        · rw [hcounted.length]
          exact hk
        · rw [← hcounted.failures]
          exact hpasses.evaluationFailures
        · rw [hcounted.length, hpasses.trials]
      · have hkept := h.narrows hpoint hnarrows hcap
        rw [← hv] at hkept
        dsimp only
        rw [show r.tried.nextStep b' = r.nextStep b' from rfl]
        cases hstep : r.nextStep b' with
        | none =>
            rw [hstep] at hkept
            exact ⟨k + 1, hk, hkept⟩
        | some step =>
            rw [hstep] at hkept
            exact ⟨hkept.counted, hkept.whole, hkept.fallback, hkept.start⟩
    · rintro e v ⟨t, ht, hv, hends⟩
      rw [hv]
      exact ⟨h.counted.cut hends, h.whole_append ht⟩
    · rintro v (hv | ⟨t, ht, hv⟩)
      · exact hv ▸ ⟨h.counted.tolerated, h.whole⟩
      · have hgradient : t.gradientFailed = false := (Bool.or_eq_false_iff.mp ht).2
        exact hv ▸ ⟨h.counted.tolerated.append_of_value ht, h.whole_append hgradient⟩
  · rintro ⟨state, _⟩ rfl
    exact ⟨counted_nil, nofun, nofun, fun _ => ⟨rfl, .inl ⟨rfl, rfl⟩⟩⟩

end Ray

/-! ## Whole searches -/

section Run

variable (search : LineSearch α) (m : Model α σ) (x : Vec α) (f₀ : α) (g₀ d : Vec α)
  (initialStep : α)

def Meets (r : Ray α σ) (found : Found α) : Prop :=
  match search with
  | backtracking _ => True
  | wolfe _ => r.Bends found

/-- Bracketing asks for the gradient of a trial together with its objective only. -/
def AsksOnce (trials : List (Trial α)) : Prop :=
  match search with
  | backtracking _ => True
  | wolfe _ => ∀ t ∈ trials, t.gradientFailed = false

/-- What a search that gives up tells: a number of trials and a step length. Bracketing tells its
budget, whatever it has used of that. The step is the one that would come next. -/
def Tells (r : Ray α σ) (first : α) (trials : List (Trial α)) (n : Nat) (a : α) : Prop :=
  match search with
  | backtracking _ => n = trials.length ∧ r.Backtracked first trials a
  | wolfe p => n = p.maxTrials ∧ r.Halved first trials a

/-- A search without a step gives up. -/
inductive GivesUp (trials : List (Trial α)) : SolverError → Prop
  | uphill (h : ∀ slope, ¬ Downhill g₀ d slope) :
    GivesUp trials (.lineSearchFailed "search direction is not a descent direction" 0 0
      (Scalar.toFloat f₀))
  | spent (slope : α) (reason : String) (n : Nat) (a : α) (hslope : Downhill g₀ d slope)
    (hbudget : trials.length ≤ search.params.maxTrials)
    (htells : search.Tells (⟨search.params, m, x, f₀, d, slope⟩ : Ray α σ)
      (Scalar.minNum initialStep search.params.maxStepSize) trials n a) :
    GivesUp trials
      ((⟨search.params, m, x, f₀, d, slope⟩ : Ray α σ).failure reason n a)

/-- The slope is finite and negative, or the search gives up. -/
theorem descentSlope_settles {P F : σ → Prop} (hF : ∀ s, P s → F s) :
    Settles P (descentSlope g₀ d f₀ : Search σ α) (fun slope s => P s ∧ Downhill g₀ d slope)
      (fun e s => P s ∧ (∀ slope, ¬ Downhill g₀ d slope) ∧
        e = .lineSearchFailed "search direction is not a descent direction" 0 0
          (Scalar.toFloat f₀)) F := by
  refine Settles.bind (Q := fun slope s => P s ∧ Vec.dot g₀ d = .ok slope)
    (Settles.checked (fun slope hslope s hs => ⟨hs, hslope⟩) hF) fun slope => ?_
  refine Settles.assume fun hdot => Settles.ite (fun h => ?_) fun h => ?_
  · rw [Bool.and_eq_true, decide_eq_true_eq] at h
    exact Settles.pure fun s hs => ⟨hs, hdot, h.1, h.2⟩
  · refine Settles.throw fun s hs => ⟨hs, fun slope' h' => h ?_, rfl⟩
    obtain rfl : slope' = slope := Except.ok.inj (h'.dot.symm.trans hdot)
    rw [Bool.and_eq_true, decide_eq_true_eq]
    exact ⟨h'.negative, h'.isFinite⟩

/-- What a search says of its trials, whatever it ends with. -/
theorem run_tried :
    Settles (fun u => u.2 = []) (search.run m.tried x f₀ g₀ d initialStep)
      (fun found u => search.AsksOnce u.2 ∧ Tolerated search.params.maxEvaluationFailures u.2 ∧
        found.Accounts search.params.maxTrials u.2 ∧ ∃ slope, Downhill g₀ d slope ∧
        (search.Meets (⟨search.params, m, x, f₀, d, slope⟩ : Ray α σ) found →
          found.trials = u.2.length))
      (fun e u => search.AsksOnce u.2 ∧ (Cut search.params.maxEvaluationFailures u.2 e ∨
        Tolerated search.params.maxEvaluationFailures u.2 ∧
          search.GivesUp m x f₀ g₀ d initialStep u.2 e))
      fun u => search.AsksOnce u.2 ∧ Tolerated search.params.maxEvaluationFailures u.2 := by
  have hasks : search.AsksOnce ([] : List (Trial α)) := by
    cases search with
    | backtracking p => trivial
    | wolfe p => exact nofun
  refine Settles.bind (Settles.mono (descentSlope_settles f₀ g₀ d fun _ h => h) (fun _ h => h)
    (fun _ _ h => h) ?_ ?_) fun slope => Settles.assume fun hslope => ?_
  · rintro _ ⟨_, trials⟩ ⟨rfl, hslope, rfl⟩
    exact ⟨hasks, .inr ⟨tolerated_nil, .uphill hslope⟩⟩
  · rintro ⟨_, trials⟩ rfl
    exact ⟨hasks, tolerated_nil⟩
  cases search with
  | backtracking p =>
      let r : Ray α σ := ⟨p, m, x, f₀, d, slope⟩
      refine Settles.mono (r.backtrack_tried (Scalar.minNum initialStep p.maxStepSize))
        (fun _ h => h) ?_ ?_ fun _ h => ⟨trivial, h⟩
      · rintro found u ⟨htolerated, haccounts, hlast⟩
        exact ⟨trivial, htolerated, haccounts, slope, hslope, fun _ => hlast⟩
      · rintro e u (hcut | ⟨htolerated, hbudget, reason, n, a, rfl, hn, ha⟩)
        · exact ⟨trivial, .inl hcut⟩
        · exact ⟨trivial, .inr ⟨htolerated, .spent slope reason n a hslope hbudget ⟨hn, ha⟩⟩⟩
  | wolfe p =>
      let r : Ray α σ := ⟨p, m, x, f₀, d, slope⟩
      refine Settles.bind (Settles.mono
        (r.bracket_tried (Scalar.minNum initialStep p.maxStepSize)) (fun _ h => h)
        (fun _ _ h => h) (fun e u ⟨hcut, hwhole⟩ => ⟨hwhole, .inl hcut⟩)
        fun u ⟨htolerated, hwhole⟩ => ⟨hwhole, htolerated⟩) ?_
      rintro (found | b)
      · refine Settles.pure fun u ⟨htolerated, hwhole, haccounts, hlast⟩ => ?_
        exact ⟨hwhole, htolerated, haccounts, slope, hslope, fun _ => hlast⟩
      · dsimp only
        cases hfallback : b.fallback with
        | some found =>
            refine Settles.bind Settles.emit fun _ => Settles.pure ?_
            rintro u ⟨k, hk, hkept⟩
            obtain ⟨htrial, hbends⟩ := hkept.fallback found hfallback
            have hbudget : u.2.length ≤ p.maxTrials := hkept.counted.length ▸ hk
            refine ⟨hkept.whole, hkept.counted.tolerated, ?_, slope, hslope, ?_⟩
            · -- the number of failures is that of all trials
              refine Found.AtTrial.accounts htrial hbudget ?_
              exact congrArg Failures.total hkept.counted.failures
            · exact fun hmeets => absurd hmeets hbends
        | none =>
            refine Settles.throw ?_
            rintro u ⟨k, hk, hkept⟩
            have hbudget : u.2.length ≤ p.maxTrials := hkept.counted.length ▸ hk
            refine ⟨hkept.whole, .inr ⟨hkept.counted.tolerated, ?_⟩⟩
            exact .spent slope _ _ _ hslope hbudget ⟨rfl, (hkept.start hfallback).2⟩

/-! ## Failures in a row -/

variable (state : σ) (journal : Journal)

/-- The first row of failures that is too long ends a search, and no search ends with such a row in
any other way. -/
theorem trace_tolerated :
    let cap := search.params.maxEvaluationFailures
    let out := search.trace m x f₀ g₀ d initialStep state journal
    search.AsksOnce out.2 ∧
      ((∃ reason, out.1.1 = .ok (.error (.evaluationFailures (cap + 1) reason)) ∧
          Exceeds cap out.2) ∨
        (∀ n reason, out.1.1 ≠ .ok (.error (.evaluationFailures n reason))) ∧
          Tolerated cap out.2) := by
  intro cap out
  obtain ⟨hfound, herror, hfault⟩ :=
    trace_settles state journal (search.run_tried m x f₀ g₀ d initialStep) rfl
  rcases hresult : out.1.1 with f | e | found
  · obtain ⟨hasks, htolerated⟩ := hfault f hresult
    exact ⟨hasks, .inr ⟨nofun, htolerated⟩⟩
  · obtain ⟨hasks, hcut | ⟨htolerated, hgives⟩⟩ := herror e hresult
    · cases hcut with
      | model inner htolerated => exact ⟨hasks, .inr ⟨nofun, htolerated⟩⟩
      | exceeded reason hexceeds => exact ⟨hasks, .inl ⟨reason, rfl, hexceeds⟩⟩
    · cases hgives with
      | uphill => exact ⟨hasks, .inr ⟨nofun, htolerated⟩⟩
      | spent => exact ⟨hasks, .inr ⟨nofun, htolerated⟩⟩
  · obtain ⟨hasks, htolerated, -⟩ := hfound found hresult
    exact ⟨hasks, .inr ⟨nofun, htolerated⟩⟩

end Run

/-- A search ends with too many failures exactly if a row of one more than the cap stands at its
end, and it goes on after no such row. In a row each trial but the first has failed in the question
for the objective: in backtracking a finite objective ends a row, and one without a gradient starts
the next. Bracketing has one question for both, and there a row is any failed trials that follow
each other. -/
theorem trace_evaluationFailures_iff (search : LineSearch α) (m : Model α σ) (x : Vec α) (f₀ : α)
    (g₀ d : Vec α) (initialStep : α) (state : σ) (journal : Journal) (n : Nat) :
    let cap := search.params.maxEvaluationFailures
    let out := search.trace m x f₀ g₀ d initialStep state journal
    ((∃ reason, out.1.1 = .ok (.error (.evaluationFailures n reason))) ↔
      n = cap + 1 ∧ ∃ row, row <:+ out.2 ∧ row.length = cap + 1 ∧ Unbroken row) ∧
    (∀ earlier row, earlier ++ row <+: out.2 → row.length = cap + 1 → Unbroken row →
      earlier ++ row = out.2) ∧
    ∀ p, search = wolfe p → ∀ row, row <:+: out.2 → (∀ t ∈ row, t.failed = true) →
      Unbroken row := by
  intro cap out
  have ⟨hasks, hends⟩ := search.trace_tolerated m x f₀ g₀ d initialStep state journal
  change search.AsksOnce out.2 at hasks
  -- a row that ends the trials up to some time is in their count
  have hcounted : ∀ earlier row : List (Trial α), row.length = cap + 1 → Unbroken row →
      cap + 1 ≤ (Failures.after (earlier ++ row)).run := fun _ _ hlength hrow =>
    Failures.le_run_after_iff.mpr ⟨_, List.suffix_append _ _, hlength, hrow⟩
  refine ⟨?_, ?_, ?_⟩
  · rw [← Failures.le_run_after_iff]
    rcases hends with ⟨reason, hresult, hexceeds⟩ | ⟨hresult, htolerated⟩
    · constructor
      · rintro ⟨reason', hresult'⟩
        cases hresult.symm.trans hresult'
        exact ⟨rfl, Nat.le_of_eq hexceeds.run.symm⟩
      · rintro ⟨rfl, -⟩
        exact ⟨reason, hresult⟩
    · constructor
      · rintro ⟨reason, hresult'⟩
        exact absurd hresult' (hresult n reason)
      · rintro ⟨-, hrun⟩
        exact absurd (htolerated out.2 (List.prefix_refl _)) (Nat.not_le.mpr hrun)
  · intro earlier row hprefix hlength hunbroken
    have hrun := hcounted earlier row hlength hunbroken
    by_contra hne
    have hle : (Failures.after (earlier ++ row)).run ≤ cap := by
      rcases hends with ⟨-, -, hexceeds⟩ | ⟨-, htolerated⟩
      · exact hexceeds.before _ hprefix hne
      · exact htolerated _ hprefix
    exact absurd hle (Nat.not_le.mpr hrun)
  · rintro p rfl row hrow hfailed
    have hvalue : ∀ t ∈ row, t.valueFailed = true := by
      intro t ht
      have hgradient : t.gradientFailed = false := hasks t (hrow.subset ht)
      simpa [Trial.failed, hgradient] using hfailed t ht
    exact ⟨hfailed, fun t ht => hvalue t (List.mem_of_mem_tail ht)⟩

/-- The function `x` with no gradient anywhere. -/
def gradientless : Model Float Unit where
  dimension := 1
  objective x := pure (x.headD 0)
  gradient _ := throw (.evaluation "no gradient")

/-- Failures in the question for the gradient are no row in backtracking: all three trials fail
where one failure is the most allowed in a row, and the search gives up for another reason. -/
theorem gradientless_uncapped :
    let p : LineSearchParams Float :=
      { maxTrials := 3, maxEvaluationFailures := 1, condition := .none }
    let out := (backtracking p).trace gradientless [0] 0 [1] [-1] 1 () #[]
    p.validate = .ok () ∧ out.2.length = p.maxEvaluationFailures + 2 ∧
      (∀ t ∈ out.2, t.failed = true) ∧
      ¬ ∃ n reason, out.1.1 = .ok (.error (.evaluationFailures n reason)) := by
  intro p out
  have hends : (match p.validate, out with
    | .ok (), ((.ok (.error (.lineSearchFailed ..)), _), trials) =>
        decide (trials.length = 3 ∧ ∀ t ∈ trials, t.failed = true)
    | _, _ => false) = true := by decide +kernel
  generalize p.validate = valid, out = out at hends ⊢
  rcases valid with _ | ⟨⟩
  · cases hends
  · rcases out with ⟨⟨_ | e | _, _⟩, trials⟩
    · cases hends
    · cases e with
      | lineSearchFailed =>
          obtain ⟨hlength, hfailed⟩ := of_decide_eq_true hends
          exact ⟨rfl, hlength, hfailed, nofun⟩
      | _ => cases hends
    · cases hends

/-! ## Trials -/

/-- What a search says of its trials when it settles and when it gives up. The step returned tells
the number of its own trial, which is the last one unless the step is a fallback, and all failures.
A search that gives up along a descent direction tells its trials if it is backtracking, its budget
if not, and the step that would have come next. -/
theorem trace_accounts (search : LineSearch α) (m : Model α σ) (x : Vec α) (f₀ : α)
    (g₀ d : Vec α) (initialStep : α) (state : σ) (journal : Journal) :
    let p := search.params
    let out := search.trace m x f₀ g₀ d initialStep state journal
    (∀ found, out.1.1 = .ok (.ok found) →
      found.Accounts p.maxTrials out.2 ∧ ∃ slope, Downhill g₀ d slope ∧
        (search.Meets (⟨p, m, x, f₀, d, slope⟩ : Ray α σ) found →
          found.trials = out.2.length)) ∧
    ∀ slope reason n a f, Downhill g₀ d slope →
      out.1.1 = .ok (.error (.lineSearchFailed reason n a f)) →
      out.2.length ≤ p.maxTrials ∧ ∃ step, a = Scalar.toFloat step ∧
        search.Tells (⟨p, m, x, f₀, d, slope⟩ : Ray α σ)
          (Scalar.minNum initialStep p.maxStepSize) out.2 n step := by
  intro p out
  obtain ⟨hfound, herror, -⟩ :=
    trace_settles state journal (search.run_tried m x f₀ g₀ d initialStep) rfl
  constructor
  · intro found hresult
    obtain ⟨-, -, haccounts, hlast⟩ := hfound found hresult
    exact ⟨haccounts, hlast⟩
  · intro slope reason n a f hslope hresult
    obtain ⟨-, hcut | ⟨-, hgives⟩⟩ := herror _ hresult
    · cases hcut
    · cases hgives with
      | uphill huphill => exact absurd hslope (huphill slope)
      | spent slope' _ _ step hslope' hbudget htells =>
          obtain rfl : slope' = slope := Except.ok.inj (hslope'.dot.symm.trans hslope.dot)
          exact ⟨hbudget, step, rfl, htells⟩

/-- The function `x`, which ends at `-3/2`. -/
def cliff : Model Float Unit where
  dimension := 1
  objective x :=
    if x.headD 0 < -1.5 then throw (.evaluation "out of range") else pure (x.headD 0)
  gradient _ := pure [1]

/-- The step that bracketing falls back on tells the number of its own trial, 1, beside the failures
of both: as many failures as trials. -/
theorem cliff_fallback :
    let p : LineSearchParams Float := { maxTrials := 2 }
    let out := (wolfe p).trace cliff [0] 0 [1] [-1] 1 () #[]
    p.validate = .ok () ∧ out.2.length = 2 ∧ ∃ found, out.1.1 = .ok (.ok found) ∧
      found.trials ≠ out.2.length ∧ ¬ found.evaluationFailures < found.trials := by
  intro p out
  have hends : (match p.validate, out with
    | .ok (), ((.ok (.ok found), _), trials) => decide (trials.length = 2 ∧
        found.trials ≠ trials.length ∧ ¬ found.evaluationFailures < found.trials)
    | _, _ => false) = true := by decide +kernel
  generalize p.validate = valid, out = out at hends ⊢
  rcases valid with _ | ⟨⟩
  · cases hends
  · rcases out with ⟨⟨_ | _ | found, _⟩, trials⟩
    · cases hends
    · cases hends
    · obtain ⟨hlength, htrials, hfailures⟩ := of_decide_eq_true hends
      exact ⟨rfl, hlength, found, rfl, htrials, hfailures⟩

end Descent.LineSearch
