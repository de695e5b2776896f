import Descent.Proofs.Derivatives
import Descent.Proofs.Safe.Sizes
import Descent.Proofs.Standard
import Descent.Proofs.Watched

/-!
# Complete reports

The evaluations of a check may fail at any point. Then the report has an error in the place of the
entries: each coordinate of a gradient and each column of a Hessian is in it once, in one of the two
ways. In an entry an infinite or missing value counts as infinitely wrong, so that no relative error
is a NaN (`Entry.isNaN_relativeError`), and a report passes exactly if nothing failed and nothing is
beyond the tolerance (`Checker.reports_complete`).
-/

set_option autoImplicit false

namespace Descent

open Run Scalar

namespace Run

variable {σ τ β ε : Type} {m : ExceptT ε (Run σ) β} {P F : σ → Prop} {Q : β → σ → Prop}
  {E : ε → σ → Prop}

/-- A computation ends with one of its own values or failures. -/
theorem Settles.answered (h : Settles P m Q E F) :
    Settles P m (fun b s => Q b s ∧ Returns m b) (fun e s => E e s ∧ Fails m e) F := by
  intro s journal hs
  have hend := h s journal hs
  rcases hm : Run.start m.run s journal with ⟨⟨fault | e | b, t⟩, journal'⟩
  · rw [hm] at hend
    exact hend
  · rw [hm] at hend
    exact ⟨hend, s, journal, by rw [hm]⟩
  · rw [hm] at hend
    exact ⟨hend, s, journal, by rw [hm]⟩

theorem Safe.answered (h : Safe m (fun _ => True) fun _ => True) :
    Safe m (Returns m) (Fails m) := by
  refine Triple.post (Settles.answered (Q := fun _ _ => True) (E := fun _ _ => True) h) ?_
  rintro (e | b) _ hb
  · exact hb.2
  · exact hb.2

/-- On the first part of a state the second is left alone. -/
theorem Settles.tryOnFst {K : τ → Prop} (h : Settles P m Q E F) :
    Settles (fun t : σ × τ => P t.1 ∧ K t.2) (Run.tryOnFst m) (fun b t => Q b t.1 ∧ K t.2)
      (fun e t => E e t.1 ∧ K t.2) fun t => F t.1 := by
  rintro ⟨s, t⟩ journal ⟨hs, ht⟩
  have hend := h s journal hs
  show EndsIn _ _ ((Run.onFst m.run).start (s, t) journal).1
  rw [start_onFst]
  rcases hm : Run.start m.run s journal with ⟨⟨fault | e | b, s'⟩, journal'⟩
  · rw [hm] at hend
    exact hend
  · rw [hm] at hend
    exact ⟨hend, ht⟩
  · rw [hm] at hend
    exact ⟨hend, ht⟩

end Run

variable {α σ : Type} [Scalar α]

/-- The evaluations of a model end, at a value or at a failure. -/
structure Model.Responds (m : Model α σ) : Prop where
  objective : ∀ x, Safe (m.objective x) (fun _ => True) fun _ => True
  gradient : ∀ x, Safe (m.gradient x) (fun _ => True) fun _ => True
  hessianVector : ∀ x v, Safe (m.hessianVector x v) (fun _ => True) fun _ => True

namespace Derivatives

/-! ## Verdicts -/

section Verdict

variable [Standard α]

/-- A distance that is finite is divided by at least 1, and any other counts as infinite. -/
theorem Entry.isNaN_relativeError (i : Nat) (a b : α) :
    isNaN (Entry.compare i a b).relativeError = false := by
  unfold Entry.compare
  dsimp only
  split
  · next hfinite => exact Standard.isNaN_div hfinite (Standard.one_le_maxNum _)
  · exact Standard.isNaN_infinity

namespace Report

variable {r : Report α}

def Compares (r : Report α) : Prop := ∀ e ∈ r.entries, ∃ i a b, e = .compare i a b

theorem foldl_maxNum_le_iff {entries : List (Entry α)} {greatest t : α}
    (hentries : ∀ e ∈ entries, isNaN e.relativeError = false) (hgreatest : isNaN greatest = false) :
    entries.foldl (fun greatest e => maxNum greatest e.relativeError) greatest ≤ t ↔
      greatest ≤ t ∧ ∀ e ∈ entries, e.relativeError ≤ t := by
  induction entries generalizing greatest with
  | nil => simp
  | cons e entries ih =>
      obtain ⟨he, hentries⟩ := List.forall_mem_cons.mp hentries
      rw [List.foldl_cons, ih hentries (Standard.isNaN_maxNum hgreatest he),
        Standard.maxNum_le_iff hgreatest he, List.forall_mem_cons, and_assoc]

omit [Standard α] in
theorem passed_iff_failures : r.passed = true ↔ r.errors = [] ∧ r.failures = [] := by
  simp [passed, failures, List.filter_eq_nil_iff]

/-- What the three answers of a report mean together. -/
structure Conclusive (r : Report α) : Prop where
  isNaN_relativeError : ∀ e ∈ r.entries, isNaN e.relativeError = false
  passed_iff_failures : r.passed = true ↔ r.errors = [] ∧ r.failures = []
  passed_iff_maxRelativeError : 0 ≤ r.tolerance →
    (r.passed = true ↔ r.errors = [] ∧ r.maxRelativeError ≤ r.tolerance)

theorem Compares.conclusive (h : r.Compares) : r.Conclusive := by
  have hnumbers : ∀ e ∈ r.entries, isNaN e.relativeError = false := by
    intro e he
    obtain ⟨i, a, b, rfl⟩ := h e he
    exact Entry.isNaN_relativeError i a b
  refine ⟨hnumbers, passed_iff_failures, fun htolerance => ?_⟩
  rw [passed_iff, maxRelativeError, foldl_maxNum_le_iff hnumbers Standard.isNaN_zero,
    and_iff_right htolerance]

end Report

end Verdict

namespace Checker

variable {c : Checker α} {m : Model α σ} {x : Vec α}

/-- What a computation ended with. -/
def Ended {β ε : Type} (e : ExceptT ε (Run σ) β) : Except ε β → Prop
  | .ok b => Returns e b
  | .error failure => Fails e failure

/-! ## Columns -/

/-- The length of the way along `v` to either point of a difference. -/
def stepAlong (c : Checker α) (x v : Vec α) : α := c.stepFor (Vec.norm x) / Vec.norm v

/-- The first of the two points at which the gradient is evaluated for a product with `v`. -/
def aheadAlong (c : Checker α) (x v : Vec α) : Vec α :=
  List.zipWith (fun a b => a + b) x (Vec.scale v (c.stepAlong x v))

def behindAlong (c : Checker α) (x v : Vec α) : Vec α :=
  List.zipWith (fun a b => a - b) x (Vec.scale v (c.stepAlong x v))

/-- What there is to object to the end of an evaluation, where a vector of length `n` is asked for:
its failure, or its length. -/
inductive Objection (what : String) (n : Nat) (answer : Evaluation σ (Vec α)) : String → Prop
  | failure {e : ModelError} (h : Fails answer e) : Objection what n answer e.message
  | length {u : Vec α} (h : Returns answer u) (hlength : u.length ≠ n) :
      Objection what n answer s!"{what} has length {u.length}, expected {n}"

/-- The vector that a product with `v` is compared with: zero along no direction at all, else the
quotient of two answers of the model. -/
inductive Difference (c : Checker α) (m : Model α σ) (x v : Vec α) : Vec α → Prop
  | still (h : (Vec.norm v == 0) = true) : Difference c m x v (Vec.zeros x.length)
  | central {ahead behind : Vec α} (h : (Vec.norm v == 0) = false)
      (hahead : Returns (m.gradient (c.aheadAlong x v)) ahead)
      (hbehind : Returns (m.gradient (c.behindAlong x v)) behind)
      (hlengths : ahead.length = x.length ∧ behind.length = x.length) :
      Difference c m x v
        (Vec.divide (List.zipWith (fun a b => a - b) ahead behind) (2.0 * c.stepAlong x v))

/-- Why there is nothing to compare: the product itself, or one of the two gradients of the
difference. -/
inductive Obstructed (c : Checker α) (m : Model α σ) (x v : Vec α) : String → Prop
  | product {text : String}
      (h : Objection "Hessian-vector product" x.length (m.hessianVector x v) text) :
      Obstructed c m x v text
  | gradient {text : String} (hmoves : (Vec.norm v == 0) = false)
      (h : Objection "gradient" x.length (m.gradient (c.aheadAlong x v)) text ∨
        Objection "gradient" x.length (m.gradient (c.behindAlong x v)) text) :
      Obstructed c m x v text

/-- What a product at `x` with `v` ends in: a comparison of an answer of the model with the
difference along `v`, or an error. -/
inductive Multiplies (c : Checker α) (m : Model α σ) (x v : Vec α) :
    Except String (List (Entry α)) → Prop
  | entries {u w : Vec α} (hu : Returns (m.hessianVector x v) u) (hlength : u.length = x.length)
      (hw : c.Difference m x v w) : Multiplies c m x v (.ok (compareAll u w))
  | error {text : String} (h : c.Obstructed m x v text) : Multiplies c m x v (.error text)
  | direction (h : v.length ≠ x.length) :
      Multiplies c m x v (.error s!"direction has length {v.length}, expected {x.length}")

theorem Difference.length_eq {v w : Vec α} (h : c.Difference m x v w) : w.length = x.length := by
  cases h with
  | still => exact Vec.length_zeros _
  | central _ _ _ hlengths => simp [hlengths.1, hlengths.2]

theorem along_passes_ahead {v : Vec α} (hv : v.length = x.length) :
    Checked.Passes (Vec.along x v (c.stepAlong x v)) (· = c.aheadAlong x v) := by
  rw [Vec.along, Vec.add, Vec.combine, if_pos (by simp [hv])]
  exact .ok rfl

theorem sub_passes_behind {v : Vec α} (hv : v.length = x.length) :
    Checked.Passes (Vec.sub x (Vec.scale v (c.stepAlong x v))) (· = c.behindAlong x v) := by
  rw [Vec.sub, Vec.combine, if_pos (by simp [hv])]
  exact .ok rfl

omit [Scalar α] in
/-- The lengths of two gradients are looked at one after the other: both fit, or there is something
to object to one of them. -/
theorem fit_or_objection {n : Nat} {ahead behind : Vec α} {p q : Evaluation σ (Vec α)}
    (hp : Returns p ahead) (hq : Returns q behind) :
    ((lengthError "gradient" ahead.length n).or (lengthError "gradient" behind.length n) = none ∧
        ahead.length = n ∧ behind.length = n) ∨
      ∃ text, (lengthError "gradient" ahead.length n).or (lengthError "gradient" behind.length n)
          = some text ∧
        (Objection "gradient" n p text ∨ Objection "gradient" n q text) := by
  unfold lengthError
  by_cases hahead : ahead.length = n
  · by_cases hbehind : behind.length = n
    · rw [if_pos hahead, if_pos hbehind]
      exact .inl ⟨rfl, hahead, hbehind⟩
    · rw [if_pos hahead, if_neg hbehind]
      exact .inr ⟨_, rfl, .inr (.length hq hbehind)⟩
  · rw [if_neg hahead]
    exact .inr ⟨_, rfl, .inl (.length hp hahead)⟩

theorem compareProduct_sure (hm : m.Responds) (v : Vec α) (kind : Kind) :
    Sure (c.compareProduct m x v kind) fun r =>
      ∃ o, c.Multiplies m x v o ∧ r = c.single kind o := by
  have hfailed : ∀ {text}, c.Obstructed m x v text →
      ∃ o, c.Multiplies m x v o ∧ c.failed kind text = c.single kind o :=
    fun h => ⟨_, .error h, rfl⟩
  unfold compareProduct
  by_cases hv : v.length = x.length
  · rw [hv, lengthError_self]
    refine Sure.bind (hm.hessianVector x v).answered ?_
    rintro (e | analytic) hreturns
    · exact Sure.pure (hfailed (.product (.failure hreturns)))
    by_cases hlength : analytic.length = x.length
    · dsimp only
      rw [hlength, lengthError_self]
      dsimp only
      split
      -- along no direction at all nothing more is evaluated
      · next hstill => exact Sure.pure ⟨_, .entries hreturns hlength (.still hstill), rfl⟩
      · next hmoves =>
          have hmoves := eq_false_of_ne_true hmoves
          refine Sure.bind (.checked (along_passes_ahead hv)) fun y hy => ?_
          subst hy
          -- both gradients are asked for before either is looked at
          refine Sure.bind (hm.gradient _).answered fun forward hforward => ?_
          refine Sure.bind (.checked (sub_passes_behind hv)) fun z hz => ?_
          subst hz
          refine Sure.bind (hm.gradient _).answered fun backward hbackward => ?_
          rcases forward with e | ahead
          · exact Sure.pure (hfailed (.gradient hmoves (.inl (.failure hforward))))
          rcases backward with e | behind
          · exact Sure.pure (hfailed (.gradient hmoves (.inr (.failure hbackward))))
          dsimp only
          obtain ⟨hfit, hlengths⟩ | ⟨text, hwrong, hobjection⟩ :=
            fit_or_objection hforward hbackward
          · rw [hfit, Vec.sub, Vec.combine, if_pos (hlengths.1.trans hlengths.2.symm)]
            have hdifference := Difference.central hmoves hforward hbackward hlengths
            exact Sure.pure ⟨_, .entries hreturns hlength hdifference, rfl⟩
          · rw [hwrong]
            exact Sure.pure (hfailed (.gradient hmoves hobjection))
    · dsimp only
      rw [lengthError, if_neg hlength]
      exact Sure.pure (hfailed (.product (.length hreturns hlength)))
  · rw [lengthError, if_neg hv]
    exact Sure.pure ⟨_, .direction hv, rfl⟩

/-- Column `j` of the Hessian contributes an entry for each row, where the answer of the model to
the coordinate vector is compared with the difference along it, or one error. -/
inductive FillsColumn (c : Checker α) (m : Model α σ) (x : Vec α) (j : Nat) :
    Except String (List (Entry α)) → Prop
  | entries {u w : Vec α} (hu : Returns (m.hessianVector x (Vec.unit x.length j)) u)
      (hlength : u.length = x.length) (hw : c.Difference m x (Vec.unit x.length j) w) :
      FillsColumn c m x j (.ok ((List.range x.length).map fun i =>
        .compare (i * x.length + j) (u.getD i 0) (w.getD i 0)))
  | error {text : String} (h : c.Obstructed m x (Vec.unit x.length j) text) :
      FillsColumn c m x j (.error s!"column {j}: {text}")

theorem fillsColumn_inColumn {j : Nat} {o : Except String (List (Entry α))}
    (ho : c.Multiplies m x (Vec.unit x.length j) o) :
    c.FillsColumn m x j (inColumn x.length (o, j)) := by
  cases ho with
  | error h => exact .error h
  | direction h => exact absurd (Vec.length_unit _ _) h
  | @entries u w hu hlength hw =>
      have hcompared : (compareAll u w).length = x.length := by
        simp [compareAll, hlength, hw.length_eq]
      have hentries : inColumn x.length (.ok (compareAll u w), j) = .ok ((List.range x.length).map
          fun i => .compare (i * x.length + j) (u.getD i 0) (w.getD i 0)) := by
        refine congrArg Except.ok (List.ext_getElem (by simp [hcompared]) ?_)
        intro i hi hi'
        have hi : i < x.length := by simpa using hi'
        simp [compareAll, Entry.compare, hlength, hw.length_eq, hi]
      rw [hentries]
      exact .entries hu hlength hw

omit [Scalar α] in
theorem forall₂_inColumn {n : Nat} {R S : Nat → Except String (List (Entry α)) → Prop}
    (h : ∀ j o, R j o → S j (inColumn n (o, j))) {products : List (Except String (List (Entry α)))}
    (hproducts : List.Forall₂ R (List.range n) products) :
    List.Forall₂ S (List.range n) (products.zipIdx.map (inColumn n)) := by
  obtain ⟨hlength, hproduct⟩ := List.forall₂_iff_get.mp hproducts
  refine List.forall₂_iff_get.mpr ⟨by simpa using hlength, fun j hj hj' => ?_⟩
  simpa using h j _ (by simpa using hproduct j hj (by simpa using hj'))

theorem exists_of_forall₂ {β γ : Type} {R : β → γ → Prop} {l : List β} {l' : List γ}
    (h : List.Forall₂ R l l') {c : γ} (hc : c ∈ l') : ∃ b, R b c := by
  induction h with
  | nil => cases hc
  | cons hb _ ih =>
      rcases List.mem_cons.mp hc with rfl | hc
      · exact ⟨_, hb⟩
      · exact ih hc

/-- The report on a Hessian lists what its columns contribute. -/
theorem checkHessian_sure (hm : m.Responds) (c : Checker α) (x : Vec α) :
    Sure (c.checkHessian m x) fun r => r.Compares ∧ ∃ columns,
      List.Forall₂ (c.FillsColumn m x) (List.range x.length) columns ∧
      r.entries = (values columns).flatten ∧ r.errors = errors columns := by
  refine Triple.post (checkHessian_triple (R := fun j => c.Multiplies m x (Vec.unit x.length j))
    fun j _ => Triple.post (compareProduct_sure hm _ _) fun _ _ h => ⟨trivial, h⟩) ?_
  rintro _ _ ⟨-, products, hproducts, rfl⟩
  have hcolumns := forall₂_inColumn (fun _ _ ho => fillsColumn_inColumn ho) hproducts
  refine ⟨fun e he => ?_, _, hcolumns, rfl, rfl⟩
  obtain ⟨entries, hentries, he⟩ := List.mem_flatten.mp he
  obtain ⟨j, hfills⟩ := exists_of_forall₂ hcolumns (mem_values.mp hentries)
  cases hfills
  obtain ⟨i, -, rfl⟩ := List.mem_map.mp he
  exact ⟨_, _, _, rfl⟩

/-! ## Coordinates -/

/-- Coordinate `i` of a gradient contributes a comparison with the quotient of two answers of the
model, or the failure of one of the two evaluations. -/
inductive Contributes (c : Checker α) (m : Model α σ) (x g : Vec α) (i : Nat) :
    Except String (Entry α) → Prop
  | entry {ahead behind : α} (hahead : Returns (m.objective (c.ahead x i)) ahead)
      (hbehind : Returns (m.objective (c.behind x i)) behind) :
      Contributes c m x g i (.ok
        (.compare i (g.getD i 0) ((ahead - behind) / (2.0 * c.stepFor (x.getD i 0)))))
  | error {e : ModelError}
      (h : Fails (m.objective (c.ahead x i)) e ∨ Fails (m.objective (c.behind x i)) e) :
      Contributes c m x g i (.error (s!"coordinate {i}: " ++ e.message))

theorem contributes_component {g : Vec α} {i : Nat} {f b : Except ModelError α}
    (hf : Ended (m.objective (c.ahead x i)) f) (hb : Ended (m.objective (c.behind x i)) b) :
    Contributes c m x g i (c.component x g i f b) := by
  cases f with
  | error e => exact .error (.inl hf)
  | ok ahead =>
      cases b with
      | error e => exact .error (.inr hb)
      | ok behind => exact .entry hf hb

/-- The two evaluations for coordinate `i`, on a watched model. -/
theorem checkCoordinate_watched (hm : m.Responds) {g : Vec α} {i : Nat} (hx : i < x.length)
    (hg : i < g.length) (visited : List (Vec α)) :
    Triple (fun t : σ × List (Vec α) => t.2 = visited) (c.checkCoordinate m.watched x g i)
      (fun r t => t.2 = visited ++ [c.ahead x i, c.behind x i] ∧ Contributes c m x g i r)
      fun _ => False := by
  have hvisit : ∀ y visited, Triple (fun t : σ × List (Vec α) => t.2 = visited)
      (Run.outcome (m.watched.objective y))
      (fun r t => t.2 = visited ++ [y] ∧ Ended (m.objective y) r) fun _ => False := by
    intro y visited
    have hinside := Settles.tryOnFst (K := (· = visited ++ [y])) (Q := fun b _ => Returns _ b)
      (E := fun e _ => Fails _ e) (hm.objective y).answered
    have hobjective : Settles (fun t : σ × List (Vec α) => t.2 = visited) (m.watched.objective y)
        (fun b t => t.2 = visited ++ [y] ∧ Returns (m.objective y) b)
        (fun e t => t.2 = visited ++ [y] ∧ Fails (m.objective y) e) fun _ => False := by
      refine Settles.bind (Q := fun _ t => t.2 = visited ++ [y])
        (fun _ _ hs => congrArg (· ++ [y]) hs) fun _ => ?_
      exact Settles.mono hinside (fun _ ht => ⟨trivial, ht⟩) (fun _ _ h => ⟨h.2, h.1⟩)
        (fun _ _ h => ⟨h.2, h.1⟩) fun _ h => h
    refine Triple.post hobjective ?_
    rintro (e | b) t ht
    · exact ht
    · exact ht
  refine Triple.post (checkCoordinate_triple hx hg (hvisit _ visited) (hvisit _ _)) ?_
  rintro _ t ⟨ht, f, b, hf, hb, rfl⟩
  exact ⟨by simpa using ht, contributes_component hf hb⟩

/-- The points at which the objective is evaluated for the first coordinates, in their order. -/
def probes (c : Checker α) (x : Vec α) (coordinates : List Nat) : List (Vec α) :=
  coordinates.flatMap fun i => [c.ahead x i, c.behind x i]

theorem probes_append_singleton (c : Checker α) (x : Vec α) (before : List Nat) (i : Nat) :
    c.probes x (before ++ [i]) = c.probes x before ++ [c.ahead x i, c.behind x i] := by
  simp [probes]

/-- The report on a gradient lists what its coordinates contribute, and the objective is evaluated
at their points only. -/
theorem checkGradient_watched (hm : m.Responds) {P : σ → Prop}
    (hgradient : Succeeds P (m.gradient x) fun g _ => g.length = x.length) (c : Checker α)
    (visited : List (Vec α)) :
    Triple (fun t => P t.1 ∧ t.2 = visited) (c.checkGradient m.watched x) (fun r t =>
      t.2 = visited ++ c.probes x (List.range x.length) ∧
      ∃ g components, Returns (m.gradient x) g ∧
        List.Forall₂ (c.Contributes m x g) (List.range x.length) components ∧
        r.entries = values components ∧ r.errors = errors components) fun _ => False := by
  have hwatched := Settles.tryOnFst (K := (· = visited)) hgradient.answered
  refine Triple.post (checkGradient_triple (m := m.watched)
    (I := fun before t => t.2 = visited ++ c.probes x before) (G := Returns (m.gradient x))
    (R := c.Contributes m x) ?_ fun g _ hg before i hi => ?_) ?_
  · exact Settles.mono hwatched (fun _ ht => ht)
      (fun _ _ h => ⟨⟨by simpa [probes] using h.2, h.1.2⟩, h.1.1⟩) (fun _ _ h => h.1.1) fun _ h => h
  · rw [probes_append_singleton, ← List.append_assoc]
    exact checkCoordinate_watched hm hi (hg ▸ hi) _
  · rintro _ t ⟨ht, g, components, hg, hcomponents, rfl⟩
    exact ⟨ht, g, components, hg, hcomponents, rfl, rfl⟩

/-! ## All checks -/

theorem compares_failed (kind : Kind) (e : String) : (c.failed kind e).Compares := nofun

theorem compares_single {kind : Kind} {v : Vec α} {o : Except String (List (Entry α))}
    (ho : c.Multiplies m x v o) : (c.single kind o).Compares := by
  cases ho with
  | error => exact compares_failed kind _
  | direction => exact compares_failed kind _
  | entries hu hlength hw =>
      intro e he
      obtain ⟨p, -, rfl⟩ := List.mem_map.mp he
      exact ⟨_, _, _, rfl⟩

theorem compares_gathered {g : Vec α} {l : List Nat} {components : List (Except String (Entry α))}
    (h : List.Forall₂ (c.Contributes m x g) l components) : (c.gathered components).Compares := by
  intro e he
  obtain ⟨i, hcontributes⟩ := exists_of_forall₂ h (mem_values.mp he)
  cases hcontributes with
  | entry => exact ⟨_, _, _, rfl⟩

theorem checkGradient_sure (hm : m.Responds) (c : Checker α) (x : Vec α) :
    Sure (c.checkGradient m x) Report.Compares := by
  refine checkGradient_rule (I := fun _ _ => True) (G := fun _ => True) (R := c.Contributes m x)
    ?_ ?_ fun _ _ _ _ hcomponents _ => compares_gathered hcomponents
  · refine Triple.post (hm.gradient x) ?_
    rintro (e | g) _ _
    · exact compares_failed _ _
    · dsimp only
      split
      · exact ⟨trivial, trivial⟩
      · exact compares_failed _ _
  · intro g _ hg _ i hi
    have hobjective : ∀ y, Triple (fun _ : σ => True) (Run.outcome (m.objective y))
        (fun r _ => True ∧ Ended (m.objective y) r) fun _ => False := fun y =>
      Triple.post (hm.objective y).answered fun r _ h => ⟨trivial, by cases r <;> exact h⟩
    refine Triple.post (checkCoordinate_triple hi (hg ▸ hi) (hobjective _) (hobjective _)) ?_
    rintro _ _ ⟨-, f, b, hf, hb, rfl⟩
    exact ⟨trivial, contributes_component hf hb⟩

theorem checkHessianVector_sure (hm : m.Responds) (c : Checker α) (x v : Vec α) :
    Sure (c.checkHessianVector m x v) Report.Compares := by
  refine Sure.bind (compareProduct_sure hm v _) fun r hr => ?_
  obtain ⟨o, ho, rfl⟩ := hr
  exact Sure.bind (note_triple m _) fun _ _ => Sure.pure (compares_single ho)

/-- **A report is complete whatever fails.** Let the evaluations of a model end at a value or at a
failure. Once the gradient has been obtained with the right length, the objective is evaluated at
the two points of each coordinate only, and each coordinate contributes one entry or one error, in
their order. Each column of a Hessian contributes an entry for each row or one error. And in every
report no relative error is a NaN, and the report passes exactly if there are neither errors nor
failures, for a tolerance that is not negative exactly if there are no errors and the greatest
relative error is within it. -/
theorem reports_complete [Standard α] (hm : m.Responds) (c : Checker α) (x : Vec α) :
    (∀ (P : σ → Prop) (visited : List (Vec α)),
      Succeeds P (m.gradient x) (fun g _ => g.length = x.length) →
      Triple (fun t => P t.1 ∧ t.2 = visited) (c.checkGradient m.watched x) (fun r t =>
        t.2 = visited ++ (List.range x.length).flatMap (fun i => [c.ahead x i, c.behind x i]) ∧
        ∃ g components, Returns (m.gradient x) g ∧
          List.Forall₂ (c.Contributes m x g) (List.range x.length) components ∧
          r.entries = values components ∧ r.errors = errors components) fun _ => False) ∧
    Sure (c.checkHessian m x) (fun r => ∃ columns,
      List.Forall₂ (c.FillsColumn m x) (List.range x.length) columns ∧
      r.entries = (values columns).flatten ∧ r.errors = errors columns) ∧
    Sure (c.checkGradient m x) Report.Conclusive ∧
    Sure (c.checkHessian m x) Report.Conclusive ∧
    (∀ v, Sure (c.checkHessianVector m x v) Report.Conclusive) ∧
    Sure (c.checkRandomDirection m x) Report.Conclusive :=
  ⟨fun _ visited hgradient => checkGradient_watched hm hgradient c visited,
    (checkHessian_sure hm c x).mono fun _ h => h.2,
    (checkGradient_sure hm c x).mono fun _ h => h.conclusive,
    (checkHessian_sure hm c x).mono fun _ h => h.1.conclusive,
    fun v => (checkHessianVector_sure hm c x v).mono fun _ h => h.conclusive,
    (checkHessianVector_sure hm c x _).mono fun _ h => h.conclusive⟩

end Checker

end Derivatives

section HalfLine

open Derivatives

/-- A line on one half of which the objective has no value. -/
def halfLine : Model Float Unit where
  dimension := 1
  objective x := if 0 ≤ x.getD 0 0 then pure (x.getD 0 0) else throw (.evaluation "negative")
  gradient _ := pure [1]
  hessianVector _ _ := throw (.notImplemented "curvature")

theorem halfLine_responds : halfLine.Responds where
  objective x := by
    unfold halfLine
    dsimp only
    split
    · exact .pure trivial
    · exact .throw trivial
  gradient _ := .pure trivial
  hessianVector _ _ := .throw trivial

theorem halfLine_gives (x : Vec Float) : Gives (halfLine.objective x) (fun _ => 0 ≤ x.getD 0 0)
    fun e => ¬ 0 ≤ x.getD 0 0 ∧ e = .evaluation "negative" := by
  unfold halfLine
  dsimp only
  split
  · next h => exact .pure h
  · next h => exact .throw ⟨h, rfl⟩

theorem halfLine_multiplies (x v : Vec Float) : Gives (halfLine.hessianVector x v) (fun _ => False)
    (· = .notImplemented "curvature") := .throw rfl

theorem halfLine_inclines (x : Vec Float) : Gives (halfLine.gradient x) (· = [1]) fun _ => False :=
  .pure rfl

/-- The product is all there is to object to. -/
theorem halfLine_obstructed {c : Checker Float} {a : Float} {v : Vec Float} {text : String}
    (h : c.Obstructed halfLine [a] v text) : text = "Feature not implemented: curvature" := by
  have hgradient : ∀ y, ¬ Checker.Objection "gradient" 1 (halfLine.gradient y) text := by
    rintro y (hfails | ⟨hreturns, hlength⟩)
    · exact (halfLine_inclines y).failed hfails
    · cases (halfLine_inclines y).returned hreturns
      exact hlength rfl
  rcases h with (hfails | ⟨hreturns, -⟩) | ⟨-, h | h⟩
  · cases (halfLine_multiplies _ _).failed hfails
    rfl
  · exact ((halfLine_multiplies _ _).returned hreturns).elim
  · exact (hgradient _ h).elim
  · exact (hgradient _ h).elim

/-- At one half a step of 1 ahead has a value and a step back has none, which is an error. So is the
lack of curvature, in the only column of the Hessian. -/
theorem reports_complete_halfLine :
    Triple (fun t => t.2 = []) (({ step := some 1 } : Checker Float).checkGradient halfLine.watched
        [0.5])
      (fun r t => t.2 = [[1.5], [-0.5]] ∧ r.entries.length = 0 ∧
        r.errors = ["coordinate 0: Evaluation failed: negative"]) (fun _ => False) ∧
    Sure (({ step := some 1 } : Checker Float).checkHessian halfLine [0.5]) (fun r =>
      r.entries = [] ∧ r.errors = ["column 0: Feature not implemented: curvature"]) ∧
    Sure (({ step := some 1 } : Checker Float).checkHessian halfLine [0.5]) fun r =>
      r.passed = true ↔ r.errors = [] ∧ r.failures = [] := by
  obtain ⟨hgradient, hcolumns, -, hhessian, -⟩ :=
    Checker.reports_complete halfLine_responds { step := some 1 } [0.5]
  refine ⟨?_, hcolumns.mono ?_, hhessian.mono fun _ h => h.passed_iff_failures⟩
  · have hpoints : ({ step := some 1 } : Checker Float).ahead [0.5] 0 = [1.5] ∧
        ({ step := some 1 } : Checker Float).behind [0.5] 0 = [-0.5] := by decide +kernel
    have hsigns : (0 : Float) ≤ 1.5 ∧ ¬ (0 : Float) ≤ -0.5 := by decide +kernel
    have h := hgradient (fun _ => True) [] (Settles.pure fun _ _ => by simp)
    refine Triple.mono h (fun _ ht => ⟨trivial, ht⟩) ?_ fun _ h => h
    rintro r t ⟨ht, g, components, -, hcomponents, hentries, herrors⟩
    obtain _ | ⟨hcomponent, hrest⟩ := hcomponents
    cases hrest
    cases hcomponent with
    | entry _ hvalue =>
        rw [hpoints.2] at hvalue
        have hsign := (halfLine_gives _).returned hvalue
        exact (hsigns.2 hsign).elim
    | error hfails =>
        rw [hpoints.1, hpoints.2] at hfails
        rcases hfails with hfails | hfails
        · have hsign := ((halfLine_gives _).failed hfails).1
          exact (hsign hsigns.1).elim
        · obtain ⟨-, rfl⟩ := (halfLine_gives _).failed hfails
          refine ⟨?_, by rw [hentries]; rfl, herrors⟩
          have hvisited : t.2 = [({ step := some 1 } : Checker Float).ahead [0.5] 0,
            ({ step := some 1 } : Checker Float).behind [0.5] 0] := ht
          rw [hvisited, hpoints.1, hpoints.2]
  · rintro r ⟨columns, hfills, hentries, herrors⟩
    obtain _ | ⟨hcolumn, hrest⟩ := hfills
    cases hrest
    cases hcolumn with
    | entries hreturns => exact ((halfLine_multiplies _ _).returned hreturns).elim
    | error hobstructed =>
        cases halfLine_obstructed hobstructed
        exact ⟨hentries, herrors⟩

end HalfLine

end Descent
