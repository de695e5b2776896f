import Descent.Proofs.Outcome

/-!
# Computations without faults

A fault is a breach of a precondition between vectors, which nothing catches. Here are the rules
that show a computation to be free of it.

* `Checked.Passes x Q`: the check `x` passes, with a value that has `Q`.
* `Checked.Safe x Q E`: a check with failures of its own stops at no fault; its value has `Q`, its
  failure `E`.
* `Run.Sure m Q` and `Run.Safe m Q E`: the same for computations with a state, whatever that is.
* `Run.Succeeds P m Q`: from a state with `P` the computation ends at a value `b` in a state with
  `Q b`, so that there is neither a fault nor a failure.

Unlike `Run.Gives`, which allows a fault everywhere, these ask for a reason at every operation that
has a precondition.
-/

set_option autoImplicit false

namespace Descent

/-! ## Checks -/

namespace Checked

variable {β γ ε : Type}

def Passes (x : Checked β) (Q : β → Prop) : Prop := ∃ b, x = .ok b ∧ Q b

/-- The check stops at no fault: it ends with a value that has `Q` or with a failure that has
`E`. -/
def Safe (x : ExceptT ε Checked β) (Q : β → Prop) (E : ε → Prop) : Prop :=
  Passes x.run fun
    | .ok b => Q b
    | .error e => E e

namespace Passes

variable {x : Checked β} {Q Q' : β → Prop} {R : γ → Prop}

theorem ok {b : β} (h : Q b) : Passes (.ok b) Q := ⟨b, rfl, h⟩

theorem mono (h : Passes x Q) (hQ : ∀ b, Q b → Q' b) : Passes x Q' := by
  obtain ⟨b, hb, hq⟩ := h
  exact ⟨b, hb, hQ b hq⟩

theorem bind {f : β → Checked γ} (h : Passes x Q) (hf : ∀ b, Q b → Passes (f b) R) :
    Passes (x >>= f) R := by
  obtain ⟨b, rfl, hb⟩ := h
  exact hf b hb

/-- One check for each entry of a list. -/
theorem mapM {f : β → Checked γ} {l : List β} (h : ∀ b ∈ l, Passes (f b) R) :
    Passes (l.mapM f) fun cs => cs.length = l.length ∧ ∀ c ∈ cs, R c := by
  induction l with
  | nil => exact ok ⟨rfl, by simp⟩
  | cons b l ih =>
      rw [List.mapM_cons]
      refine bind (h b (List.mem_cons_self ..)) fun c hc => ?_
      refine bind (ih fun b' hb' => h b' (List.mem_cons_of_mem _ hb')) fun cs hcs => ?_
      exact ok ⟨by simp [hcs.1], List.forall_mem_cons.mpr ⟨hc, hcs.2⟩⟩

end Passes

namespace Safe

variable {x : ExceptT ε Checked β} {Q : β → Prop} {R : γ → Prop} {E : ε → Prop}

theorem pure {b : β} (h : Q b) : Safe (Pure.pure b : ExceptT ε Checked β) Q E := .ok h

theorem throw {e : ε} (h : E e) : Safe (MonadExcept.throw e : ExceptT ε Checked β) Q E := .ok h

theorem bind {f : β → ExceptT ε Checked γ} (h : Safe x Q E) (hf : ∀ b, Q b → Safe (f b) R E) :
    Safe (x >>= f) R E := by
  refine Passes.bind h ?_
  rintro (e | b) hb
  · exact .ok hb
  · exact hf b hb

theorem checked {x : Checked β} (h : Passes x Q) : Safe (liftM x : ExceptT ε Checked β) Q E := by
  obtain ⟨b, rfl, hb⟩ := h
  exact .ok hb

theorem ofExcept {x : Except ε β} (hQ : ∀ b, x = .ok b → Q b) (hE : ∀ e, x = .error e → E e) :
    Safe (liftM x : ExceptT ε Checked β) Q E := by
  cases x with
  | error e => exact .ok (hE e rfl)
  | ok b => exact .ok (hQ b rfl)

end Safe

end Checked

/-! ## Computations -/

namespace Run

variable {σ τ β γ ε δ : Type}

/-- Whatever the state, the computation ends with a value that has `Q`. -/
def Sure (m : Run σ β) (Q : β → Prop) : Prop :=
  Triple (fun _ => True) m (fun b _ => Q b) fun _ => False

/-- Whatever the state, the computation ends with a value that has `Q` or with a failure that has
`E`. -/
def Safe (m : ExceptT ε (Run σ) β) (Q : β → Prop) (E : ε → Prop) : Prop :=
  Sure m.run fun
    | .ok b => Q b
    | .error e => E e

/-- From every state with `P` the computation ends at a value `b` in a state with `Q b`. -/
abbrev Succeeds (P : σ → Prop) (m : ExceptT ε (Run σ) β) (Q : β → σ → Prop) : Prop :=
  Settles P m Q (fun _ _ => False) fun _ => False

/-- An attempt that allows for no failure and no fault succeeds. -/
theorem Attempt.iff_succeeds {P : σ → Prop} {m : ExceptT ε (Run σ) β} {Q : β → σ → Prop} :
    Attempt P m Q (fun _ => False) ↔ Succeeds P m Q := Iff.rfl

/-- Where there is no failure, it does not matter how failures are worded. -/
theorem Succeeds.adapt {P : σ → Prop} {m : ExceptT ε (Run σ) β} {Q : β → σ → Prop} {f : ε → δ}
    (h : Succeeds P m Q) : Succeeds P (ExceptT.adapt f m) Q := by
  refine Triple.map (Triple.post h ?_)
  rintro (e | b) s hs
  · exact hs
  · exact hs

/-- A result that is at hand and is no failure. -/
theorem Succeeds.ofExcept {P : σ → Prop} {x : Except ε β} {b : β} (h : x = .ok b) :
    Succeeds P (liftM x : ExceptT ε (Run σ) β) fun b' s => P s ∧ b' = b := by
  subst h
  exact fun _ _ hs => ⟨hs, rfl⟩

/-- On the first part of a state, the result is a value that is known. -/
theorem Succeeds.outcome {P R : σ → Prop} {K : τ → Prop} {m : ExceptT ε (Run σ) β} {v : β}
    (h : Succeeds P m fun b s => R s ∧ b = v) :
    Triple (fun u : σ × τ => P u.1 ∧ K u.2) (Run.onFst (Run.outcome m))
      (fun r u => (R u.1 ∧ K u.2) ∧ r = .ok v) fun _ => False := by
  refine Triple.onFst_at (P := fun s t => P s ∧ K t)
    (Q := fun (r : Except ε β) s t => (R s ∧ K t) ∧ r = .ok v) (F := fun _ _ => False) fun t => ?_
  rintro s journal ⟨hs, ht⟩
  refine Triple.post h ?_ s journal hs
  rintro (e | b) s' hb
  · exact hb.elim
  · exact ⟨⟨hb.1, ht⟩, congrArg Except.ok hb.2⟩

/-- A check that passes leaves the state alone. -/
theorem Triple.passes {P F : σ → Prop} {x : Checked β} {Q : β → Prop} (h : x.Passes Q) :
    Triple P (liftM x : Run σ β) (fun b s => P s ∧ Q b) F := by
  obtain ⟨b, rfl, hb⟩ := h
  exact fun _ _ hs => ⟨hs, hb⟩

namespace Sure

variable {m : Run σ β} {Q Q' : β → Prop} {R : γ → Prop}

/-- There is a result from every state and journal. -/
theorem exists_ok (h : Sure m Q) (s : σ) (journal : Journal) :
    ∃ b, (m.start s journal).1.1 = .ok b ∧ Q b := by
  have hm := h s journal trivial
  generalize m.start s journal = out at hm ⊢
  rcases out with ⟨⟨_ | b, s'⟩, journal'⟩
  · exact hm.elim
  · exact ⟨b, rfl, hm⟩

theorem pure {b : β} (h : Q b) : Sure (Pure.pure b : Run σ β) Q := Triple.pure fun _ _ => h

theorem mono (h : Sure m Q) (hQ : ∀ b, Q b → Q' b) : Sure m Q' := Triple.post h fun b _ => hQ b

theorem bind {f : β → Run σ γ} (h : Sure m Q) (hf : ∀ b, Q b → Sure (f b) R) :
    Sure (m >>= f) R :=
  Triple.bind (Triple.post h fun _ _ hb => ⟨trivial, hb⟩) fun b => Triple.assume (hf b)

theorem checked {x : Checked β} (h : x.Passes Q) : Sure (liftM x : Run σ β) Q := by
  obtain ⟨b, rfl, hb⟩ := h
  exact fun _ _ _ => hb

theorem emit {e : Event} : Sure (Descent.emit e : Run σ Unit) fun _ => True :=
  fun _ _ _ => trivial

theorem onFst (h : Sure m Q) : Sure (Run.onFst m : Run (σ × τ) β) Q := Triple.onFst h

theorem onSnd (h : Sure m Q) : Sure (Run.onSnd m : Run (τ × σ) β) Q := Triple.onSnd h

/-- A report is a computation that always ends well. -/
theorem report {m : Report σ β} : Sure (ExceptT.lift m : Run σ β) fun _ => True :=
  fun _ _ _ => trivial

/-- A computation with a state of its own. -/
theorem inside {m : Run τ β} {t : τ} {Q : β × τ → Prop} {P : τ → Prop} (hP : P t)
    (h : Triple P m (fun b t' => Q (b, t')) fun _ => False) :
    Sure (Run.inside m t : Run σ (β × τ)) Q := by
  intro s journal _
  have hm := h t journal hP
  show EndsIn _ _ (((m.start t journal).1.1.map fun b => (b, (m.start t journal).1.2)), s)
  rcases hout : m.start t journal with ⟨⟨e | b, t'⟩, journal'⟩
  · rw [hout] at hm
    exact hm.elim
  · rw [hout] at hm
    exact hm

end Sure

namespace Safe

variable {m : ExceptT ε (Run σ) β} {Q Q' : β → Prop} {R : γ → Prop} {E E' : ε → Prop}

theorem pure {b : β} (h : Q b) : Safe (Pure.pure b : ExceptT ε (Run σ) β) Q E := Sure.pure h

theorem throw {e : ε} (h : E e) : Safe (MonadExcept.throw e : ExceptT ε (Run σ) β) Q E :=
  Sure.pure h

/-- What would follow a failure is of no account. -/
theorem throw_bind {e : ε} {f : β → ExceptT ε (Run σ) γ} (h : E e) :
    Safe ((MonadExcept.throw e : ExceptT ε (Run σ) β) >>= f) R E :=
  Sure.pure h

theorem mono (h : Safe m Q E) (hQ : ∀ b, Q b → Q' b) (hE : ∀ e, E e → E' e) : Safe m Q' E' := by
  refine Sure.mono h ?_
  rintro (e | b) hb
  · exact hE e hb
  · exact hQ b hb

theorem bind {f : β → ExceptT ε (Run σ) γ} (h : Safe m Q E) (hf : ∀ b, Q b → Safe (f b) R E) :
    Safe (m >>= f) R E := by
  refine Sure.bind h ?_
  rintro (e | b) hb
  · exact Sure.pure hb
  · exact hf b hb

theorem checked {x : Checked β} (h : x.Passes Q) : Safe (liftM x : ExceptT ε (Run σ) β) Q E := by
  obtain ⟨b, rfl, hb⟩ := h
  exact fun _ _ _ => hb

theorem ofExcept {x : Except ε β} (hQ : ∀ b, x = .ok b → Q b) (hE : ∀ e, x = .error e → E e) :
    Safe (liftM x : ExceptT ε (Run σ) β) Q E := by
  cases x with
  | error e => exact fun _ _ _ => hE e rfl
  | ok b => exact fun _ _ _ => hQ b rfl

/-- A computation without failures of its own. -/
theorem lift {m : Run σ β} (h : Sure m Q) : Safe (liftM m : ExceptT ε (Run σ) β) Q E :=
  Triple.map h

/-- Failures that are worded anew. -/
theorem adapt {f : ε → δ} {E : δ → Prop} (h : Safe m Q fun e => E (f e)) :
    Safe (ExceptT.adapt f m) Q E := by
  refine Triple.map (Triple.post h ?_)
  rintro (e | b) s hs
  · exact hs
  · exact hs

/-- A failure that is caught is a value like any other. -/
theorem caught {E' : δ → Prop} (h : Safe m Q E) :
    Safe (Run.caught m : ExceptT δ (Run σ) (Except ε β)) (fun
      | .ok b => Q b
      | .error e => E e) E' :=
  Triple.map h

theorem emit {e : Event} : Safe (Descent.emit e : ExceptT ε (Run σ) Unit) (fun _ => True) E :=
  fun _ _ _ => trivial

theorem tryOnSnd (h : Safe m Q E) : Safe (Run.tryOnSnd m : ExceptT ε (Run (τ × σ)) β) Q E :=
  Sure.onSnd h

/-- A check with failures of its own. -/
theorem ofChecked {x : ExceptT ε Checked β} (h : Checked.Safe x Q E) :
    Safe (Run.ofChecked x : ExceptT ε (Run σ) β) Q E :=
  Sure.checked h

/-- One computation for each entry of a list. -/
theorem mapM {f : β → ExceptT ε (Run σ) γ} {l : List β} (h : ∀ b ∈ l, Safe (f b) R E) :
    Safe (l.mapM f) (fun cs => cs.length = l.length ∧ ∀ c ∈ cs, R c) E := by
  induction l with
  | nil => exact pure ⟨rfl, by simp⟩
  | cons b l ih =>
      rw [List.mapM_cons]
      refine bind (h b (List.mem_cons_self ..)) fun c hc => ?_
      refine bind (ih fun b' hb' => h b' (List.mem_cons_of_mem _ hb')) fun cs hcs => ?_
      exact pure ⟨by simp [hcs.1], List.forall_mem_cons.mpr ⟨hc, hcs.2⟩⟩

end Safe

end Run

/-! ## Answers that are there -/

namespace Evaluation

open Run

variable {σ γ : Type} {P : σ → Prop}

/-- A finite value is usable. -/
theorem usable_succeeds {e : Evaluation σ γ} {R : σ → Prop} {v : γ}
    (h : Succeeds P e fun b t => R t ∧ b = v) {isFinite : γ → Bool} (hv : isFinite v = true)
    (what : String) : Succeeds P (usable e isFinite what) fun r t => R t ∧ r = .ok v := by
  refine Settles.bind (Settles.caught h) ?_
  rintro (e | b)
  · exact fun _ _ h => h.elim
  · refine Settles.assume ?_
    rintro rfl
    dsimp only
    rw [if_pos hv]
    exact Settles.pure fun _ ht => ⟨ht, rfl⟩

/-- A value that is there is a value that was required. -/
theorem required_succeeds {e : Evaluation σ γ} {Q : γ → σ → Prop}
    (h : Succeeds P e Q) : Succeeds P (required e) Q := h.adapt

end Evaluation

end Descent
