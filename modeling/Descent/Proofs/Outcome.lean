import Descent.Model

/-!
# What computations ensure

Rules for reasoning about a `Run`, and about one with failures of its own on top, step by step.

* `Run.Triple P m Q F`: from a state with `P` the computation `m` ends with a value `b` in a state
  with `Q b`, or at a fault in a state with `F`. `Run.Settles` is the same for a computation with
  failures, which are asked for a condition of their own, and `Run.Attempt` asks them for `F` as it
  asks faults.
* `Run.Ensures I m Q` and `Run.Attains I m Q` are the cases in which all these states have the
  invariant `I`, and the value has `Q`.
* `Run.Returns m b`: `b` is a value which `m` can end with. A statement about every such value
  follows from `Attains` under the trivial invariant (`Attains.iff_returns`).
  `Run.Leads` and `Run.Breaks` say from which state to which a value or a failure comes.
* `Run.Gives m Q E`: whatever the state, a value that `m` ends with has `Q` and a failure has `E`.
-/

set_option autoImplicit false

namespace Descent

/-- A check that has passed hands on its value. -/
@[simp] theorem Checked.ok_bind {β γ : Type} (b : β) (f : β → Checked γ) :
    ((Except.ok b : Checked β) >>= f) = f b := rfl

theorem Checked.liftM_ok {ε β : Type} (b : β) :
    (liftM (Except.ok b : Checked β) : ExceptT ε Checked β) = pure b := rfl

/-- Checks of one entry after another that all pass. -/
theorem Checked.mapM_eq_ok {β γ : Type} {f : β → Checked γ} {g : β → γ} {l : List β}
    (h : ∀ b ∈ l, f b = .ok (g b)) : l.mapM f = .ok (l.map g) := by
  induction l with
  | nil => rfl
  | cons b l ih =>
      obtain ⟨hb, hl⟩ := List.forall_mem_cons.mp h
      rw [List.mapM_cons, hb, ih hl]
      rfl

/-- All entries, one after another. -/
theorem mapM_entryAt {β : Type} (xs : List β) :
    (List.range xs.length).mapM (entryAt xs) = .ok xs := by
  match xs with
  | [] => rfl
  | x :: xs =>
      have hread : ∀ i ∈ List.range (x :: xs).length,
          entryAt (x :: xs) i = .ok ((x :: xs).getD i x) := by
        intro i hi
        have hin := List.mem_range.mp hi
        rw [entryAt_of_lt hin, List.getD_eq_getElem?_getD, List.getElem?_eq_getElem hin,
          Option.getD_some]
      rw [Checked.mapM_eq_ok hread]
      refine congrArg Except.ok (List.ext_getElem (by simp) fun i hi hi' => ?_)
      rw [List.getElem_map, List.getElem_range, List.getD_eq_getElem?_getD,
        List.getElem?_eq_getElem hi', Option.getD_some]

/-- A sequence that ends well has two parts that do. -/
theorem exists_of_bind_ok {ε β γ : Type} {x : Except ε β} {f : β → Except ε γ} {c : γ}
    (h : x >>= f = .ok c) : ∃ b, x = .ok b ∧ f b = .ok c := by
  cases x with
  | error e => cases h
  | ok b => exact ⟨b, rfl, h⟩

/-- The same for checks with failures. -/
theorem Checked.exists_of_bind_pure {ε β γ : Type} {x : ExceptT ε Checked β}
    {f : β → ExceptT ε Checked γ} {c : γ} (h : x >>= f = pure c) :
    ∃ b, x = pure b ∧ f b = pure c := by
  match x with
  | .error _ | .ok (.error _) => cases h
  | .ok (.ok b) => exact ⟨b, rfl, h⟩

/-- A computation without a state ends with a value that has `Q`, or with a failure that has `E`, or
at a fault. -/
def Checked.Yields {ε β : Type} (x : ExceptT ε Checked β) (Q : β → Prop) (E : ε → Prop) : Prop :=
  match x.run with
  | .ok (.ok b) => Q b
  | .ok (.error e) => E e
  | .error _ => True

namespace Checked.Yields

variable {β γ ε : Type} {Q : β → Prop} {R : γ → Prop} {E : ε → Prop}

theorem trivial {x : ExceptT ε Checked β} : Yields x (fun _ => True) fun _ => True := by
  match x with
  | .error _ | .ok (.error _) | .ok (.ok _) => exact True.intro

theorem pure {b : β} (h : Q b) : Yields (Pure.pure b : ExceptT ε Checked β) Q E := h

theorem throw {e : ε} (h : E e) : Yields (MonadExcept.throw e : ExceptT ε Checked β) Q E := h

theorem bind {x : ExceptT ε Checked β} {f : β → ExceptT ε Checked γ} (h : Yields x Q E)
    (hf : ∀ b, Q b → Yields (f b) R E) : Yields (x >>= f) R E := by
  match x, h with
  | .error _, _ => trivial
  | .ok (.error _), h => exact h
  | .ok (.ok b), h => exact hf b h

theorem checked {x : Checked β} (h : ∀ b, x = .ok b → Q b) :
    Yields (liftM x : ExceptT ε Checked β) Q E := by
  cases x with
  | error e => trivial
  | ok b => exact h b rfl

theorem ofExcept {x : Except ε β} (hQ : ∀ b, x = .ok b → Q b) (hE : ∀ e, x = .error e → E e) :
    Yields (liftM x : ExceptT ε Checked β) Q E := by
  cases x with
  | error e => exact hE e rfl
  | ok b => exact hQ b rfl

end Checked.Yields

namespace Run

variable {σ τ β γ ε δ : Type}

/-- The end of a computation at a value `b` in a state with `Q b`, or at a fault in one with `F`. -/
def EndsIn (Q : β → σ → Prop) (F : σ → Prop) : Except Fault β × σ → Prop
  | (.ok b, s) => Q b s
  | (.error _, s) => F s

/-- From every state with `P` the computation ends at a value `b` in a state with `Q b`, or at a
fault in a state with `F`. -/
def Triple (P : σ → Prop) (m : Run σ β) (Q : β → σ → Prop) (F : σ → Prop) : Prop :=
  ∀ s journal, P s → EndsIn Q F (m.start s journal).1

/-- The same for a computation with failures: it ends at a failure `e` in a state with `E e`. -/
def Settles (P : σ → Prop) (m : ExceptT ε (Run σ) β) (Q : β → σ → Prop) (E : ε → σ → Prop)
    (F : σ → Prop) : Prop :=
  Triple P m.run (fun r s => match r with | .ok b => Q b s | .error e => E e s) F

/-- The same if failures end a computation as faults do. -/
def Attempt (P : σ → Prop) (m : ExceptT ε (Run σ) β) (Q : β → σ → Prop) (F : σ → Prop) : Prop :=
  Triple P m.run (fun r s => match r with | .ok b => Q b s | .error _ => F s) F

/-- `m` keeps the invariant `I`, and the value it ends with has `Q`. -/
def Ensures (I : σ → Prop) (m : Run σ β) (Q : β → Prop) : Prop :=
  Triple I m (fun b s => I s ∧ Q b) I

/-- The same for a computation with failures. -/
def Attains (I : σ → Prop) (m : ExceptT ε (Run σ) β) (Q : β → Prop) : Prop :=
  Attempt I m (fun b s => I s ∧ Q b) I

/-- From some state and journal the computation ends with the value `b`. -/
def Returns (m : ExceptT ε (Run σ) β) (b : β) : Prop :=
  ∃ s journal, (Run.start m.run s journal).1.1 = .ok (.ok b)

/-- From the state `s` and some journal the computation ends with the value `b` in the state
`s'`. -/
def Leads (m : ExceptT ε (Run σ) β) (s : σ) (b : β) (s' : σ) : Prop :=
  ∃ journal, (Run.start m.run s journal).1 = (.ok (.ok b), s')

/-- From some state and journal the computation ends with the failure `e`. -/
def Fails (m : ExceptT ε (Run σ) β) (e : ε) : Prop :=
  ∃ s journal, (Run.start m.run s journal).1.1 = .ok (.error e)

/-- Every value that the computation ends with has `Q` and every failure has `E`. -/
def Gives (m : ExceptT ε (Run σ) β) (Q : β → Prop) (E : ε → Prop) : Prop :=
  Ensures (fun _ => True) m.run fun
    | .ok b => Q b
    | .error e => E e

/-- From the state `s` and some journal the computation ends with the failure `e` in the state
`s'`. -/
def Breaks (m : ExceptT ε (Run σ) β) (s : σ) (e : ε) (s' : σ) : Prop :=
  ∃ journal, (Run.start m.run s journal).1 = (.ok (.error e), s')

theorem Leads.returns {m : ExceptT ε (Run σ) β} {s s' : σ} {b : β} (h : Leads m s b s') :
    Returns m b := by
  obtain ⟨journal, h⟩ := h
  exact ⟨s, journal, congrArg Prod.fst h⟩

theorem Breaks.fails {m : ExceptT ε (Run σ) β} {s s' : σ} {e : ε} (h : Breaks m s e s') :
    Fails m e := by
  obtain ⟨journal, h⟩ := h
  exact ⟨s, journal, congrArg Prod.fst h⟩

/-! ## Computations without failures of their own -/

/-- A sequence goes on from where its first part ends, unless that is a fault. -/
theorem start_bind (m : Run σ β) (f : β → Run σ γ) (s : σ) (journal : Journal) :
    (m >>= f).start s journal = match m.start s journal with
      | ((.ok b, s'), journal') => (f b).start s' journal'
      | ((.error e, s'), journal') => ((.error e, s'), journal') := by
  -- the sequence of all three layers of the monad, written out
  show (match (m.run s).run journal with
    | ((r, s'), journal') => (((ExceptT.bindCont f r : Report σ (Except Fault γ)) s') journal')) = _
  unfold Run.start
  rcases (m.run s).run journal with ⟨⟨r, s'⟩, journal'⟩
  cases r <;> rfl

theorem start_onFst (m : Run σ β) (s : σ) (t : τ) (journal : Journal) :
    (Run.onFst m).start (s, t) journal = (((m.start s journal).1.1, ((m.start s journal).1.2, t)),
      (m.start s journal).2) := rfl

theorem start_onSnd (m : Run σ β) (t : τ) (s : σ) (journal : Journal) :
    (Run.onSnd m).start (t, s) journal = (((m.start s journal).1.1, (t, (m.start s journal).1.2)),
      (m.start s journal).2) := rfl

namespace Triple

variable {P P' F F' : σ → Prop} {m : Run σ β} {Q Q' : β → σ → Prop} {R : γ → σ → Prop}

theorem pure {b : β} (h : ∀ s, P s → Q b s) : Triple P (Pure.pure b) Q F :=
  fun s _ hs => h s hs

theorem mono (h : Triple P m Q F) (hP : ∀ s, P' s → P s) (hQ : ∀ b s, Q b s → Q' b s)
    (hF : ∀ s, F s → F' s) : Triple P' m Q' F' := by
  intro s journal hs
  have hm := h s journal (hP s hs)
  generalize m.start s journal = out at hm ⊢
  rcases out with ⟨⟨e | b, s'⟩, journal'⟩
  · exact hF s' hm
  · exact hQ b s' hm

theorem pre (h : Triple P m Q F) (hP : ∀ s, P' s → P s) : Triple P' m Q F :=
  mono h hP (fun _ _ hs => hs) fun _ hs => hs

theorem post (h : Triple P m Q F) (hQ : ∀ b s, Q b s → Q' b s) : Triple P m Q' F :=
  mono h (fun _ hs => hs) hQ fun _ hs => hs

/-- Less is asked where it stops at a fault. -/
theorem fault (h : Triple P m Q F) (hF : ∀ s, F s → F' s) : Triple P m Q F' :=
  mono h (fun _ hs => hs) (fun _ _ hs => hs) hF

theorem bind {f : β → Run σ γ} (h : Triple P m Q F) (hf : ∀ b, Triple (Q b) (f b) R F) :
    Triple P (m >>= f) R F := by
  intro s journal hs
  have hm := h s journal hs
  rw [start_bind]
  generalize m.start s journal = out at hm ⊢
  rcases out with ⟨⟨e | b, s'⟩, journal'⟩
  · exact hm
  · exact hf b s' journal' hm

theorem map {f : β → γ} (h : Triple P m (fun b s => R (f b) s) F) : Triple P (f <$> m) R F := by
  rw [map_eq_pure_bind]
  exact bind h fun b => pure fun _ hs => hs

/-- What does not depend on the state may be assumed. -/
theorem assume {p : Prop} (h : p → Triple P m Q F) : Triple (fun s => P s ∧ p) m Q F :=
  fun s journal hs => h hs.2 s journal hs.1

/-- A check ends with its value or stops the computation, and leaves the state alone. -/
theorem checked {x : Checked β} (hQ : ∀ b, x = .ok b → ∀ s, P s → Q b s) (hF : ∀ s, P s → F s) :
    Triple P (liftM x : Run σ β) Q F := by
  intro s journal hs
  cases x with
  | error e => exact hF s hs
  | ok b => exact hQ b rfl s hs

theorem get : Triple P (MonadState.get : Run σ σ) (fun _ => P) F :=
  fun _ _ hs => hs

/-- What is read is the state. -/
theorem get_eq : Triple P (MonadState.get : Run σ σ) (fun t s => t = s ∧ P s) F :=
  fun _ _ hs => ⟨rfl, hs⟩

/-- The journal is no part of the state. -/
theorem emit {e : Event} : Triple P (Descent.emit e : Run σ Unit) (fun _ => P) F :=
  fun _ _ hs => hs

/-- What does not depend on the state stays true. -/
theorem frame {p : Prop} (h : Triple P m Q F) :
    Triple (fun s => p ∧ P s) m (fun b s => p ∧ Q b s) fun s => p ∧ F s := by
  rintro s journal ⟨hp, hs⟩
  have hm := h s journal hs
  generalize m.start s journal = out at hm ⊢
  rcases out with ⟨⟨e | b, s'⟩, journal'⟩
  · exact ⟨hp, hm⟩
  · exact ⟨hp, hm⟩

/-- Nothing is asked of the state, nor of the value. -/
theorem trivial : Triple (fun _ => True) m (fun _ _ => True) fun _ => True := by
  intro s journal _
  rcases m.start s journal with ⟨⟨_ | _, _⟩, _⟩
  · exact True.intro
  · exact True.intro

/-- Of whatever runs, nothing is known but what does not depend on the state. -/
theorem always (p : Prop) : Triple (fun _ => p) m (fun _ _ => p) fun _ => p :=
  mono (frame trivial) (fun _ hp => ⟨hp, True.intro⟩) (fun _ _ h => h.1) fun _ h => h.1

/-- On the first part of a state, whatever the second one is. -/
theorem onFst_at {P F : σ → τ → Prop} {Q : β → σ → τ → Prop}
    (h : ∀ t, Triple (fun s => P s t) m (fun b s => Q b s t) fun s => F s t) :
    Triple (fun u : σ × τ => P u.1 u.2) (Run.onFst m) (fun b u => Q b u.1 u.2)
      fun u => F u.1 u.2 := by
  rintro ⟨s, t⟩ journal hs
  have hm := h t s journal hs
  rw [start_onFst]
  generalize m.start s journal = out at hm ⊢
  rcases out with ⟨⟨e | b, s'⟩, journal'⟩
  · exact hm
  · exact hm

/-- On the second part of a state, whatever the first one is. -/
theorem onSnd_at {P F : τ → σ → Prop} {Q : β → τ → σ → Prop}
    (h : ∀ t, Triple (P t) m (fun b => Q b t) (F t)) :
    Triple (fun u : τ × σ => P u.1 u.2) (Run.onSnd m) (fun b u => Q b u.1 u.2)
      fun u => F u.1 u.2 := by
  rintro ⟨t, s⟩ journal hs
  have hm := h t s journal hs
  rw [start_onSnd]
  generalize m.start s journal = out at hm ⊢
  rcases out with ⟨⟨e | b, s'⟩, journal'⟩
  · exact hm
  · exact hm

theorem onFst (h : Triple P m Q F) :
    Triple (fun t : σ × τ => P t.1) (Run.onFst m) (fun b t => Q b t.1) fun t => F t.1 :=
  onFst_at fun _ => h

theorem onSnd (h : Triple P m Q F) :
    Triple (fun t : τ × σ => P t.2) (Run.onSnd m) (fun b t => Q b t.2) fun t => F t.2 :=
  onSnd_at fun _ => h

/-- The second part of a state is left alone by what runs on the first. -/
theorem onFst_beside {K : τ → Prop} :
    Triple (fun t : σ × τ => K t.2) (Run.onFst m) (fun _ t => K t.2) fun t => K t.2 :=
  onFst_at (P := fun _ t => K t) fun t => always (K t)

/-- The first part of a state is left alone by what runs on the second. -/
theorem onSnd_beside {K : τ → Prop} :
    Triple (fun t : τ × σ => K t.1) (Run.onSnd m) (fun _ t => K t.1) fun t => K t.1 :=
  onSnd_at (P := fun t _ => K t) fun t => always (K t)

end Triple

namespace Ensures

variable {I : σ → Prop} {m : Run σ β} {P Q : β → Prop}

theorem pure {b : β} (h : Q b) : Ensures I (Pure.pure b) Q :=
  Triple.pure fun _ hs => ⟨hs, h⟩

theorem bind {f : β → Run σ γ} {R : γ → Prop} (h : Ensures I m P)
    (hf : ∀ b, P b → Ensures I (f b) R) : Ensures I (m >>= f) R :=
  Triple.bind h fun b => Triple.assume (hf b)

/-- A check ends with its value or stops the computation. -/
theorem checked {x : Checked β} (h : ∀ b, x = .ok b → Q b) : Ensures I (liftM x : Run σ β) Q :=
  Triple.checked (fun b hb _ hs => ⟨hs, h b hb⟩) fun _ hs => hs

/-- Nothing is asked of the state, nor of the value. -/
theorem trivial : Ensures (fun _ => True) m fun _ => True :=
  Triple.post Triple.trivial fun _ _ h => ⟨h, h⟩

/-- A computation with a state of its own hands back where it ends. -/
theorem inside {m : Run τ β} {t : τ} :
    Ensures I (Run.inside m t) fun r => ∃ journal, (m.start t journal).1 = (.ok r.1, r.2) := by
  intro s journal hs
  show EndsIn _ _ (((m.start t journal).1.1.map fun b => (b, (m.start t journal).1.2)), s)
  rcases hm : m.start t journal with ⟨⟨e | b, t'⟩, journal'⟩
  · exact hs
  · exact ⟨hs, journal, by rw [hm]⟩

end Ensures

/-! ## Computations with failures -/

/-- A check that has passed is only its value. -/
@[simp] theorem liftM_ok (b : β) :
    (liftM (Except.ok b : Checked β) : ExceptT ε (Run σ) β) = pure b := rfl

namespace Settles

variable {P P' F F' : σ → Prop} {m : ExceptT ε (Run σ) β} {Q Q' : β → σ → Prop}
  {E E' : ε → σ → Prop} {R : γ → σ → Prop}

theorem pure {b : β} (h : ∀ s, P s → Q b s) :
    Settles P (Pure.pure b : ExceptT ε (Run σ) β) Q E F :=
  Triple.pure h

theorem throw {e : ε} (h : ∀ s, P s → E e s) :
    Settles P (MonadExcept.throw e : ExceptT ε (Run σ) β) Q E F :=
  Triple.pure h

/-- What would follow a failure is of no account. -/
theorem throw_bind {e : ε} {f : β → ExceptT ε (Run σ) γ} (h : ∀ s, P s → E e s) :
    Settles P ((MonadExcept.throw e : ExceptT ε (Run σ) β) >>= f) R E F :=
  Triple.pure h

theorem mono (h : Settles P m Q E F) (hP : ∀ s, P' s → P s) (hQ : ∀ b s, Q b s → Q' b s)
    (hE : ∀ e s, E e s → E' e s) (hF : ∀ s, F s → F' s) : Settles P' m Q' E' F' := by
  refine Triple.mono h hP ?_ hF
  rintro (e | b) s hs
  · exact hE e s hs
  · exact hQ b s hs

/-- Less is asked where it stops at a fault. -/
theorem fault (h : Settles P m Q E F) (hF : ∀ s, F s → F' s) : Settles P m Q E F' :=
  mono h (fun _ hs => hs) (fun _ _ hs => hs) (fun _ _ hs => hs) hF

/-- Of whatever runs, nothing is known but what does not depend on the state. -/
theorem always (p : Prop) : Settles (fun _ => p) m (fun _ _ => p) (fun _ _ => p) fun _ => p := by
  refine Triple.post (Triple.always p) ?_
  rintro (e | b) _ hp
  · exact hp
  · exact hp

theorem bind {f : β → ExceptT ε (Run σ) γ} (h : Settles P m Q E F)
    (hf : ∀ b, Settles (Q b) (f b) R E F) : Settles P (m >>= f) R E F := by
  refine Triple.bind h ?_
  rintro (e | b)
  · exact Triple.pure fun _ hs => hs
  · exact hf b

theorem assume {p : Prop} (h : p → Settles P m Q E F) : Settles (fun s => P s ∧ p) m Q E F :=
  Triple.assume h

theorem ite {p : Prop} [Decidable p] {m' : ExceptT ε (Run σ) β} (h : p → Settles P m Q E F)
    (h' : ¬ p → Settles P m' Q E F) : Settles P (if p then m else m') Q E F := by
  split
  · next hp => exact h hp
  · next hp => exact h' hp

/-- A check fails by a fault only. -/
theorem checked {x : Checked β} (hQ : ∀ b, x = .ok b → ∀ s, P s → Q b s) (hF : ∀ s, P s → F s) :
    Settles P (liftM x : ExceptT ε (Run σ) β) Q E F := by
  intro s journal hs
  cases x with
  | error e => exact hF s hs
  | ok b => exact hQ b rfl s hs

/-- A computation without failures of its own among those with failures. -/
theorem lift {m : Run σ β} (h : Triple P m Q F) :
    Settles P (liftM m : ExceptT ε (Run σ) β) Q E F :=
  Triple.map h

/-- A result that is at hand. -/
theorem ofExcept {x : Except ε β} (hQ : ∀ b, x = .ok b → ∀ s, P s → Q b s)
    (hE : ∀ e, x = .error e → ∀ s, P s → E e s) :
    Settles P (liftM x : ExceptT ε (Run σ) β) Q E F := by
  intro s journal hs
  cases x with
  | error e => exact hE e rfl s hs
  | ok b => exact hQ b rfl s hs

/-- A failure that is caught is a value like any other. -/
theorem caught {D : δ → σ → Prop} (h : Settles P m Q E F) :
    Settles P (Run.caught m : ExceptT δ (Run σ) (Except ε β))
      (fun r s => match r with | .ok b => Q b s | .error e => E e s) D F :=
  Triple.map h

theorem emit {e : Event} :
    Settles P (Descent.emit e : ExceptT ε (Run σ) Unit) (fun _ => P) E F :=
  fun _ _ hs => hs

/-- Of a value that the computation leads to. -/
theorem leads (h : Settles P m Q E F) {s s' : σ} {b : β} (hm : Leads m s b s') (hs : P s) :
    Q b s' := by
  obtain ⟨journal, hm⟩ := hm
  have hend := h s journal hs
  rw [hm] at hend
  exact hend

/-- Each end is led to from a state with `P`. -/
theorem reached : Settles P m (fun b t => ∃ s, P s ∧ Leads m s b t)
    (fun e t => ∃ s, P s ∧ Breaks m s e t) fun _ => True := by
  intro s journal hs
  rcases hm : Run.start m.run s journal with ⟨⟨f | e | b, t⟩, journal'⟩
  · trivial
  · exact ⟨s, hs, journal, by rw [hm]⟩
  · exact ⟨s, hs, journal, by rw [hm]⟩

/-- Of a failure that the computation breaks with. -/
theorem breaks (h : Settles P m Q E F) {s s' : σ} {e : ε} (hm : Breaks m s e s') (hs : P s) :
    E e s' := by
  obtain ⟨journal, hm⟩ := hm
  have hend := h s journal hs
  rw [hm] at hend
  exact hend

end Settles

namespace Attempt

variable {P P' F F' : σ → Prop} {m : ExceptT ε (Run σ) β} {Q Q' : β → σ → Prop}
  {R : γ → σ → Prop}

theorem pure {b : β} (h : ∀ s, P s → Q b s) :
    Attempt P (Pure.pure b : ExceptT ε (Run σ) β) Q F :=
  Triple.pure h

theorem throw {e : ε} (h : ∀ s, P s → F s) :
    Attempt P (MonadExcept.throw e : ExceptT ε (Run σ) β) Q F :=
  Triple.pure h

theorem mono (h : Attempt P m Q F) (hP : ∀ s, P' s → P s) (hQ : ∀ b s, Q b s → Q' b s)
    (hF : ∀ s, F s → F' s) : Attempt P' m Q' F' :=
  Settles.mono h hP hQ (fun _ => hF) hF

theorem bind {f : β → ExceptT ε (Run σ) γ} (h : Attempt P m Q F)
    (hf : ∀ b, Attempt (Q b) (f b) R F) : Attempt P (m >>= f) R F :=
  Settles.bind h hf

theorem assume {p : Prop} (h : p → Attempt P m Q F) : Attempt (fun s => P s ∧ p) m Q F :=
  Triple.assume h

theorem checked {x : Checked β} (hQ : ∀ b, x = .ok b → ∀ s, P s → Q b s) (hF : ∀ s, P s → F s) :
    Attempt P (liftM x : ExceptT ε (Run σ) β) Q F :=
  Settles.checked hQ hF

/-- A computation without failures of its own among those with failures. -/
theorem lift {m : Run σ β} (h : Triple P m Q F) :
    Attempt P (liftM m : ExceptT ε (Run σ) β) Q F :=
  Settles.lift h

/-- A result that is at hand. -/
theorem ofExcept {x : Except ε β} (hQ : ∀ b, x = .ok b → ∀ s, P s → Q b s)
    (hF : ∀ s, P s → F s) : Attempt P (liftM x : ExceptT ε (Run σ) β) Q F :=
  Settles.ofExcept hQ fun _ _ => hF

/-- Of a value that the computation leads to. -/
theorem leads (h : Attempt P m Q F) {s s' : σ} {b : β} (hm : Leads m s b s') (hs : P s) :
    Q b s' :=
  Settles.leads (E := fun _ => F) h hm hs

/-- Where neither a failure nor a fault is allowed for, there is a value. -/
theorem exists_leads (h : Attempt P m Q fun _ => False) {s : σ} (hs : P s) :
    ∃ b s', Leads m s b s' ∧ Q b s' := by
  have hend := h s #[] hs
  rcases hm : Run.start m.run s #[] with ⟨⟨_ | _ | b, s'⟩, journal⟩
  · rw [hm] at hend
    exact hend.elim
  · rw [hm] at hend
    exact hend.elim
  · rw [hm] at hend
    exact ⟨b, s', ⟨#[], by rw [hm]⟩, hend⟩

/-- Each value is led to from a state with `P`. -/
theorem reached : Attempt P m (fun b t => ∃ s, P s ∧ Leads m s b t) fun _ => True :=
  Settles.mono Settles.reached (fun _ h => h) (fun _ _ h => h) (fun _ _ _ => trivial)
    fun _ _ => trivial

/-- Another wording of the failures changes nothing else. -/
theorem adapt {f : ε → δ} (h : Attempt P m Q F) : Attempt P (ExceptT.adapt f m) Q F := by
  refine Triple.map (Triple.post h ?_)
  rintro (e | b) s hs
  · exact hs
  · exact hs

/-- A failure that is caught is a value like any other. -/
theorem caught (h : Attempt P m Q F) : Attempt P (Run.caught m : ExceptT δ (Run σ) (Except ε β))
    (fun r s => match r with | .ok b => Q b s | .error _ => F s) F :=
  Triple.map h

theorem tryOnSnd (h : Attempt P m Q F) :
    Attempt (fun t : τ × σ => P t.2) (Run.tryOnSnd m) (fun b t => Q b t.2) fun t => F t.2 := by
  refine Triple.post (Triple.onSnd h) ?_
  rintro (e | b) s hs
  · exact hs
  · exact hs

/-- On the first part of a state, seen from the second: that is left alone, and a value is one of
the computation inside. -/
theorem tryOnFst_beside {K : τ → Prop} :
    Attempt (fun t : σ × τ => K t.2) (Run.tryOnFst m) (fun b t => K t.2 ∧ Returns m b)
      fun t => K t.2 := by
  rintro ⟨s, t⟩ journal ht
  show EndsIn _ _ ((Run.onFst m.run).start (s, t) journal).1
  rw [start_onFst]
  rcases hm : (Run.start m.run s journal).1.1 with f | e | b
  · exact ht
  · exact ht
  · exact ⟨ht, s, journal, hm⟩

theorem emit {e : Event} :
    Attempt P (Descent.emit e : ExceptT ε (Run σ) Unit) (fun _ => P) F :=
  fun _ _ hs => hs

end Attempt

namespace Attains

variable {I : σ → Prop} {m : ExceptT ε (Run σ) β} {P Q : β → Prop}

theorem pure {b : β} (h : Q b) : Attains I (Pure.pure b : ExceptT ε (Run σ) β) Q :=
  Attempt.pure fun _ hs => ⟨hs, h⟩

theorem mono (h : Attains I m P) (hPQ : ∀ b, P b → Q b) : Attains I m Q :=
  Attempt.mono h (fun _ hs => hs) (fun b _ hb => ⟨hb.1, hPQ b hb.2⟩) fun _ hs => hs

theorem bind {f : β → ExceptT ε (Run σ) γ} {R : γ → Prop} (h : Attains I m P)
    (hf : ∀ b, P b → Attains I (f b) R) : Attains I (m >>= f) R :=
  Attempt.bind h fun b => Attempt.assume (hf b)

theorem checked {x : Checked β} (h : ∀ b, x = .ok b → Q b) :
    Attains I (liftM x : ExceptT ε (Run σ) β) Q :=
  Attempt.checked (fun b hb _ hs => ⟨hs, h b hb⟩) fun _ hs => hs

theorem adapt {f : ε → δ} (h : Attains I m Q) : Attains I (ExceptT.adapt f m) Q :=
  Attempt.adapt h

theorem emit {e : Event} {R : Unit → Prop} (h : R ()) :
    Attains I (Descent.emit e : ExceptT ε (Run σ) Unit) R :=
  fun _ _ hs => ⟨hs, h⟩

/-- A computation without a state. -/
theorem ofChecked {x : ExceptT ε Checked β} (h : Checked.Yields x Q fun _ => True) :
    Attains I (Run.ofChecked x : ExceptT ε (Run σ) β) Q := by
  unfold Checked.Yields at h
  refine Triple.checked (fun r hr s hs => ?_) fun _ hs => hs
  rw [hr] at h
  cases r with
  | error e => exact hs
  | ok b => exact ⟨hs, h⟩

/-- Under the trivial invariant, `Q` of every value that can be returned is what is attained. -/
theorem iff_returns : Attains (fun _ => True) m Q ↔ ∀ b, Returns m b → Q b := by
  constructor
  · rintro h b ⟨s, journal, hb⟩
    have hm := h s journal True.intro
    rcases hout : Run.start m.run s journal with ⟨⟨r, s'⟩, journal'⟩
    rw [hout] at hb hm
    cases hb
    exact hm.2
  · intro h s journal _
    rcases hout : Run.start m.run s journal with ⟨⟨_ | _ | b, s'⟩, journal'⟩
    · trivial
    · trivial
    · exact ⟨trivial, h b ⟨s, journal, by rw [hout]⟩⟩

/-- Every computation attains its own values. -/
theorem self : Attains (fun _ => True) m (Returns m) := iff_returns.mpr fun _ h => h

/-- Nothing is asked of the state, nor of the value. -/
theorem trivial : Attains (fun _ => True) m fun _ => True :=
  iff_returns.mpr fun _ _ => True.intro

end Attains

theorem Returns.of_pure {b c : β} (h : Returns (Pure.pure b : ExceptT ε (Run σ) β) c) : b = c := by
  obtain ⟨_, _, h⟩ := h
  cases h
  rfl

/-- A sequence that returns a value has two parts that do. -/
theorem Returns.of_bind {m : ExceptT ε (Run σ) β} {f : β → ExceptT ε (Run σ) γ} {c : γ}
    (h : Returns (m >>= f) c) : ∃ b, Returns m b ∧ Returns (f b) c := by
  have hseq : Attains (fun _ => True) (m >>= f) fun c => ∃ b, Returns m b ∧ Returns (f b) c :=
    Attains.bind Attains.self fun b hb => Attains.iff_returns.mpr fun _ hc => ⟨b, hb, hc⟩
  exact Attains.iff_returns.mp hseq c h

/-- A sequence that leads to a value passes through a state between its parts. -/
theorem Leads.of_bind {m : ExceptT ε (Run σ) β} {f : β → ExceptT ε (Run σ) γ} {s s' : σ} {c : γ}
    (h : Leads (m >>= f) s c s') : ∃ b t, Leads m s b t ∧ Leads (f b) t c s' := by
  have hseq : Attempt (· = s) (m >>= f)
      (fun c s' => ∃ b t, Leads m s b t ∧ Leads (f b) t c s') fun _ => True := by
    refine Attempt.bind Attempt.reached fun b => Attempt.mono Attempt.reached (fun _ h => h) ?_
      fun _ _ => trivial
    rintro c s' ⟨t, ⟨_, rfl, hb⟩, hc⟩
    exact ⟨b, t, hb, hc⟩
  exact hseq.leads h rfl

/-- A value does not depend on how failures are worded. -/
theorem Leads.of_adapt {m : ExceptT ε (Run σ) β} {f : ε → δ} {s s' : σ} {b : β}
    (h : Leads (ExceptT.adapt f m) s b s') : Leads m s b s' := by
  have hvalue : Attempt (· = s) (ExceptT.adapt f m) (fun b s' => ∃ t, t = s ∧ Leads m t b s')
      fun _ => True := Attempt.reached.adapt
  obtain ⟨_, rfl, hm⟩ := hvalue.leads h rfl
  exact hm

/-- A value on the second part of a state is one of the computation there. -/
theorem Returns.of_tryOnSnd {m : ExceptT ε (Run σ) β} {b : β}
    (h : Returns (Run.tryOnSnd m : ExceptT ε (Run (τ × σ)) β) b) : Returns m b := by
  have hsnd : Attains (fun _ => True) (Run.tryOnSnd m : ExceptT ε (Run (τ × σ)) β) (Returns m) :=
    Attempt.tryOnSnd Attains.self
  exact Attains.iff_returns.mp hsnd b h

namespace Gives

variable {m : ExceptT ε (Run σ) β} {P Q : β → Prop} {D E : ε → Prop} {R : γ → Prop}

theorem iff_returns : Gives m Q E ↔ (∀ b, Returns m b → Q b) ∧ ∀ e, Fails m e → E e := by
  constructor
  · intro h
    constructor
    · rintro b ⟨s, journal, hb⟩
      have hm := h s journal True.intro
      rcases hout : Run.start m.run s journal with ⟨⟨r, s'⟩, journal'⟩
      rw [hout] at hb hm
      cases hb
      exact hm.2
    · rintro e ⟨s, journal, he⟩
      have hm := h s journal True.intro
      rcases hout : Run.start m.run s journal with ⟨⟨r, s'⟩, journal'⟩
      rw [hout] at he hm
      cases he
      exact hm.2
  · rintro ⟨hQ, hE⟩ s journal _
    rcases hout : Run.start m.run s journal with ⟨⟨_ | e | b, s'⟩, journal'⟩
    · trivial
    · exact ⟨trivial, hE e ⟨s, journal, by rw [hout]⟩⟩
    · exact ⟨trivial, hQ b ⟨s, journal, by rw [hout]⟩⟩

theorem returned (h : Gives m Q E) {b : β} (hb : Returns m b) : Q b :=
  (iff_returns.mp h).1 b hb

theorem failed (h : Gives m Q E) {e : ε} (he : Fails m e) : E e :=
  (iff_returns.mp h).2 e he

/-- Every computation gives its own values and failures. -/
theorem self : Gives m (Returns m) (Fails m) := iff_returns.mpr ⟨fun _ h => h, fun _ h => h⟩

theorem trivial : Gives m (fun _ => True) fun _ => True :=
  iff_returns.mpr ⟨fun _ _ => True.intro, fun _ _ => True.intro⟩

theorem pure {b : β} (h : Q b) : Gives (Pure.pure b : ExceptT ε (Run σ) β) Q E :=
  Ensures.pure h

theorem throw {e : ε} (h : E e) : Gives (MonadExcept.throw e : ExceptT ε (Run σ) β) Q E :=
  Ensures.pure h

theorem mono (h : Gives m P D) (hQ : ∀ b, P b → Q b) (hE : ∀ e, D e → E e) : Gives m Q E := by
  obtain ⟨hP, hD⟩ := iff_returns.mp h
  exact iff_returns.mpr ⟨fun b hb => hQ b (hP b hb), fun e he => hE e (hD e he)⟩

theorem bind {f : β → ExceptT ε (Run σ) γ} (h : Gives m P E) (hf : ∀ b, P b → Gives (f b) R E) :
    Gives (m >>= f) R E := by
  refine Ensures.bind h ?_
  rintro (e | b) hb
  · exact Ensures.pure hb
  · exact hf b hb

/-- A check fails by a fault only. -/
theorem checked {x : Checked β} (h : ∀ b, x = .ok b → Q b) :
    Gives (liftM x : ExceptT ε (Run σ) β) Q E := by
  cases x with
  | error e => exact fun _ _ _ => True.intro
  | ok b => exact fun _ _ _ => ⟨True.intro, h b rfl⟩

/-- A computation without failures of its own. -/
theorem lift {m : Run σ β} (h : Ensures (fun _ => True) m Q) :
    Gives (liftM m : ExceptT ε (Run σ) β) Q E :=
  Triple.map h

/-- Failures that are worded anew. -/
theorem adapt {f : ε → δ} {E : δ → Prop} (h : Gives m Q fun e => E (f e)) :
    Gives (ExceptT.adapt f m) Q E := by
  refine Triple.map (Triple.post h ?_)
  rintro (e | b) s hs
  · exact hs
  · exact hs

/-- A failure that is caught is a value like any other. -/
theorem caught {E : δ → Prop} (h : Gives m Q D) :
    Gives (Run.caught m : ExceptT δ (Run σ) (Except ε β)) (fun
      | .ok b => Q b
      | .error e => D e) E :=
  Triple.map h

theorem tryOnSnd (h : Gives m Q E) :
    Gives (Run.tryOnSnd m : ExceptT ε (Run (τ × σ)) β) Q E :=
  Triple.onSnd h

/-- A computation without a state. -/
theorem ofChecked {x : ExceptT ε Checked β} (h : Checked.Yields x Q E) :
    Gives (Run.ofChecked x : ExceptT ε (Run σ) β) Q E := by
  unfold Checked.Yields at h
  refine Ensures.checked fun r hr => ?_
  rw [hr] at h
  cases r with
  | error e => exact h
  | ok b => exact h

theorem emit {e : Event} : Gives (Descent.emit e : ExceptT ε (Run σ) Unit) (fun _ => True) E :=
  fun _ _ _ => ⟨True.intro, True.intro⟩

end Gives

namespace Triple

/-- On the first part of a state: the second is left alone, and a result is one of the computation
inside, from the state that it started in. -/
theorem onFst_outcome {K : σ → τ → Prop} {m : ExceptT ε (Run σ) β} :
    Triple (fun t : σ × τ => K t.1 t.2) (Run.onFst (Run.outcome m)) (fun r t =>
      ∃ s, K s t.2 ∧ match r with
        | .ok b => Leads m s b t.1
        | .error e => Breaks m s e t.1) fun t => ∃ s, K s t.2 := by
  rintro ⟨s, t⟩ journal ht
  show EndsIn _ _ ((Run.onFst m.run).start (s, t) journal).1
  rw [start_onFst]
  rcases hm : Run.start m.run s journal with ⟨⟨f | e | b, s'⟩, journal'⟩
  · exact ⟨s, ht⟩
  · exact ⟨s, ht, journal, by rw [hm]⟩
  · exact ⟨s, ht, journal, by rw [hm]⟩

end Triple

end Run

end Descent
