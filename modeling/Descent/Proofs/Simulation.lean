import Descent.Proofs.Outcome

/-!
# Two runs side by side

Rules for comparing two computations step by step. `Run.Compares J V m' m Q`: from states that `V`
relates and journals that match as `J` says, the ends of `m'` and `m` are related by `Q`. Most steps
of two runs do the same: `Run.Relates J V m' m` says that both end with the same value or the same
fault, in states and with journals that are related again, and `Run.Agrees` says so of computations
with failures of their own.

Journals are the same where one run stands for another. They may be any two where nothing that is
done depends on what has been reported.

One state may be seen as another through a `view`, which forgets a part of it, such as a record
kept for whoever reads it, or adds a part that is fixed. `Run.Simulates view m' m`: seen so, `m'`
does what `m` does, from the result to the events in the journal. `Run.Imitates` is the same for
computations with failures.
-/

set_option autoImplicit false

namespace Descent.Run

variable {σ τ ω ω' β γ ε δ : Type}

/-- The end of a computation: its value or a fault, the state and the journal that it leaves. -/
abbrev End (σ β : Type) := (Except Fault β × σ) × Journal

def End.map (f : β → γ) (out : End σ β) : End σ γ := ((out.1.1.map f, out.1.2), out.2)

theorem start_map (f : β → γ) (m : Run σ β) (s : σ) (journal : Journal) :
    (f <$> m).start s journal = End.map f (m.start s journal) := by
  rw [map_eq_pure_bind, start_bind]
  unfold End.map
  generalize m.start s journal = out
  rcases out with ⟨⟨e | b, s'⟩, journal'⟩
  · rfl
  · rfl

/-- What runs on the first part of a state may be mapped before or after. -/
theorem onFst_map (f : β → γ) (m : Run σ β) :
    (Run.onFst (f <$> m) : Run (σ × ω) γ) = f <$> Run.onFst m := by
  apply ExceptT.ext
  funext ⟨s, w⟩ journal
  show (Run.onFst (f <$> m)).start (s, w) journal = (f <$> Run.onFst m).start (s, w) journal
  rw [start_onFst, start_map, start_map, start_onFst]
  rfl

/-! ## Related journals and states -/

/-- What is asked of two journals; events that both runs emit do not break it. -/
structure Journals where
  Match : Journal → Journal → Prop
  push : ∀ {j' j : Journal} (e : Event), Match j' j → Match (j'.push e) (j.push e)

def Journals.same : Journals where
  Match := Eq
  push e h := congrArg (Array.push · e) h

def Journals.any : Journals where
  Match _ _ := True
  push _ _ := trivial

/-- The first parts of two states are related, and so are the second parts. -/
def Both (V : τ → σ → Prop) (W : ω' → ω → Prop) (t : τ × ω') (s : σ × ω) : Prop :=
  V t.1 s.1 ∧ W t.2 s.2

/-- The one state is seen as the other. -/
def Sees (view : τ → σ) (t : τ) (s : σ) : Prop := view t = s

theorem both_sees {view : τ → σ} {look : ω' → ω} :
    Both (Sees view) (Sees look) = Sees (Prod.map view look) := by
  funext t s
  exact propext ⟨fun h => Prod.ext h.1 h.2, fun h => ⟨congrArg Prod.fst h, congrArg Prod.snd h⟩⟩

/-- The states of two solves that are seen part by part. -/
theorem whole_sees {ρ : Type} {view : τ → σ} {look : ω' → ω} :
    Both (Both (Eq : ρ → ρ → Prop) (Sees view)) (Sees look)
      = Sees (Prod.map (Prod.map id view) look) := by
  rw [← both_sees, ← both_sees]
  rfl

/-! ## Comparing -/

/-- Two ends with the same value or the same fault, in related states and with matching
journals. -/
structure Meets (J : Journals) (V : τ → σ → Prop) (out' : End τ β) (out : End σ β) : Prop where
  result : out'.1.1 = out.1.1
  states : V out'.1.2 out.1.2
  journals : J.Match out'.2 out.2

theorem Meets.map {J : Journals} {V : τ → σ → Prop} {out' : End τ β} {out : End σ β}
    (h : Meets J V out' out) (f : β → γ) : Meets J V (End.map f out') (End.map f out) :=
  ⟨congrArg (Except.map f) h.result, h.states, h.journals⟩

/-- From related states and with matching journals, the two computations end as `Q` says. -/
def Compares (J : Journals) (V : τ → σ → Prop) (m' : Run τ β) (m : Run σ γ)
    (Q : End τ β → End σ γ → Prop) : Prop :=
  ∀ t s j' j, V t s → J.Match j' j → Q (m'.start t j') (m.start s j)

/-- From related states and with matching journals, the two computations do the same. -/
def Relates (J : Journals) (V : τ → σ → Prop) (m' : Run τ β) (m : Run σ β) : Prop :=
  Compares J V m' m (Meets J V)

/-- The same for computations with failures. -/
def Agrees (J : Journals) (V : τ → σ → Prop) (m' : ExceptT ε (Run τ) β) (m : ExceptT ε (Run σ) β) :
    Prop :=
  Relates J V m'.run m.run

variable {J : Journals} {V V' : τ → σ → Prop} {W : ω' → ω → Prop}

namespace Compares

variable {m' : Run τ β} {m : Run σ γ} {Q Q' : End τ β → End σ γ → Prop}

theorem mono (h : Compares J V m' m Q) (hV : ∀ t s, V' t s → V t s)
    (hQ : ∀ out' out, Q out' out → Q' out' out) : Compares J V' m' m Q' := by
  intro t s j' j hts hj
  exact hQ _ _ (h t s j' j (hV t s hts) hj)

/-- After a step that both runs make alike. A fault in it ends both. -/
theorem bind {δ' : Type} {n' : Run τ δ'} {n : Run σ δ'} {f' : δ' → Run τ β} {f : δ' → Run σ γ}
    (h : Relates J V n' n) (hf : ∀ b, Compares J V (f' b) (f b) Q)
    (hfault : ∀ e t s j' j, V t s → J.Match j' j → Q ((.error e, t), j') ((.error e, s), j)) :
    Compares J V (n' >>= f') (n >>= f) Q := by
  intro t s j' j hts hj
  have hn := h t s j' j hts hj
  rw [start_bind, start_bind]
  generalize n'.start t j' = out' at hn ⊢
  generalize n.start s j = out at hn ⊢
  rcases out' with ⟨⟨r', t'⟩, j₁'⟩
  rcases out with ⟨⟨r, s'⟩, j₁⟩
  obtain ⟨hresult, hstates, hjournals⟩ := hn
  cases hresult
  cases r' with
  | error e => exact hfault e _ _ _ _ hstates hjournals
  | ok b => exact hf b _ _ _ _ hstates hjournals

/-- What follows may depend on the states, which are related. -/
theorem get_bind {f' : τ → Run τ β} {f : σ → Run σ γ}
    (hf : ∀ t s, V t s → Compares J V (f' t) (f s) Q) :
    Compares J V (MonadState.get >>= f') (MonadState.get >>= f) Q :=
  fun t s j' j hts hj => hf t s hts t s j' j hts hj

theorem map {β' γ' : Type} {f : β → β'} {g : γ → γ'} {R : End τ β' → End σ γ' → Prop}
    (h : Compares J V m' m fun out' out => R (End.map f out') (End.map g out)) :
    Compares J V (f <$> m') (g <$> m) R := by
  intro t s j' j hts hj
  rw [start_map, start_map]
  exact h t s j' j hts hj

theorem ite {p : Prop} [Decidable p] {n' : Run τ β} {n : Run σ γ} (h : p → Compares J V m' m Q)
    (hn : ¬ p → Compares J V n' n Q) :
    Compares J V (if p then m' else n') (if p then m else n) Q := by
  by_cases hp : p
  · rw [if_pos hp, if_pos hp]
    exact h hp
  · rw [if_neg hp, if_neg hp]
    exact hn hp

end Compares

/-! ## Computations without failures of their own -/

namespace Relates

variable {m' : Run τ β} {m : Run σ β}

theorem pure {b : β} : Relates J V (Pure.pure b) (Pure.pure b) :=
  fun _ _ _ _ hts hj => ⟨rfl, hts, hj⟩

theorem bind {f' : β → Run τ γ} {f : β → Run σ γ} (h : Relates J V m' m)
    (hf : ∀ b, Relates J V (f' b) (f b)) : Relates J V (m' >>= f') (m >>= f) :=
  Compares.bind h hf fun _ _ _ _ _ hts hj => ⟨rfl, hts, hj⟩

theorem map {f : β → γ} (h : Relates J V m' m) : Relates J V (f <$> m') (f <$> m) := by
  rw [map_eq_pure_bind, map_eq_pure_bind]
  exact bind h fun _ => pure

theorem ite {p : Prop} [Decidable p] {n' : Run τ β} {n : Run σ β} (h : p → Relates J V m' m)
    (hn : ¬ p → Relates J V n' n) : Relates J V (if p then m' else n') (if p then m else n) :=
  Compares.ite h hn

theorem checked {x : Checked β} : Relates J V (liftM x) (liftM x) := by
  intro t s j' j hts hj
  cases x with
  | error e => exact ⟨rfl, hts, hj⟩
  | ok b => exact ⟨rfl, hts, hj⟩

theorem emit {e : Event} : Relates J V (Descent.emit e) (Descent.emit e) :=
  fun _ _ _ _ hts hj => ⟨rfl, hts, J.push e hj⟩

/-- Where journals may be any two, so may events. -/
theorem emit_any {e' e : Event} : Relates .any V (Descent.emit e') (Descent.emit e) :=
  fun _ _ _ _ hts _ => ⟨rfl, hts, trivial⟩

theorem onFst (h : Relates J V m' m) : Relates J (Both V W) (Run.onFst m') (Run.onFst m) := by
  rintro ⟨t, w'⟩ ⟨s, w⟩ j' j ⟨hts, hw⟩ hj
  have hm := h t s j' j hts hj
  rw [start_onFst, start_onFst]
  exact ⟨hm.result, ⟨hm.states, hw⟩, hm.journals⟩

theorem onSnd (h : Relates J V m' m) : Relates J (Both W V) (Run.onSnd m') (Run.onSnd m) := by
  rintro ⟨w', t⟩ ⟨w, s⟩ j' j ⟨hw, hts⟩ hj
  have hm := h t s j' j hts hj
  rw [start_onSnd, start_onSnd]
  exact ⟨hm.result, ⟨hw, hm.states⟩, hm.journals⟩

/-- A computation with a state of its own starts from the same one in both runs. -/
theorem inside {n : Run ω β} (h : Relates J Eq n n) (w : ω) :
    Relates J V (Run.inside n w) (Run.inside n w) := by
  intro t s j' j hts hj
  have hn := h w w j' j rfl hj
  -- what is handed back is made of the value and of the state that are left
  have hresult : (n.start w j').1 = (n.start w j).1 := Prod.ext hn.result hn.states
  exact ⟨congrArg (fun out : Except Fault β × ω => out.1.map fun b => (b, out.2)) hresult, hts,
    hn.journals⟩

end Relates

/-! ## Computations with failures -/

/-- The failures of a sequence are worded as those of its parts are. -/
theorem adapt_bind (f : ε → δ) (m : ExceptT ε (Run σ) β) (k : β → ExceptT ε (Run σ) γ) :
    ExceptT.adapt f (m >>= k) = ExceptT.adapt f m >>= fun b => ExceptT.adapt f (k b) := by
  apply ExceptT.ext
  show Except.mapError f <$> (m.run >>= ExceptT.bindCont k)
    = (Except.mapError f <$> m.run) >>= ExceptT.bindCont fun b => ExceptT.adapt f (k b)
  rw [map_bind, bind_map_left]
  refine bind_congr fun r => ?_
  cases r with
  | error e => exact map_pure (Except.mapError f) (Except.error e)
  | ok b => rfl

/-- Of a value only the value is left. -/
theorem adapt_pure (f : ε → δ) (b : β) :
    ExceptT.adapt f (pure b : ExceptT ε (Run σ) β) = pure b := rfl

/-- After a step that both runs make alike. A fault or a failure in it ends both. -/
theorem Compares.after {m' : ExceptT ε (Run τ) β} {m : ExceptT ε (Run σ) β}
    {f' : β → ExceptT ε (Run τ) γ} {f : β → ExceptT ε (Run σ) γ}
    {Q : End τ (Except ε γ) → End σ (Except ε γ) → Prop} (h : Agrees J V m' m)
    (hf : ∀ b, Compares J V (f' b).run (f b).run Q)
    (hend : ∀ (r : Except Fault (Except ε γ)) t s j' j, (∀ c, r ≠ .ok (.ok c)) → V t s →
      J.Match j' j → Q ((r, t), j') ((r, s), j)) :
    Compares J V (m' >>= f').run (m >>= f).run Q := by
  refine Compares.bind h ?_ fun e t s j' j hts hj => hend _ _ _ _ _ (by rintro c ⟨⟩) hts hj
  rintro (e | b)
  · intro t s j' j hts hj
    exact hend (.ok (.error e)) _ _ _ _ (by rintro c ⟨⟩) hts hj
  · exact hf b

/-- A failure of both runs ends them, whatever would follow. -/
theorem Compares.throw_bind {e : ε} {f' : β → ExceptT ε (Run τ) γ} {f : β → ExceptT ε (Run σ) γ}
    {Q : End τ (Except ε γ) → End σ (Except ε γ) → Prop}
    (hend : ∀ t s j' j, V t s → J.Match j' j →
      Q ((.ok (.error e), t), j') ((.ok (.error e), s), j)) :
    Compares J V ((MonadExcept.throw e : ExceptT ε (Run τ) β) >>= f').run
      ((MonadExcept.throw e : ExceptT ε (Run σ) β) >>= f).run Q :=
  hend

namespace Agrees

variable {m' : ExceptT ε (Run τ) β} {m : ExceptT ε (Run σ) β}

theorem pure {b : β} : Agrees (ε := ε) J V (Pure.pure b) (Pure.pure b) := Relates.pure

theorem throw {e : ε} :
    Agrees J V (MonadExcept.throw e : ExceptT ε (Run τ) β)
      (MonadExcept.throw e : ExceptT ε (Run σ) β) := Relates.pure

theorem bind {f' : β → ExceptT ε (Run τ) γ} {f : β → ExceptT ε (Run σ) γ} (h : Agrees J V m' m)
    (hf : ∀ b, Agrees J V (f' b) (f b)) : Agrees J V (m' >>= f') (m >>= f) :=
  Compares.after h hf fun _ _ _ _ _ _ hts hj => ⟨rfl, hts, hj⟩

/-- What would follow a failure is of no account. -/
theorem throw_bind {e : ε} {f' : β → ExceptT ε (Run τ) γ} {f : β → ExceptT ε (Run σ) γ} :
    Agrees J V ((MonadExcept.throw e : ExceptT ε (Run τ) β) >>= f')
      ((MonadExcept.throw e : ExceptT ε (Run σ) β) >>= f) := Relates.pure

theorem ite {p : Prop} [Decidable p] {n' : ExceptT ε (Run τ) β} {n : ExceptT ε (Run σ) β}
    (h : p → Agrees J V m' m) (hn : ¬ p → Agrees J V n' n) :
    Agrees J V (if p then m' else n') (if p then m else n) := by
  by_cases hp : p
  · rw [if_pos hp, if_pos hp]
    exact h hp
  · rw [if_neg hp, if_neg hp]
    exact hn hp

theorem lift {m' : Run τ β} {m : Run σ β} (h : Relates J V m' m) :
    Agrees (ε := ε) J V (liftM m') (liftM m) := Relates.map h

theorem checked {x : Checked β} : Agrees (ε := ε) J V (liftM x) (liftM x) := by
  intro t s j' j hts hj
  cases x with
  | error e => exact ⟨rfl, hts, hj⟩
  | ok b => exact ⟨rfl, hts, hj⟩

/-- A result that is at hand. -/
theorem ofExcept {x : Except ε β} : Agrees (ε := ε) J V (liftM x) (liftM x) := by
  intro t s j' j hts hj
  cases x with
  | error e => exact ⟨rfl, hts, hj⟩
  | ok b => exact ⟨rfl, hts, hj⟩

theorem emit {e : Event} : Agrees (ε := ε) J V (Descent.emit e) (Descent.emit e) :=
  fun _ _ _ _ hts hj => ⟨rfl, hts, J.push e hj⟩

theorem adapt {f : ε → δ} (h : Agrees J V m' m) :
    Agrees J V (ExceptT.adapt f m') (ExceptT.adapt f m) := Relates.map h

theorem caught (h : Agrees J V m' m) :
    Agrees (ε := δ) J V (Run.caught m') (Run.caught m) := Relates.map h

theorem tryOnSnd (h : Agrees J V m' m) :
    Agrees J (Both W V) (Run.tryOnSnd m') (Run.tryOnSnd m) :=
  Relates.onSnd h

/-- What follows may depend on the states, which are related. -/
theorem get_bind {f' : τ → ExceptT ε (Run τ) β} {f : σ → ExceptT ε (Run σ) β}
    (hf : ∀ t s, V t s → Agrees J V (f' t) (f s)) :
    Agrees J V (MonadState.get >>= f') (MonadState.get >>= f) :=
  fun t s j' j hts hj => hf t s hts t s j' j hts hj

/-- A fault that both runs stop at. -/
theorem fault {f : Fault} :
    Agrees (ε := ε) J V (throwThe Fault f : ExceptT ε (Run τ) β) (throwThe Fault f) :=
  fun _ _ _ _ hts hj => ⟨rfl, hts, hj⟩

/-- One element after the other. -/
theorem mapM {χ : Type} {f' : χ → ExceptT ε (Run τ) β} {f : χ → ExceptT ε (Run σ) β}
    (h : ∀ a, Agrees J V (f' a) (f a)) (l : List χ) : Agrees J V (l.mapM f') (l.mapM f) := by
  induction l with
  | nil =>
      rw [List.mapM_nil, List.mapM_nil]
      exact pure
  | cons a l ih =>
      rw [List.mapM_cons, List.mapM_cons]
      exact bind (h a) fun _ => bind ih fun _ => pure

/-- A computation without a state. -/
theorem ofChecked {x : ExceptT ε Checked β} : Agrees J V (Run.ofChecked x) (Run.ofChecked x) :=
  Relates.checked

end Agrees

/-! ## Views -/

/-- The end of a computation, seen through the view. -/
def seen (view : τ → σ) (out : (Except Fault β × τ) × Journal) :
    (Except Fault β × σ) × Journal :=
  ((out.1.1, view out.1.2), out.2)

/-- Seen through the view, `m'` does what `m` does. -/
def Simulates (view : τ → σ) (m' : Run τ β) (m : Run σ β) : Prop :=
  ∀ t journal, seen view (m'.start t journal) = m.start (view t) journal

/-- The same for computations with failures. -/
def Imitates (view : τ → σ) (m' : ExceptT ε (Run τ) β) (m : ExceptT ε (Run σ) β) : Prop :=
  Simulates view m'.run m.run

/-- A simulation is a comparison of states that are seen as the other, with equal journals. -/
theorem simulates_iff {view : τ → σ} {m' : Run τ β} {m : Run σ β} :
    Simulates view m' m ↔ Relates .same (Sees view) m' m := by
  constructor
  · intro h t s j' j hts hj
    cases hts
    cases hj
    have hm : seen view (m'.start t j') = m.start (view t) j' := h t j'
    have hstate : view (m'.start t j').1.2 = (m.start (view t) j').1.2 :=
      congrArg (fun out : End σ β => out.1.2) hm
    have hjournal : (m'.start t j').2 = (m.start (view t) j').2 :=
      congrArg (fun out : End σ β => out.2) hm
    exact ⟨congrArg (fun out : End σ β => out.1.1) hm, hstate, hjournal⟩
  · intro h t j
    have hm := h t (view t) j j rfl rfl
    exact Prod.ext (Prod.ext hm.result hm.states) hm.journals

theorem imitates_iff {view : τ → σ} {m' : ExceptT ε (Run τ) β} {m : ExceptT ε (Run σ) β} :
    Imitates view m' m ↔ Agrees .same (Sees view) m' m := simulates_iff

/-! ## Invariants -/

/-- The states are equal and have the invariant. -/
def Kept (I : σ → Prop) (t s : σ) : Prop := t = s ∧ I s

/-- The invariant of the second part of a state. -/
theorem both_kept {ρ : Type} {I : σ → Prop} :
    Both (Eq : ρ → ρ → Prop) (Kept I) = Kept fun t => I t.2 := by
  funext t s
  exact propext ⟨fun h => ⟨Prod.ext h.1 h.2.1, h.2.2⟩,
    fun h => ⟨congrArg Prod.fst h.1, congrArg Prod.snd h.1, h.2⟩⟩

/-- The invariant of the first part of a state. -/
theorem kept_both {ρ : Type} {I : σ → Prop} :
    Both (Kept I) (Eq : ρ → ρ → Prop) = Kept fun t => I t.1 := by
  funext t s
  exact propext ⟨fun h => ⟨Prod.ext h.1.1 h.2, h.1.2⟩,
    fun h => ⟨⟨congrArg Prod.fst h.1, h.2⟩, congrArg Prod.snd h.1⟩⟩

/-- A computation that is compared with itself keeps what its states have in common. -/
theorem relates_kept {I : σ → Prop} {m : Run σ β} :
    Relates .same (Kept I) m m ↔ Triple I m (fun _ => I) I := by
  constructor
  · intro h s j hs
    have hm := h s s j j ⟨rfl, hs⟩ rfl
    have hleft := hm.states.2
    generalize m.start s j = out at hleft ⊢
    rcases out with ⟨⟨e | b, s'⟩, j'⟩
    · exact hleft
    · exact hleft
  · intro h t s j' j hts hj
    obtain ⟨rfl, hs⟩ := hts
    cases hj
    have hm := h t j' hs
    have hleft : I (m.start t j').1.2 := by
      generalize m.start t j' = out at hm ⊢
      rcases out with ⟨⟨e | b, s'⟩, j'⟩
      · exact hm
      · exact hm
    exact ⟨rfl, ⟨rfl, hleft⟩, rfl⟩

/-- The same for computations with failures. -/
theorem agrees_kept {I : σ → Prop} {m : ExceptT ε (Run σ) β} :
    Agrees .same (Kept I) m m ↔ Attempt I m (fun _ => I) I := by
  unfold Agrees
  rw [relates_kept]
  constructor
  · refine fun h => Triple.post h ?_
    rintro (e | b) s hs
    · exact hs
    · exact hs
  · refine fun h => Triple.post h ?_
    rintro (e | b) s hs
    · exact hs
    · exact hs

/-- What does the same whatever is kept beside a part of the state does not touch it. -/
theorem Attains.beside {ρ χ : Type} {m : ExceptT ε (Run (ρ × σ)) β}
    {m' : ExceptT ε (Run (ρ × (σ × χ))) β} {K : χ → Prop} {Q : β → Prop}
    (h : ∀ x, Agrees .same (Both Eq (Sees fun s => (s, x))) m m')
    (hQ : Attains (fun _ => True) m' Q) : Attains (fun t => K t.2.2) m' Q := by
  rintro ⟨r, s, x⟩ journal hK
  have hends := h x (r, s) (r, s, x) journal journal ⟨rfl, rfl⟩ rfl
  have hkept : x = (m'.run.start (r, s, x) journal).1.2.2.2 := congrArg Prod.snd hends.states.2
  have hleft : K (m'.run.start (r, s, x) journal).1.2.2.2 := hkept ▸ hK
  have hvalue := hQ (r, s, x) journal True.intro
  show EndsIn _ _ (m'.run.start (r, s, x) journal).1
  generalize m'.run.start (r, s, x) journal = out at hleft hvalue ⊢
  rcases out with ⟨⟨_ | _ | b, t⟩, journal'⟩
  · exact hleft
  · exact hleft
  · exact ⟨hleft, hvalue.2⟩

end Descent.Run
