import Descent.Proofs.History
import Descent.Proofs.QuasiNewton

/-!
# The window of a history

Whatever is pushed into a history and whenever it is cleared, its pairs are a window: the last of
those that were pushed with the answer `true` since it was last cleared, as many as it has room for,
oldest first (`History.Window`, `History.perform_window`). Each of them has a finite curvature
safely above zero, and a push with the answer `false` changes nothing.

No law of arithmetic is used but that a test which passes has passed. The statements therefore hold
of the doubles as well, with vectors that have infinities or NaNs among their entries.
-/

set_option autoImplicit false

namespace Descent

open Run

variable {α : Type} [Scalar α]

namespace Correction

omit [Scalar α] in
def pair (p : Correction α) : Vec α × Vec α := (p.s, p.y)

/-- The curvature `c` of the pair is finite and above `ε ‖s‖ ‖y‖`, and `1 / c` stands beside it. -/
def IsSafe (p : Correction α) : Prop :=
  ∃ c, Vec.dot p.s p.y = .ok c ∧ Scalar.epsilon * Vec.norm p.s * Vec.norm p.y < c ∧
    Scalar.isFinite c = true ∧ p.rho = 1 / c

end Correction

namespace History

/-! ## Calls -/

inductive Call (α : Type) where
  | push (s y : Vec α)
  | clear

omit [Scalar α] in
def Call.HasLength (n : Nat) : Call α → Prop
  | push s y => s.length = n ∧ y.length = n
  | clear => True

/-- Makes the calls one after the other and yields the pairs that were pushed with the answer `true`
since the last clearing, after the given ones. -/
def perform : List (Call α) → List (Vec α × Vec α) → Run (History α) (List (Vec α × Vec α))
  | [], pushed => return pushed
  | .push s y :: calls, pushed => do
    let stored ← tryPush s y
    perform calls (if stored then pushed ++ [(s, y)] else pushed)
  | .clear :: calls, _ => do
    modify clear
    perform calls []

/-! ## Windows -/

/-- The history has room for `m` pairs and holds the last of those that were pushed. -/
structure Window (m : Nat) (pushed : List (Vec α × Vec α)) (h : History α) : Prop where
  capacity : h.capacity = m
  pairs : h.pairs.map Correction.pair = recent m pushed
  safe : ∀ p ∈ h.pairs, p.IsSafe

variable {m n : Nat} {pushed : List (Vec α × Vec α)} {h : History α} {s y : Vec α}

/-- With room for a pair there is an empty history. -/
theorem exists_empty (hm : 0 < m) : ∃ h : History α, empty m = .ok h ∧ Window m [] h :=
  ⟨⟨m, []⟩, if_neg hm.ne', rfl, (recent_nil m).symm, nofun⟩

theorem Window.clear (hh : Window m pushed h) : Window m [] h.clear :=
  ⟨hh.capacity, (recent_nil m).symm, nofun⟩

/-- There are as many pairs as were pushed, or as there is room for. -/
theorem Window.length_pairs (hh : Window m pushed h) : h.pairs.length = min m pushed.length := by
  have hlength : (recent m pushed).length = pushed.length - (pushed.length - m) :=
    List.length_drop
  calc h.pairs.length = (h.pairs.map Correction.pair).length := List.length_map _ |>.symm
    _ = pushed.length - (pushed.length - m) := by rw [hh.pairs, hlength]
    _ = min m pushed.length := by omega

/-- The pairs that are admitted are those that are safe once they are stored. -/
theorem isSafe_iff {c : α} (hdot : Vec.dot s y = .ok c) :
    Correction.IsSafe ⟨s, y, 1 / c⟩ ↔ admits s y c = true := by
  rw [admits, Bool.and_eq_true, decide_eq_true_eq]
  constructor
  · rintro ⟨c', hc', habove, hfinite, -⟩
    obtain rfl := Except.ok.inj (hdot.symm.trans hc')
    exact ⟨habove, hfinite⟩
  · rintro ⟨habove, hfinite⟩
    exact ⟨c, hdot, habove, hfinite, rfl⟩

/-- A pair that is admitted becomes the newest of the window. -/
theorem Window.store (hm : 0 < m) (hh : Window m pushed h) {c : α} (hdot : Vec.dot s y = .ok c)
    (hadmits : admits s y c = true) : Window m (pushed ++ [(s, y)]) (h.store s y c) := by
  have hlength : (recent m pushed).length = h.pairs.length := by
    rw [← hh.pairs, List.length_map]
  refine ⟨hh.capacity, ?_, fun p hp => ?_⟩
  · rw [recent_append_singleton hm, hlength, ← hh.pairs]
    unfold History.store
    rw [hh.capacity]
    -- the oldest pair is dropped from both lists, or from neither
    split <;> simp [Correction.pair]
  · rcases List.mem_append.mp hp with hold | hnew
    · refine hh.safe p ?_
      split at hold
      · exact List.mem_of_mem_drop hold
      · exact hold
    · obtain rfl := List.mem_singleton.mp hnew
      exact (isSafe_iff hdot).mpr hadmits

/-! ## Pushes -/

/-- A push keeps the window, whatever it answers. -/
theorem tryPush_window (hm : 0 < m) (hlength : s.length = y.length) :
    Triple (Window m pushed) (tryPush s y)
      (fun stored => Window m (if stored then pushed ++ [(s, y)] else pushed)) fun _ => False := by
  intro h journal hh
  have hdot : Vec.dot s y = .ok (Vec.inner s y) := if_pos hlength
  rw [tryPush_start hdot]
  by_cases hadmits : admits s y (Vec.inner s y) = true
  · rw [hadmits]
    exact hh.store hm hdot hadmits
  · rw [Bool.eq_false_iff.mpr hadmits]
    exact hh

/-- A push answers `true` exactly for a pair that is safe, and with the answer `false` it has
changed nothing. -/
theorem tryPush_answers (hlength : s.length = y.length) (h : History α) (journal : Journal) :
    ∃ stored h', ((tryPush s y).start h journal).1 = (.ok stored, h') ∧
      (stored = true ↔ Correction.IsSafe ⟨s, y, 1 / Vec.inner s y⟩) ∧
      (stored = false → h' = h) := by
  have hdot : Vec.dot s y = .ok (Vec.inner s y) := if_pos hlength
  exact ⟨_, _, tryPush_start hdot h journal, (isSafe_iff hdot).symm,
    fun hrefused => if_neg (Bool.eq_false_iff.mp hrefused)⟩

/-! ## Whole sequences -/

theorem perform_triple (hm : 0 < m) (calls : List (Call α))
    (hcalls : ∀ call ∈ calls, call.HasLength n) (pushed : List (Vec α × Vec α)) :
    Triple (Window m pushed) (perform calls pushed) (Window m) fun _ => False := by
  induction calls generalizing pushed with
  | nil => exact Triple.pure fun _ hh => hh
  | cons call calls ih =>
      have hrest : ∀ call ∈ calls, call.HasLength n :=
        fun call hcall => hcalls call (List.mem_cons_of_mem _ hcall)
      cases call with
      | push s y =>
          obtain ⟨hs, hy⟩ : s.length = n ∧ y.length = n := hcalls _ List.mem_cons_self
          exact Triple.bind (tryPush_window hm (hs.trans hy.symm)) fun stored => ih hrest _
      | clear =>
          have hclear : Triple (Window m pushed) (modify History.clear : Run (History α) Unit)
              (fun _ => Window m []) fun _ => False := fun h _ hh => hh.clear
          exact Triple.bind hclear fun _ => ih hrest []

/-- **The pairs of a history are the window of the last ones pushed.** From an empty history every
sequence of pushes and clearings with vectors of one length ends with a history that holds the last
of the pairs pushed with the answer `true` since the last clearing, oldest first and no more than it
has room for, all of them safely curved. A further push answers `true` exactly for a pair that is
safely curved too, and with the answer `false` it leaves the history as it is, and therefore the
products with it. -/
theorem perform_window (hm : 1 ≤ m) {calls : List (Call α)}
    (hcalls : ∀ call ∈ calls, call.HasLength n) (journal : Journal) :
    ∃ h pushed h', empty m = .ok h ∧ ((perform calls []).start h journal).1 = (.ok pushed, h') ∧
      h'.pairs.map Correction.pair = pushed.drop (pushed.length - m) ∧
      h'.pairs.length = min m pushed.length ∧ (∀ p ∈ h'.pairs, p.IsSafe) ∧
      ∀ s y : Vec α, s.length = n → y.length = n → ∀ journal', ∃ stored h'',
        ((tryPush s y).start h' journal').1 = (.ok stored, h'') ∧
          (stored = true ↔ Correction.IsSafe ⟨s, y, 1 / Vec.inner s y⟩) ∧
          (stored = false → h'' = h' ∧ h''.apply = h'.apply ∧
            h''.applyInverse = h'.applyInverse) := by
  obtain ⟨h, hempty, hwindow⟩ := exists_empty (α := α) hm
  have hends := perform_triple hm calls hcalls [] h journal hwindow
  generalize hout : ((perform calls []).start h journal).1 = out at hends
  rcases out with ⟨_ | pushed, h'⟩
  · exact hends.elim
  · refine ⟨h, pushed, h', hempty, hout, hends.pairs, hends.length_pairs, hends.safe, ?_⟩
    intro s y hs hy journal'
    obtain ⟨stored, h'', heq, hsafe, hrefused⟩ :=
      tryPush_answers (hs.trans hy.symm) h' journal'
    refine ⟨stored, h'', heq, hsafe, fun hstored => ?_⟩
    obtain rfl := hrefused hstored
    exact ⟨rfl, rfl, rfl⟩

/-- Pushes of pairs of doubles, one of them without curvature and one without a number, with a
clearing after the first. -/
def windowCalls : List (Call Float) :=
  [.push [1] [1], .clear, .push [1] [2], .push [Scalar.nan] [1], .push [2] [1], .push [1] [-1],
    .push [3] [1]]

/-- Of the three pairs that are stored after the clearing the first makes room for the last. -/
theorem perform_window_two :
    ∃ h' : History Float, ((perform windowCalls []).start ⟨2, []⟩ #[]).1
        = (.ok [([1], [2]), ([2], [1]), ([3], [1])], h') ∧
      h'.pairs.map Correction.pair = [([2], [1]), ([3], [1])] ∧ ∀ p ∈ h'.pairs, p.IsSafe := by
  have hcalls : ∀ call ∈ windowCalls, call.HasLength 1 := by
    simp [windowCalls, Call.HasLength]
  obtain ⟨h, pushed, h', hempty, heq, hpairs, -, hsafe, -⟩ :=
    perform_window (m := 2) (by decide) hcalls #[]
  obtain rfl : ⟨2, []⟩ = h := Except.ok.inj hempty
  have hpushed : ((perform windowCalls []).start ⟨2, []⟩ #[]).1.1
      = .ok [([1], [2]), ([2], [1]), ([3], [1])] := by decide +kernel
  rw [heq] at hpushed
  cases hpushed
  exact ⟨h', heq, hpairs, hsafe⟩

end History

end Descent
