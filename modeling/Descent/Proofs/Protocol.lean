import Descent.Proofs.Notices
import Descent.Proofs.Record

/-!
# The protocol of a solve

What the observer of a solve is told, whatever the method. A solve that ends with a record has told
the start, the iterations in order and the record (`Method.record_is_told`). A solve that is refused
has not touched the model and has told nothing, with one exception: the methods with a trust region
tell the start before they look at the bounds, and bounds that are not valid end a solve that has
started (`Method.refusal_is_told`).
-/

set_option autoImplicit false

namespace Descent

open Run

variable {α σ ω μ : Type} [Scalar α]

/-- A round is told with its number, and it ends a solve only by a tolerance that is met. -/
theorem Solve.Move.tells {s : Solve α σ ω} {Measures : Iterate α → α → Prop} {number : Nat}
    {p : Progress α μ} {r : Round α μ} (h : s.Move Measures number p r) : r.Tells number := by
  cases h with
  | stayed reported _ _ _ verdict =>
      refine ⟨reported.number, fun status h => ?_⟩
      rw [verdict] at h
      cases h
  | moved reported _ _ verdict =>
      refine ⟨reported.number, fun status h => ?_⟩
      rw [verdict] at h
      rcases stepVerdict_cases h with ⟨rfl, -⟩ | ⟨rfl, -⟩
      · rfl
      · rfl

/-- What has been told when a solve by the method is refused with the error: nothing, or only the
start if the method looks at the bounds and they are not valid. -/
def Method.Refuses (method : Method α) (m : Model α σ) (e : SolverError)
    (told : List (Notice α)) : Prop :=
  (told = [] ∧ ∀ inner, e ≠ .model inner) ∨
    ∃ inner, told = [.started method.name m.name] ∧ e = .model inner ∧ m.box = .error inner ∧
      ∀ c, method ≠ .lbfgs c

namespace Method

/-- A solve that ends with a record has told the start, the iterations and the record. A refused
solve has left the model alone. -/
theorem minimize_told (method : Method α) (m : Model α σ) (x₀ : Vec α) (o : Options α)
    (observer : Observer α ω) (clock : Nat → Duration) (state : σ) :
    Settles (fun u => u.1 = ({}, state) ∧ u.2.2 = [])
      (method.minimize m x₀ o observer.transcribed clock)
      (fun record u => Solve.Told [.started method.name m.name] 0 record u)
      (fun e u => u.1 = ({}, state) ∧ method.Refuses m e u.2.2) fun _ => True := by
  let s : Solve α σ (ω × List (Notice α)) :=
    ⟨method.name, m, o, observer.transcribed, clock⟩
  have hs : s.observer = observer.transcribed := rfl
  have hrounds : ∀ c start, Opens s.unobserved x₀ state method c start →
      Triple (fun u => u.1 = start ∧ u.2.2 = [.started method.name m.name])
        (s.iterate c.round c.first)
        (fun record u => Solve.Told [.started method.name m.name] 0 record u) fun _ => True := by
    intro c start opens
    have hround : ∀ k p, Gives (c.round k p) (fun r => r.Tells k) fun _ => True :=
      fun k p => Gives.mono Gives.self (fun _ h => (opens.move h).tells) fun _ _ => trivial
    exact Triple.pre (Solve.loop_told hs hround _ 0 c.first) fun _ hu => hu.2
  have hstarted : Triple (fun w : ω × List (Notice α) => w.2 = [])
      (ExceptT.lift (s.observer.onStart s.solver s.model.name))
      (fun _ w => w.2 = [.started method.name m.name]) fun _ => False :=
    fun _ _ htold => congrArg (· ++ [Notice.started method.name m.name]) htold
  have hparts : s.Parts (method.StartsAt m x₀) (Opens s.unobserved x₀ state method) state
      (fun w => w.2 = []) (fun w => w.2 = [.started method.name m.name])
      (fun record u => Solve.Told [.started method.name m.name] 0 record u)
      (fun e u => u.1 = ({}, state) ∧ method.Refuses m e u.2.2) fun _ => True :=
    { refused := fun e u named hstate htold => ⟨hstate, .inl ⟨htold, named⟩⟩
      started := hstarted
      fault := fun _ _ => trivial
      atStart := fun x e t _ _ => Triple.pre (Solve.finishAtStart_told hs x e) fun _ hu => hu.2
      rounds := hrounds }
  refine minimize_settles (s := s) method rfl hparts ?_
  intro region inner u box hstate htold
  exact ⟨hstate, .inr ⟨inner, htold, rfl, box, region⟩⟩

/-- What comes of a solve, with the counts and the state of the model that it leaves, and all that
its observer is told: what a transcribed observer leaves. -/
def solveTold (method : Method α) (m : Model α σ) (x₀ : Vec α) (o : Options α)
    (observer : Observer α ω) (clock : Nat → Duration) (state : σ) (w : ω) (journal : Journal) :
    (Except Fault (Except SolverError (Record α)) × (Counts × σ)) × List (Notice α) :=
  let out := Run.start (method.minimize m x₀ o observer clock).run (({}, state), w) journal
  ((out.1.1, out.1.2.1),
    (Run.start (method.minimize m x₀ o observer.transcribed clock).run
      (({}, state), (w, [])) journal).1.2.2.2)

section Told

variable (method : Method α) (m : Model α σ) (x₀ : Vec α) (o : Options α) (observer : Observer α ω)
  (clock : Nat → Duration) (state : σ) (w : ω) (journal : Journal)

/-- The result, the model and the list are those of one run. -/
theorem solveTold_eq :
    let out := Run.start (method.minimize m x₀ o observer.transcribed clock).run
      (({}, state), (w, [])) journal
    solveTold method m x₀ o observer clock state w journal
      = ((out.1.1, out.1.2.1), out.1.2.2.2) := by
  intro out
  have h := method.minimize_heard observer.transcribed_imitates m x₀ o clock
    (({}, state), (w, [])) journal
  have hplain : Run.start (method.minimize m x₀ o observer clock).run (({}, state), w) journal
      = seen (Prod.map id Prod.fst) out := h.symm
  exact congrArg
    (fun plain : End ((Counts × σ) × ω) (Except SolverError (Record α)) =>
      ((plain.1.1, plain.1.2.1), out.1.2.2.2)) hplain

variable {method m x₀ o observer clock state w journal} {left : Counts × σ}
  {told : List (Notice α)}

/-- **A solve that ends with a record has told the start, its iterations in order, and the record.**
All iterations are told but one that failed. Only the answer to the last one can ask to stop, and it
does if and only if the status says so. -/
theorem record_is_told {record : Record α}
    (h : solveTold method m x₀ o observer clock state w journal
      = ((.ok (.ok record), left), told)) :
    ∃ heard, told = .started method.name m.name :: Notice.iterations heard ++ [.finished record] ∧
      heard.map (fun h => h.1.number) = List.range' 1 record.reported ∧
      (∀ h ∈ heard.dropLast, h.2 = true) ∧
      ((∃ h ∈ heard, h.2 = false) ↔ record.status = .userRequested) := by
  have hends := minimize_told method m x₀ o observer clock state (({}, state), (w, [])) journal
    ⟨rfl, rfl⟩
  rw [solveTold_eq] at h
  generalize Run.start _ _ journal = out at h hends
  rcases out with ⟨⟨r, u⟩, journal'⟩
  cases h
  obtain ⟨heard, htold, follows⟩ := hends
  exact ⟨heard, htold, follows.numbers, follows.goOn, follows.stopped_iff⟩

/-- **A refused solve has not touched the model, and it has told nothing unless bounds that are not
valid end a solve with a trust region.** Such a solve has told its start, which no record follows.
After any other start the record follows. -/
theorem refusal_is_told {result : Except SolverError (Record α)}
    (h : solveTold method m x₀ o observer clock state w journal = ((.ok result, left), told)) :
    (∀ e, result = .error e → left = ({}, state) ∧ method.Refuses m e told) ∧
      ∀ record, result = .ok record → ∃ heard, told =
        .started method.name m.name :: Notice.iterations heard ++ [.finished record] := by
  have hends := minimize_told method m x₀ o observer clock state (({}, state), (w, [])) journal
    ⟨rfl, rfl⟩
  rw [solveTold_eq] at h
  generalize Run.start _ _ journal = out at h hends
  rcases out with ⟨⟨r, u⟩, journal'⟩
  cases h
  constructor
  · rintro e rfl
    exact hends
  · rintro record rfl
    obtain ⟨heard, htold, -⟩ := hends
    exact ⟨heard, htold⟩

end Told

/-! ## The square -/

/-- The square's solve by BFGS steps from 3 tells its start, its iterations and its record. -/
theorem record_is_told_square :
    ∃ record left told, solveTold (.lbfgs {}) square [3] {}
        (Observer.silent : Observer Float Unit) (fun _ => .zero) () () #[]
          = ((.ok (.ok record), left), told) ∧
      record.status = .gradientTolerance ∧
      ∃ heard, told = .started "L-BFGS" "model" :: Notice.iterations heard ++ [.finished record] ∧
        heard.map (fun h => h.1.number) = List.range' 1 record.reported ∧
        (∀ h ∈ heard.dropLast, h.2 = true) ∧
        ((∃ h ∈ heard, h.2 = false) ↔ record.status = .userRequested) := by
  have hends : (match (solveTold (.lbfgs {}) square [3] {}
      (Observer.silent : Observer Float Unit) (fun _ => .zero) () () #[]).1.1 with
    | .ok (.ok record) => decide (record.status = .gradientTolerance)
    | _ => false) = true := by decide +kernel
  generalize hrun : solveTold (.lbfgs {}) square [3] {}
    (Observer.silent : Observer Float Unit) (fun _ => .zero) () () #[] = result at hends
  rcases result with ⟨⟨_ | _ | record, left⟩, told⟩
  · cases hends
  · cases hends
  · exact ⟨record, left, told, rfl, of_decide_eq_true hends, record_is_told hrun⟩

/-- The square with a lower bound above the upper one. -/
def crossed : Model Float Unit := { square with sides := ([2], [1]) }

/-- The crossed bounds refuse a solve by projected Newton steps that has told its start. -/
theorem refusal_is_told_crossed :
    ∃ e left told, solveTold (.projectedNewton {}) crossed [3] {}
        (Observer.silent : Observer Float Unit) (fun _ => .zero) () () #[]
          = ((.ok (.error e), left), told) ∧
      left = ({}, ()) ∧ (Method.projectedNewton {}).Refuses crossed e told := by
  have hends : (match (solveTold (.projectedNewton {}) crossed [3] {}
      (Observer.silent : Observer Float Unit) (fun _ => .zero) () () #[]).1.1 with
    | .ok (.error _) => true
    | _ => false) = true := by decide +kernel
  generalize hrun : solveTold (.projectedNewton {}) crossed [3] {}
    (Observer.silent : Observer Float Unit) (fun _ => .zero) () () #[] = result at hends
  rcases result with ⟨⟨_ | e | _, left⟩, told⟩
  · cases hends
  · exact ⟨e, left, told, rfl, (refusal_is_told hrun).1 e rfl⟩
  · cases hends

/-- A refused solve can have told its start: bounds that cross are looked at too late. -/
theorem crossed_bounds_start :
    ¬ ∀ e left told, solveTold (.projectedNewton {}) crossed [3] {}
        (Observer.silent : Observer Float Unit) (fun _ => .zero) () () #[]
          = ((.ok (.error e), left), told) → told = [] := by
  have hends : (match solveTold (.projectedNewton {}) crossed [3] {}
      (Observer.silent : Observer Float Unit) (fun _ => .zero) () () #[] with
    | ((.ok (.error _), _), told) => !told.isEmpty
    | _ => false) = true := by decide +kernel
  intro hclaim
  generalize hrun : solveTold (.projectedNewton {}) crossed [3] {}
    (Observer.silent : Observer Float Unit) (fun _ => .zero) () () #[] = result at hends hclaim
  rcases result with ⟨⟨_ | e | _, left⟩, told⟩
  · cases hends
  · rw [hclaim e left told rfl] at hends
    cases hends
  · cases hends

end Method

end Descent
