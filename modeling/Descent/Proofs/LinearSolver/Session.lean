import Mathlib.Data.List.Induction
import Descent.Proofs.Safe.Sizes

/-!
# Linear solvers over time

A session sees matrices and right-hand sides in any order (`Call`). What a solution answers depends
on one matrix of the past: the last square one (`Session.solve_after`). A matrix that is not square
is refused without a trace, so that the answer is the one due after the matrix that came last, of
whatever shape, unless a refused matrix follows one that was factorized.

The backends solve for every right-hand side of the size of the matrix. One of another length is
refused by the Cholesky backend and a fault in the other (`Backend.solve_lengths`).
-/

set_option autoImplicit false

namespace Descent

open LinearSolver

/-! ## Right-hand sides -/

namespace Backend

variable {α : Type} [Scalar α]

def size : (backend : Backend) → (backend.solver : LinearSolver α).Factor → Nat
  | .cholesky => fun f => f.rows.length
  | .lu => fun f => f.rows.length

def mismatch (expected actual : Nat) : Backend → ExceptT SolverError Checked (Vec α)
  | .cholesky => throw (.ofLengths expected actual)
  | .lu => throwThe Fault (.lengthMismatch expected actual)

variable {backend : Backend} {a : Matrix α} {f : (backend.solver : LinearSolver α).Factor}
  {b : Vec α}

theorem size_of_factor (h : backend.solver.factor a = .ok f) : backend.size f = a.nrows := by
  cases backend with
  | cholesky => exact rows_of_cholesky h
  | lu => exact rows_of_lu h

/-- There is a solution of the size of the matrix for every right-hand side of that size. -/
theorem exists_solution (h : b.length = backend.size f) :
    ∃ x, x.length = backend.size f ∧ backend.solver.solveWith f b = pure x := by
  cases backend with
  | cholesky => exact ⟨_, Cholesky.length_solve f h, if_pos h⟩
  | lu => exact ⟨_, Lu.length_solve f b, if_pos h⟩

theorem solveWith_of_ne (h : b.length ≠ backend.size f) :
    backend.solver.solveWith f b = backend.mismatch (backend.size f) b.length := by
  cases backend with
  | cholesky => exact if_neg h
  | lu => exact if_neg h

omit [Scalar α] in
theorem mismatch_eq_fault {expected actual : Nat} {fault : Fault} :
    backend.mismatch expected actual
        = (throwThe Fault fault : ExceptT SolverError Checked (Vec α)) ↔
      backend = .lu ∧ fault = .lengthMismatch expected actual := by
  cases backend with
  | cholesky => exact ⟨nofun, fun h => nomatch h.1⟩
  | lu => exact ⟨fun h => ⟨rfl, (Except.error.inj h).symm⟩, fun h => congrArg Except.error h.2.symm⟩

end Backend

namespace LinearSolver

/-! ## Calls -/

variable {α : Type}

inductive Call (α : Type) where
  | factorize (a : Matrix α)
  | solve (b : Vec α)

def Call.matrix? : Call α → Option (Matrix α)
  | .factorize a => some a
  | .solve _ => none

/-- The matrices that were to be factorized, in order. -/
def matrices (calls : List (Call α)) : List (Matrix α) := calls.filterMap Call.matrix?

/-- The matrix of the most recent factorization, whatever came of it. -/
def last? (calls : List (Call α)) : Option (Matrix α) := (matrices calls).getLast?

def lastSquare? (calls : List (Call α)) : Option (Matrix α) :=
  ((matrices calls).filter Matrix.isSquare).getLast?

section Last

variable (calls : List (Call α)) {a : Matrix α}

theorem matrices_append_factorize (a : Matrix α) :
    matrices (calls ++ [.factorize a]) = matrices calls ++ [a] :=
  List.filterMap_append

theorem matrices_append_solve (b : Vec α) : matrices (calls ++ [.solve b]) = matrices calls :=
  List.filterMap_append.trans (List.append_nil _)

theorem lastSquare?_append_square (h : a.isSquare = true) :
    lastSquare? (calls ++ [.factorize a]) = some a := by
  simp [lastSquare?, matrices_append_factorize, h]

theorem lastSquare?_append_not_square (h : a.isSquare = false) :
    lastSquare? (calls ++ [.factorize a]) = lastSquare? calls := by
  simp [lastSquare?, matrices_append_factorize, h]

theorem lastSquare?_append_solve (b : Vec α) :
    lastSquare? (calls ++ [.solve b]) = lastSquare? calls := by
  rw [lastSquare?, matrices_append_solve, lastSquare?]

theorem isSquare_of_lastSquare? {calls : List (Call α)} (h : lastSquare? calls = some a) :
    a.isSquare = true :=
  (List.mem_filter.mp (List.mem_of_getLast? h)).2

/-- The most recent matrix is the most recent square one, or it is not square. -/
theorem last?_cases :
    last? calls = lastSquare? calls ∨ ∃ a, last? calls = some a ∧ a.isSquare = false := by
  unfold last? lastSquare?
  generalize matrices calls = l
  induction l using List.reverseRecOn with
  | nil => exact .inl rfl
  | append_singleton l a ih =>
      cases ha : a.isSquare with
      | true => exact .inl (by simp [ha])
      | false => exact .inr ⟨a, by simp, ha⟩

end Last

namespace Session

variable {s : LinearSolver α}

def fresh (s : LinearSolver α) : Session s := none

/-- The session after a call. Solutions leave it alone. -/
def after (session : Session s) : Call α → Session s
  | .factorize a => (session.factorize a).2
  | .solve _ => session

def run (s : LinearSolver α) (calls : List (Call α)) : Session s := calls.foldl after (fresh s)

def unfactorized : ExceptT SolverError Checked (Vec α) :=
  throw (.singularSystem "solve called before factorize")

/-- The answer that is due to one matrix: the solution of the system with it if it could be
factorized. -/
def dueTo (s : LinearSolver α) (a : Matrix α) (b : Vec α) : ExceptT SolverError Checked (Vec α) :=
  match ((fresh s).factorize a).1 with
  | .ok () => s.solveOnce a b
  | .error _ => unfactorized

/-- The answer that is due to a matrix or to the lack of one. -/
def due (s : LinearSolver α) (a? : Option (Matrix α)) (b : Vec α) :
    ExceptT SolverError Checked (Vec α) :=
  a?.elim unfactorized fun a => dueTo s a b

/-! ## One factorization -/

variable {a : Matrix α}

theorem factorize_of_square (session : Session s) (h : a.isSquare = true) :
    session.factorize a = ((s.factor a).map fun _ => (), (s.factor a).toOption) := by
  have hsquare : checkSquare a = .ok () := if_pos h
  unfold factorize
  rw [hsquare]
  cases s.factor a with
  | error e => rfl
  | ok f => rfl

/-- A matrix that is not square is refused, and the session stays as it is. -/
theorem factorize_of_not_square (session : Session s) (h : a.isSquare = false) :
    session.factorize a
      = (.error (.dimensionMismatch "square matrix" s!"{a.nrows}x{a.ncols}"), session) := by
  have hsquare : checkSquare a
      = .error (.dimensionMismatch "square matrix" s!"{a.nrows}x{a.ncols}") :=
    if_neg (by simp [h])
  unfold factorize
  rw [hsquare]

/-- A factorization that ends well is one of a square matrix, and leaves its factor behind. -/
theorem factorize_ok {session : Session s} (h : (session.factorize a).1 = .ok ()) :
    a.isSquare = true ∧ ∃ f, s.factor a = .ok f ∧ (session.factorize a).2 = some f := by
  cases ha : a.isSquare with
  | false =>
      rw [factorize_of_not_square session ha] at h
      cases h
  | true =>
      rw [factorize_of_square session ha] at h ⊢
      cases hf : s.factor a with
      | error e =>
          rw [hf] at h
          cases h
      | ok f => exact ⟨rfl, f, rfl, rfl⟩

/-- The solution of the system with a square matrix is by its factor. -/
theorem dueTo_of_square (s : LinearSolver α) (h : a.isSquare = true) (b : Vec α) :
    dueTo s a b = solve (s.factor a).toOption b := by
  have hsquare : checkSquare a = .ok () := if_pos h
  rw [dueTo, factorize_of_square _ h, solveOnce, hsquare]
  cases s.factor a with
  | error e => rfl
  | ok f => rfl

theorem dueTo_of_not_square (s : LinearSolver α) (h : a.isSquare = false) (b : Vec α) :
    dueTo s a b = unfactorized := by
  rw [dueTo, factorize_of_not_square _ h]

/-! ## Histories -/

/-- A session holds the factor of the last square matrix, if that has one. -/
theorem run_eq (s : LinearSolver α) (calls : List (Call α)) :
    run s calls = (lastSquare? calls).bind fun a => (s.factor a).toOption := by
  induction calls using List.reverseRecOn with
  | nil => rfl
  | append_singleton calls call ih =>
      have hstep : run s (calls ++ [call]) = (run s calls).after call := List.foldl_append
      rw [hstep]
      cases call with
      | solve b => rw [lastSquare?_append_solve, after, ih]
      | factorize a =>
          cases ha : a.isSquare with
          | true => rw [lastSquare?_append_square _ ha, after, factorize_of_square _ ha]; rfl
          | false =>
              rw [lastSquare?_append_not_square _ ha, after, factorize_of_not_square _ ha, ih]

/-- What a solution answers is due to the last square matrix. -/
theorem solve_run (s : LinearSolver α) (calls : List (Call α)) (b : Vec α) :
    (run s calls).solve b = due s (lastSquare? calls) b := by
  rw [run_eq]
  cases h : lastSquare? calls with
  | none => rfl
  | some a => exact (dueTo_of_square s (isSquare_of_lastSquare? h) b).symm

/-- **A failed factorization is not solved with, unless it is one of a matrix that is not square.**
What a solution answers after any calls is due to the last square matrix. It is due to the matrix
that came last for all right-hand sides exactly if that is no refused one after a matrix that could
be factorized. -/
theorem solve_after [Scalar α] (backend : Backend) (calls : List (Call α)) :
    (∀ b, (run backend.solver calls).solve b = due backend.solver (lastSquare? calls) b) ∧
      ((∀ b, (run backend.solver calls).solve b = due backend.solver (last? calls) b) ↔
        ¬ ∃ a a' f, last? calls = some a ∧ a.isSquare = false ∧ lastSquare? calls = some a' ∧
          (backend.solver : LinearSolver α).factor a' = .ok f) := by
  refine ⟨solve_run _ calls, ?_, ?_⟩
  · rintro hlaw ⟨a, a', f, hlast, ha, hlast', hf⟩
    -- the factor that is still there solves for a right-hand side of its size
    obtain ⟨x, -, hx⟩ := backend.exists_solution (f := f) (b := Vec.zeros (backend.size f))
      (Vec.length_zeros _)
    have hsolved : (run backend.solver calls).solve (Vec.zeros (backend.size f)) = pure x := by
      rw [run_eq, hlast', Option.bind_some, hf]
      exact hx
    have hrefused : (run backend.solver calls).solve (Vec.zeros (backend.size f))
        = unfactorized := by
      rw [hlaw, hlast]
      exact dueTo_of_not_square _ ha _
    cases hsolved.symm.trans hrefused
  · intro hno b
    rw [solve_run]
    rcases last?_cases calls with hsame | ⟨a, hlast, ha⟩
    · rw [hsame]
    -- nothing is due to a refused matrix, nor to the last square one, which has no factor
    · have hrefused : due backend.solver (last? calls) b = unfactorized := by
        rw [hlast]
        exact dueTo_of_not_square _ ha b
      rw [hrefused]
      cases hlast' : lastSquare? calls with
      | none => rfl
      | some a' =>
          rw [due, Option.elim_some, dueTo_of_square _ (isSquare_of_lastSquare? hlast')]
          cases hf : (backend.solver : LinearSolver α).factor a' with
          | ok f => exact absurd ⟨a, a', f, hlast, ha, hlast', hf⟩ hno
          | error e => rfl

end Session

/-! ## A refused matrix after a factorized one -/

def two : Matrix Float := ⟨1, [[2]], by simp⟩

def row : Matrix Float := ⟨2, [[1, 2]], by simp⟩

open Session in
/-- The factorization of the row fails, and yet a system is solved after it: the one of the matrix
before. -/
theorem stale_factor :
    let calls := [Call.factorize two, Call.factorize row]
    last? calls = some row ∧
      ((run .lu [Call.factorize two]).factorize row).1
        = .error (.dimensionMismatch "square matrix" "1x2") ∧
      (run .lu calls).solve [4] = pure [2] ∧
      due .lu (last? calls) [4] = throw (.singularSystem "solve called before factorize") :=
  ⟨rfl, rfl, rfl, rfl⟩

end LinearSolver

/-! ## Lengths -/

namespace Backend

variable {α : Type} [Scalar α]

/-- **Right-hand sides of the size of the matrix are solved for**, whatever was before the
factorization. One of another length is refused with both lengths by the Cholesky backend and is a
fault in the other one. Nothing else is a fault. -/
theorem solve_lengths (backend : Backend) (session : Session (backend.solver : LinearSolver α))
    (b : Vec α) :
    (∀ a, (session.factorize a).1 = .ok () →
      (b.length = a.nrows → ∃ x, x.length = a.nrows ∧ (session.factorize a).2.solve b = pure x) ∧
      (b.length ≠ a.nrows →
        (session.factorize a).2.solve b = backend.mismatch a.nrows b.length)) ∧
    ∀ fault, session.solve b = throwThe Fault fault ↔
      backend = .lu ∧ ∃ f, session = some f ∧ b.length ≠ backend.size f ∧
        fault = .lengthMismatch (backend.size f) b.length := by
  refine ⟨fun a h => ?_, fun fault => ?_⟩
  · obtain ⟨-, f, hf, hsession⟩ := Session.factorize_ok h
    rw [hsession, ← size_of_factor hf]
    exact ⟨exists_solution, solveWith_of_ne⟩
  · cases session with
    | none => exact ⟨nofun, fun ⟨_, f, hf, _⟩ => nomatch hf⟩
    | some f =>
        show backend.solver.solveWith f b = _ ↔ _
        by_cases hb : b.length = backend.size f
        · obtain ⟨x, -, hx⟩ := exists_solution hb
          rw [hx]
          refine ⟨nofun, ?_⟩
          rintro ⟨-, f, ⟨⟩, hne, -⟩
          exact absurd hb hne
        · rw [solveWith_of_ne hb, mismatch_eq_fault]
          constructor
          · exact fun ⟨hlu, hfault⟩ => ⟨hlu, f, rfl, hb, hfault⟩
          · rintro ⟨hlu, f, ⟨⟩, -, hfault⟩
            exact ⟨hlu, hfault⟩

open Session in
/-- For the number two as a matrix the Cholesky backend takes one number and refuses two. -/
theorem solve_lengths_two :
    let session := (fresh (Backend.cholesky.solver : LinearSolver Float)).factorize two
    session.1 = .ok () ∧ (∃ x, x.length = 1 ∧ session.2.solve [4] = pure x) ∧
      session.2.solve [4, 6] = throw (.ofLengths 1 2) :=
  ⟨rfl, ((solve_lengths .cholesky (fresh _) [4]).1 two rfl).1 rfl,
    ((solve_lengths .cholesky (fresh _) [4, 6]).1 two rfl).2 (by decide)⟩

open Session in
/-- The other backend does not refuse them. -/
theorem lu_faults :
    let session := (fresh (Backend.lu.solver : LinearSolver Float)).factorize two
    session.1 = .ok () ∧ session.2.solve [4, 6] = throwThe Fault (.lengthMismatch 1 2) :=
  ⟨rfl, rfl⟩

end Backend

end Descent
