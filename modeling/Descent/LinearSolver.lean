import Descent.Error
import Descent.Factor.Cholesky
import Descent.Factor.Lu

/-!
# Direct linear solvers

A `LinearSolver` factorizes a square matrix and solves systems with the factor. `Session` is its
use over time: `solve` works with the factor of the matrix that was factorized last.

A matrix that is not square is refused before anything is forgotten; one that cannot be factorized
leaves the session without a factor.
-/

set_option autoImplicit false

namespace Descent

/-- A way to factorize square matrices and to solve systems with the factors. -/
structure LinearSolver (α : Type) where
  name : String
  /-- What a factorization yields. -/
  Factor : Type
  /-- The factor of a square matrix. -/
  factor : Matrix α → Except SolverError Factor
  /-- The solution for a right-hand side. -/
  solveWith : Factor → Vec α → ExceptT SolverError Checked (Vec α)

namespace LinearSolver

variable {α : Type} [Scalar α]

def cholesky : LinearSolver α where
  name := "cholesky"
  Factor := Cholesky α
  factor a :=
    match Cholesky.factor? a with
    | some c => .ok c
    | none => .error (.singularSystem "matrix is not positive definite")
  solveWith c b :=
    if b.length = c.rows.length then return c.solve b
    else throw (.ofLengths c.rows.length b.length)

/-- LU factorization with row exchanges, for invertible matrices. A right-hand side of another
length is a fault. -/
def lu : LinearSolver α where
  name := "lu"
  Factor := Lu α
  factor a :=
    let f := Lu.factor a
    if f.isInvertible then .ok f
    else .error (.singularSystem "zero pivot in LU factorization")
  solveWith f b :=
    if b.length = f.rows.length then return f.solve b
    else throwThe Fault (.lengthMismatch f.rows.length b.length)

def checkSquare (a : Matrix α) : Except SolverError Unit :=
  if a.isSquare then .ok ()
  else .error (.dimensionMismatch "square matrix" s!"{a.nrows}x{a.ncols}")

def solveOnce (s : LinearSolver α) (a : Matrix α) (b : Vec α) :
    ExceptT SolverError Checked (Vec α) := do
  checkSquare a
  let f ← s.factor a
  s.solveWith f b

/-- A solver in use: the factor of the last matrix, if there is one. -/
abbrev Session (s : LinearSolver α) := Option s.Factor

namespace Session

variable {s : LinearSolver α}

/-- Factorizes a matrix in place of the last one: the outcome, and the session afterwards. -/
def factorize (session : Session s) (a : Matrix α) : Except SolverError Unit × Session s :=
  match checkSquare a with
  | .error e => (.error e, session)
  | .ok () =>
    match s.factor a with
    | .error e => (.error e, none)
    | .ok f => (.ok (), some f)

/-- The solution of the system with the matrix factorized last. -/
def solve (session : Session s) (b : Vec α) : ExceptT SolverError Checked (Vec α) :=
  match session with
  | none => throw (.singularSystem "solve called before factorize")
  | some f => s.solveWith f b

end Session

end LinearSolver

inductive Backend where
  | cholesky
  | lu
deriving DecidableEq, Repr

namespace Backend

def standard : Backend := .cholesky

def all : List Backend := [.cholesky, .lu]

def name : Backend → String
  | .cholesky => "Cholesky"
  | .lu => "Lu"

def solver {α : Type} [Scalar α] : Backend → LinearSolver α
  | .cholesky => .cholesky
  | .lu => .lu

end Backend

end Descent
