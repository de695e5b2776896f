import Descent.Lbfgs
import Descent.NewtonCg
import Descent.ProjectedNewton

/-!
# Algorithms

The choice among the algorithms of this library, each with its standard settings.
-/

set_option autoImplicit false

namespace Descent

inductive Algorithm where
  | projectedNewton
  | newtonCg
  | lbfgs
deriving DecidableEq, Repr

namespace Algorithm

/-- The one used if nothing is said. -/
def standard : Algorithm := .projectedNewton

def all : List Algorithm := [.projectedNewton, .newtonCg, .lbfgs]

def name : Algorithm → String
  | projectedNewton => "tron"
  | newtonCg => "trunk"
  | lbfgs => "lbfgs"

/-- Whether problems may have bounds. -/
def supportsBounds : Algorithm → Bool
  | projectedNewton => true
  | newtonCg | lbfgs => false

variable {α σ ω : Type} [Scalar α]

/-- Minimizes a model from a starting point with standard settings. -/
def minimize (a : Algorithm) (m : Model α σ) (x₀ : Vec α) (o : Options α) (observer : Observer α ω)
    (clock : Nat → Duration) : ExceptT SolverError (Run ((Counts × σ) × ω)) (Record α) :=
  match a with
  | projectedNewton => ProjectedNewton.minimize {} m x₀ o observer clock
  | newtonCg => NewtonCg.minimize {} true m x₀ o observer clock
  | lbfgs => Lbfgs.minimize {} m x₀ o observer clock

/-- Minimizes a model from its own starting point, or from the origin. -/
def solve (a : Algorithm) (m : Model α σ) (o : Options α) (observer : Observer α ω)
    (clock : Nat → Duration) : ExceptT SolverError (Run ((Counts × σ) × ω)) (Record α) := do
  emit (.solving m.name m.dimension a.name)
  a.minimize m (m.initialPoint.getD (Vec.zeros m.dimension)) o observer clock

end Algorithm

end Descent
