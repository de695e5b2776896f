/-!
# Kinds of steps

How the trial step of an iteration came about.
-/

set_option autoImplicit false

namespace Descent

inductive StepKind where
  /-- Truncated conjugate gradients converged inside the trust region. -/
  | interior
  /-- Truncated conjugate gradients stopped at the boundary of the trust region. -/
  | boundary
  /-- A direction of non-positive curvature was followed to the boundary. -/
  | negativeCurvature
  /-- A step along the projected steepest-descent path. -/
  | cauchy
  /-- An exact solution of the Newton system. -/
  | direct
  /-- The length was chosen by a line search. -/
  | lineSearch
deriving DecidableEq, Repr

def StepKind.all : List StepKind :=
  [.interior, .boundary, .negativeCurvature, .cauchy, .direct, .lineSearch]

def StepKind.name : StepKind → String
  | .interior => "Interior"
  | .boundary => "Boundary"
  | .negativeCurvature => "NegativeCurvature"
  | .cauchy => "Cauchy"
  | .direct => "Direct"
  | .lineSearch => "LineSearch"

end Descent
