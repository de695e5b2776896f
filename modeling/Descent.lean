import Descent.Json.Printer
import Descent.Json.Reader
import Descent.Model.Formula.Reader
import Descent.Model.Layered
import Descent.Proofs.Accepted
import Descent.Proofs.Budget
import Descent.Proofs.Cost.Solve
import Descent.Proofs.Descends
import Descent.Proofs.ExactModel.Solve
import Descent.Proofs.Extended.Projection
import Descent.Proofs.History.Recursion
import Descent.Proofs.History.Window
import Descent.Proofs.ProjectedNewton.Feasible
import Descent.Proofs.Protocol
import Descent.Proofs.Radius.Range
import Descent.Proofs.Safe.Solve
import Descent.Proofs.Sparse.Product
import Descent.Proofs.TruncatedCg.Monotone
import Descent.Proofs.TrustRegion
import Descent.Results
import Descent.Settings
import Descent.Proofs.Extended.Operators
import Descent.Proofs.ProjectedNewton.Cauchy
import Descent.Proofs.TruncatedCg.Confined
import Descent.Proofs.ProjectedNewton.Face
import Descent.Proofs.ProjectedNewton.Contract
import Descent.Proofs.LineSearch.Account
import Descent.Proofs.LineSearch.Complete
import Descent.Proofs.LinearSolver.Session
import Descent.Proofs.TruncatedCg.Reduced
import Descent.Proofs.TrustRegion.Direct
import Descent.Proofs.Sparse.Entries
import Descent.Proofs.Sparse.Arrays
import Descent.Proofs.Sparse.RoundTrip
import Descent.Proofs.Curvature
import Descent.Proofs.Extended.Stationary
import Descent.Proofs.Derivatives.Quadratic
import Descent.Proofs.Derivatives.Complete
import Descent.Proofs.Scaled
import Descent.Proofs.Problem
import Descent.Proofs.Lbfgs.Restart
import Descent.Proofs.Relative
import Descent.Proofs.InOrder
import Descent.Proofs.Extended.Exit
import Descent.Proofs.ProjectedNewton.Path
import Descent.Proofs.LineSearch.Bracketing
import Descent.Proofs.TruncatedCg.Boundary
import Descent.Proofs.Classic
import Descent.Proofs.Counted
