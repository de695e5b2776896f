import Descent.Proofs.History
import Descent.Proofs.History.Window

/-!
# The recursions behind a history

The products with a history are those with the matrices of two recursions over its pairs, oldest
first (`History.Reachable.apply_recursion`):

* `H⁺ = (1 - ρ s yᵀ) H (1 - ρ y sᵀ) + ρ s sᵀ`, from `γ` times the identity;
* `B⁺ = B - B s sᵀ B / sᵀ B s + ρ y yᵀ`, from `1 / γ` times the identity;

where `ρ = 1 / sᵀy`, and `γ` is `sᵀy / yᵀy` for the newest pair. A matrix is a linear map of points
here, and `outer a b` is the matrix `a bᵀ`. Only the newest pair is met exactly by both matrices:
the one maps its `s` to its `y`, the other its `y` to its `s`.
-/

set_option autoImplicit false

open scoped RealInnerProductSpace

namespace Descent

section Matrices

variable {E : Type*} [NormedAddCommGroup E] [InnerProductSpace ℝ E]

namespace Secant

def pair (p : Secant E) : E × E := (p.s, p.y)

variable (p : Secant E)

/-- One level of the two-loop recursion is one step of the recursion of matrices. -/
theorem updateInverse_eq_recur (H : Module.End ℝ E) :
    p.updateInverse H = recurInverse H p.pair := by
  ext v
  have hremoved : (1 - p.rho • outer p.y p.s) v = p.remove v := by
    simp only [LinearMap.sub_apply, Module.End.one_apply, LinearMap.smul_apply, outer_apply,
      remove_apply]
    module
  show p.updateInverse H v
    = (1 - p.rho • outer p.s p.y) (H ((1 - p.rho • outer p.y p.s) v)) + p.rho • outer p.s p.s v
  rw [hremoved, updateInverse_apply]
  simp only [LinearMap.sub_apply, Module.End.one_apply, LinearMap.smul_apply, outer_apply]
  module

/-- One replayed update is one step of the recursion of matrices. -/
theorem updateDirect_eq_recur {B : Module.End ℝ E} (hB : B.IsSymmetric) :
    p.updateDirect B = recurDirect B p.pair := by
  ext v
  have hproduct : (B * outer p.s p.s * B) v = ⟪B p.s, v⟫ • B p.s := by
    simp only [Module.End.mul_apply, outer_apply, map_smul, hB p.s v]
  show p.updateDirect B v
    = B v - (1 / ⟪p.s, B p.s⟫) • (B * outer p.s p.s * B) v + p.rho • outer p.y p.y v
  rw [hproduct, updateDirect_apply, outer_apply, div_eq_mul_one_div]
  module

/-- The pair is met exactly by the map that has absorbed it last. -/
theorem updateDirect_step {B : E →ₗ[ℝ] E} (hB : 0 < ⟪p.s, B p.s⟫) (hsymm : B.IsSymmetric) :
    p.updateDirect B p.s = p.y := by
  rw [updateDirect_apply, hsymm p.s p.s, div_self hB.ne', real_inner_comm p.s p.y,
    mul_comm ⟪p.s, p.y⟫, p.rho_mul_curvature]
  module

theorem updateInverse_change (H : E →ₗ[ℝ] E) : p.updateInverse H p.y = p.s := by
  have hnothing : p.remove p.y = 0 := by
    rw [remove_apply, p.rho_mul_curvature]
    module
  rw [updateInverse_apply, hnothing, map_zero, inner_zero_right, p.rho_mul_curvature]
  module

end Secant

/-- The absorbing maps are the matrices: absorbing goes from the newest pair inwards, the recursion
from the oldest on. -/
theorem absorbInverse_eq_matrix (γ : ℝ) (pairs : List (Secant E)) :
    absorbInverse γ pairs = inverseMatrix γ (pairs.reverse.map Secant.pair) := by
  induction pairs with
  | nil => rfl
  | cons p older ih =>
      rw [absorbInverse, p.updateInverse_eq_recur, ih, inverseMatrix, inverseMatrix,
        List.reverse_cons, List.map_append, List.foldl_append]
      rfl

theorem absorbDirect_eq_matrix {γ : ℝ} (hγ : 0 < γ) (pairs : List (Secant E)) :
    absorbDirect γ pairs = directMatrix γ (pairs.reverse.map Secant.pair) := by
  induction pairs with
  | nil => rfl
  | cons p older ih =>
      have hsymm : (absorbDirect γ older).IsSymmetric := (inverses_absorb hγ older).direct_symmetric
      rw [absorbDirect, p.updateDirect_eq_recur hsymm, ih, directMatrix, directMatrix,
        List.reverse_cons, List.map_append, List.foldl_append]
      rfl

end Matrices

namespace History

variable {n : Nat}

def coordsPair (p : Point n × Point n) : Vec ℝ × Vec ℝ := (coords p.1, coords p.2)

variable [RealConstants]

omit [RealConstants] in
/-- The pairs of the entries, oldest first. -/
theorem pairs_corrections (pairs : List (Secant (Point n))) :
    (corrections pairs).map Correction.pair = (pairs.reverse.map Secant.pair).map coordsPair := by
  rw [corrections, List.map_map, List.map_map]
  rfl

/-- **The products of a history are those with the matrices of the recursions.** A reachable history
that is not empty consists of pairs of points, the newest of which is `(s, y)`. On every vector
`applyInverse` and `apply` are the products with the matrices of these pairs for
`γ = sᵀy / yᵀy`, and so they meet the newest pair exactly. -/
theorem Reachable.apply_recursion {capacity : Nat} {h : History ℝ} (hh : Reachable n capacity h)
    (hne : h.pairs ≠ []) :
    ∃ (older : List (Point n × Point n)) (s y : Point n),
      h.pairs.map Correction.pair = (older ++ [(s, y)]).map coordsPair ∧
      (∀ v, h.applyInverse (coords v)
        = .ok (coords (inverseMatrix (⟪s, y⟫ / ‖y‖ ^ 2) (older ++ [(s, y)]) v))) ∧
      (∀ v, h.apply (coords v)
        = .ok (coords (directMatrix (⟪s, y⟫ / ‖y‖ ^ 2) (older ++ [(s, y)]) v))) ∧
      h.apply (coords s) = .ok (coords y) ∧ h.applyInverse (coords y) = .ok (coords s) := by
  obtain ⟨pairs, hpairs⟩ := hh.curved
  cases pairs with
  | nil => exact absurd hpairs hne
  | cons p older =>
      have hgamma : 0 < h.gamma := gamma_pos hpairs
      have hpositive := (inverses_absorb hgamma older).direct_positive p.s p.s_ne_zero
      have hsymm := (inverses_absorb hgamma older).direct_symmetric
      have happly := apply_coords hgamma hpairs
      have hinverse := applyInverse_coords hpairs
      -- oldest first, the newest pair is the last
      have horder : ((p :: older).reverse.map Secant.pair)
          = older.reverse.map Secant.pair ++ [(p.s, p.y)] := by
        rw [List.reverse_cons, List.map_append]
        rfl
      refine ⟨older.reverse.map Secant.pair, p.s, p.y, ?_, fun v => ?_, fun v => ?_, ?_, ?_⟩
      · rw [hpairs, pairs_corrections, horder]
      · rw [hinverse, absorbInverse_eq_matrix, horder, gamma_corrections hpairs]
      · rw [happly, absorbDirect_eq_matrix hgamma, horder, gamma_corrections hpairs]
      · rw [happly, absorbDirect, p.updateDirect_step hpositive hsymm]
      · rw [hinverse, absorbInverse, p.updateInverse_change]

end History

/-! ## A history with two pairs -/

section Example

namespace History

/-- The pairs `s = (1, 0)`, `y = (a, 0)` and `s = (0, 1)`, `y = (0, b)`. -/
noncomputable def crossed (a b : ℝ) : History ℝ :=
  ⟨2, [⟨[1, 0], [a, 0], 1 / a⟩, ⟨[0, 1], [0, b], 1 / b⟩]⟩

attribute [local instance] RealConstants.double

/-- Both pairs are stored one after the other. -/
theorem reachable_crossed : Reachable 2 2 (crossed 2 3) := by
  have hroot : ∀ c : ℝ, 0 ≤ c → √(c * c) = c := fun c hc => Real.sqrt_mul_self hc
  have hempty : Reachable 2 2 ⟨2, []⟩ := .empty rfl
  have hdot : Vec.dot [1, 0] [2, 0] = .ok (2 : ℝ) := by
    simp [Vec.dot, Vec.inner, Vec.sumTerms_eq]
  have hdot' : Vec.dot [0, 1] [0, 3] = .ok (3 : ℝ) := by
    simp [Vec.dot, Vec.inner, Vec.sumTerms_eq]
  have hsmall : (Scalar.epsilon : ℝ) < 1 := by
    show (2.220446049250313e-16 : ℝ) < 1
    norm_num
  have hadmits : admits [1, 0] [2, 0] (2 : ℝ) = true := by
    simpa [admits, Vec.norm, Vec.normSquared, Vec.inner, Vec.sumTerms_eq, hroot] using hsmall
  have hadmits' : admits [0, 1] [0, 3] (3 : ℝ) = true := by
    simpa [admits, Vec.norm, Vec.normSquared, Vec.inner, Vec.sumTerms_eq, hroot] using hsmall
  have hfirst := hempty.push [1, 0] [2, 0] #[] rfl rfl
  rw [tryPush_start hdot, if_pos hadmits] at hfirst
  have hsecond := hfirst.push [0, 1] [0, 3] #[] rfl rfl
  rw [tryPush_start hdot', if_pos hadmits'] at hsecond
  exact hsecond

theorem apply_recursion_crossed :
    ∃ (older : List (Point 2 × Point 2)) (s y : Point 2),
      [([1, 0], [2, 0]), ([0, 1], [0, 3])] = (older ++ [(s, y)]).map coordsPair ∧
      (∀ v, (crossed 2 3).applyInverse (coords v)
        = .ok (coords (inverseMatrix (⟪s, y⟫ / ‖y‖ ^ 2) (older ++ [(s, y)]) v))) ∧
      (∀ v, (crossed 2 3).apply (coords v)
        = .ok (coords (directMatrix (⟪s, y⟫ / ‖y‖ ^ 2) (older ++ [(s, y)]) v))) ∧
      (crossed 2 3).apply (coords s) = .ok (coords y) ∧
      (crossed 2 3).applyInverse (coords y) = .ok (coords s) :=
  reachable_crossed.apply_recursion (List.cons_ne_nil _ _)

end History

end Example

end Descent
