import Mathlib.Analysis.InnerProductSpace.PiL2
import Descent.Proofs.Exact
import Descent.Vec

/-!
# Vectors as points of Euclidean space

In exact arithmetic a vector of length `n` is the list of the coordinates of one point of `n`-space
(`coords`, `exists_coords`), and each operation on vectors is the operation on points: sums,
multiples, inner products and norms. The order in which `laneSum` adds is of no account here
(`sumTerms_eq`). Everything below is an equation that rewrites a computation on coordinates into
the geometry of the points, so that proofs about algorithms are carried on in an inner product
space.
-/

set_option autoImplicit false

open scoped RealInnerProductSpace

namespace Descent

abbrev Point (n : Nat) := EuclideanSpace ℝ (Fin n)

def coords {n : Nat} (x : Point n) : Vec ℝ := List.ofFn x

noncomputable def pointOf {n : Nat} (f : Fin n → ℝ) : Point n := WithLp.toLp 2 f

variable {n : Nat}

@[simp] theorem length_coords (x : Point n) : (coords x).length = n := List.length_ofFn

@[simp] theorem coords_pointOf (f : Fin n → ℝ) : coords (pointOf f) = List.ofFn f := rfl

theorem coords_injective : Function.Injective (coords (n := n)) := by
  intro x y h
  ext i
  exact congrFun (List.ofFn_injective h) i

@[simp] theorem coords_inj {x y : Point n} : coords x = coords y ↔ x = y :=
  coords_injective.eq_iff

/-- Every vector of length `n` lists the coordinates of a point. -/
theorem exists_coords {v : Vec ℝ} (h : v.length = n) : ∃ x : Point n, coords x = v := by
  subst h
  exact ⟨pointOf v.get, List.ofFn_get v⟩

theorem zipWith_coords {β : Type} (f : ℝ → ℝ → β) (x y : Point n) :
    List.zipWith f (coords x) (coords y) = List.ofFn fun i => f (x i) (y i) := by
  apply List.ext_getElem
  · simp
  · intro i h₁ h₂
    simp [coords]

namespace Vec

variable [RealConstants]

/-! ## Sums -/

/-- The terms that lanes and remainder hold together. -/
def Lanes.sum (l : Lanes ℝ) : ℝ := l.l0 + l.l1 + l.l2 + l.l3 + l.l4 + l.l5 + l.l6 + l.l7

theorem Lanes.total_eq (l : Lanes ℝ) : l.total = l.sum := by
  show (0 : ℝ) + (l.l0 + l.l4) + (l.l1 + l.l5) + (l.l2 + l.l6) + (l.l3 + l.l7) = l.sum
  unfold Lanes.sum
  ring

omit [RealConstants] in
theorem foldl_add (terms : List ℝ) (a : ℝ) :
    terms.foldl (fun sum b => sum + b) a = a + terms.sum := by
  induction terms generalizing a with
  | nil => simp
  | cons b terms ih =>
      rw [List.foldl_cons, ih, List.sum_cons]
      ring

/-- The lanes lose nothing: at the end all of them and all terms are in the sum. -/
theorem laneSum_eq (l : Lanes ℝ) (terms : List ℝ) : laneSum l terms = l.sum + terms.sum := by
  fun_induction laneSum l terms with
  | case1 l a0 a1 a2 a3 a4 a5 a6 a7 rest ih =>
      rw [ih]
      simp only [List.sum_cons]
      show l.l0 + a0 + (l.l1 + a1) + (l.l2 + a2) + (l.l3 + a3) + (l.l4 + a4) + (l.l5 + a5)
        + (l.l6 + a6) + (l.l7 + a7) + rest.sum = _
      unfold Lanes.sum
      ring
  | case2 l rest _ =>
      rw [← Lanes.total_eq]
      exact foldl_add rest l.total

theorem sumTerms_eq (terms : List ℝ) : sumTerms terms = terms.sum := by
  rw [sumTerms, laneSum_eq]
  show (0 : ℝ) + 0 + 0 + 0 + 0 + 0 + 0 + 0 + terms.sum = terms.sum
  ring

/-! ## Operations -/

@[simp] theorem zeros_eq : zeros n = coords (0 : Point n) := by
  show List.replicate n (0 : ℝ) = List.ofFn fun _ => (0 : ℝ)
  rw [List.ofFn_const]

@[simp] theorem negate_coords (x : Point n) : negate (coords x) = coords (-x) :=
  List.map_ofFn

@[simp] theorem scale_coords (x : Point n) (c : ℝ) : scale (coords x) c = coords (c • x) := by
  rw [scale, coords, List.map_ofFn]
  refine congrArg List.ofFn (funext fun i => ?_)
  exact mul_comm (x i) c

@[simp] theorem divide_coords (x : Point n) (c : ℝ) : divide (coords x) c = coords (c⁻¹ • x) := by
  rw [divide, coords, List.map_ofFn]
  refine congrArg List.ofFn (funext fun i => ?_)
  exact div_eq_inv_mul (x i) c

theorem unit_eq {i : Nat} (hi : i < n) : unit n i = coords (EuclideanSpace.single ⟨i, hi⟩ 1) := by
  refine List.ext_getElem (by simp [unit]) fun k hk hk' => ?_
  rw [length_coords] at hk'
  have hsame : (⟨k, hk'⟩ : Fin n) = ⟨i, hi⟩ ↔ i = k := by rw [Fin.mk.injEq, eq_comm]
  simp [unit, zeros, constant, coords, List.getElem_set, Pi.single_apply, hsame]

omit [RealConstants] in
theorem combine_coords (f : ℝ → ℝ → ℝ) (x y : Point n) :
    combine f (coords x) (coords y) = .ok (List.ofFn fun i => f (x i) (y i)) := by
  rw [combine, if_pos (by simp), zipWith_coords]

@[simp] theorem add_coords (x y : Point n) : add (coords x) (coords y) = .ok (coords (x + y)) :=
  combine_coords _ x y

@[simp] theorem sub_coords (x y : Point n) : sub (coords x) (coords y) = .ok (coords (x - y)) :=
  combine_coords _ x y

@[simp] theorem addMultiple_coords (x y : Point n) (c : ℝ) :
    addMultiple (coords y) c (coords x) = .ok (coords (y + c • x)) := by
  rw [addMultiple, combine_coords]
  refine congrArg (Except.ok ∘ List.ofFn) (funext fun i => ?_)
  exact add_comm (c * x i) (y i)

@[simp] theorem along_coords (x d : Point n) (c : ℝ) :
    along (coords x) (coords d) c = .ok (coords (x + c • d)) := by
  rw [along, scale_coords, add_coords]

@[simp] theorem inner_coords (x y : Point n) : inner (coords x) (coords y) = ⟪x, y⟫ := by
  rw [inner, sumTerms_eq, zipWith_coords, List.sum_ofFn, PiLp.inner_apply]
  refine Finset.sum_congr rfl fun i _ => ?_
  exact mul_comm (x i) (y i)

@[simp] theorem dot_coords (x y : Point n) : dot (coords x) (coords y) = .ok ⟪x, y⟫ := by
  rw [dot, if_pos (by simp), inner_coords]

@[simp] theorem normSquared_coords (x : Point n) : normSquared (coords x) = ‖x‖ ^ 2 := by
  rw [normSquared, inner_coords, real_inner_self_eq_norm_sq]

/-- The norm is the root of its square. -/
@[simp] theorem sqrt_norm_sq (x : Point n) : Scalar.sqrt (‖x‖ ^ 2) = ‖x‖ := by
  rw [Scalar.real_sqrt, Real.sqrt_sq (norm_nonneg x)]

@[simp] theorem norm_coords (x : Point n) : norm (coords x) = ‖x‖ := by
  rw [norm, normSquared_coords, sqrt_norm_sq]

end Vec

end Descent
