import Descent.Operator
import Descent.Proofs.Euclid

/-!
# The free variables alone

A mask singles out the free variables. `Vec.gather` keeps their coordinates only and `Vec.scatter`
puts them back among zeros; masking a vector is one after the other (`Vec.restrict_eq_scatter`).
Both can be done by the indices of the free variables (`Vec.map_places`, `Vec.lookup_places`). In
exact arithmetic scattering is an isometry of the smaller space into the larger one (`inclusion`),
so that sums, multiples, inner products and norms of scattered vectors are those of the smaller
vectors.
-/

set_option autoImplicit false

open scoped RealInnerProductSpace

namespace Descent

namespace Vec

/-- The entries at the free variables, in order. -/
def gather {β : Type} : List Bool → List β → List β
  | free :: mask, a :: v => if free then a :: gather mask v else gather mask v
  | _, _ => []

/-- The vector with the given entries at the free variables and zeros elsewhere. -/
def scatter {α : Type} [Scalar α] : List Bool → Vec α → Vec α
  | [], _ => []
  | false :: mask, v => 0 :: scatter mask v
  | true :: mask, [] => 0 :: scatter mask []
  | true :: mask, a :: v => a :: scatter mask v

/-! ## Lengths -/

theorem length_gather {β : Type} {mask : List Bool} {v : List β} (h : v.length = mask.length) :
    (gather mask v).length = freeCount mask := by
  induction mask generalizing v with
  | nil => rfl
  | cons free mask ih =>
      match v, h with
      | a :: v, h =>
          have hrest := ih (v := v) (by simpa using h)
          cases free with
          | false => simpa [gather, freeCount] using hrest
          | true => simpa [gather, freeCount] using hrest

variable {α : Type} [Scalar α]

@[simp] theorem length_scatter (mask : List Bool) (v : Vec α) :
    (scatter mask v).length = mask.length := by
  fun_induction scatter mask v with
  | case1 => rfl
  | case2 mask v ih => simp [ih]
  | case3 mask ih => simp [ih]
  | case4 mask a v ih => simp [ih]

/-! ## Entries -/

section Entries

variable {β γ : Type} {mask : List Bool}

theorem gather_map (f : β → γ) (mask : List Bool) (v : List β) :
    gather mask (v.map f) = (gather mask v).map f := by
  induction mask generalizing v with
  | nil => rfl
  | cons free mask ih =>
      cases v with
      | nil => rfl
      | cons a v => cases free <;> simp [gather, ih]

theorem mem_of_mem_gather {v : List β} {a : β} (h : a ∈ gather mask v) : a ∈ v := by
  induction mask generalizing v with
  | nil => cases h
  | cons free mask ih =>
      match v, free, h with
      | b :: v, false, h => exact List.mem_cons_of_mem _ (ih h)
      | b :: v, true, h =>
          rcases List.mem_cons.mp h with rfl | h
          · exact List.mem_cons_self
          · exact List.mem_cons_of_mem _ (ih h)

end Entries

/-! ## There and back -/

theorem gather_scatter {mask : List Bool} {v : Vec α} (h : v.length = freeCount mask) :
    gather mask (scatter mask v) = v := by
  fun_induction scatter mask v with
  | case1 v => exact (List.length_eq_zero_iff.mp h).symm
  | case2 mask v ih => exact ih (by simpa [freeCount] using h)
  | case3 mask ih => simp [freeCount] at h
  | case4 mask a v ih => exact congrArg (a :: ·) (ih (by simpa [freeCount] using h))

/-- Masking drops the fixed coordinates and puts zeros in their places. -/
theorem restrict_eq_scatter {mask : List Bool} {v : Vec α} (h : v.length = mask.length) :
    restrict mask v = .ok (scatter mask (gather mask v)) := by
  induction mask generalizing v with
  | nil =>
      rw [List.length_eq_zero_iff.mp h]
      rfl
  | cons free mask ih =>
      match v, h with
      | a :: v, h =>
          rw [restrict, ih (by simpa using h)]
          cases free with
          | false => rfl
          | true => rfl

/-- Nothing is lost of a vector that is zero on the fixed variables. -/
theorem scatter_gather {mask : List Bool} {v : Vec α} (h : v.length = mask.length)
    (hfixed : ∀ i, mask.getD i true = false → v.getD i 0 = 0) :
    scatter mask (gather mask v) = v := by
  induction mask generalizing v with
  | nil => exact (List.length_eq_zero_iff.mp h).symm
  | cons free mask ih =>
      match v, h with
      | a :: v, h =>
          have hrest : scatter mask (gather mask v) = v :=
            ih (by simpa using h) fun i hi => hfixed (i + 1) hi
          cases free with
          | false =>
              have ha : a = 0 := hfixed 0 rfl
              rw [ha]
              exact congrArg (0 :: ·) hrest
          | true => exact congrArg (a :: ·) hrest

/-- A scattered vector is zero on the fixed variables. -/
theorem getD_scatter_of_fixed {mask : List Bool} (v : Vec α) {i : Nat}
    (h : mask.getD i false = false) : (scatter mask v).getD i 0 = 0 := by
  fun_induction scatter mask v generalizing i with
  | case1 => rfl
  | case2 mask v ih =>
      cases i with
      | zero => rfl
      | succ i => exact ih h
  | case3 mask ih =>
      cases i with
      | zero => rfl
      | succ i => exact ih h
  | case4 mask a v ih =>
      cases i with
      | zero => cases h
      | succ i => exact ih h

theorem mem_scatter {mask : List Bool} {v : Vec α} {a : α} (h : a ∈ scatter mask v) :
    a = 0 ∨ a ∈ v := by
  fun_induction scatter mask v with
  | case1 => cases h
  | case2 mask v ih => exact (List.mem_cons.mp h).elim .inl ih
  | case3 mask ih => exact (List.mem_cons.mp h).elim .inl ih
  | case4 mask b v ih =>
      rcases List.mem_cons.mp h with rfl | h
      · exact .inr List.mem_cons_self
      · exact (ih h).imp_right (List.mem_cons_of_mem _)

/-! ## Places -/

def places (mask : List Bool) : List Nat :=
  (List.range mask.length).filter fun i => mask.getD i false

theorem places_cons (free : Bool) (mask : List Bool) :
    places (free :: mask) = (if free then [0] else []) ++ (places mask).map (· + 1) := by
  rw [places, List.length_cons, List.range_succ_eq_map, List.filter_cons, List.filter_map]
  cases free <;> rfl

theorem lt_of_mem_places {mask : List Bool} {i : Nat} (h : i ∈ places mask) : i < mask.length :=
  List.mem_range.mp (List.mem_of_mem_filter h)

theorem mem_places {mask : List Bool} {i : Nat} (h : mask.getD i false = true) :
    i ∈ places mask := by
  refine List.mem_filter.mpr ⟨List.mem_range.mpr ?_, h⟩
  by_contra hout
  rw [List.getD_eq_getElem?_getD, List.getElem?_eq_none (not_lt.mp hout)] at h
  cases h

section Reading

variable {β : Type} {mask : List Bool}

/-- Reading a vector at the places of the free variables is gathering. -/
theorem map_places {v : List β} (h : v.length = mask.length) (d : β) :
    (places mask).map (fun i => v.getD i d) = gather mask v := by
  induction mask generalizing v with
  | nil =>
      rw [List.length_eq_zero_iff.mp h]
      rfl
  | cons free mask ih =>
      match v, h with
      | a :: v, h =>
          have hrest := ih (v := v) (by simpa using h)
          cases free with
          | false => simpa [places_cons, gather, Function.comp_def] using hrest
          | true => simpa [places_cons, gather, Function.comp_def] using hrest

theorem length_places (mask : List Bool) : (places mask).length = freeCount mask := by
  rw [← length_gather (v := mask) rfl, ← map_places rfl false, List.length_map]

/-- Vectors with the same free entries agree at each free variable. -/
theorem getD_eq_of_gather_eq {u v : List β} (hu : u.length = mask.length)
    (hv : v.length = mask.length) (h : gather mask u = gather mask v) {i : Nat}
    (hi : mask.getD i false = true) (d : β) : u.getD i d = v.getD i d := by
  rw [← map_places hu d, ← map_places hv d] at h
  exact List.map_inj_left.mp h i (mem_places hi)

theorem lookup_succ (places : List Nat) (v : List β) (i : Nat) :
    ((places.map (· + 1)).zip v).lookup (i + 1) = (places.zip v).lookup i := by
  induction places generalizing v with
  | nil => rfl
  | cons j places ih =>
      cases v with
      | nil => rfl
      | cons a v => simp [List.lookup_cons, ih]

theorem lookup_zero (places : List Nat) (v : List β) :
    ((places.map (· + 1)).zip v).lookup 0 = none := by
  induction places generalizing v with
  | nil => rfl
  | cons j places ih =>
      cases v with
      | nil => rfl
      | cons a v => simp [List.lookup_cons, ih]

end Reading

/-- Looking up each variable among the placed entries is scattering. -/
theorem lookup_places (mask : List Bool) (v : Vec α) :
    (List.range mask.length).map (fun i => (((places mask).zip v).lookup i).getD 0)
      = scatter mask v := by
  fun_induction scatter mask v with
  | case1 => rfl
  | case2 mask v ih =>
      rw [List.length_cons, List.range_succ_eq_map, List.map_cons, List.map_map, places_cons]
      simp [lookup_zero, lookup_succ, ← ih, Function.comp_def]
  | case3 mask ih =>
      rw [List.length_cons, List.range_succ_eq_map, List.map_cons, List.map_map, ← ih]
      simp [Function.comp_def]
  | case4 mask a v ih =>
      rw [List.length_cons, List.range_succ_eq_map, List.map_cons, List.map_map, places_cons]
      simp [lookup_succ, ← ih, Function.comp_def, List.lookup_cons]

/-! ## Exact arithmetic -/

variable [RealConstants]

theorem scatter_zipWith_add {mask : List Bool} {x y : Vec ℝ} (h : x.length = y.length) :
    scatter mask (List.zipWith (· + ·) x y)
      = List.zipWith (· + ·) (scatter mask x) (scatter mask y) := by
  induction mask generalizing x y with
  | nil => rfl
  | cons free mask ih =>
      cases free with
      | false => simp [scatter, ih h]
      | true =>
          match x, y, h with
          | [], [], h => simpa [scatter] using ih (x := []) (y := []) rfl
          | a :: x, b :: y, h => simp [scatter, ih (x := x) (y := y) (by simpa using h)]

theorem scatter_map_mul {mask : List Bool} (c : ℝ) (x : Vec ℝ) :
    scatter mask (x.map (c * ·)) = (scatter mask x).map (c * ·) := by
  fun_induction scatter mask x with
  | case1 x => cases x <;> rfl
  | case2 mask x ih => simp [scatter, ih]
  | case3 mask ih => simpa [scatter] using ih
  | case4 mask a x ih => simp [scatter, ih]

theorem sum_scatter_mul {mask : List Bool} {x y : Vec ℝ} (hx : x.length = freeCount mask)
    (hy : y.length = freeCount mask) :
    (List.zipWith (· * ·) (scatter mask x) (scatter mask y)).sum
      = (List.zipWith (· * ·) x y).sum := by
  fun_induction scatter mask x generalizing y with
  | case1 x =>
      rw [List.length_eq_zero_iff.mp hx]
      rfl
  | case2 mask x ih =>
      have hrest := ih (y := y) (by simpa [freeCount] using hx) (by simpa [freeCount] using hy)
      simpa [scatter] using hrest
  | case3 mask ih => simp [freeCount] at hx
  | case4 mask a x ih =>
      cases y with
      | nil => simp [freeCount] at hy
      | cons b y =>
          have hrest := ih (y := y) (by simpa [freeCount] using hx) (by simpa [freeCount] using hy)
          simp [scatter, hrest]

end Vec

/-! ## The inclusion -/

theorem coords_add {n : Nat} (x y : Point n) :
    coords (x + y) = List.zipWith (· + ·) (coords x) (coords y) :=
  (zipWith_coords (· + ·) x y).symm

theorem coords_smul {n : Nat} (c : ℝ) (x : Point n) : coords (c • x) = (coords x).map (c * ·) :=
  (List.map_ofFn (f := x) (g := (c * ·))).symm

variable [RealConstants] (free : List Bool)

/-- The point with the given coordinates at the free variables and zeros elsewhere. -/
noncomputable def scatterPoint (x : Point (freeCount free)) : Point free.length :=
  pointOf fun i => (Vec.scatter free (coords x)).getD i 0

theorem coords_scatterPoint (x : Point (freeCount free)) :
    coords (scatterPoint free x) = Vec.scatter free (coords x) := by
  refine List.ext_getElem (by simp) fun i hi hi' => ?_
  simp [scatterPoint, coords, pointOf]

/-- The points of the smaller space among those of the larger one. -/
noncomputable def inclusion : Point (freeCount free) →ₗᵢ[ℝ] Point free.length :=
  LinearMap.isometryOfInner
    { toFun := scatterPoint free
      map_add' := fun x y => by
        apply coords_injective
        rw [coords_add, coords_scatterPoint, coords_scatterPoint, coords_scatterPoint, coords_add,
          Vec.scatter_zipWith_add (by simp)]
      map_smul' := fun c x => by
        apply coords_injective
        rw [RingHom.id_apply, coords_smul, coords_scatterPoint, coords_scatterPoint, coords_smul,
          Vec.scatter_map_mul] }
    fun x y => by
      show ⟪scatterPoint free x, scatterPoint free y⟫ = ⟪x, y⟫
      rw [← Vec.inner_coords, ← Vec.inner_coords, coords_scatterPoint, coords_scatterPoint,
        Vec.inner, Vec.inner, Vec.sumTerms_eq, Vec.sumTerms_eq]
      exact Vec.sum_scatter_mul (by simp) (by simp)

/-- Scattering is the inclusion. -/
theorem coords_inclusion (x : Point (freeCount free)) :
    coords (inclusion free x) = Vec.scatter free (coords x) :=
  coords_scatterPoint free x

/-- What is left of a vector between the fixed coordinates, as a point. -/
theorem exists_restrict {free : List Bool} {v : Vec ℝ} (h : v.length = free.length) :
    ∃ x, Vec.gather free v = coords x ∧ Vec.restrict free v = .ok (coords (inclusion free x)) := by
  obtain ⟨x, hx⟩ := exists_coords (Vec.length_gather h)
  exact ⟨x, hx.symm, by rw [Vec.restrict_eq_scatter h, coords_inclusion, hx]⟩

end Descent
