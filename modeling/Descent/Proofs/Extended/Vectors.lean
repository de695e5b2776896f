import Descent.Proofs.Euclid
import Descent.Proofs.Extended

/-!
# Vectors of real numbers among the extended ones

A vector with finite coordinates lists a point of Euclidean space (`exists_embed`), and what is
computed of such vectors is what is computed of the points. A sum shows of its terms what a sum of
two shows of both (`sumTerms_reflects`): if an inner product is finite, so are all coordinates, and
if a norm is a number, so are they.
-/

set_option autoImplicit false

open scoped RealInnerProductSpace

namespace Descent

namespace Vec

open Extended

/-! ## Sums that reflect -/

section Reflects

variable {α : Type} [Scalar α] {Q : α → Prop}

theorem foldl_reflects (hQ : ∀ a b, Q (a + b) → Q a ∧ Q b) {terms : List α} {a : α}
    (h : Q (terms.foldl (fun sum b => sum + b) a)) : Q a ∧ ∀ t ∈ terms, Q t := by
  induction terms generalizing a with
  | nil => exact ⟨h, fun _ ht => nomatch ht⟩
  | cons b terms ih =>
      obtain ⟨hab, hterms⟩ := ih h
      exact ⟨(hQ a b hab).1, List.forall_mem_cons.mpr ⟨(hQ a b hab).2, hterms⟩⟩

structure Lanes.All (Q : α → Prop) (l : Lanes α) : Prop where
  l0 : Q l.l0
  l1 : Q l.l1
  l2 : Q l.l2
  l3 : Q l.l3
  l4 : Q l.l4
  l5 : Q l.l5
  l6 : Q l.l6
  l7 : Q l.l7

theorem Lanes.all_of_total (hQ : ∀ a b, Q (a + b) → Q a ∧ Q b) {l : Lanes α} (h : Q l.total) :
    l.All Q := by
  obtain ⟨h, h37⟩ := hQ _ _ h
  obtain ⟨h, h26⟩ := hQ _ _ h
  obtain ⟨h, h15⟩ := hQ _ _ h
  obtain ⟨-, h04⟩ := hQ _ _ h
  exact ⟨(hQ _ _ h04).1, (hQ _ _ h15).1, (hQ _ _ h26).1, (hQ _ _ h37).1, (hQ _ _ h04).2,
    (hQ _ _ h15).2, (hQ _ _ h26).2, (hQ _ _ h37).2⟩

theorem laneSum_reflects (hQ : ∀ a b, Q (a + b) → Q a ∧ Q b) {l : Lanes α} {terms : List α}
    (h : Q (laneSum l terms)) : l.All Q ∧ ∀ t ∈ terms, Q t := by
  fun_induction laneSum l terms with
  | case1 l a0 a1 a2 a3 a4 a5 a6 a7 rest ih =>
      obtain ⟨⟨h0, h1, h2, h3, h4, h5, h6, h7⟩, hrest⟩ := ih h
      refine ⟨⟨(hQ _ _ h0).1, (hQ _ _ h1).1, (hQ _ _ h2).1, (hQ _ _ h3).1, (hQ _ _ h4).1,
        (hQ _ _ h5).1, (hQ _ _ h6).1, (hQ _ _ h7).1⟩, ?_⟩
      simp only [List.forall_mem_cons]
      exact ⟨(hQ _ _ h0).2, (hQ _ _ h1).2, (hQ _ _ h2).2, (hQ _ _ h3).2, (hQ _ _ h4).2,
        (hQ _ _ h5).2, (hQ _ _ h6).2, (hQ _ _ h7).2, hrest⟩
  | case2 l rest _ =>
      obtain ⟨hlanes, hrest⟩ := foldl_reflects hQ h
      exact ⟨Lanes.all_of_total hQ hlanes, hrest⟩

/-- What a sum of two shows of both, a sum shows of every term. -/
theorem sumTerms_reflects (hQ : ∀ a b, Q (a + b) → Q a ∧ Q b) {terms : List α}
    (h : Q (sumTerms terms)) : ∀ t ∈ terms, Q t :=
  (laneSum_reflects hQ h).2

omit [Scalar α] in
/-- What an operation shows of both arguments, joining shows of all coordinates. -/
theorem combine_reflects {f : α → α → α} (hf : ∀ a b, Q (f a b) → Q a ∧ Q b) {x y z : Vec α}
    (hz : combine f x y = .ok z) (h : ∀ c ∈ z, Q c) : (∀ a ∈ x, Q a) ∧ ∀ b ∈ y, Q b := by
  obtain ⟨-, hlength⟩ := length_combine hz
  rw [combine, if_pos hlength] at hz
  cases hz
  induction x generalizing y with
  | nil =>
      cases y with
      | nil => exact ⟨h, h⟩
      | cons => cases hlength
  | cons a x ih =>
      cases y with
      | nil => cases hlength
      | cons b y =>
          simp only [List.zipWith_cons_cons, List.forall_mem_cons] at h ⊢
          obtain ⟨hx, hy⟩ := ih (Nat.succ.inj hlength) h.2
          exact ⟨⟨(hf a b h.1).1, hx⟩, (hf a b h.1).2, hy⟩

end Reflects

variable [RealConstants]

/-- An inner product is finite only if all coordinates are. -/
theorem allFinite_of_dot {x y : Vec Extended} {a : Extended} (hdot : dot x y = .ok a)
    (h : Scalar.isFinite a = true) : allFinite x = true ∧ allFinite y = true := by
  unfold dot at hdot
  split at hdot
  · next hlength =>
      cases hdot
      have hterms : ∀ t ∈ List.zipWith (fun a b => a * b) x y, Scalar.isFinite t = true :=
        sumTerms_reflects (Q := fun t => Scalar.isFinite t = true) (fun _ _ => isFinite_of_add) h
      have hparts := combine_reflects (f := fun a b => a * b)
        (Q := fun t => Scalar.isFinite t = true) (fun _ _ => isFinite_of_mul)
        (if_pos hlength) hterms
      exact ⟨List.all_eq_true.mpr hparts.1, List.all_eq_true.mpr hparts.2⟩
  · cases hdot

/-- A norm is a number only if all coordinates are. -/
theorem isNaN_of_norm {x : Vec Extended} (h : Scalar.isNaN (norm x) = false) {a : Extended}
    (ha : a ∈ x) : Scalar.isNaN a = false := by
  have hsum : Scalar.isNaN (normSquared x) = false := isNaN_of_sqrt h
  have hterms : ∀ t ∈ List.zipWith (fun a b => a * b) x x, Scalar.isNaN t = false :=
    sumTerms_reflects (Q := fun t => Scalar.isNaN t = false) (fun _ _ => isNaN_of_add) hsum
  have hparts := combine_reflects (f := fun a b => a * b) (Q := fun t => Scalar.isNaN t = false)
    (fun _ _ => isNaN_of_mul) (if_pos rfl) hterms
  exact hparts.1 a ha

/-! ## Points -/

def embed (x : Vec ℝ) : Vec Extended := x.map .real

variable {n : Nat}

omit [RealConstants] in
@[simp] theorem length_embed (x : Vec ℝ) : (embed x).length = x.length := List.length_map ..

omit [RealConstants] in
theorem embed_injective : Function.Injective embed :=
  List.map_injective_iff.mpr fun _ _ h => Extended.real.inj h

omit [RealConstants] in
@[simp] theorem getElem?_embed (x : Point n) (i : Fin n) :
    (embed (coords x))[(i : Nat)]? = some (real (x i)) := by
  simp [embed, coords]

theorem allFinite_embed (x : Vec ℝ) : allFinite (embed x) = true := by
  simp [allFinite, embed]

/-- A vector with finite coordinates lists a point. -/
theorem exists_embed {v : Vec Extended} (h : allFinite v = true) :
    ∃ (n : Nat) (x : Point n), v = embed (coords x) := by
  have hreals : ∃ u, v = embed u := by
    induction v with
    | nil => exact ⟨[], rfl⟩
    | cons a v ih =>
        rw [allFinite, List.all_cons, Bool.and_eq_true] at h
        obtain ⟨r, rfl⟩ := exists_real h.1
        obtain ⟨u, rfl⟩ := ih h.2
        exact ⟨r :: u, rfl⟩
  obtain ⟨u, rfl⟩ := hreals
  obtain ⟨x, hx⟩ := exists_coords (v := u) rfl
  exact ⟨_, x, by rw [hx]⟩

/-- The point has as many coordinates as the vector. -/
theorem exists_embed_of_length {v : Vec Extended} (h : allFinite v = true) (hn : v.length = n) :
    ∃ x : Point n, v = embed (coords x) := by
  obtain ⟨m, x, rfl⟩ := exists_embed h
  obtain rfl : m = n := by simpa using hn
  exact ⟨x, rfl⟩

def Lanes.embed (l : Lanes ℝ) : Lanes Extended :=
  ⟨real l.l0, real l.l1, real l.l2, real l.l3, real l.l4, real l.l5, real l.l6, real l.l7⟩

theorem laneSum_embed (l : Lanes ℝ) (terms : List ℝ) :
    laneSum l.embed (Vec.embed terms) = real (laneSum l terms) := by
  fun_induction laneSum l terms with
  | case1 l a0 a1 a2 a3 a4 a5 a6 a7 rest ih => exact ih
  | case2 l rest h =>
      -- fewer than eight terms are left, so that the lanes are joined here too
      rcases rest with
        _ | ⟨a0, _ | ⟨a1, _ | ⟨a2, _ | ⟨a3, _ | ⟨a4, _ | ⟨a5, _ | ⟨a6, _ | ⟨a7, rest⟩⟩⟩⟩⟩⟩⟩⟩
      case cons.cons.cons.cons.cons.cons.cons.cons => exact (h _ _ _ _ _ _ _ _ _ rfl).elim
      all_goals rfl

omit [RealConstants] in
theorem zipWith_embed {f : Extended → Extended → Extended} {h : ℝ → ℝ → ℝ}
    (hf : ∀ a b, f (real a) (real b) = real (h a b)) (u v : Vec ℝ) :
    List.zipWith f (embed u) (embed v) = embed (List.zipWith h u v) := by
  rw [embed, embed, embed, List.zipWith_map, List.map_zipWith]
  simp only [hf]

omit [RealConstants] in
theorem combine_embed {f : Extended → Extended → Extended} {h : ℝ → ℝ → ℝ}
    (hf : ∀ a b, f (real a) (real b) = real (h a b)) (u v : Vec ℝ) :
    combine f (embed u) (embed v) = (combine h u v).map embed := by
  unfold combine
  rw [length_embed, length_embed, zipWith_embed hf]
  split <;> rfl

section Points

variable (x y : Point n) (r : ℝ)

theorem sumTerms_embed (terms : List ℝ) : sumTerms (embed terms) = real terms.sum := by
  rw [← sumTerms_eq]
  exact laneSum_embed ⟨0, 0, 0, 0, 0, 0, 0, 0⟩ terms

@[simp] theorem inner_embed : inner (embed (coords x)) (embed (coords y)) = real ⟪x, y⟫ := by
  rw [← inner_coords, inner, inner, zipWith_embed real_mul, sumTerms_embed, sumTerms_eq]

@[simp] theorem normSquared_embed : normSquared (embed (coords x)) = real (‖x‖ ^ 2) := by
  rw [normSquared, inner_embed, real_inner_self_eq_norm_sq]

@[simp] theorem norm_embed : norm (embed (coords x)) = real ‖x‖ := by
  rw [norm, normSquared_embed, real_sqrt (sq_nonneg _), Real.sqrt_sq (norm_nonneg x)]

@[simp] theorem dot_embed : dot (embed (coords x)) (embed (coords y)) = .ok (real ⟪x, y⟫) := by
  rw [dot, if_pos (by simp), inner_embed]

@[simp] theorem add_embed :
    add (embed (coords x)) (embed (coords y)) = .ok (embed (coords (x + y))) := by
  rw [add, combine_embed real_add]
  exact congrArg (Except.map embed) (add_coords x y)

@[simp] theorem sub_embed :
    sub (embed (coords x)) (embed (coords y)) = .ok (embed (coords (x - y))) := by
  rw [sub, combine_embed real_sub]
  exact congrArg (Except.map embed) (sub_coords x y)

@[simp] theorem scale_embed : scale (embed (coords x)) (real r) = embed (coords (r • x)) := by
  rw [← scale_coords, scale, scale, embed, embed, List.map_map, List.map_map]
  rfl

@[simp] theorem negate_embed : negate (embed (coords x)) = embed (coords (-x)) := by
  rw [← negate_coords, negate, negate, embed, embed, List.map_map, List.map_map]
  rfl

@[simp] theorem along_embed :
    along (embed (coords x)) (embed (coords y)) (real r) = .ok (embed (coords (x + r • y))) := by
  rw [along, scale_embed, add_embed]

@[simp] theorem addMultiple_embed :
    addMultiple (embed (coords y)) (real r) (embed (coords x))
      = .ok (embed (coords (y + r • x))) := by
  rw [addMultiple, combine_embed fun _ _ => rfl]
  exact congrArg (Except.map embed) (addMultiple_coords x y r)

@[simp] theorem zeros_embed : zeros n = embed (coords (0 : Point n)) := by
  rw [← zeros_eq]
  show List.replicate n (real 0) = List.map real (List.replicate n 0)
  rw [List.map_replicate]

end Points

end Vec

end Descent
