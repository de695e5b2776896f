import Descent.Proofs.Bfgs
import Descent.Proofs.Euclid
import Descent.Proofs.Outcome
import Descent.History

/-!
# The maps of a curvature history

In exact arithmetic the pairs of a history are secant pairs, whatever was pushed, skipped, dropped
and cleared (`Reachable.curved`). The two-loop recursion of `applyInverse` and the replay of updates
in `apply` then compute the two maps that absorb these pairs (`applyInverse_coords`,
`apply_coords`), which are inverse to each other, symmetric and positive definite
(`Reachable.apply_applyInverse`).

Both maps recurse from the newest pair on, so the list of secant pairs is kept with the newest
first, the reverse of the history.
-/

set_option autoImplicit false

open scoped RealInnerProductSpace

namespace Descent

variable {n : Nat}

noncomputable def Secant.correction (p : Secant (Point n)) : Correction ℝ :=
  ⟨coords p.s, coords p.y, p.rho⟩

/-- The entries for secant pairs, the newest of which comes first. -/
noncomputable def corrections (pairs : List (Secant (Point n))) : List (Correction ℝ) :=
  pairs.reverse.map Secant.correction

theorem corrections_cons (p : Secant (Point n)) (older : List (Secant (Point n))) :
    corrections (p :: older) = corrections older ++ [p.correction] := by
  simp [corrections]

namespace History

/-! ## The two-loop recursion -/

section Loops

variable {E : Type*} [NormedAddCommGroup E] [InnerProductSpace ℝ E]

/-- What the first loop leaves of a vector. -/
noncomputable def remainder : List (Secant E) → E → E
  | [], v => v
  | p :: older, v => remainder older (p.remove v)

/-- The coefficients of the first loop, the oldest pair's first. -/
noncomputable def coefficients : List (Secant E) → E → List ℝ
  | [], _ => []
  | p :: older, v => coefficients older (p.remove v) ++ [p.rho * ⟪p.s, v⟫]

theorem length_coefficients (pairs : List (Secant E)) (v : E) :
    (coefficients pairs v).length = pairs.length := by
  induction pairs generalizing v with
  | nil => rfl
  | cons p older ih => simp [coefficients, ih]

end Loops

variable [RealConstants]

theorem takeOut_coords (pairs : List (Secant (Point n))) (v : Point n) (alphas : List ℝ) :
    takeOut (pairs.map Secant.correction) (coords v) alphas
      = .ok (coords (remainder pairs v), coefficients pairs v ++ alphas) := by
  induction pairs generalizing v alphas with
  | nil => rfl
  | cons p older ih =>
      simp only [List.map_cons, takeOut, Secant.correction, Vec.dot_coords, Checked.ok_bind,
        Vec.addMultiple_coords, ← p.remove_apply]
      rw [ih]
      simp [remainder, coefficients]

/-- The second loop over two stretches of pairs, one after the other. -/
theorem putBack_append (first second : List (Correction ℝ)) (alphas betas : List ℝ) (q : Vec ℝ)
    (h : alphas.length = first.length) :
    putBack (first ++ second) (alphas ++ betas) q
      = putBack first alphas q >>= putBack second betas := by
  induction first generalizing alphas q with
  | nil =>
      obtain rfl := List.eq_nil_of_length_eq_zero h
      rfl
  | cons p first ih =>
      cases alphas with
      | nil => simp at h
      | cons alpha alphas =>
          have ih' := fun q => ih alphas q (by simpa using h)
          simp only [List.cons_append, putBack, ih', bind_assoc]

theorem putBack_coords (γ : ℝ) (pairs : List (Secant (Point n))) (v : Point n) :
    putBack (corrections pairs) (coefficients pairs v) (coords (γ • remainder pairs v))
      = .ok (coords (absorbInverse γ pairs v)) := by
  induction pairs generalizing v with
  | nil => rfl
  | cons p older ih =>
      -- the newest pair is taken out first and put back last
      rw [corrections_cons, coefficients,
        putBack_append _ _ _ _ _ (by simp [length_coefficients, corrections]), remainder, ih]
      simp only [putBack, Secant.correction, Checked.ok_bind, Vec.dot_coords,
        Vec.addMultiple_coords]
      rfl

theorem applyInverse_coords {h : History ℝ} {pairs : List (Secant (Point n))}
    (hpairs : h.pairs = corrections pairs) (v : Point n) :
    h.applyInverse (coords v) = .ok (coords (absorbInverse h.gamma pairs v)) := by
  have hreverse : h.pairs.reverse = pairs.map Secant.correction := by
    simp [hpairs, corrections]
  unfold applyInverse
  rw [hreverse, takeOut_coords, List.append_nil, hpairs]
  simp only [Checked.ok_bind, Vec.scale_coords, putBack_coords]

/-! ## The replay of updates -/

/-- The entries with the images of their steps, the oldest first. -/
noncomputable def absorbed (γ : ℝ) : List (Secant (Point n)) → List (Correction ℝ × Vec ℝ)
  | [] => []
  | p :: older => absorbed γ older ++ [(p.correction, coords (absorbDirect γ older p.s))]

theorem update_coords {B H : Point n →ₗ[ℝ] Point n} (hBH : Inverses B H) (p : Secant (Point n))
    (u : Point n) : update (coords u) (coords (B u)) (p.correction, coords (B p.s))
      = .ok (coords (p.updateDirect B u)) := by
  have hsBs : 0 < ⟪p.s, B p.s⟫ := hBH.direct_positive _ p.s_ne_zero
  simp only [update, Secant.correction, Vec.dot_coords, Checked.ok_bind, if_pos hsBs,
    Vec.addMultiple_coords]
  rfl

theorem product_coords {γ : ℝ} (hγ : 0 < γ) (pairs : List (Secant (Point n))) (u : Point n) :
    product (1 / γ) (absorbed γ pairs) (coords u) = .ok (coords (absorbDirect γ pairs u)) := by
  induction pairs with
  | nil => exact congrArg Except.ok (Vec.scale_coords u (1 / γ))
  | cons p older ih =>
      unfold product at ih ⊢
      rw [absorbed, List.foldlM_append, ih, Checked.ok_bind, List.foldlM_cons,
        update_coords (inverses_absorb hγ older)]
      rfl

theorem images_coords {γ : ℝ} (hγ : 0 < γ) (pairs : List (Secant (Point n))) :
    images (1 / γ) (corrections pairs) = .ok (absorbed γ pairs) := by
  induction pairs with
  | nil => rfl
  | cons p older ih =>
      unfold images at ih ⊢
      rw [corrections_cons, List.foldlM_append, ih, Checked.ok_bind, List.foldlM_cons]
      simp only [Secant.correction, product_coords hγ, Checked.ok_bind]
      rfl

theorem apply_coords {h : History ℝ} (hgamma : 0 < h.gamma) {pairs : List (Secant (Point n))}
    (hpairs : h.pairs = corrections pairs) (v : Point n) :
    h.apply (coords v) = .ok (coords (absorbDirect h.gamma pairs v)) := by
  show (images (1 / h.gamma) h.pairs >>= fun a => product (1 / h.gamma) a (coords v)) = _
  rw [hpairs, images_coords hgamma]
  exact product_coords hgamma pairs v

/-- The scale of a history is that of its newest pair. -/
theorem gamma_corrections {h : History ℝ} {p : Secant (Point n)} {older : List (Secant (Point n))}
    (hpairs : h.pairs = corrections (p :: older)) : h.gamma = ⟪p.s, p.y⟫ / ‖p.y‖ ^ 2 := by
  have hlast : h.pairs.getLast? = some p.correction := by
    rw [hpairs, corrections_cons, List.getLast?_concat]
  have hyy : 0 < ‖p.y‖ ^ 2 := pow_pos (norm_pos_iff.mpr p.y_ne_zero) 2
  simp only [gamma, hlast, Secant.correction, Vec.normSquared_coords, Vec.inner_coords]
  exact if_pos hyy

/-- The scale of a history of secant pairs is positive. -/
theorem gamma_pos {h : History ℝ} {pairs : List (Secant (Point n))}
    (hpairs : h.pairs = corrections pairs) : 0 < h.gamma := by
  cases pairs with
  | nil =>
      have hlast : h.pairs.getLast? = none := by simp [hpairs, corrections]
      simp [gamma, hlast]
  | cons p older =>
      rw [gamma_corrections hpairs]
      exact div_pos p.curved (pow_pos (norm_pos_iff.mpr p.y_ne_zero) 2)

/-! ## Reachable histories -/

/-- The histories that calls with vectors of length `n` lead to from an empty one. -/
inductive Reachable (n capacity : Nat) : History ℝ → Prop
  | empty {h : History ℝ} : History.empty capacity = .ok h → Reachable n capacity h
  | push {h : History ℝ} (s y : Vec ℝ) (journal : Journal) : s.length = n → y.length = n →
      Reachable n capacity h → Reachable n capacity ((tryPush s y).start h journal).1.2
  | clear {h : History ℝ} : Reachable n capacity h → Reachable n capacity h.clear

def Curved (n : Nat) (h : History ℝ) : Prop :=
  ∃ pairs : List (Secant (Point n)), h.pairs = corrections pairs

/-- A pair that is admitted has positive curvature. -/
theorem curvature_pos_of_admits {s y : Point n} {c : ℝ} (h : admits (coords s) (coords y) c) :
    0 < c := by
  simp only [admits, Vec.norm_coords, Bool.and_eq_true, decide_eq_true_eq] at h
  have hepsilon : 0 ≤ (Scalar.epsilon : ℝ) := RealConstants.epsilon_pos.le
  exact lt_of_le_of_lt (by positivity) h.1

omit [RealConstants] in
/-- Without their oldest ones secant pairs remain. -/
theorem Curved.drop {h : History ℝ} (hh : Curved n h) (k : Nat) :
    ∃ pairs : List (Secant (Point n)), h.pairs.drop k = corrections pairs := by
  obtain ⟨pairs, hpairs⟩ := hh
  refine ⟨pairs.take (pairs.length - k), ?_⟩
  rw [hpairs, corrections, corrections, ← List.map_drop, List.drop_reverse]

theorem Curved.store {h : History ℝ} (hh : Curved n h) (p : Secant (Point n)) :
    Curved n (h.store (coords p.s) (coords p.y) ⟪p.s, p.y⟫) := by
  -- a full history drops its oldest pair
  obtain ⟨kept, hkept⟩ : ∃ kept : List (Secant (Point n)),
      (if h.pairs.length = h.capacity then h.pairs.drop 1 else h.pairs) = corrections kept := by
    split
    · exact hh.drop 1
    · exact hh
  refine ⟨p :: kept, ?_⟩
  rw [corrections_cons, ← hkept]
  rfl

omit [RealConstants] in
/-- A push answers whether the pair is admitted, and stores it or changes nothing. -/
theorem tryPush_start {α : Type} [Scalar α] {s y : Vec α} {c : α} (hdot : Vec.dot s y = .ok c)
    (h : History α) (journal : Journal) :
    ((tryPush s y).start h journal).1
      = (.ok (admits s y c), if admits s y c then h.store s y c else h) := by
  unfold tryPush
  rw [hdot]
  show (Run.start (if admits s y c then _ else _) h journal).1 = _
  cases admits s y c <;> rfl

theorem Curved.tryPush {h : History ℝ} (hh : Curved n h) (s y : Point n) (journal : Journal) :
    Curved n ((tryPush (coords s) (coords y)).start h journal).1.2 := by
  rw [tryPush_start (Vec.dot_coords s y)]
  show Curved n (if _ then _ else _)
  split
  · next hadmits => exact hh.store ⟨s, y, curvature_pos_of_admits hadmits⟩
  · exact hh

/-- Every reachable history consists of secant pairs. -/
theorem Reachable.curved {capacity : Nat} {h : History ℝ} (hh : Reachable n capacity h) :
    Curved n h := by
  induction hh with
  | @empty h hempty =>
      refine ⟨[], ?_⟩
      unfold History.empty at hempty
      split at hempty
      · cases hempty
      · cases hempty
        rfl
  -- the vectors that are pushed are the coordinates of points
  | push s y journal hs hy _ ih =>
      obtain ⟨s, rfl⟩ := exists_coords hs
      obtain ⟨y, rfl⟩ := exists_coords hy
      exact ih.tryPush s y journal
  | clear _ ih => exact ⟨[], rfl⟩

/-- **The products of a history are inverse, symmetric and positive definite.** On every reachable
history `apply` and `applyInverse` compute linear maps with these properties. -/
theorem Reachable.apply_applyInverse {capacity : Nat} {h : History ℝ}
    (hh : Reachable n capacity h) :
    ∃ B H : Point n →ₗ[ℝ] Point n,
      (∀ v, h.apply (coords v) = .ok (coords (B v))) ∧
      (∀ v, h.applyInverse (coords v) = .ok (coords (H v))) ∧
      B.IsSymmetric ∧ H.IsSymmetric ∧
      (∀ v, v ≠ 0 → 0 < ⟪v, B v⟫) ∧ (∀ v, v ≠ 0 → 0 < ⟪v, H v⟫) ∧
      (∀ v, B (H v) = v) ∧ (∀ v, H (B v) = v) := by
  obtain ⟨pairs, hpairs⟩ := hh.curved
  have hgamma := gamma_pos hpairs
  have inverses := inverses_absorb hgamma pairs
  exact ⟨absorbDirect h.gamma pairs, absorbInverse h.gamma pairs, apply_coords hgamma hpairs,
    applyInverse_coords hpairs, inverses.direct_symmetric, inverses.symmetric,
    inverses.direct_positive, inverses.positive, inverses.direct_inverse, inverses.inverse_direct⟩

end History

/-! ## A history with one pair -/

section Example

open History

attribute [local instance] RealConstants.double

/-- The pair `s = 1`, `y = 2` pushed into a history with room for one. -/
theorem History.reachable_single : Reachable 1 1 ⟨1, [⟨[1], [2], 1 / 2⟩]⟩ := by
  have hempty : Reachable 1 1 ⟨1, []⟩ := .empty rfl
  have hdot : Vec.dot [1] [2] = .ok (2 : ℝ) := by
    simp [Vec.dot, Vec.inner, Vec.sumTerms_eq]
  have hroot : √((2 : ℝ) * 2) = 2 := Real.sqrt_mul_self (by norm_num)
  have hadmits : admits [1] [2] (2 : ℝ) = true := by
    simp [admits, Vec.norm, Vec.normSquared, Vec.inner, Vec.sumTerms_eq, hroot]
    show (2.220446049250313e-16 : ℝ) < 1
    norm_num
  have hpush := hempty.push [1] [2] #[] rfl rfl
  rw [tryPush_start hdot, if_pos hadmits] at hpush
  exact hpush

theorem History.apply_applyInverse_single :
    ∃ B H : Point 1 →ₗ[ℝ] Point 1,
      (∀ v, History.apply ⟨1, [⟨[1], [2], 1 / 2⟩]⟩ (coords v) = .ok (coords (B v))) ∧
      (∀ v, History.applyInverse ⟨1, [⟨[1], [2], 1 / 2⟩]⟩ (coords v) = .ok (coords (H v))) ∧
      ∀ v, B (H v) = v := by
  obtain ⟨B, H, hB, hH, -, -, -, -, hBH, -⟩ := Reachable.apply_applyInverse reachable_single
  exact ⟨B, H, hB, hH, hBH⟩

end Example

end Descent
