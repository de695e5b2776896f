import Descent.Operator
import Descent.Proofs.Extended.Matrices
import Descent.Proofs.Outcome

/-!
# Operators on real vectors among the extended ones

An operator that answers a real vector with a real one of the same length does so by some map `H` on
points (`Operator.Multiplies`); nothing else is asked of `H`. The quadratic model is then computed
exactly (`Operator.Multiplies.quadratic`), and the masked operator multiplies with `H` between two
projections onto the face of the free variables (`Operator.Multiplies.masked`).
-/

set_option autoImplicit false

open scoped RealInnerProductSpace

namespace Descent

open Run Extended Vec

variable {σ : Type} {n : Nat}

/-- The quadratic model `gᵀs + ½ sᵀH(s)` of any map `H`; for a linear one it is `modelValue`. -/
noncomputable def modelAt {E : Type*} [NormedAddCommGroup E] [InnerProductSpace ℝ E] (H : E → E)
    (g s : E) : ℝ := ⟪g, s⟫ + ⟪s, H s⟫ * 0.5

/-! ## Decimals

With an arithmetic at hand, a decimal may be read as one of it, and a fraction as a quotient of it.
Real decimals are stated without one, and as multiples of inverses. -/

theorem half_eq (r : ℝ) : r * 0.5 = r * 2⁻¹ := by norm_num

theorem tenth_eq (r : ℝ) : r * 0.1 = r * 10⁻¹ := by norm_num

theorem hundredth_eq (r : ℝ) : 0.01 * r = 100⁻¹ * r := by norm_num

theorem ten_eq (r : ℝ) : r * 10.0 = r * 10 := by norm_num

namespace Extended

variable [RealConstants] (r : ℝ)

theorem mul_half : real r * (0.5 : Extended) = real (r * 2⁻¹) := congrArg real (half_eq r)

theorem mul_tenth : real r * (0.1 : Extended) = real (r * 10⁻¹) := congrArg real (tenth_eq r)

theorem hundredth_mul : (0.01 : Extended) * real r = real (100⁻¹ * r) :=
  congrArg real (hundredth_eq r)

theorem mul_ten : real r * (10.0 : Extended) = real (r * 10) := congrArg real (ten_eq r)

end Extended

/-! ## Faces -/

/-- The points whose coordinates vanish where the mask does not hold. -/
def face (n : Nat) (free : List Bool) : Submodule ℝ (Point n) where
  carrier := {v | ∀ i : Fin n, free.getD i false = false → v i = 0}
  zero_mem' := fun _ _ => rfl
  add_mem' := by
    intro v w hv hw i hi
    rw [PiLp.add_apply, hv i hi, hw i hi, add_zero]
  smul_mem' := by
    intro a v hv i hi
    rw [PiLp.smul_apply, hv i hi, smul_zero]

/-- The point with zeros where the mask does not hold. -/
noncomputable def toFace (free : List Bool) (v : Point n) : Point n :=
  pointOf fun i => if free.getD i false then v i else 0

theorem toFace_mem (free : List Bool) (v : Point n) : toFace free v ∈ face n free := by
  intro i hi
  simp only [toFace, pointOf]
  rw [hi]
  rfl

variable [RealConstants]

namespace Vec

theorem restrict_eq {free : List Bool} {x : Vec Extended} (h : free.length = x.length) :
    restrict free x = .ok (List.zipWith (fun b a => if b then a else 0) free x) := by
  induction x generalizing free with
  | nil =>
      unfold restrict
      rw [List.zipWith_nil_right]
  | cons a x ih =>
      cases free with
      | nil => cases h
      | cons b free =>
          rw [restrict, ih (Nat.succ.inj h)]
          rfl

/-- Restricting projects onto the face. -/
theorem restrict_embed {free : List Bool} (h : free.length = n) (v : Point n) :
    restrict free (embed (coords v)) = .ok (embed (coords (toFace free v))) := by
  rw [restrict_eq (by simpa using h)]
  refine congrArg Except.ok (List.ext_getElem (by simp [h]) fun i hi hi' => ?_)
  have hin : i < free.length := by
    rw [List.length_zipWith] at hi
    omega
  have hfree : free.getD i false = free[i] := by
    rw [List.getD_eq_getElem?_getD, List.getElem?_eq_getElem hin, Option.getD_some]
  simp only [toFace, embed, coords, pointOf, List.getElem_zipWith, List.getElem_map,
    List.getElem_ofFn, hfree, real_zero]
  split <;> rfl

end Vec

/-! ## Operators -/

/-- From states with `K`, to which it leads back, the operator has the value `H v` at a real vector
`v`; where it has none, it ends in a state with `F`. -/
def Operator.Multiplies (op : Operator Extended σ) (H : Point n → Point n) (K F : σ → Prop) :
    Prop :=
  ∀ v : Point n, Attempt K (op.apply (embed (coords v)))
    (fun u t => K t ∧ u = embed (coords (H v))) F

variable {op : Operator Extended σ} {H : Point n → Point n} {K F : σ → Prop}

theorem Operator.Multiplies.quadratic (hop : op.Multiplies H K F) (g s : Point n) :
    Attempt K (op.quadratic (embed (coords g)) (embed (coords s)))
      (fun q t => K t ∧ q = real (modelAt H g s)) F := by
  refine Attempt.bind (hop s) fun hs => Attempt.assume ?_
  rintro rfl
  rw [dot_embed, dot_embed]
  refine Attempt.pure fun _ ht => ⟨ht, ?_⟩
  rw [mul_half, real_add, modelAt, half_eq]

/-- The operator of a real matrix multiplies with its linear map. -/
theorem Operator.ofMatrix_multiplies {a : Matrix ℝ} (hrows : a.nrows = n) (hcols : a.ncols = n) :
    (Operator.ofMatrix (a.map real)).Multiplies (a.toMap n) K F := by
  intro v
  have hlength : (embed (coords v)).length = (a.map real).ncols := by
    rw [length_embed, length_coords]
    exact hcols.symm
  unfold Operator.ofMatrix
  dsimp only
  rw [ModelError.checkLength, if_pos hlength, Matrix.times_embed, Matrix.times_coords hrows hcols]
  exact Attempt.pure fun _ ht => ⟨ht, rfl⟩

/-- The masked operator works within the face. -/
theorem Operator.Multiplies.masked (hop : op.Multiplies H K F) {free : List Bool}
    (h : free.length = n) :
    (op.masked free).Multiplies (fun v : Point n => toFace free (H (toFace free v))) K F := by
  intro v
  have hlength : (embed (coords v)).length = free.length := by simpa using h.symm
  unfold Operator.masked
  dsimp only
  rw [ModelError.checkLength, if_pos hlength, restrict_embed h]
  show Attempt K (do
    let hv ← op.apply (embed (coords (toFace free v)))
    (liftM (restrict free hv) : Evaluation σ (Vec Extended))) _ F
  refine Attempt.bind (hop (toFace free v)) fun u => Attempt.assume ?_
  rintro rfl
  rw [restrict_embed h]
  exact Attempt.pure fun _ ht => ⟨ht, rfl⟩

end Descent
