import Descent.Proofs.Reduced
import Descent.Proofs.TruncatedCg.Confined
import Descent.ProjectedNewton

/-!
# Steps within a face

The step that goes on from a Cauchy step moves the free variables alone, whichever way it is
computed, and their sum stays inside the radius if the Cauchy step does (`faceStep_attempt`). For
truncated conjugate gradients that is so since the masked operator maps into the face, for a direct
solver, of which nothing is asked, by the way in which its solution is placed and cut.
-/

set_option autoImplicit false

namespace Descent

open Run Extended Vec TruncatedCg

variable {σ : Type} {n : Nat} [RealConstants] {o γ : Point n} {free : List Bool} {Δ : ℝ}

/-! ## Direct steps -/

namespace TrustRegion

/-- A solution placed at the free variables is a point of the face. -/
theorem placed_mem {solution : Vec Extended} (hfinite : allFinite solution = true) :
    ∃ w : Point free.length, scatter free solution = embed (coords w) ∧ w ∈ face _ free := by
  have hentries : allFinite (scatter free solution) = true := by
    rw [allFinite, List.all_eq_true]
    intro a ha
    rcases mem_scatter ha with rfl | ha
    · rfl
    · exact List.all_eq_true.mp hfinite a ha
  obtain ⟨w, hw⟩ := exists_embed_of_length hentries (length_scatter free solution)
  refine ⟨w, hw, fun i hi => ?_⟩
  have hentry := getD_scatter_of_fixed solution hi
  rw [hw, List.getD_eq_getElem?_getD, getElem?_embed, Option.getD_some] at hentry
  exact Extended.real.inj hentry

/-- A point of the face that is cut where it leaves the ball. -/
theorem reaches_cut {w : Point n} (hw : w ∈ face n free) :
    ∃ w' : Point n, (if real (exitStep o w Δ) < 1
        then (Vec.scale (embed (coords w)) (real (exitStep o w Δ)), StepKind.boundary)
        else (embed (coords w), .direct)).1 = embed (coords w') ∧ Reaches (face n free) o Δ w' := by
  split
  · exact ⟨exitStep o w Δ • w, scale_embed .., Submodule.smul_mem _ _ hw, norm_add_exitStep_le⟩
  · next hlong =>
      have hexit : (1 : ℝ) ≤ exitStep o w Δ := not_lt.mp hlong
      exact ⟨w, rfl, hw, fun ho => norm_add_le_of_one_le_exitStep ho hexit⟩

theorem directStep_reaches (solver : LinearSolver Extended) (hessian : Matrix Extended)
    (hfree : free.length = n) (γ o : Point n) (Δ : ℝ) :
    Checked.Yields (directStep solver hessian (embed (coords γ)) free (embed (coords o)) (real Δ))
      (fun r => ∃ w, r.1 = embed (coords w) ∧ Reaches (face n free) o Δ w) fun _ => True := by
  subst hfree
  unfold directStep
  rw [length_embed, length_coords]
  refine .bind (.checked fun _ h => h) fun mask hmask => ?_
  rw [mapM_entryAt] at hmask
  obtain rfl : free = mask := Except.ok.inj hmask
  extract_lets index
  split
  · exact .pure ⟨0, zeros_embed, reaches_zero⟩
  · refine .bind (.checked fun _ _ => trivial) fun rows _ => ?_
    extract_lets
    refine .bind .trivial fun solution _ => ?_
    split
    · exact .bind (Q := fun _ => False) (.throw trivial) fun _ hF => hF.elim
    · next hfinite =>
        obtain ⟨w, hw, hmem⟩ := placed_mem (by simpa using hfinite)
        have hplaced : (List.range free.length).map
            (fun i => ((index.zip solution).lookup i).getD 0) = scatter free solution :=
          lookup_places free solution
        dsimp only
        rw [hplaced, hw, boundaryStep_embed]
        exact .pure (reaches_cut hmem)

end TrustRegion

namespace ProjectedNewton

/-! ## Both ways -/

variable {curvature : Curvature Extended σ} {H : Point n → Point n} {K F : σ → Prop} {c : Point n}
  {cg : TruncatedCg.Config Extended} {gradientNorm : Extended}

/-- The step that truncated conjugate gradients make. -/
theorem faceStep_products (hop : curvature.operator.Multiplies H K F) (hfree : free.length = n)
    (hγ : γ ∈ face n free) :
    Attempt K (faceStep none cg curvature (embed (coords γ)) free (embed (coords c)) (real Δ)
        gradientNorm) (fun r t => K t ∧
      ∃ w, r.1 = embed (coords w) ∧ Reaches (face n free) c Δ w) F := by
  refine Attempt.bind (Attempt.adapt (solveFrom_confined cg (hop.masked hfree)
    (fun v _ => toFace_mem free _) hγ c Δ _)) fun solution => ?_
  exact Attempt.bind Attempt.emit fun _ => Attempt.pure fun _ ht => ht

/-- A step from a Cauchy step on, if there is one, moves the free variables alone. -/
theorem faceStep_attempt (linear : Option (LinearSolver Extended))
    (hop : curvature.operator.Multiplies H K K) (hdense : Attains K curvature.toDense fun _ => True)
    (hfree : free.length = n) (hγ : γ ∈ face n free) :
    Attains K (faceStep linear cg curvature (embed (coords γ)) free (embed (coords c)) (real Δ)
        gradientNorm) fun r =>
      ∃ w, r.1 = embed (coords w) ∧ Reaches (face n free) c Δ w := by
  cases linear with
  | none => exact faceStep_products hop hfree hγ
  | some solver =>
      refine Attains.bind hdense.adapt fun hessian _ => ?_
      exact Attains.ofChecked (TrustRegion.directStep_reaches solver hessian hfree γ c Δ)

end ProjectedNewton

end Descent
