import Mathlib.Analysis.InnerProductSpace.PiL2
import Descent.Proofs.Extended.Operators
import Descent.Proofs.Factor.Lu
import Descent.Proofs.Reduced
import Descent.Proofs.TruncatedCg.Round

/-!
# Direct steps and their labels

A direct step solves the system of the free variables alone (`directStep_eq`). If the linear solver
is exact, the step is a Newton step, or the part of one inside the ball (`directStep_classifies`).
The label tells the two apart, but it does not tell whether the step reaches the sphere: a Newton
step that vanishes has the exit step zero and counts as cut.
-/

set_option autoImplicit false

namespace Descent

open TruncatedCg Vec

/-! ## The reduced matrix -/

namespace Matrix

/-- The rows and columns of the free variables. -/
def reduced {α : Type} (a : Matrix α) (free : List Bool) (h : a.ncols = free.length) :
    Matrix α where
  ncols := freeCount free
  rows := (gather free a.rows).map (gather free)
  width := List.forall_mem_map.mpr fun row hrow =>
    length_gather ((a.width row (mem_of_mem_gather hrow)).trans h)

variable {free : List Bool} {a : Matrix ℝ}

/-- The entries at the places of the free variables are those of the reduced matrix. -/
theorem ofFn_places (hrows : a.nrows = free.length) (hcols : a.ncols = free.length) :
    ofFn (places free).length (places free).length (fun i j =>
      (((places free).map fun i => (places free).map fun j => a.coeff i j).getD i []).getD j 0)
      = a.reduced free hcols := by
  have hentries : ((places free).map fun i => (places free).map fun j => a.coeff i j)
      = (a.reduced free hcols).rows := by
    show _ = (gather free a.rows).map (gather free)
    rw [← map_places hrows [], List.map_map]
    refine List.map_congr_left fun i hi => map_places ?_ 0
    have hin : i < a.rows.length := (lt_of_mem_places hi).trans_eq hrows.symm
    rw [List.getD_eq_getElem?_getD, List.getElem?_eq_getElem hin, Option.getD_some,
      a.width _ (List.getElem_mem hin), hcols]
  have hnrows : (a.reduced free hcols).nrows = (places free).length := by
    rw [length_places, nrows, reduced, List.length_map, length_gather hrows]
  conv_rhs => rw [eq_ofFn (a.reduced free hcols), hnrows]
  rw [hentries, length_places]
  rfl

/-- A product is one with a vector as long as the rows. -/
theorem length_of_times [RealConstants] {x y : Vec ℝ} (h : a.times x = .ok y) :
    x.length = a.ncols := by
  unfold times at h
  split at h
  · next hlength => exact hlength.symm
  · cases h

/-- Zeros at the fixed variables add nothing. -/
theorem rowTimes_gather [RealConstants] {row x : Vec ℝ} (hrow : row.length = free.length)
    (hx : x.length = freeCount free) :
    rowTimes (gather free row) x = rowTimes row (scatter free x) := by
  rw [rowTimes_eq_sum, rowTimes_eq_sum]
  induction free generalizing row x with
  | nil =>
      rw [List.length_eq_zero_iff.mp hrow]
      rfl
  | cons b free ih =>
      match row, hrow with
      | c :: row, hrow =>
          have hlength : row.length = free.length := by simpa using hrow
          cases b with
          | false =>
              have hrest := ih hlength (x := x) (by simpa [freeCount] using hx)
              simpa [gather, scatter] using hrest
          | true =>
              cases x with
              | nil => simp [freeCount] at hx
              | cons e x =>
                  have hrest := ih hlength (x := x) (by simpa [freeCount] using hx)
                  simpa [gather, scatter] using hrest

/-- The reduced matrix multiplies as the whole one between scattering and gathering. -/
theorem times_reduced [RealConstants] (h : a.ncols = free.length) {x : Vec ℝ}
    (hx : x.length = freeCount free) :
    (a.reduced free h).times x = (a.times (scatter free x)).map (gather free) := by
  rw [times, times, if_pos (show (a.reduced free h).ncols = x.length from hx.symm),
    if_pos (by simpa using h)]
  refine congrArg Except.ok ?_
  rw [gather_map, reduced, List.map_map]
  exact List.map_congr_left fun row hrow =>
    rowTimes_gather ((a.width row (mem_of_mem_gather hrow)).trans h) hx

end Matrix

/-! ## The step -/

namespace TrustRegion

section Steps

variable [RealConstants] {free : List Bool} {hessian : Matrix ℝ}

/-- A direct step is the solution of the reduced system, scattered and cut where it leaves the
ball. -/
theorem directStep_eq (solver : LinearSolver ℝ) (hrows : hessian.nrows = free.length)
    (hcols : hessian.ncols = free.length) {g : Vec ℝ} (hg : g.length = free.length)
    (offset : Vec ℝ) (radius : ℝ) :
    directStep solver hessian g free offset radius =
      if freeCount free = 0 then pure (zeros free.length, .direct)
      else do
        let solution ← solver.solveOnce (hessian.reduced free hcols) (negate (gather free g))
        let tau ← (boundaryStep offset (scatter free solution) radius : Checked ℝ)
        return if tau < 1 then (scale (scatter free solution) tau, .boundary)
          else (scatter free solution, .direct) := by
  have hentries : (places free).mapM (fun i => (places free).mapM fun j => hessian.entry i j)
      = .ok ((places free).map fun i => (places free).map fun j => hessian.coeff i j) :=
    Checked.mapM_eq_ok fun i hi => Checked.mapM_eq_ok fun j hj =>
      hessian.entry_eq ((lt_of_mem_places hi).trans_eq hrows.symm)
        ((lt_of_mem_places hj).trans_eq hcols.symm)
  have hrhs : (places free).map (fun i => -(g.getD i 0)) = negate (gather free g) := by
    rw [← map_places hg 0, negate, List.map_map]
    rfl
  unfold directStep
  rw [hg, mapM_entryAt]
  simp only [Checked.liftM_ok, pure_bind]
  rw [show (List.range free.length).filter (fun i => free.getD i false) = places free from rfl]
  simp only [hentries, Checked.liftM_ok, pure_bind, Matrix.ofFn_places hrows hcols, hrhs,
    lookup_places]
  refine if_congr ?_ rfl (bind_congr fun solution => ?_)
  · rw [List.isEmpty_iff_length_eq_zero, length_places]
  · rw [if_neg]
    simp [allFinite]

/-- The step `w` moves the free variables alone and takes the gradient to zero in each of them,
`H w = -g` there. As the others rest, this is the system of the free rows and columns. -/
structure IsNewtonStep (hessian : Matrix ℝ) (free : List Bool) (g w : Point free.length) :
    Prop where
  mem : w ∈ face free.length free
  solves : ∀ i : Fin free.length, free.getD i false = true →
    hessian.toMap free.length w i = -g i

omit [RealConstants] in
/-- A Newton step vanishes only if the free variables have no gradient. -/
theorem IsNewtonStep.ne_zero {g w : Point free.length} (h : IsNewtonStep hessian free g w)
    {i : Fin free.length} (hi : free.getD i false = true) (hg : g i ≠ 0) : w ≠ 0 := by
  rintro rfl
  have hsolves := h.solves i hi
  rw [map_zero, PiLp.zero_apply, zero_eq_neg] at hsolves
  exact hg hsolves

omit [RealConstants] in
/-- With no free variable there is nothing to solve. -/
theorem isNewtonStep_zero {g : Point free.length} (h : freeCount free = 0) :
    IsNewtonStep hessian free g 0 where
  mem := Submodule.zero_mem _
  solves i hi := by
    have hplace := mem_places hi
    rw [List.eq_nil_of_length_eq_zero ((length_places free).trans h)] at hplace
    cases hplace

theorem inclusion_mem (x : Point (freeCount free)) : inclusion free x ∈ face free.length free := by
  intro i hi
  have hentry := getD_scatter_of_fixed (coords x) hi
  rw [← coords_inclusion] at hentry
  simpa [coords] using hentry

/-- The solution of the reduced system, scattered, is a Newton step. -/
theorem isNewtonStep_inclusion (hrows : hessian.nrows = free.length)
    (hcols : hessian.ncols = free.length) {g : Point free.length} {x : Point (freeCount free)}
    (h : (hessian.reduced free hcols).times (coords x) = .ok (negate (gather free (coords g)))) :
    IsNewtonStep hessian free g (inclusion free x) where
  mem := inclusion_mem x
  solves i hi := by
    rw [Matrix.times_reduced hcols (by simp), ← coords_inclusion, Matrix.times_coords hrows hcols,
      negate, ← gather_map] at h
    have hentry := getD_eq_of_gather_eq (by simp) (by simp) (Except.ok.inj h) hi 0
    simpa [coords] using hentry

/-- What the label says of a direct step. -/
inductive Labelled (hessian : Matrix ℝ) (free : List Bool) (g offset : Point free.length)
    (radius : ℝ) : Point free.length → StepKind → Prop
  /-- It is a Newton step. -/
  | direct {w : Point free.length} (newton : IsNewtonStep hessian free g w) :
      Labelled hessian free g offset radius w .direct
  /-- It is a proper part of one, and whether it ends on the sphere depends on what that is. -/
  | boundary {newton : Point free.length} {τ : ℝ} (whole : IsNewtonStep hessian free g newton)
      (nonneg : 0 ≤ τ) (proper : τ < 1)
      (sphere : ‖offset + τ • newton‖ = radius ↔ newton ≠ 0 ∨ ‖offset‖ = radius) :
      Labelled hessian free g offset radius (τ • newton) .boundary

section Labels

variable {g offset w newton : Point free.length} {radius : ℝ} {kind : StepKind}

omit [RealConstants] in
theorem Labelled.mem (h : Labelled hessian free g offset radius w kind) :
    w ∈ face free.length free := by
  cases h with
  | direct newton => exact newton.mem
  | boundary whole => exact Submodule.smul_mem _ _ whole.mem

omit [RealConstants] in
/-- With a gradient in a free variable the step is cut at the sphere. -/
theorem Labelled.on_sphere (h : Labelled hessian free g offset radius w kind)
    (hkind : kind = .boundary) {i : Fin free.length} (hi : free.getD i false = true)
    (hg : g i ≠ 0) : ‖offset + w‖ = radius := by
  cases h with
  | direct => cases hkind
  | boundary whole _ _ sphere => exact sphere.mpr (.inl (whole.ne_zero hi hg))

omit [RealConstants] in
/-- The label goes by where the Newton step leaves the ball. -/
theorem exists_labelled (hnewton : IsNewtonStep hessian free g newton)
    (hoffset : ‖offset‖ ≤ radius) :
    ∃ w kind, (if exitStep offset newton radius < 1
        then (coords (exitStep offset newton radius • newton), StepKind.boundary)
        else (coords newton, .direct)) = (coords w, kind) ∧
      ‖offset + w‖ ≤ radius ∧ Labelled hessian free g offset radius w kind := by
  split
  · next hcut =>
      exact ⟨_, _, rfl, norm_add_exitStep_le hoffset,
        .boundary hnewton (exitStep_nonneg ..) hcut (norm_add_exitStep_eq_iff hoffset)⟩
  · next hlong =>
      exact ⟨_, _, rfl, norm_add_le_of_one_le_exitStep hoffset (not_lt.mp hlong), .direct hnewton⟩

/-- No variable is free, or the solver finds a solution of the reduced system. -/
def Solved (solver : LinearSolver ℝ) (hcols : hessian.ncols = free.length)
    (g : Point free.length) : Prop :=
  freeCount free = 0 ∨ ∃ solution, solver.solveOnce (hessian.reduced free hcols)
    (negate (gather free (coords g))) = pure solution

/-- A solved system makes a direct step. -/
theorem Solved.exists_directStep {solver : LinearSolver ℝ} (hrows : hessian.nrows = free.length)
    {hcols : hessian.ncols = free.length} (hexact : solver.Exact (hessian.reduced free hcols))
    (hoffset : ‖offset‖ ≤ radius) (h : Solved solver hcols g) :
    ∃ w kind, directStep solver hessian (coords g) free (coords offset) radius
        = pure (coords w, kind) ∧
      ‖offset + w‖ ≤ radius ∧ Labelled hessian free g offset radius w kind := by
  by_cases hnone : freeCount free = 0
  · refine ⟨0, .direct, ?_, by rwa [add_zero], .direct (isNewtonStep_zero hnone)⟩
    rw [directStep_eq solver hrows hcols (length_coords g), if_pos hnone, zeros_eq]
  · obtain ⟨solution, hsolution⟩ := h.resolve_left hnone
    have htimes := hexact _ _ hsolution
    obtain ⟨x, rfl⟩ : ∃ x : Point (freeCount free), coords x = solution :=
      exists_coords (Matrix.length_of_times htimes)
    obtain ⟨w, kind, hcut, hlabel⟩ :=
      exists_labelled (isNewtonStep_inclusion hrows hcols htimes) hoffset
    refine ⟨w, kind, ?_, hlabel⟩
    rw [directStep_eq solver hrows hcols (length_coords g), if_neg hnone, hsolution, pure_bind,
      ← coords_inclusion, boundaryStep_coords, Checked.liftM_ok, pure_bind, scale_coords, hcut]

/-- Nothing else makes one. -/
theorem solved_of_directStep {solver : LinearSolver ℝ} (hrows : hessian.nrows = free.length)
    (hcols : hessian.ncols = free.length) {r : Vec ℝ × StepKind}
    (h : directStep solver hessian (coords g) free (coords offset) radius = pure r) :
    Solved solver hcols g := by
  refine or_iff_not_imp_left.mpr fun hsome => ?_
  rw [directStep_eq solver hrows hcols (length_coords g), if_neg hsome] at h
  obtain ⟨solution, hsolution, -⟩ := Checked.exists_of_bind_pure h
  exact ⟨solution, hsolution⟩

/-- **Direct steps and their labels.** With an exact linear solver there is a direct step exactly if
the reduced system is solved. It moves the free variables alone and stays inside the ball. Labelled
`direct` it is a Newton step, labelled `boundary` a proper part of one. The latter ends on the
sphere exactly if the Newton step does not vanish or the offset is on the sphere, and so wherever a
free variable has a gradient. -/
theorem directStep_classifies {solver : LinearSolver ℝ} (hrows : hessian.nrows = free.length)
    (hcols : hessian.ncols = free.length) (hexact : solver.Exact (hessian.reduced free hcols))
    (g : Point free.length) (hoffset : ‖offset‖ ≤ radius) :
    ((∃ r, directStep solver hessian (coords g) free (coords offset) radius = pure r) ↔
      Solved solver hcols g) ∧
    ∀ step kind,
      directStep solver hessian (coords g) free (coords offset) radius = pure (step, kind) →
      ∃ w, step = coords w ∧ w ∈ face free.length free ∧ ‖offset + w‖ ≤ radius ∧
        Labelled hessian free g offset radius w kind ∧
        (kind = .boundary → (∃ i : Fin free.length, free.getD i false = true ∧ g i ≠ 0) →
          ‖offset + w‖ = radius) := by
  refine ⟨⟨fun ⟨r, h⟩ => solved_of_directStep hrows hcols h, fun h => ?_⟩, fun step kind h => ?_⟩
  · obtain ⟨w, kind, hstep, -⟩ := h.exists_directStep hrows hexact hoffset
    exact ⟨_, hstep⟩
  · obtain ⟨w, kind', hstep, hinside, hlabel⟩ :=
      (solved_of_directStep hrows hcols h).exists_directStep hrows hexact hoffset
    cases hstep.symm.trans h
    exact ⟨w, rfl, hlabel.mem, hinside, hlabel, fun hkind ⟨i, hi, hg⟩ =>
      hlabel.on_sphere hkind hi hg⟩

end Labels

/-- One equation in one unknown. -/
theorem solveOnce_single {a : ℝ} (ha : a ≠ 0) (width : ∀ row ∈ [[a]], row.length = 1) (b : ℝ) :
    LinearSolver.lu.solveOnce ⟨1, [[a]], width⟩ [b] = pure [b / a] := by
  have hfactor : Lu.factor ⟨1, [[a]], width⟩ = ⟨[(0, [a])]⟩ := by
    simp [Lu.factor, Matrix.nrows, Lu.eliminateFrom, Lu.pivotFrom, Lu.exchange, ha]
  rw [LinearSolver.solveOnce_lu rfl (by simp [hfactor, Lu.isInvertible, ha]) rfl, hfactor]
  simp [Lu.solve, Lu.permute, Lu.forward, Lu.backward, Vec.eliminate_eq, Matrix.rowTimes]

end Steps

/-! ## Instances -/

attribute [local instance] RealConstants.double

/-- A Hessian that is singular as a whole, with one that is not for each variable alone. -/
def ones : Matrix ℝ := Matrix.ofFn 2 2 fun _ _ => 1

/-- With the second variable fixed, the Newton step is the negative of the first component of the
gradient. -/
theorem directStep_ones {a b : ℝ} {newton : Point 2} (h : newton = pointOf ![a, 0]) :
    directStep .lu ones (coords (pointOf ![-a, b])) [true, false] (coords (0 : Point 2)) 1
      = pure (if exitStep 0 newton 1 < 1 then (coords (exitStep 0 newton 1 • newton), .boundary)
          else (coords newton, .direct)) := by
  have hrows : ones.nrows = [true, false].length := rfl
  have hcols : ones.ncols = [true, false].length := rfl
  have hrhs : negate (gather [true, false] (coords (pointOf ![-a, b]))) = [a] := by
    simp [gather, negate]
  have hreduced : ones.reduced [true, false] hcols = ⟨1, [[1]], by simp⟩ := rfl
  have hscatter : scatter [true, false] [a / 1] = coords newton := by simp [h, scatter]
  rw [directStep_eq .lu hrows hcols (length_coords _), if_neg (by decide), hrhs, hreduced,
    solveOnce_single one_ne_zero, pure_bind, hscatter, boundaryStep_coords, Checked.liftM_ok,
    pure_bind, scale_coords]

/-- Half of a Newton step of length 2. -/
theorem directStep_classifies_ones :
    LinearSolver.lu.Exact (ones.reduced [true, false] rfl) ∧ ‖(0 : Point 2)‖ ≤ 1 ∧
      directStep .lu ones (coords (pointOf ![-2, 6])) [true, false] (coords (0 : Point 2)) 1
        = pure (coords ((1 / 2 : ℝ) • pointOf ![(2 : ℝ), 0]), .boundary) ∧
      ∃ w : Point 2, coords ((1 / 2 : ℝ) • pointOf ![(2 : ℝ), 0]) = coords w ∧
        w ∈ face 2 [true, false] ∧ ‖0 + w‖ ≤ 1 ∧
        Labelled ones [true, false] (pointOf ![-2, 6]) 0 1 w .boundary ∧
        (StepKind.boundary = .boundary →
          (∃ i : Fin 2, [true, false].getD i false = true ∧ pointOf ![(-2 : ℝ), 6] i ≠ 0) →
          ‖0 + w‖ = 1) := by
  have hrows : ones.nrows = [true, false].length := rfl
  have hcols : ones.ncols = [true, false].length := rfl
  have hexact := LinearSolver.exact_lu (ones.reduced [true, false] hcols)
  have hinside : ‖(0 : Point 2)‖ ≤ 1 := norm_zero.trans_le zero_le_one
  have hnorm : ‖pointOf ![(2 : ℝ), 0]‖ = 2 := by simp [pointOf, EuclideanSpace.norm_eq]
  have hne : pointOf ![(2 : ℝ), 0] ≠ 0 := norm_ne_zero_iff.mp (hnorm.trans_ne two_ne_zero)
  have hstep := directStep_ones (b := 6) (Eq.refl (pointOf ![(2 : ℝ), 0]))
  rw [exitStep_zero hne zero_le_one, hnorm, if_pos (by norm_num)] at hstep
  exact ⟨hexact, hinside, hstep,
    (directStep_classifies hrows hcols hexact (pointOf ![-2, 6]) hinside).2 _ _ hstep⟩

/-- Without a gradient in the free variable the Newton step vanishes. Its label says that it was cut
at the sphere, while it stays at the centre of the ball. -/
theorem vanishing_step_cut :
    LinearSolver.lu.Exact (ones.reduced [true, false] rfl) ∧ ‖(0 : Point 2)‖ ≤ 1 ∧
      directStep .lu ones (coords (pointOf ![-0, 6])) [true, false] (coords (0 : Point 2)) 1
        = pure (coords (0 : Point 2), .boundary) ∧
      ‖(0 : Point 2) + 0‖ < 1 := by
  refine ⟨LinearSolver.exact_lu _, by simp, ?_, by simp⟩
  have hzero : (0 : Point 2) = pointOf ![0, 0] := by
    ext i
    fin_cases i <;> rfl
  rw [directStep_ones hzero, smul_zero, if_pos (by simp [exitStep])]

end TrustRegion

end Descent
