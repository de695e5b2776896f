import Descent.History
import Descent.Proofs.Safe
import Descent.TrustRegion

/-!
# Vectors of the right size

Operations on vectors stop at no fault where the lengths fit, and their results have the length that
the next operation needs: sums and products, the projection and the masks of a box, the two-loop
recursion over pairs of one length (`History.Sized`), and the solution of a square system
(`LinearSolver.Square`).
-/

set_option autoImplicit false

namespace Descent

open Checked

variable {α : Type} [Scalar α] {n : Nat}

/-! ## Vectors -/

namespace Vec

omit [Scalar α] in
theorem combine_passes {β γ δ : Type} {f : β → γ → δ} {x : Vec β} {y : Vec γ} (hx : x.length = n)
    (hy : y.length = n) : Passes (combine f x y) fun z => z.length = n := by
  subst hx
  rw [combine, if_pos hy.symm]
  exact .ok (by simp [hy])

variable {x y : Vec α}

theorem add_passes (hx : x.length = n) (hy : y.length = n) :
    Passes (add x y) fun z => z.length = n := combine_passes hx hy

theorem sub_passes (hx : x.length = n) (hy : y.length = n) :
    Passes (sub x y) fun z => z.length = n := combine_passes hx hy

theorem addMultiple_passes (hy : y.length = n) (c : α) (hx : x.length = n) :
    Passes (addMultiple y c x) fun z => z.length = n := combine_passes hy hx

theorem along_passes (hx : x.length = n) (hy : y.length = n) (c : α) :
    Passes (along x y c) fun z => z.length = n := add_passes hx (by simpa using hy)

theorem dot_passes (hx : x.length = n) (hy : y.length = n) :
    Passes (dot x y) fun _ => True := by
  rw [dot, if_pos (hx.trans hy.symm)]
  exact .ok trivial

theorem restrict_passes {free : List Bool} (h : x.length ≤ free.length) :
    Passes (restrict free x) fun z => z.length = x.length := by
  induction x generalizing free with
  | nil =>
      unfold restrict
      exact .ok rfl
  | cons a x ih =>
      match free, h with
      | b :: free, h =>
          refine .bind (ih (by simpa using h)) fun z hz => .ok ?_
          simpa using hz

end Vec

omit [Scalar α] in
theorem entryAt_passes {xs : List α} {i : Nat} (h : i < xs.length) :
    Passes (entryAt xs i) (· ∈ xs) :=
  ⟨xs[i], entryAt_of_lt h, List.getElem_mem h⟩

/-! ## Boxes -/

namespace Box

variable {b : Box α} {x g : Vec α}

theorem project_passes (hb : b.length = n) (hx : x.length = n) :
    Passes (b.project x) fun z => z.length = n := Vec.combine_passes hb hx

theorem bindingMask_passes (tol : α) (h : x.length ≤ b.length) :
    Passes (bindingMask tol b x) fun mask => mask.length = x.length := by
  induction x generalizing b with
  | nil =>
      unfold bindingMask
      exact .ok rfl
  | cons a x ih =>
      match b, h with
      | i :: b, h =>
          refine .bind (ih (by simpa using h)) fun mask hmask => .ok ?_
          simpa using hmask

theorem activeMask_passes (tol : α) (h : x.length ≤ b.length) (hg : x.length ≤ g.length) :
    Passes (activeMask tol b x g) fun mask => mask.length = x.length := by
  induction x generalizing b g with
  | nil =>
      unfold activeMask
      exact .ok rfl
  | cons a x ih =>
      match b, h, g, hg with
      | i :: b, h, c :: g, hg =>
          have hrest := ih (b := b) (g := g) (by simpa using h) (by simpa using hg)
          have hjoined : ∀ active : Bool,
              Passes (do return active :: (← activeMask tol b x g)) fun mask =>
                mask.length = (a :: x).length :=
            fun active => hrest.bind fun mask hmask => .ok (by simpa using hmask)
          unfold activeMask
          dsimp only
          split
          · exact .bind (entryAt_passes (by simp)) fun _ _ => hjoined _
          · exact hjoined false

theorem zeroWhere_passes {mask : List Bool} (h : mask.length ≤ g.length) :
    Passes (zeroWhere mask g) fun z => z.length = mask.length := by
  induction mask generalizing g with
  | nil => exact .ok rfl
  | cons active mask ih =>
      match g, h with
      | c :: g, h =>
          have hrest := ih (g := g) (by simpa using h)
          cases active with
          | true => exact hrest.bind fun z hz => .ok (by simpa using hz)
          | false =>
              refine .bind (entryAt_passes (by simp)) fun _ _ => ?_
              exact hrest.bind fun z hz => .ok (by simpa using hz)

theorem projectedGradient_passes (hb : b.length = n) (hx : x.length = n) (hg : g.length = n) :
    Passes (b.projectedGradient x g) fun z => z.length = n := by
  refine .bind (activeMask_passes 0 (by omega) (by omega)) fun mask hmask => ?_
  exact (zeroWhere_passes (by omega)).mono fun z hz => by omega

/-- The sides that make a box make one of their length. -/
theorem length_of_ofSides {lower upper : Vec α} (h : ofSides lower upper = .ok b) :
    b.length = lower.length := by
  obtain ⟨_, hlength, h⟩ := exists_of_bind_ok h
  obtain ⟨_, _, h⟩ := exists_of_bind_ok h
  cases h
  unfold ModelError.checkLength at hlength
  split at hlength
  · next heq => simp [heq]
  · cases hlength

end Box

/-- The box of a model has an interval for each variable. -/
theorem Model.length_box {σ : Type} {m : Model α σ} {b : Box α} (h : m.box = .ok b) :
    b.length = m.dimension := by
  obtain ⟨_, hlength, h⟩ := exists_of_bind_ok h
  rw [Box.length_of_ofSides h]
  unfold ModelError.checkLength at hlength
  split at hlength
  · next heq => exact heq
  · cases hlength

/-! ## Histories -/

namespace History

def Sized (n : Nat) (h : History α) : Prop :=
  ∀ p ∈ h.pairs, p.s.length = n ∧ p.y.length = n

omit [Scalar α] in
theorem sized_clear (h : History α) : h.clear.Sized n := by
  simp [Sized, clear]

omit [Scalar α] in
theorem sized_of_empty {capacity : Nat} {h : History α} (hh : empty capacity = .ok h) :
    h.Sized n := by
  unfold empty at hh
  split at hh
  · cases hh
  · cases hh
    simp [Sized]

theorem Sized.store {h : History α} (hh : h.Sized n) {s y : Vec α} (hs : s.length = n)
    (hy : y.length = n) (c : α) : (h.store s y c).Sized n := by
  intro p hp
  rcases List.mem_append.mp hp with hp | hp
  · refine hh p ?_
    split at hp
    · exact List.mem_of_mem_drop hp
    · exact hp
  · rw [List.mem_singleton.mp hp]
    exact ⟨hs, hy⟩

theorem takeOut_passes {pairs : List (Correction α)}
    (hpairs : ∀ p ∈ pairs, p.s.length = n ∧ p.y.length = n) {q : Vec α} (hq : q.length = n)
    (alphas : List α) : Passes (takeOut pairs q alphas) fun r => r.1.length = n := by
  induction pairs generalizing q alphas with
  | nil => exact .ok hq
  | cons p older ih =>
      obtain ⟨⟨hs, hy⟩, holder⟩ := List.forall_mem_cons.mp hpairs
      refine .bind (Vec.dot_passes hs hq) fun _ _ => ?_
      exact .bind (Vec.addMultiple_passes hq _ hy) fun q' hq' => ih holder hq' _

theorem putBack_passes {pairs : List (Correction α)}
    (hpairs : ∀ p ∈ pairs, p.s.length = n ∧ p.y.length = n) (alphas : List α) {q : Vec α}
    (hq : q.length = n) : Passes (putBack pairs alphas q) fun r => r.length = n := by
  induction pairs generalizing q alphas with
  | nil => exact .ok hq
  | cons p newer ih =>
      obtain ⟨⟨hs, hy⟩, hnewer⟩ := List.forall_mem_cons.mp hpairs
      cases alphas with
      | nil => exact .ok hq
      | cons alpha alphas =>
          refine .bind (Vec.dot_passes hy hq) fun _ _ => ?_
          exact .bind (Vec.addMultiple_passes hq _ hs) fun q' hq' => ih hnewer _ hq'

theorem Sized.applyInverse_passes {h : History α} (hh : h.Sized n) {v : Vec α}
    (hv : v.length = n) : Passes (h.applyInverse v) fun r => r.length = n := by
  refine .bind (takeOut_passes (fun p hp => hh p (List.mem_reverse.mp hp)) hv []) ?_
  rintro ⟨q, alphas⟩ hq
  exact putBack_passes hh alphas (by simpa using hq)

/-- A pair of the right size is stored or skipped. -/
theorem tryPush_triple {s y : Vec α} (hs : s.length = n) (hy : y.length = n) :
    Run.Triple (fun h : History α => h.Sized n) (tryPush s y) (fun _ h => h.Sized n)
      fun _ => False := by
  refine Run.Triple.bind (Run.Triple.passes (Vec.dot_passes hs hy)) fun c => ?_
  refine Run.Triple.assume fun _ => ?_
  split
  · have hstore : Run.Triple (fun h : History α => h.Sized n)
        (modify fun h => h.store s y c : Run (History α) Unit) (fun _ h => h.Sized n)
        fun _ => False := fun _ _ hh => hh.store hs hy c
    exact Run.Triple.bind hstore fun _ => Run.Triple.pure fun _ hh => hh
  · exact Run.Triple.bind Run.Triple.emit fun _ => Run.Triple.pure fun _ hh => hh

end History

/-! ## Linear systems -/

/-- As many rows and columns as there are variables. -/
def Matrix.Sized (n : Nat) (a : Matrix α) : Prop := a.nrows = n ∧ a.ncols = n

omit [Scalar α] in
theorem Matrix.sized_ofFn (f : Nat → Nat → α) : (ofFn n n f).Sized n := by
  simp [Sized, ofFn, nrows]

/-- An error that does not complain of a size. -/
def SolverError.Fits : SolverError → Prop
  | dimensionMismatch .. => False
  | _ => True

/-- The factors of a square matrix solve systems of its size, and nothing complains of one. -/
structure LinearSolver.Square (solver : LinearSolver α) : Prop where
  factor : ∀ a e, solver.factor a = .error e → e.Fits
  solveWith : ∀ a f b, solver.factor a = .ok f → b.length = a.nrows →
    Safe (solver.solveWith f b) (fun x => x.length = a.nrows) SolverError.Fits

namespace Cholesky

/-- Each row of the matrix adds one to the rows above. -/
theorem length_of_foldlM {rows : List (Vec α)} {above below : List (Vec α × α)}
    (h : rows.foldlM (fun above row => do return above ++ [← nextRow above row]) above
      = some below) : below.length = above.length + rows.length := by
  induction rows generalizing above with
  | nil =>
      cases h
      rfl
  | cons row rows ih =>
      rw [List.foldlM_cons] at h
      obtain ⟨next, hnext, h⟩ := Option.bind_eq_some_iff.mp h
      obtain ⟨last, -, hlast⟩ := Option.bind_eq_some_iff.mp hnext
      cases hlast
      rw [ih h, List.length_append, List.length_singleton, List.length_cons]
      omega

theorem length_of_factor? {a : Matrix α} {c : Cholesky α} (h : factor? a = some c) :
    c.rows.length = a.nrows := by
  obtain ⟨rows, hrows, h⟩ := Option.bind_eq_some_iff.mp h
  cases h
  simpa [Matrix.nrows] using length_of_foldlM hrows

theorem length_forward (rows : List (Vec α × α)) {b : Vec α} (hb : b.length = rows.length)
    (y : Vec α) : (forward rows b y).length = y.length + rows.length := by
  induction rows generalizing b y with
  | nil => simp [forward]
  | cons row rows ih =>
      match b, hb with
      | a :: b, hb =>
          obtain ⟨l, d⟩ := row
          rw [forward, ih (by simpa using hb)]
          simp
          omega

theorem length_backward (k : Nat) (rows : List (Vec α × α)) {y : Vec α}
    (hy : y.length = rows.length) : (backward k rows y).length = rows.length := by
  induction rows generalizing k y with
  | nil => simp [backward]
  | cons row rows ih =>
      match y, hy with
      | a :: y, hy =>
          obtain ⟨l, d⟩ := row
          simp [backward, ih (k + 1) (y := y) (by simpa using hy)]

theorem length_solve (c : Cholesky α) {b : Vec α} (hb : b.length = c.rows.length) :
    (c.solve b).length = c.rows.length :=
  length_backward 0 c.rows (by simp [length_forward c.rows hb])

end Cholesky

namespace Lu

omit [Scalar α] in
theorem length_exchange (p : Nat) (first : Nat × Vec α) (rows : List (Nat × Vec α)) :
    (exchange p first rows).2.length = rows.length := by
  cases p <;> simp [exchange]

theorem length_eliminateFrom (i n : Nat) (rows : List (Nat × Vec α)) :
    (eliminateFrom i n rows).length = rows.length := by
  induction n generalizing i rows with
  | zero => simp [eliminateFrom]
  | succ n ih =>
      cases rows with
      | nil => simp [eliminateFrom]
      | cons first rest =>
          unfold eliminateFrom
          dsimp only
          split
          · simp [ih]
          · simp [ih, length_exchange]

theorem length_factor (a : Matrix α) : (factor a).rows.length = a.nrows := by
  simp [factor, length_eliminateFrom, Matrix.nrows]

theorem length_forward (rows : List (Nat × Vec α)) {b : Vec α} (hb : b.length = rows.length)
    (y : Vec α) : (forward rows b y).length = y.length + rows.length := by
  induction rows generalizing b y with
  | nil => simp [forward]
  | cons row rows ih =>
      match b, hb with
      | a :: b, hb =>
          obtain ⟨k, row⟩ := row
          rw [forward, ih (by simpa using hb)]
          simp
          omega

theorem length_backward (k : Nat) (rows : List (Nat × Vec α)) {y : Vec α}
    (hy : y.length = rows.length) : (backward k rows y).length = rows.length := by
  induction rows generalizing k y with
  | nil => simp [backward]
  | cons row rows ih =>
      match y, hy with
      | a :: y, hy =>
          obtain ⟨i, row⟩ := row
          simp [backward, ih (k + 1) (y := y) (by simpa using hy)]

theorem length_solve (f : Lu α) (b : Vec α) : (f.solve b).length = f.rows.length :=
  length_backward 0 f.rows (by simp [length_forward f.rows, permute])

end Lu

namespace LinearSolver

/-- A factor has as many rows as its matrix. -/
theorem rows_of_cholesky {a : Matrix α} {f : Cholesky α} (h : cholesky.factor a = .ok f) :
    f.rows.length = a.nrows := by
  unfold cholesky at h
  dsimp only at h
  split at h
  · next hfactor =>
      cases h
      exact Cholesky.length_of_factor? hfactor
  · cases h

theorem rows_of_lu {a : Matrix α} {f : Lu α} (h : lu.factor a = .ok f) :
    f.rows.length = a.nrows := by
  unfold lu at h
  dsimp only at h
  split at h
  · cases h
    exact Lu.length_factor a
  · cases h

theorem square_cholesky : (cholesky : LinearSolver α).Square where
  factor a e h := by
    unfold cholesky at h
    dsimp only at h
    split at h
    · cases h
    · cases h
      trivial
  solveWith a f b h hb := by
    have hrows : f.rows.length = a.nrows := rows_of_cholesky h
    unfold cholesky
    dsimp only
    rw [if_pos (hb.trans hrows.symm)]
    exact .pure ((Cholesky.length_solve f (hb.trans hrows.symm)).trans hrows)

theorem square_lu : (lu : LinearSolver α).Square where
  factor a e h := by
    unfold lu at h
    dsimp only at h
    split at h
    · cases h
    · cases h
      trivial
  solveWith a f b h hb := by
    have hrows : f.rows.length = a.nrows := rows_of_lu h
    unfold lu
    dsimp only
    rw [if_pos (hb.trans hrows.symm)]
    exact .pure ((Lu.length_solve f b).trans hrows)

/-- Every backend is one for square matrices. -/
theorem square_of_subproblem {p : Subproblem} {solver : LinearSolver α}
    (h : p.linearSolver = some solver) : solver.Square := by
  cases p with
  | truncatedCg => cases h
  | direct backend =>
      cases h
      cases backend with
      | cholesky => exact square_cholesky
      | lu => exact square_lu

omit [Scalar α] in
/-- A system with a square matrix and a right-hand side of its size is solved or refused for its
values. -/
theorem Square.solveOnce {solver : LinearSolver α} (h : solver.Square) {a : Matrix α} {b : Vec α}
    (ha : a.Sized n) (hb : b.length = n) :
    Safe (solver.solveOnce a b) (fun x => x.length = n) SolverError.Fits := by
  obtain ⟨rfl, hcols⟩ := ha
  have hsquare : a.isSquare = true := by simp [Matrix.isSquare, hcols]
  refine .bind (.ofExcept (Q := fun _ => True) (fun _ _ => trivial) fun e he => ?_) fun _ _ => ?_
  · rw [checkSquare, if_pos hsquare] at he
    cases he
  · exact .bind (.ofExcept (fun _ hf => hf) (h.factor a)) fun f hf => h.solveWith a f b hf hb

end LinearSolver

end Descent
