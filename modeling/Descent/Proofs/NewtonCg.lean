import Descent.Proofs.Extended.Vectors
import Descent.Proofs.TruncatedCg.Round
import Descent.Proofs.TrustRegion.Stepper

/-!
# Newton-CG steps are short

In exact arithmetic a trial step of the Newton-CG method is no longer than the radius, if its
coordinates are finite (`NewtonCg.propose_short`), and a search that rescues it takes a part of it
(`NewtonCg.rescue_part`).
-/

set_option autoImplicit false

open scoped RealInnerProductSpace

namespace Descent

open Run Extended Vec

variable {σ : Type} [RealConstants] {n : Nat} {radius : Extended} {v : Vec Extended}

/-- The vector is no longer than the radius, if its coordinates are finite. -/
def Short (radius : Extended) (v : Vec Extended) : Prop :=
  allFinite v = true → Vec.norm v ≤ radius

theorem short_embed {x : Point n} : Short radius (embed (coords x)) ↔ real ‖x‖ ≤ radius := by
  rw [← norm_embed]
  exact ⟨fun h => h (allFinite_embed _), fun h _ => h⟩

/-- Only a vector that lists a point can be too long. -/
theorem short_of_embed
    (h : ∀ {n} (x : Point n), v = embed (coords x) → Short radius (embed (coords x))) :
    Short radius v := by
  intro hv
  obtain ⟨n, x, rfl⟩ := exists_embed hv
  exact h x rfl hv

theorem short_top (v : Vec Extended) : Short top v :=
  short_of_embed fun _ _ => short_embed.mpr trivial

theorem short_zeros (hradius : 0 < radius) (n : Nat) : Short radius (zeros n) := by
  rw [zeros_embed, short_embed, norm_zero]
  exact le_of_lt hradius

/-! ## Truncated conjugate gradients -/

namespace TruncatedCg

theorem boundaryStep_embed (z p : Point n) (Δ : ℝ) :
    boundaryStep (embed (coords z)) (embed (coords p)) (real Δ) = .ok (real (exitStep z p Δ)) := by
  unfold boundaryStep
  rw [normSquared_embed, normSquared_embed, dot_embed]
  by_cases hp : p = 0
  -- the exit step is then a quotient by zero, which is zero
  · subst hp
    simp [exitStep]
    rfl
  · have hpp : 0 < ‖p‖ ^ 2 := by positivity
    have hroot : 0 ≤ ⟪z, p⟫ * ⟪z, p⟫ + ‖p‖ ^ 2 * slack z Δ :=
      add_nonneg (mul_self_nonneg _) (mul_nonneg hpp.le (slack_nonneg z Δ))
    rw [if_neg (by simpa using hp), Checked.ok_bind]
    simp only [real_zero, real_mul, real_sub, real_maxNum, real_add, real_lt]
    rw [← slack, real_sqrt hroot]
    unfold exitStep
    dsimp only
    split
    · next hzp =>
        have hne : ⟪z, p⟫ + √(⟪z, p⟫ * ⟪z, p⟫ + ‖p‖ ^ 2 * slack z Δ) ≠ 0 := by positivity
        rw [real_add, real_div hne, real_maxNum]
        rfl
    · rw [real_sub, real_div hpp.ne', real_maxNum]
      rfl

/-- A short step prolonged up to the boundary is short. -/
theorem prolong_short {p : Problem Extended σ} {c : State Extended}
    (hoffset : p.offset = zeros n) (hradius : 0 < p.radius) (hstep : Short p.radius c.step)
    (h : prolong p c = .ok v) : Short p.radius v := by
  obtain ⟨z, hz, h⟩ := exists_of_bind_ok h
  obtain ⟨tau, htau, h⟩ := exists_of_bind_ok h
  rcases pos_cases hradius with htop | ⟨Δ, hΔ, hpos⟩
  · rw [htop]
    exact short_top v
  · intro hv
    -- the step and the direction are points, and the exit step is that of the ray
    obtain ⟨hw, hd⟩ := combine_reflects (Q := fun a => Scalar.isFinite a = true)
      (fun _ _ hab => (isFinite_of_add hab).symm.imp_right fun hmul => (isFinite_of_mul hmul).2)
      h (List.all_eq_true.mp hv)
    obtain ⟨-, hlength⟩ := length_combine h
    have hn : c.step.length = n := by simpa [hoffset] using (length_combine hz).2.symm
    obtain ⟨w, hw⟩ := exists_embed_of_length (List.all_eq_true.mpr hw) hn
    obtain ⟨d, hd⟩ := exists_embed_of_length (List.all_eq_true.mpr hd) (hlength.symm.trans hn)
    rw [hoffset, hw, zeros_embed, add_embed, zero_add] at hz
    cases hz
    rw [hd, hΔ, boundaryStep_embed] at htau
    cases htau
    rw [hw, hd, addMultiple_embed] at h
    cases h
    rw [hw, hΔ, short_embed, real_le] at hstep
    rw [norm_embed, hΔ, real_le]
    exact norm_add_exitStep_le hstep

/-- A point that is not on or outside the sphere is short. -/
theorem short_of_inside {z : Vec Extended} (hz : Vec.add (zeros n) v = .ok z)
    (hradius : 0 < radius) (h : ¬ radius ≤ Vec.norm z) : Short radius v := by
  have hn : v.length = n := by simpa using (length_combine hz).2.symm
  intro hv
  obtain ⟨x, rfl⟩ := exists_embed_of_length hv hn
  rw [zeros_embed, add_embed, zero_add] at hz
  cases hz
  exact le_of_not_le (isNaN_of_lt hradius).2 (by rw [norm_embed]; exact isNaN_real) h

/-- An iteration leads from a short step to a short one. -/
theorem advance_short {p : Problem Extended σ} {c : State Extended}
    (hoffset : p.offset = zeros n) (hradius : 0 < p.radius) (hstep : Short p.radius c.step)
    (k : Nat) : Gives (advance p k c) (fun r => match r with
      | .inl solution => Short p.radius solution.step
      | .inr next => Short p.radius next.step) fun _ => True := by
  refine Gives.bind Gives.trivial fun hp _ => ?_
  refine Gives.bind (Gives.checked fun _ h => h) fun curvature _ => ?_
  split
  · refine Gives.bind (Gives.checked fun _ h => h) fun next hnext => ?_
    refine Gives.bind (Gives.checked fun _ h => h) fun z hz => ?_
    split
    · refine Gives.bind (Gives.checked fun _ h => h) fun step hprolong => ?_
      exact Gives.bind Gives.emit fun _ _ =>
        Gives.pure (prolong_short hoffset hradius hstep hprolong)
    · next hinside =>
        rw [hoffset] at hz
        have hshort : Short p.radius next := short_of_inside hz hradius hinside
        refine Gives.bind (Gives.checked fun _ _ => trivial) fun residual _ => ?_
        extract_lets squared beta
        split
        · exact Gives.pure hshort
        · exact Gives.bind (Gives.checked fun _ _ => trivial) fun _ _ => Gives.pure hshort
  · refine Gives.bind (Gives.checked fun _ h => h) fun step hprolong => ?_
    exact Gives.bind Gives.emit fun _ _ =>
      Gives.pure (prolong_short hoffset hradius hstep hprolong)

/-- The iteration keeps the step short. -/
theorem iterate_short {p : Problem Extended σ} (hoffset : p.offset = zeros n)
    (hradius : 0 < p.radius) (remaining k : Nat) {c : State Extended}
    (hstep : Short p.radius c.step) :
    Gives (iterate p remaining k c) (fun solution => Short p.radius solution.step)
      fun _ => True := by
  induction remaining generalizing k c with
  | zero => exact Gives.pure hstep
  | succ remaining ih =>
      refine Gives.bind (advance_short hoffset hradius hstep (k + 1)) ?_
      rintro (solution | next) h
      · exact Gives.pure h
      · exact ih (k + 1) h

theorem solveFrom_short (cg : Config Extended) (op : Operator Extended σ) (g : Vec Extended)
    (hradius : 0 < radius) (n : Nat) (rtol : Extended) :
    Gives (solveFrom cg op g radius (zeros n) rtol) (fun solution => Short radius solution.step)
      fun _ => True := by
  unfold solveFrom
  dsimp only
  split
  · exact Gives.pure (short_zeros hradius _)
  · exact iterate_short rfl hradius _ _ (short_zeros hradius _)

end TruncatedCg

/-! ## Direct steps -/

namespace TrustRegion

/-- From the origin only a direction that vanishes may have another length. -/
theorem boundaryStep_zeros {m : Nat} {p : Point m} {Δ : ℝ} {tau : Extended}
    (h : TruncatedCg.boundaryStep (zeros n) (embed (coords p)) (real Δ) = .ok tau) :
    tau = real (exitStep 0 p Δ) := by
  by_cases hp : p = 0
  · subst hp
    unfold TruncatedCg.boundaryStep at h
    rw [normSquared_embed, if_pos (by simp)] at h
    cases h
    simp [exitStep]
  · have hlength : n = m := by
      unfold TruncatedCg.boundaryStep at h
      rw [normSquared_embed, if_neg (by simpa using hp)] at h
      obtain ⟨_, hdot, -⟩ := exists_of_bind_ok h
      unfold Vec.dot at hdot
      split at hdot
      · next hlength => simpa using hlength
      · cases hdot
    subst hlength
    rw [zeros_embed, TruncatedCg.boundaryStep_embed] at h
    cases h
    rfl

/-- A step that is cut where it leaves the ball is short. -/
theorem cut_short {w : Vec Extended} {tau : Extended} (hradius : 0 < radius)
    (h : TruncatedCg.boundaryStep (zeros n) w radius = .ok tau) :
    Short radius (if tau < 1 then (Vec.scale w tau, StepKind.boundary) else (w, .direct)).1 := by
  rcases pos_cases hradius with rfl | ⟨Δ, rfl, hpos⟩
  · exact short_top _
  split
  · intro hcut
    have hw : allFinite w = true := by
      simp only [allFinite, Vec.scale, List.all_map, List.all_eq_true] at hcut ⊢
      exact fun a ha => (isFinite_of_mul (hcut a ha)).1
    obtain ⟨m, p, rfl⟩ := exists_embed hw
    rw [boundaryStep_zeros h, scale_embed, norm_embed, real_le]
    have hcut := norm_add_exitStep_le (p := p) (norm_zero.trans_le hpos.le)
    rwa [zero_add] at hcut
  · next hinside =>
      refine short_of_embed fun p (hp : w = _) => ?_
      rw [hp] at h
      rw [boundaryStep_zeros h, real_one, real_lt, not_lt] at hinside
      rw [short_embed, real_le]
      have hstep := norm_add_le_of_one_le_exitStep (norm_zero.trans_le hpos.le) hinside
      rwa [zero_add] at hstep

theorem directStep_short (solver : LinearSolver Extended) (hessian : Matrix Extended)
    (g : Vec Extended) (free : List Bool) (n : Nat) (hradius : 0 < radius) :
    Checked.Yields (directStep solver hessian g free (zeros n) radius) (fun r => Short radius r.1)
      fun _ => True := by
  refine .bind (.checked fun _ _ => trivial) fun mask _ => ?_
  dsimp only
  split
  · exact .pure (short_zeros hradius _)
  · refine .bind (.checked fun _ _ => trivial) fun rows _ => ?_
    refine .bind .trivial fun solution _ => ?_
    split
    · exact .bind (Q := fun _ => False) (.throw trivial) fun _ hF => hF.elim
    · exact .bind (.checked fun _ h => h) fun tau htau => .pure (cut_short hradius htau)

end TrustRegion

/-! ## Trial steps -/

namespace NewtonCg

theorem newtonStep_short (linear : Option (LinearSolver Extended))
    (cg : TruncatedCg.Config Extended) (curvature : Curvature Extended σ)
    (iterate : Iterate Extended) (hradius : 0 < radius) (gradientNorm : Extended) :
    Gives (newtonStep linear cg curvature iterate radius gradientNorm)
      (fun r => Short radius r.1) fun _ => True := by
  cases linear with
  | some solver =>
      refine Gives.bind Gives.trivial fun hessian _ => ?_
      exact Gives.ofChecked (TrustRegion.directStep_short _ _ _ _ _ hradius)
  | none =>
      refine Gives.bind (Gives.adapt (TruncatedCg.solveFrom_short cg _ _ hradius _ _))
        fun solution h => ?_
      exact Gives.bind Gives.emit fun _ _ => Gives.pure h

/-- A trial step is no longer than the radius. -/
theorem propose_short (linear : Option (LinearSolver Extended))
    (cg : TruncatedCg.Config Extended) (m : Model Extended σ) (iterate : Iterate Extended)
    (hradius : 0 < radius) (gradientNorm : Extended) :
    Gives (propose linear cg m iterate radius gradientNorm) (fun trial => Short radius trial.step)
      fun _ => True := by
  refine Gives.bind Gives.trivial fun curvature _ => ?_
  refine Gives.bind (newtonStep_short linear cg _ _ hradius _) ?_
  rintro ⟨step, kind⟩ hshort
  refine Gives.bind Gives.trivial fun q _ => ?_
  exact Gives.bind (Gives.checked fun _ _ => trivial) fun _ _ => Gives.pure hshort

/-! ## Rescues -/

/-- The length of a step that is a part of another. -/
def IsPart (a : Extended) : Prop := ∃ r, a = real r ∧ 0 < r ∧ r ≤ 1

/-- A first length is a part. -/
theorem isPart_firstLength (f value slope : Extended) : IsPart (firstLength f value slope) := by
  obtain ⟨r, hr, hlow, hhigh⟩ := exists_real_of_clamp
    (if 0 < value - f - slope then -slope / (value - f - slope + (value - f - slope)) else 0.5)
    (show (0.1 : ℝ) ≤ 0.5 by norm_num)
  exact ⟨r, hr, by linarith, by linarith⟩

section Rescue

variable (o : Options Extended) {m : Model Extended σ} {iterate : Iterate Extended}
  {trial : TrustRegion.Trial Extended} {value : Extended}

/-- A search that rescues a rejected step takes a part of it, which is finite. -/
theorem rescue_part :
    Gives (rescue (some (LineSearchKind.backtracking.params.withBudgets o)) m iterate trial value)
      (fun r => ∀ found, r = some found → allFinite trial.step = true ∧
        ∃ a, IsPart a ∧ Vec.along iterate.x trial.step a = .ok found.point) fun _ => True := by
  refine Gives.mono (rescue_gives (P := IsPart) ?_ ?_ ?_) ?_ fun _ _ => trivial
  · intro slope
    obtain ⟨r, hr, hpos, hle⟩ := isPart_firstLength iterate.f value slope
    rw [hr]
    refine ⟨min r 1e10, real_minNum, lt_min hpos (by norm_num), min_le_of_left_le hle⟩
  · rintro _ ⟨r, rfl, hpos, hle⟩
    exact ⟨r * 0.5, rfl, by linarith, by linarith⟩
  · rintro slope _ f ⟨r, rfl, hpos, hle⟩
    -- the length is kept between a tenth and a half of the last one
    have hbounds : (min 0.1 0.5 : ℝ) * r ≤ 0.5 * r :=
      mul_le_mul_of_nonneg_right (min_le_right _ _) hpos.le
    have hlow : (0 : ℝ) < min 0.1 0.5 * r := mul_pos (by norm_num) hpos
    have hshortest : Scalar.minNum (0.1 : Extended) 0.5 * real r = real (min 0.1 0.5 * r) := by
      rw [real_ofScientific, real_ofScientific, real_minNum, real_mul]
    obtain ⟨t, ht, hmin, hmax⟩ := exists_real_of_clamp'
      (if 0 < 2.0 * (f - iterate.f - slope * real r) then
        -slope * real r * real r / (2.0 * (f - iterate.f - slope * real r))
      else 0.5 * real r) hbounds
    refine ⟨t, ?_, by linarith, by linarith⟩
    rw [← ht]
    exact congrArg (Scalar.maxNum _) hshortest
  · rintro r hr found hfound
    obtain ⟨slope, hslope, hlands, hpart, -⟩ := hr found hfound
    exact ⟨(allFinite_of_dot hslope.dot hslope.isFinite).2, _, hpart, hlands.point⟩

end Rescue

/-- From a point whose coordinates are not all finite no step leads to where it can be measured. -/
theorem allFinite_of_back {x point step : Vec Extended} {u : Vec ℝ}
    (hthere : Vec.add x (embed u) = .ok point) (hback : Vec.sub point x = .ok step)
    (hstep : ∀ a ∈ step, Scalar.isNaN a = false) : allFinite x = true := by
  have hlength := (length_combine hthere).2
  rw [Vec.add, combine, if_pos hlength] at hthere
  cases hthere
  rw [Vec.sub, combine, if_pos (by simpa using hlength.le)] at hback
  cases hback
  induction x generalizing u with
  | nil => rfl
  | cons a x ih =>
      cases u with
      | nil => cases hlength
      | cons b u =>
          obtain ⟨ha, hx⟩ := List.forall_mem_cons.mp hstep
          rw [allFinite, List.all_cons, isFinite_of_back ha]
          exact ih (Nat.succ.inj hlength) hx

/-- The step that a rescue takes is no longer than a short one that was rejected, if its length is a
number. -/
theorem norm_le_of_part {x d point step : Vec Extended} {a : Extended} (hd : allFinite d = true)
    (hshort : Short radius d) (ha : IsPart a) (hthere : Vec.along x d a = .ok point)
    (hback : Vec.sub point x = .ok step) (hnumber : Scalar.isNaN (Vec.norm step) = false) :
    Vec.norm step ≤ radius := by
  obtain ⟨r, rfl, hpos, hle⟩ := ha
  obtain ⟨n, d, rfl⟩ := exists_embed hd
  rw [Vec.along, scale_embed] at hthere
  have hx := allFinite_of_back hthere hback fun _ => isNaN_of_norm hnumber
  have hlength : x.length = n := by simpa using (length_combine hthere).2
  obtain ⟨x, rfl⟩ := exists_embed_of_length hx hlength
  rw [add_embed] at hthere
  cases hthere
  rw [sub_embed, add_sub_cancel_left] at hback
  cases hback
  have hshorter : ‖r • d‖ ≤ ‖d‖ := by
    rw [norm_smul, Real.norm_of_nonneg hpos.le]
    exact mul_le_of_le_one_left (norm_nonneg d) hle
  rw [norm_embed]
  exact le_trans (real_le.mpr hshorter) (short_embed.mp hshort)

end NewtonCg

end Descent
