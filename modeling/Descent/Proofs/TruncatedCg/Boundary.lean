import Descent.Proofs.TruncatedCg.Round

/-!
# The step to the boundary

`boundaryStep` returns the parameter at which a ray leaves the ball, in either of its two forms of
the root. The points of the ray inside the ball are exactly those up to it. A ray that starts
outside is followed within the sphere through its start: the parameter is zero if the ray leads away
from the centre, else the one at which the ray is back on that sphere.
-/

set_option autoImplicit false

namespace Descent.TruncatedCg

section Exact

variable {n : Nat} [RealConstants] {z p : Vec ℝ} {Δ : ℝ}

/-- The ray from `z` along `p` is within the distance `r` of the origin exactly up to `τ`, where it
is at this distance. -/
def LeavesAt (z p : Vec ℝ) (r τ : ℝ) : Prop :=
  (∀ t, 0 ≤ t → ∃ y, Vec.along z p t = .ok y ∧ (Vec.norm y ≤ r ↔ t ≤ τ)) ∧
    ∃ y, Vec.along z p τ = .ok y ∧ Vec.norm y = r

/-- A ray leaves the ball, or the sphere through its start, at the exit step. -/
theorem leavesAt_exitStep {o d : Point n} (hd : d ≠ 0) (hΔ : 0 ≤ Δ) :
    LeavesAt (coords o) (coords d) (max Δ ‖o‖) (exitStep o d Δ) := by
  refine ⟨fun t ht => ⟨_, Vec.along_coords o d t, ?_⟩, _, Vec.along_coords o d _, ?_⟩
  · rw [Vec.norm_coords]
    exact norm_add_smul_le_iff hd hΔ ht
  · rw [Vec.norm_coords]
    exact norm_add_exitStep hd hΔ

/-- **The step to the boundary is exact.** Along a direction that does not vanish it is the
parameter up to which the ray stays in the ball, and the ray is on the sphere there. From a start
outside the ball it leads to a point as far out as the start. -/
theorem boundaryStep_leaves (hlength : z.length = p.length) (hp : p ≠ Vec.zeros p.length) (Δ : ℝ) :
    ∃ τ, boundaryStep z p Δ = .ok τ ∧ 0 ≤ τ ∧
      (Vec.norm z ≤ Δ → LeavesAt z p Δ τ) ∧
      (0 ≤ Δ → Δ < Vec.norm z → LeavesAt z p (Vec.norm z) τ) := by
  obtain ⟨n, hn⟩ : ∃ n, p.length = n := ⟨_, rfl⟩
  rw [hn] at hlength hp
  obtain ⟨o, rfl⟩ := exists_coords hlength
  obtain ⟨d, rfl⟩ := exists_coords hn
  have hd : d ≠ 0 := by simpa using hp
  rw [Vec.norm_coords]
  refine ⟨_, boundaryStep_coords o d Δ, exitStep_nonneg o d Δ, fun hin => ?_, fun hΔ hout => ?_⟩
  · have hleaves := leavesAt_exitStep (o := o) hd ((norm_nonneg o).trans hin)
    rwa [max_eq_left hin] at hleaves
  · have hleaves := leavesAt_exitStep (o := o) hd hΔ
    rwa [max_eq_right hout.le] at hleaves

end Exact

/-! ## Two rays -/

section Example

attribute [local instance] RealConstants.double

/-- From `(0, 4/5)` the unit sphere is `3/5` away along the first axis. From 2 on the line, outside
the unit ball, the way through the ball is back at the distance 2 after 4. -/
theorem boundaryStep_leaves_unit :
    (Vec.norm [0, 4 / 5] ≤ (1 : ℝ) ∧ boundaryStep [0, 4 / 5] [1, 0] (1 : ℝ) = .ok (3 / 5)) ∧
      (1 : ℝ) < Vec.norm [2] ∧ boundaryStep [2] [-1] (1 : ℝ) = .ok 4 := by
  have inside : Vec.norm [0, 4 / 5] ≤ (1 : ℝ) := by
    simp [Vec.norm, Vec.normSquared, Vec.inner, Vec.sumTerms_eq]
    norm_num
  have outside : Vec.norm [(2 : ℝ)] = 2 := by
    simp [Vec.norm, Vec.normSquared, Vec.inner, Vec.sumTerms_eq]
  refine ⟨⟨inside, ?_⟩, one_lt_two.trans_eq outside.symm, ?_⟩
  · have hp : ([1, 0] : Vec ℝ) ≠ Vec.zeros 2 := by simp [Vec.zeros, Vec.constant]
    obtain ⟨τ, hτ, hpos, leaves, -⟩ :=
      boundaryStep_leaves (z := [0, 4 / 5]) (p := [1, 0]) rfl hp (1 : ℝ)
    obtain ⟨-, y, hy, hnorm⟩ := leaves inside
    have hy' : y = [τ, 4 / 5] := by
      simpa [Vec.along, Vec.add, Vec.combine, Vec.scale] using hy.symm
    have hsq : τ * τ + 4 / 5 * (4 / 5) = 1 := by
      simpa [hy', Vec.norm, Vec.normSquared, Vec.inner, Vec.sumTerms_eq] using hnorm
    have hroot : τ = 3 / 5 := by nlinarith
    exact hroot ▸ hτ
  · have hp : ([-1] : Vec ℝ) ≠ Vec.zeros 1 := by simp [Vec.zeros, Vec.constant]
    obtain ⟨τ, hτ, -, -, leaves⟩ := boundaryStep_leaves (z := [2]) (p := [-1]) rfl hp (1 : ℝ)
    rw [outside] at leaves
    obtain ⟨hwithin, y, hy, hnorm⟩ := leaves zero_le_one one_lt_two
    obtain ⟨y', hy', hiff⟩ := hwithin 1 zero_le_one
    cases hy
    cases hy'
    have hdistance : |2 + -τ| = 2 := by
      simpa [Vec.norm, Vec.normSquared, Vec.inner, Vec.sumTerms_eq, Vec.scale,
        Real.sqrt_mul_self_eq_abs] using hnorm
    -- the centre, at 1, is within the sphere, so that the root meant is not the start
    have hfar : 1 ≤ τ := by
      simpa [Vec.norm, Vec.normSquared, Vec.inner, Vec.sumTerms_eq, Vec.scale] using hiff
    have hroot : τ = 4 := by
      rcases (abs_eq zero_le_two).mp hdistance with h | h <;> linarith
    exact hroot ▸ hτ

end Example

end Descent.TruncatedCg
