import Mathlib.Tactic.TFAE
import Descent.Proofs.Extended.Projection
import Descent.TrustRegion

/-!
# Stationary points of a box

A point of a box is stationary for a gradient `g` if no point of the box lies in a direction of
descent: `gᵀ(z - x) ≥ 0` for every `z` in it. This is what the projected gradient measures
(`Box.stationary_tfae`). A component of it is zero exactly if the variable may not move downhill
(`Interval.reduced_eq_zero_iff`), whether it is at its lower bound, at its upper one, at both or at
none, and bounds that are infinite are none. The projected path of steepest descent says the same
with any length of the step: from a stationary point it leads nowhere, and from another one it moves
at once.
-/

set_option autoImplicit false

open scoped RealInnerProductSpace

namespace Descent

open Extended Vec

/-- From `x` no point of a set lies in a direction of descent for the gradient `g`. -/
def StationaryIn {E : Type} [NormedAddCommGroup E] [InnerProductSpace ℝ E] (mem : E → Prop)
    (x g : E) : Prop :=
  ∀ z, mem z → 0 ≤ ⟪g, z - x⟫

/-! ## One variable -/

namespace Interval

section Reduced

variable {α : Type} [Scalar α]

/-- The number `a` is within `tol` of an end, and a descent along the derivative `c` leads out of
the interval there. -/
def blocks (i : Interval α) (tol a c : α) : Bool :=
  i.atLower a tol && decide (0 ≤ c) || i.atUpper a tol && decide (c ≤ 0)

/-- The derivative `c` at `a`, or zero where the interval blocks descent. -/
def reduced (i : Interval α) (a c : α) : α := if i.blocks 0 a c then 0 else c

/-- The derivative is read near an end only, but it makes no difference elsewhere. -/
theorem blocks_of_inside {i : Interval α} {tol a : α} (c : α)
    (h : ¬ (i.atLower a tol || i.atUpper a tol) = true) : i.blocks tol a c = false := by
  rw [Bool.not_eq_true, Bool.or_eq_false_iff] at h
  rw [blocks, h.1, h.2]
  rfl

end Reduced

variable [RealConstants] {i : Interval Extended} {a c z : ℝ}

theorem atLower_iff : i.atLower (real a) 0 = true ↔ ∃ l, i.lower = real l ∧ a ≤ l := by
  unfold atLower
  cases i.lower with
  | real l => simp
  | _ => exact ⟨fun h => (Bool.false_ne_true h).elim, fun ⟨_, h, _⟩ => nomatch h⟩

theorem atUpper_iff : i.atUpper (real a) 0 = true ↔ ∃ u, i.upper = real u ∧ u ≤ a := by
  unfold atUpper
  cases i.upper with
  | real u => simp
  | _ => exact ⟨fun h => (Bool.false_ne_true h).elim, fun ⟨_, h, _⟩ => nomatch h⟩

theorem blocks_iff : i.blocks 0 (real a) (real c) = true ↔
    (∃ l, i.lower = real l ∧ a ≤ l) ∧ 0 ≤ c ∨ (∃ u, i.upper = real u ∧ u ≤ a) ∧ c ≤ 0 := by
  rw [blocks, Bool.or_eq_true, Bool.and_eq_true, Bool.and_eq_true, atLower_iff, atUpper_iff,
    decide_eq_true_eq, decide_eq_true_eq, real_zero, real_le, real_le]

/-- The reduced derivative of a real number is real. -/
theorem reduced_real (i : Interval Extended) (a c : ℝ) :
    i.reduced (real a) (real c) = real (if i.blocks 0 (real a) (real c) then 0 else c) := by
  unfold reduced
  split <;> rfl

/-- Where descent is blocked, no number of the interval lies downhill. -/
theorem mul_nonneg_of_blocks (h : i.blocks 0 (real a) (real c) = true)
    (hz : i.contains (real z) = true) : 0 ≤ c * (z - a) := by
  obtain ⟨hlower, hupper⟩ := contains_iff.mp hz
  rcases blocks_iff.mp h with ⟨⟨l, hl, hal⟩, hc⟩ | ⟨⟨u, hu, hua⟩, hc⟩
  · rw [hl, real_le] at hlower
    exact mul_nonneg hc (by linarith)
  · rw [hu, real_le] at hupper
    exact mul_nonneg_of_nonpos_of_nonpos hc (by linarith)

/-- From a number that is not at the lower end there is a way down. -/
theorem exists_below (ha : i.contains (real a) = true) (h : ¬ ∃ l, i.lower = real l ∧ a ≤ l) :
    ∃ z, i.contains (real z) = true ∧ z < a := by
  obtain ⟨hlower, hupper⟩ := contains_iff.mp ha
  have hbelow : ∀ z, i.lower ≤ real z → z < a → ∃ z, i.contains (real z) = true ∧ z < a :=
    fun z hz hza => ⟨z, contains_iff.mpr ⟨hz, le_trans (real_le.mpr hza.le) hupper⟩, hza⟩
  rcases (ends_of_contains ha).1 with hl | ⟨l, hl⟩
  · exact hbelow (a - 1) (by rw [hl]; trivial) (by linarith)
  · exact hbelow l (by rw [hl, real_le]) (not_le.mp fun hal => h ⟨l, hl, hal⟩)

/-- From a number that is not at the upper end there is a way up. -/
theorem exists_above (ha : i.contains (real a) = true) (h : ¬ ∃ u, i.upper = real u ∧ u ≤ a) :
    ∃ z, i.contains (real z) = true ∧ a < z := by
  obtain ⟨hlower, hupper⟩ := contains_iff.mp ha
  have habove : ∀ z, real z ≤ i.upper → a < z → ∃ z, i.contains (real z) = true ∧ a < z :=
    fun z hz haz => ⟨z, contains_iff.mpr ⟨le_trans hlower (real_le.mpr haz.le), hz⟩, haz⟩
  rcases (ends_of_contains ha).2 with hu | ⟨u, hu⟩
  · exact habove (a + 1) (by rw [hu]; trivial) (by linarith)
  · exact habove u (by rw [hu, real_le]) (not_le.mp fun hua => h ⟨u, hu, hua⟩)

/-- The reduced derivative vanishes exactly if no number of the interval lies downhill. -/
theorem reduced_eq_zero_iff (ha : i.contains (real a) = true) :
    i.reduced (real a) (real c) = real 0 ↔
      ∀ z, i.contains (real z) = true → 0 ≤ c * (z - a) := by
  rw [reduced_real, real.injEq]
  constructor
  · intro h z hz
    split at h
    · next hblocks => exact mul_nonneg_of_blocks hblocks hz
    · rw [h, zero_mul]
  · intro h
    -- a derivative that is not reduced leaves a way downhill, unless it is zero
    split
    · rfl
    · next hblocks =>
        rw [blocks_iff, not_or, not_and, not_and] at hblocks
        rcases lt_trichotomy c 0 with hc | hc | hc
        · obtain ⟨z, hz, haz⟩ := exists_above ha fun hu => hblocks.2 hu hc.le
          exact absurd (h z hz) (not_le.mpr (mul_neg_of_neg_of_pos hc (by linarith)))
        · exact hc
        · obtain ⟨z, hz, hza⟩ := exists_below ha fun hl => hblocks.1 hl hc.le
          exact absurd (h z hz) (not_le.mpr (mul_neg_of_pos_of_neg hc (by linarith)))

end Interval

/-! ## All variables -/

namespace Box

section Reduced

variable {α : Type} [Scalar α]

/-- A variable is active where its interval blocks descent. -/
theorem activeMask_eq {b : Box α} {x g : Vec α} (tol : α) (hx : x.length = b.length)
    (hg : g.length = b.length) : activeMask tol b x g
      = .ok (List.zipWith (fun i p => i.blocks tol p.1 p.2) b (x.zip g)) := by
  induction b generalizing x g with
  | nil =>
      obtain rfl := List.eq_nil_of_length_eq_zero hx
      unfold activeMask
      rfl
  | cons i b ih =>
      match x, hx, g, hg with
      | a :: x, hx, c :: g, hg =>
          rw [activeMask, List.tail_cons, ih (Nat.succ.inj hx) (Nat.succ.inj hg)]
          dsimp only
          split
          · rfl
          · next hinside =>
              rw [List.zip_cons_cons, List.zipWith_cons_cons, Interval.blocks_of_inside c hinside]
              rfl

theorem zeroWhere_eq {mask : List Bool} {g : Vec α} (h : mask.length = g.length) :
    zeroWhere mask g = .ok (List.zipWith (fun active c => if active then 0 else c) mask g) := by
  induction mask generalizing g with
  | nil =>
      obtain rfl := List.eq_nil_of_length_eq_zero h.symm
      rfl
  | cons active mask ih =>
      match g, h with
      | c :: g, h =>
          cases active with
          | _ =>
              rw [zeroWhere, List.tail_cons, ih (Nat.succ.inj h)]
              rfl

/-- The projected gradient consists of the reduced derivatives. -/
theorem projectedGradient_eq {b : Box α} {x g : Vec α} (hx : x.length = b.length)
    (hg : g.length = b.length) : b.projectedGradient x g
      = .ok (List.zipWith (fun i p => i.reduced p.1 p.2) b (x.zip g)) := by
  rw [projectedGradient, activeMask_eq 0 hx hg, Checked.ok_bind, zeroWhere_eq (by simp [hx, hg])]
  refine congrArg Except.ok (List.ext_getElem (by simp [hx, hg]) fun k hk hk' => ?_)
  simp [Interval.reduced]

end Reduced

variable [RealConstants] {n : Nat} {b : Box Extended} {x g : Point n}

/-- The projected gradient of real points is the real point of the reduced derivatives. -/
theorem exists_projectedGradient (hb : b.length = n) (x g : Point n) :
    ∃ p : Point n, b.projectedGradient (embed (coords x)) (embed (coords g))
        = .ok (embed (coords p)) ∧
      ∀ i : Fin n, ∃ j, b[(i : Nat)]? = some j ∧
        j.reduced (real (x i)) (real (g i)) = real (p i) := by
  have hin : ∀ i : Fin n, (i : Nat) < b.length := fun i => hb ▸ i.isLt
  refine ⟨pointOf fun i => if (b.get ⟨i, hin i⟩).blocks 0 (real (x i)) (real (g i)) then 0
    else g i, ?_, fun i => ⟨b.get ⟨i, hin i⟩, by simp, Interval.reduced_real _ _ _⟩⟩
  rw [projectedGradient_eq (by simpa using hb.symm) (by simpa using hb.symm)]
  refine congrArg Except.ok (List.ext_getElem (by simp [hb]) fun i hi hi' => ?_)
  simp [embed, coords, pointOf, Interval.reduced_real]

/-- No point of the box lies in a direction of descent from `x`. -/
def Stationary (b : Box Extended) (x g : Point n) : Prop :=
  StationaryIn (fun z => b.Holds (embed (coords z))) x g

/-- The variables of a box do not depend on each other. -/
theorem stationary_iff_forall (hx : b.Holds (embed (coords x))) :
    b.Stationary x g ↔ ∀ (i : Fin n) (j : Interval Extended), b[(i : Nat)]? = some j →
      ∀ c, j.contains (real c) = true → 0 ≤ g i * (c - x i) := by
  constructor
  · intro h i j hj c hc
    -- the point of the box in which only this variable has moved
    have hmoved : b.Holds (embed (coords (x + EuclideanSpace.single i (c - x i)))) := by
      refine holds_iff.mpr fun k => ?_
      by_cases hk : k = i
      · subst hk
        exact ⟨j, hj, by simpa using hc⟩
      · simpa [hk] using holds_iff.mp hx k
    simpa [EuclideanSpace.inner_single_right, mul_comm] using h _ hmoved
  · intro h z hz
    rw [PiLp.inner_apply]
    refine Finset.sum_nonneg fun i _ => ?_
    obtain ⟨j, hj, hcontains⟩ := holds_iff.mp hz i
    exact (h i j hj (z i) hcontains).trans_eq (mul_comm _ _)

/-- The projected gradient vanishes exactly at the stationary points. -/
theorem projectedGradient_eq_zeros_iff (hb : b.length = n) (hx : b.Holds (embed (coords x))) :
    b.projectedGradient (embed (coords x)) (embed (coords g)) = .ok (zeros n)
      ↔ b.Stationary x g := by
  obtain ⟨p, hp, hreduced⟩ := exists_projectedGradient hb x g
  rw [hp, zeros_embed, Except.ok.injEq, embed_injective.eq_iff, coords_inj,
    stationary_iff_forall hx]
  constructor
  · rintro rfl i j hj
    obtain ⟨_, hj', hzero⟩ := hreduced i
    obtain rfl := Option.some.inj (hj.symm.trans hj')
    exact (Interval.reduced_eq_zero_iff (hx.contains hj)).mp hzero
  · intro h
    ext i
    obtain ⟨j, hj, hpi⟩ := hreduced i
    have hzero := (Interval.reduced_eq_zero_iff (hx.contains hj)).mpr (h i j hj)
    exact Extended.real.inj (hpi.symm.trans hzero)

/-- The norm of the projected gradient, which is what a solve reports, vanishes with it. -/
theorem optimality_eq_zero_iff (hb : b.length = n) (x g : Point n) :
    (∃ active, TrustRegion.optimality b (embed (coords x)) (embed (coords g)) = .ok (0, active))
      ↔ b.projectedGradient (embed (coords x)) (embed (coords g)) = .ok (zeros n) := by
  obtain ⟨p, hp, -⟩ := exists_projectedGradient hb x g
  have hmask := activeMask_eq (x := embed (coords x)) (g := embed (coords g)) 0
    (by simpa using hb.symm) (by simpa using hb.symm)
  rw [TrustRegion.optimality, hp, hmask, Checked.ok_bind, Checked.ok_bind, norm_embed, zeros_embed,
    Except.ok.injEq, embed_injective.eq_iff, coords_inj]
  constructor
  · rintro ⟨active, h⟩
    have hnorm : real ‖p‖ = real 0 := congrArg Prod.fst (Except.ok.inj h)
    exact norm_eq_zero.mp (Extended.real.inj hnorm)
  · rintro rfl
    exact ⟨_, by rw [norm_zero]; rfl⟩

/-- From a point of the box a step of steepest descent is projected back onto it exactly if the
point is stationary, however long the step. -/
theorem project_eq_self_iff (hb : b.length = n) (hx : b.Holds (embed (coords x))) {t : ℝ}
    (ht : 0 < t) : b.project (embed (coords (x - t • g))) = .ok (embed (coords x))
      ↔ b.Stationary x g := by
  constructor
  · intro h z hz
    have hstays : b.StepTo x (x - t • g) 0 := by rwa [StepTo, add_zero]
    have hcut := (hstays.nearest hx).inner_nonpos hz
    rw [add_zero, sub_sub_cancel_left, inner_neg_left, real_inner_smul_left] at hcut
    exact nonneg_of_mul_nonneg_right (by linarith) ht
  · intro h
    obtain ⟨s, hs⟩ := exists_stepTo hb hx (x - t • g)
    have hdown : 0 ≤ ⟪g, s⟫ := by simpa using h (x + s) (hs.nearest hx).holds
    have hslope := hs.slope_le hx
    have hzero : s = 0 := by
      rw [← norm_eq_zero, ← sq_eq_zero_iff]
      linarith [sq_nonneg ‖s‖, mul_nonneg ht.le hdown]
    rwa [StepTo, hzero, add_zero] at hs

/-- **The measure of optimality is exact.** At a point of a box, with whatever finite and infinite
bounds, these are the same: the projected gradient is zero; the norm of it that a solve reports is
zero; every step of steepest descent is projected back onto the point; some step is; and the
first-order condition of optimality holds, `gᵀ(z - x) ≥ 0` for every point `z` of the box. -/
theorem stationary_tfae (hb : b.length = n) (hx : b.Holds (embed (coords x))) (g : Point n) :
    List.TFAE [
      b.projectedGradient (embed (coords x)) (embed (coords g)) = .ok (zeros n),
      ∃ active, TrustRegion.optimality b (embed (coords x)) (embed (coords g)) = .ok (0, active),
      ∀ t : ℝ, 0 < t → b.project (embed (coords (x - t • g))) = .ok (embed (coords x)),
      ∃ t : ℝ, 0 < t ∧ b.project (embed (coords (x - t • g))) = .ok (embed (coords x)),
      ∀ z : Point n, b.Holds (embed (coords z)) → 0 ≤ ⟪g, z - x⟫] := by
  tfae_have 1 ↔ 5 := projectedGradient_eq_zeros_iff hb hx
  tfae_have 1 ↔ 2 := (optimality_eq_zero_iff hb x g).symm
  tfae_have 5 → 3 := fun h t ht => (project_eq_self_iff hb hx ht).mpr h
  tfae_have 3 → 4 := fun h => ⟨1, one_pos, h 1 one_pos⟩
  tfae_have 4 → 5 := fun ⟨t, ht, h⟩ => (project_eq_self_iff hb hx ht).mp h
  tfae_finish

end Box

section Cornered

attribute [local instance] RealConstants.double

/-- A variable that is not negative, one that is fixed, and one that is at most -1. -/
noncomputable def cornered : Box Extended := [⟨real 0, top⟩, ⟨real 1, real 1⟩, ⟨bottom, real (-1)⟩]

/-- At the corner `(0, 1, -1)` the gradient `(3, -5, -1)` leads out of the box on every side, so
that steepest descent does not move. -/
theorem stationary_tfae_cornered :
    cornered.projectedGradient [real 0, real 1, real (-1)] [real 3, real (-5), real (-1)]
      = .ok [real 0, real 0, real 0] ∧
    ∀ t : ℝ, 0 < t →
      cornered.project (embed (coords (pointOf ![0, 1, -1] - t • pointOf ![3, -5, -1])))
        = .ok [real 0, real 1, real (-1)] := by
  have hx : embed (coords (pointOf ![0, 1, -1])) = [real 0, real 1, real (-1)] := by simp [embed]
  have hg : embed (coords (pointOf ![3, -5, -1])) = [real 3, real (-5), real (-1)] := by
    simp [embed]
  have hholds : cornered.Holds (embed (coords (pointOf ![0, 1, -1]))) := by
    have hbelow : ∀ r, bottom ≤ real r := fun _ => trivial
    have habove : ∀ r, real r ≤ top := fun _ => trivial
    rw [hx]
    simp [cornered, Box.holds_cons, Box.holds_nil, Interval.contains_iff, hbelow, habove]
  have hlow : Interval.blocks ⟨real 0, top⟩ 0 (real 0) (real 3) = true :=
    Interval.blocks_iff.mpr (.inl (by simp))
  have hfixed : Interval.blocks ⟨real 1, real 1⟩ 0 (real 1) (real (-5)) = true :=
    Interval.blocks_iff.mpr (.inr (by simp))
  have hhigh : Interval.blocks ⟨bottom, real (-1)⟩ 0 (real (-1)) (real (-1)) = true :=
    Interval.blocks_iff.mpr (.inr (by simp))
  have hprojected : cornered.projectedGradient [real 0, real 1, real (-1)]
      [real 3, real (-5), real (-1)] = .ok [real 0, real 0, real 0] := by
    rw [Box.projectedGradient_eq rfl rfl]
    simp only [cornered, Interval.reduced, List.zip_cons_cons, List.zip_nil_right,
      List.zipWith_cons_cons, List.zipWith_nil_right, hlow, hfixed, hhigh, if_true]
    rfl
  have htfae := Box.stationary_tfae (n := 3) (b := cornered) rfl hholds (pointOf ![3, -5, -1])
  have hpath := htfae.out 0 2
  rw [hx, hg] at hpath
  exact ⟨hprojected, hpath.mp hprojected⟩

end Cornered

end Descent
