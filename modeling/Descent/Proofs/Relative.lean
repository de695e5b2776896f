import Descent.Proofs.Cost.Rounds
import Descent.Proofs.Ended
import Descent.Proofs.Record
import Descent.Proofs.Rounded
import Descent.Proofs.Standard

/-!
# The relative tolerance of the gradient

The threshold of a solve is the tolerance of the gradient, or the fraction `r` of the norm at the
start if that is greater. Norms are roots, and a fraction of a finite root is finite and, but for
zero, below the root even after rounding. So a norm that is small enough is finite, and one that is
small enough at the start keeps to the absolute tolerance. This holds as long as the norm at the
start is finite. A norm that overflows is not above a fraction of itself, and the solve ends at the
start (`Method.gradientTolerance_met`, `Method.overflow_met`).
-/

set_option autoImplicit false

namespace Descent

open Run

variable {α σ ω : Type} [Scalar α]

theorem Scalar.maxNum_eq_or (a b : α) : maxNum a b = a ∨ maxNum a b = b := by
  unfold maxNum
  split
  · exact .inl rfl
  · split
    · exact .inl rfl
    · exact .inr rfl

/-- The threshold of a solve with a relative tolerance. -/
theorem Solve.threshold_of_relative {s : Solve α σ ω} {r : α}
    (hr : s.options.relativeGradientTolerance = some r) (initial : α) :
    s.threshold initial = Scalar.maxNum s.options.gradientTolerance (r * initial) := by
  rw [threshold, hr]

omit [Scalar α] in
theorem Course.Trail.eq_first {c : Course α σ} {start t : Counts × σ} {p : Progress α c.Memory}
    {seen : List (Iteration α)} (h : c.Trail start 0 p t seen) : p = c.first := by
  cases h with
  | start => rfl

omit [Scalar α] in
/-- A record without iterations shows the norm at the start. -/
theorem Course.Halts.gradientNorm_of_no_iterations {c : Course α σ} {start : Counts × σ}
    {record : Record α} {seen : List (Iteration α)} (h : c.Halts start record seen)
    (hnone : record.iterations = 0) : record.gradientNorm = c.first.gradientNorm := by
  cases h with
  | between trail shows =>
      obtain rfl := shows.iterations.symm.trans hnone
      rw [shows.gradientNorm, trail.eq_first]
  | within _ _ shows => cases shows.iterations.symm.trans hnone

namespace Method

variable {method : Method α} {m : Model α σ} {x₀ : Vec α} {o : Options α} {observer : Observer α ω}
  {clock : Nat → Duration} {state : σ} {w : ω} {journal : Journal} {record : Record α}
  {seen : List (Iteration α)} {r : α}

/-- What a method measures is a root. -/
theorem Measures.exists_sqrt {iterate : Iterate α} {norm : α}
    (h : method.Measures m iterate norm) : ∃ a, norm = Scalar.sqrt a := by
  cases method with
  | projectedNewton =>
      obtain ⟨_, projected, _, _, rfl, _⟩ := h
      exact ⟨Vec.normSquared projected, rfl⟩
  | newtonCg =>
      obtain ⟨_, projected, _, _, rfl, _⟩ := h
      exact ⟨Vec.normSquared projected, rfl⟩
  | lbfgs => exact ⟨Vec.normSquared iterate.g, h.1⟩

/-- **The gradient is small enough only if it is small.** Let a solve with a relative tolerance `r`
below 1 end because its gradient is small enough. Then the norm is finite, and if there was no
iteration, it is within the absolute tolerance. The only exception is a norm that is not finite at
the start, where the solve has ended. -/
theorem gradientTolerance_met [Scalar.Standard α] [Scalar.Rounded α]
    (h : solveNoted method m x₀ o observer clock state w journal = (.ok (.ok record), seen))
    (hr : o.relativeGradientTolerance = some r) (hlt : r < 1)
    (hstatus : record.status = .gradientTolerance) :
    (Scalar.isFinite record.gradientNorm = true ∧
        (record.iterations = 0 → record.gradientNorm ≤ o.gradientTolerance)) ∨
      (Scalar.isFinite record.gradientNorm = false ∧ record.iterations = 0 ∧ 0 < r) := by
  rcases solveNoted_ended h with ⟨-, hfailed⟩ | ⟨c, start, opens, ended⟩
  · cases hstatus.symm.trans hfailed
  obtain ⟨⟨hnonneg, hfinite⟩, hrelative⟩ := Options.tolerances_of_validate opens.options_validate
  obtain ⟨hr₀, -⟩ := hrelative r hr
  have hsmall : record.gradientNorm ≤ (method.solve m o clock).threshold c.first.gradientNorm :=
    (ended.ending.reason opens).2.truthful.gradientTolerance hstatus
  have hthreshold : (method.solve m o clock).threshold c.first.gradientNorm
      = Scalar.maxNum o.gradientTolerance (r * c.first.gradientNorm) :=
    Solve.threshold_of_relative hr _
  obtain ⟨a, ha⟩ : ∃ a, record.gradientNorm = Scalar.sqrt a := by
    obtain ⟨k, p, t, trail, -, hnorm⟩ := ended.ending.trail_end
    exact hnorm ▸ (opens.trail_stands trail).measured.exists_sqrt
  obtain ⟨a₀, ha₀⟩ := opens.first_stands.measured.exists_sqrt
  have hfirst : record.iterations = 0 → record.gradientNorm = c.first.gradientNorm :=
    ended.halts.gradientNorm_of_no_iterations
  rcases Scalar.maxNum_eq_or o.gradientTolerance (r * c.first.gradientNorm) with hmax | hmax
  · -- the absolute tolerance is the threshold
    rw [hthreshold, hmax] at hsmall
    refine .inl ⟨?_, fun _ => hsmall⟩
    rw [ha] at hsmall ⊢
    exact Scalar.Rounded.isFinite_sqrt_of_le hfinite hsmall
  · have hprompt := ended.prompt
    rw [hthreshold, hmax] at hsmall hprompt
    rw [ha₀] at hsmall hprompt hfirst
    cases hstart : Scalar.isFinite (Scalar.sqrt a₀) with
    | true =>
        refine .inl ⟨?_, fun hnone => ?_⟩
        · rw [ha] at hsmall ⊢
          exact Scalar.Rounded.isFinite_sqrt_of_le
            (Scalar.Rounded.isFinite_mul_sqrt hr₀ hlt hstart) hsmall
        · rw [hfirst hnone] at hsmall ⊢
          exact Scalar.Standard.le_trans
            (Scalar.Rounded.sqrt_le_zero hr₀ hlt hstart hsmall) hnonneg
    | false =>
        obtain ⟨hself, hpos⟩ := Scalar.Rounded.sqrt_le_mul hr₀ hlt hstart hsmall
        have hnone := hprompt hself
        refine .inr ⟨?_, hnone, hpos⟩
        rw [hfirst hnone, hstart]

/-- The solve of the square by BFGS steps from 3 ends with a tenth of the gradient at the start. -/
theorem gradientTolerance_met_square :
    let o : Options Float := { relativeGradientTolerance := some 0.1 }
    ∃ record seen, solveNoted (.lbfgs {}) square [3] o (Observer.silent : Observer Float Unit)
        (fun _ => .zero) () () #[] = (.ok (.ok record), seen) ∧
      o.relativeGradientTolerance = some 0.1 ∧ (0.1 : Float) < 1 ∧
      record.status = .gradientTolerance ∧
      ((Scalar.isFinite record.gradientNorm = true ∧
          (record.iterations = 0 → record.gradientNorm ≤ o.gradientTolerance)) ∨
        (Scalar.isFinite record.gradientNorm = false ∧ record.iterations = 0 ∧
          (0 : Float) < 0.1)) := by
  intro o
  have hends : (match (solveNoted (.lbfgs {}) square [3] o
      (Observer.silent : Observer Float Unit) (fun _ => .zero) () () #[]).1 with
    | .ok (.ok record) => decide (record.status = .gradientTolerance)
    | _ => false) = true := by decide +kernel
  have hlt : (0.1 : Float) < 1 := by decide +kernel
  generalize hrun : solveNoted (.lbfgs {}) square [3] o
    (Observer.silent : Observer Float Unit) (fun _ => .zero) () () #[] = result at hends
  rcases result with ⟨_ | _ | record, seen⟩
  · cases hends
  · cases hends
  · have hstatus := of_decide_eq_true hends
    exact ⟨record, seen, rfl, rfl, hlt, hstatus, gradientTolerance_met hrun rfl hlt hstatus⟩

/-- A line so steep that the norm of its gradient overflows, though the gradient is finite. -/
def steepLine : Model Float Unit where
  dimension := 1
  objective x := pure (1e200 * x.headD 0)
  gradient _ := pure [1e200]

/-- On the steep line a solve with the relative tolerance 1/2 ends before its first iteration with
its gradient called small enough. The norm is infinite and above the absolute tolerance. -/
theorem overflow_met :
    let o : Options Float := { relativeGradientTolerance := some 0.5, maxIterations := 0 }
    o.validate = .ok () ∧ (0.5 : Float) < 1 ∧ Scalar.isFinite (1e200 * 0 : Float) = true ∧
      Vec.allFinite ([1e200] : Vec Float) = true ∧
      ∃ record, (solveNoted (.lbfgs {}) steepLine [0] o (Observer.silent : Observer Float Unit)
          (fun _ => .zero) () () #[]).1 = .ok (.ok record) ∧
        record.status = .gradientTolerance ∧ record.iterations = 0 ∧
        ¬ record.gradientNorm ≤ o.gradientTolerance ∧
        Scalar.isFinite record.gradientNorm = false := by
  intro o
  have hends : (match (solveNoted (.lbfgs {}) steepLine [0] o
      (Observer.silent : Observer Float Unit) (fun _ => .zero) () () #[]).1 with
    | .ok (.ok record) => decide (record.status = .gradientTolerance ∧ record.iterations = 0 ∧
        ¬ record.gradientNorm ≤ o.gradientTolerance ∧
        Scalar.isFinite record.gradientNorm = false)
    | _ => false) = true := by decide +kernel
  have hvalid : o.validate.toBool = true := by decide +kernel
  refine ⟨?_, by decide +kernel, by decide +kernel, by decide +kernel, ?_⟩
  · rcases h : o.validate with e | _
    · rw [h] at hvalid
      cases hvalid
    · rfl
  generalize (solveNoted (.lbfgs {}) steepLine [0] o
    (Observer.silent : Observer Float Unit) (fun _ => .zero) () () #[]).1 = result at hends
  rcases result with _ | _ | record
  · cases hends
  · cases hends
  · exact ⟨record, rfl, of_decide_eq_true hends⟩

end Method

end Descent
