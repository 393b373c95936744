import Otap.Optics.PmdInvariance

/-!
# The winding number is exact

The loop of `winding_number_s3` adds sixteen wrapped differences of angles around a closed sequence. Read through the
turns of the phases (`increment_eq`, `totalAngle_eq`) the sum is a whole number of full turns, whichever sample comes
first, and it changes its sign with the direction.
-/

namespace Otap.Optics

open Real Otap.Lib

namespace PolarizationTrajectory

variable {t : PolarizationTrajectory}

/-- The samples from the `k`-th on, and then those before it. -/
def shift (k : Fin trajectorySamples) (t : PolarizationTrajectory) : PolarizationTrajectory :=
  { samples := fun i => t.samples (i + k) }

/-- The samples in the opposite order. -/
def reverse (t : PolarizationTrajectory) : PolarizationTrajectory :=
  { samples := fun i => t.samples i.rev }

/-- Both loops end, in the half-open interval. -/
lemma increment_wrapped (t : PolarizationTrajectory) (i : Fin trajectorySamples) :
    (∃ d, Loop (· > π) (· - 2 * π) (t.rawIncrement i) d ∧ Loop (· ≤ -π) (· + 2 * π) d (t.increment i)) ∧
    -π < t.increment i ∧ t.increment i ≤ π := by
  obtain ⟨le, -⟩ := wrapDown_spec (t.rawIncrement i)
  obtain ⟨lower, upper, -⟩ := wrapUp_spec (wrapDown (t.rawIncrement i)) le
  exact ⟨⟨_, wrapDown_loop _, wrapUp_loop _⟩, lower, upper⟩

/-- The accumulated angle is a whole number of turns, and the winding number is that number. -/
lemma totalAngle_winding (t : PolarizationTrajectory) : t.totalAngle = t.windingNumberS3 * (2 * π) := by
  rw [totalAngle_eq]
  exact t.windingNumberS3_spec.1

lemma round_totalAngle (t : PolarizationTrajectory) :
    (roundAway (t.totalAngle / (2 * π)) : ℝ) = t.totalAngle / (2 * π) := by
  rw [totalAngle_winding, mul_div_cancel_right₀ _ two_pi_pos.ne', roundAway_intCast]

lemma windingNumberS3_shift (k : Fin trajectorySamples) (t : PolarizationTrajectory) :
    (t.shift k).windingNumberS3 = t.windingNumberS3 := by
  have phase : (t.shift k).phase = fun i => t.phase (i + k) := rfl
  rw [windingNumberS3_eq, phase, turns_shift, ← windingNumberS3_eq]

lemma windingNumberS3_reverse (noHalf : ∀ i, t.increment i ≠ π) :
    t.reverse.windingNumberS3 = -t.windingNumberS3 := by
  have noHalf (i) : t.phase (i + 1) - t.phase i ≠ π := by
    intro half
    apply noHalf i
    rw [increment_eq, half, Angle.toReal_pi]
  have phase : t.reverse.phase = fun i => t.phase i.rev := rfl
  apply winding_of_turns
  rw [phase, turns_rev noHalf, t.windingNumberS3_spec.1]
  push_cast
  ring

end PolarizationTrajectory

open PolarizationTrajectory

/-- The discrete winding number over the real numbers: the loops end with increments in `(-π, π]`, the accumulated angle
    is a whole number of turns that rounding keeps, between -7 and 8; it does not depend on the first sample, and the
    opposite order negates it when no increment is a half turn. -/
theorem windingNumberS3_exact (t : PolarizationTrajectory) :
    (∀ i, (∃ d, Loop (· > π) (· - 2 * π) (t.rawIncrement i) d ∧ Loop (· ≤ -π) (· + 2 * π) d (t.increment i)) ∧
      -π < t.increment i ∧ t.increment i ≤ π) ∧
    t.windingNumberS3 = asI32 (roundAway (t.totalAngle / (2 * π))) ∧
    (roundAway (t.totalAngle / (2 * π)) : ℝ) = t.totalAngle / (2 * π) ∧
    t.totalAngle = t.windingNumberS3 * (2 * π) ∧
    -7 ≤ t.windingNumberS3 ∧ t.windingNumberS3 ≤ 8 ∧
    (∀ k, (t.shift k).windingNumberS3 = t.windingNumberS3) ∧
    ((∀ i, t.increment i ≠ π) → t.reverse.windingNumberS3 = -t.windingNumberS3) := by
  obtain ⟨-, lower, upper⟩ := t.windingNumberS3_spec
  refine ⟨t.increment_wrapped, t.windingNumberS3_round, t.round_totalAngle, t.totalAngle_winding, lower, upper, ?_, ?_⟩
  · exact fun k => t.windingNumberS3_shift k
  · exact windingNumberS3_reverse

/-- Once around the axis, and backwards. -/
theorem windingNumberS3_cone_reverse :
    (∀ i, (cone 1).increment i ≠ π) ∧ (cone 1).windingNumberS3 = 1 ∧ (cone 1).reverse.windingNumberS3 = -1 := by
  have eighth (i) : (cone 1).increment i ≠ π := by
    rw [increment_eq, cone_phase one_pos, regular_increment nsmul_eighth, toReal_eighth]
    linarith [pi_pos]
  obtain ⟨-, -, -, -, -, -, -, reversed⟩ := windingNumberS3_exact (cone 1)
  have once := winding_cone one_pos
  exact ⟨eighth, once, by rw [reversed eighth, once]⟩

end Otap.Optics
