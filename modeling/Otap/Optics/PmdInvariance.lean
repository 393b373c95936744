import Otap.Optics.Polarization

/-!
# Invariance of the winding number under PMD

The comment of `winding_number_s3` calls the winding number invariant under arbitrary unitary transforms of the
Poincaré sphere. A rotation about the s3 axis multiplies the projection of every sample by one complex number
(`plane_aboutS3`) and leaves the winding number as it is. Every other rotation moves the axis the winding number is
taken around, and changes it for a trajectory that runs once around that axis (`cone`): when the axis is tilted, a
narrow cone ends up beside it (`cone_beside`), and when it is turned over, the trajectory runs the other way round
(`Flipped.winding`).
-/

namespace Otap.Optics

open Real Otap.Lib StokesVector

/-! ## Projections and winding numbers -/

section

variable {t t' : PolarizationTrajectory}

lemma unit_ne_zero {c s : ℝ} (unit : c ^ 2 + s ^ 2 = 1) : (⟨c, s⟩ : ℂ) ≠ 0 := by
  intro zero
  obtain ⟨re, im⟩ := Complex.ext_iff.mp zero
  simp only [Complex.zero_re, Complex.zero_im] at re im
  rw [re, im] at unit
  norm_num at unit

/-- No sample projects to the origin of the equatorial plane. -/
def PolarizationTrajectory.OffAxis (t : PolarizationTrajectory) : Prop :=
  ∀ i, (t.samples i).plane ≠ 0

/-- One factor for all projections turns every phase by the same angle. -/
lemma turns_phase_mul {u : ℂ} (nonzero : u ≠ 0) (off : t.OffAxis)
    (factor : ∀ i, (t'.samples i).plane = u * (t.samples i).plane) : turns t'.phase = turns t.phase := by
  have turned : t'.phase = fun i => (Complex.arg u : Angle) + t.phase i := by
    funext i
    rw [PolarizationTrajectory.phase, factor, Complex.arg_mul_coe_angle nonzero (off i)]
    rfl
  rw [turned, turns_add]

lemma winding_mul {u : ℂ} (nonzero : u ≠ 0) (off : t.OffAxis)
    (factor : ∀ i, (t'.samples i).plane = u * (t.samples i).plane) : t'.windingNumberS3 = t.windingNumberS3 := by
  rw [t'.windingNumberS3_eq, t.windingNumberS3_eq, turns_phase_mul nonzero off factor]

/-- The winding number of a trajectory whose turns are known. -/
lemma winding_of_turns {n : ℤ} (total : turns t.phase = n * (2 * π)) : t.windingNumberS3 = n := by
  have whole : (t.windingNumberS3 * (2 * π) : ℝ) = n * (2 * π) := t.windingNumberS3_spec.1.symm.trans total
  exact_mod_cast mul_right_cancel₀ two_pi_pos.ne' whole

/-- Projections within a half-plane do not wind around the origin. -/
lemma winding_halfPlane {p : ℂ} (within : ∀ i, 0 < ((t.samples i).plane * (starRingEnd ℂ) p).re) :
    t.windingNumberS3 = 0 := by
  apply winding_of_turns
  have nonzero (i) : (t.samples i).plane * (starRingEnd ℂ) p ≠ 0 := by
    intro zero
    simpa [zero] using within i
  -- turned by the direction of `p`, all phases have representatives within a half turn
  have turned (i) : (Complex.arg ((starRingEnd ℂ) p) : Angle) + t.phase i =
      (Complex.arg ((t.samples i).plane * (starRingEnd ℂ) p) : ℝ) := by
    rw [Complex.arg_mul_coe_angle (left_ne_zero_of_mul (nonzero i)) (right_ne_zero_of_mul (nonzero i)), add_comm]
    rfl
  have half (i) : |Complex.arg ((t.samples i).plane * (starRingEnd ℂ) p)| < π / 2 :=
    Complex.abs_arg_lt_pi_div_two_iff.mpr (.inl (within i))
  rw [← turns_add (Complex.arg ((starRingEnd ℂ) p)) t.phase, turns_eq_zero turned half]
  simp

end

/-! ## A trajectory around the axis -/

/-- Sixteen samples once around the s3 axis, at the slope `h` from it. -/
noncomputable def cone (h : ℝ) : PolarizationTrajectory :=
  { samples := fun i => StokesVector.new (h * cos (i.val * (π / 8))) (h * sin (i.val * (π / 8))) 1 }

section

variable {h : ℝ}

lemma cone_mag_pos (h : ℝ) : 0 < √(h ^ 2 + 1) :=
  sqrt_pos.mpr (by positivity)

/-- The samples of a cone, with the common length of the raw components. -/
lemma cone_sample (h : ℝ) (i : Fin trajectorySamples) :
    (cone h).samples i = ⟨h * cos (i.val * (π / 8)) / √(h ^ 2 + 1), h * sin (i.val * (π / 8)) / √(h ^ 2 + 1),
      1 / √(h ^ 2 + 1)⟩ := by
  have squares : h * cos (i.val * (π / 8)) * (h * cos (i.val * (π / 8))) +
      h * sin (i.val * (π / 8)) * (h * sin (i.val * (π / 8))) + 1 * 1 = h ^ 2 + 1 := by
    linear_combination h ^ 2 * cos_sq_add_sin_sq (i.val * (π / 8))
  have atLeast : (1e-9 : ℝ) ≤ √(h ^ 2 + 1) := by
    apply le_sqrt_of_sq_le
    nlinarith [sq_nonneg h]
  simp only [cone, StokesVector.new, squares, max_eq_left atLeast]

lemma cone_onSphere (h : ℝ) (i : Fin trajectorySamples) : ((cone h).samples i).OnSphere := by
  have root : √(h ^ 2 + 1) * √(h ^ 2 + 1) = h ^ 2 + 1 := mul_self_sqrt (by positivity)
  rw [cone_sample, OnSphere, div_mul_div_comm, div_mul_div_comm, div_mul_div_comm, root, ← add_div, ← add_div,
    div_eq_one_iff_eq (by positivity)]
  linear_combination h ^ 2 * cos_sq_add_sin_sq (i.val * (π / 8))

/-- The projection of a sample of the cone, in polar form. -/
lemma cone_plane (h : ℝ) (i : Fin trajectorySamples) : ((cone h).samples i).plane =
    (h / √(h ^ 2 + 1) : ℝ) * ⟨cos (i.val * (π / 8)), sin (i.val * (π / 8))⟩ := by
  rw [cone_sample]
  apply Complex.ext
  · rw [Complex.re_ofReal_mul]
    exact mul_div_right_comm h _ _
  · rw [Complex.im_ofReal_mul]
    exact mul_div_right_comm h _ _

lemma cone_phase (pos : 0 < h) : (cone h).phase = fun i => i.val • ((π / 8 : ℝ) : Angle) := by
  funext i
  rw [PolarizationTrajectory.phase, cone_plane, Complex.mk_eq_add_mul_I, ← Angle.cos_coe, ← Angle.sin_coe,
    Complex.arg_mul_cos_add_sin_mul_I_coe_angle (div_pos pos (cone_mag_pos h)), Angle.natCast_mul_eq_nsmul]

lemma cone_offAxis (pos : 0 < h) : (cone h).OffAxis := by
  intro i
  rw [cone_plane]
  exact mul_ne_zero (Complex.ofReal_ne_zero.mpr (div_pos pos (cone_mag_pos h)).ne')
    (unit_ne_zero (cos_sq_add_sin_sq _))

lemma nsmul_eighth : 16 • ((π / 8 : ℝ) : Angle) = 0 := by
  rw [← Angle.natCast_mul_eq_nsmul, ← Angle.coe_two_pi]
  congr 1
  push_cast
  ring

lemma toReal_eighth : ((π / 8 : ℝ) : Angle).toReal = π / 8 := by
  rw [Angle.toReal_coe_eq_self_iff]
  constructor <;> linarith [pi_pos]

lemma winding_cone (pos : 0 < h) : (cone h).windingNumberS3 = 1 := by
  apply winding_of_turns
  rw [cone_phase pos, turns_regular nsmul_eighth, toReal_eighth]
  push_cast
  ring

end

/-! ## Rotations about the axis -/

lemma plane_apply {r : PoincareRotation} {v : StokesVector} (proper : r.Proper) (unit : v.OnSphere) :
    (r.apply v).plane = ⟨r.m 0 0 * v.s1 + r.m 0 1 * v.s2 + r.m 0 2 * v.s3,
      r.m 1 0 * v.s1 + r.m 1 1 * v.s2 + r.m 1 2 * v.s3⟩ := by
  rw [proper.apply_eq unit]
  rfl

lemma plane_aboutS3 (angle : ℝ) {v : StokesVector} (unit : v.OnSphere) :
    ((PoincareRotation.aboutS3 angle).apply v).plane = ⟨cos angle, sin angle⟩ * v.plane := by
  rw [plane_apply (PoincareRotation.Built.aboutS3 angle).proper unit]
  apply Complex.ext
  · simp [PoincareRotation.aboutS3, plane]
    ring
  · simp [PoincareRotation.aboutS3, plane]
    ring

lemma winding_aboutS3 (angle : ℝ) {t : PolarizationTrajectory} (unit : ∀ i, (t.samples i).OnSphere)
    (off : t.OffAxis) : ((PoincareRotation.aboutS3 angle).transmit t).windingNumberS3 = t.windingNumberS3 := by
  have nonzero := unit_ne_zero (cos_sq_add_sin_sq angle)
  exact winding_mul nonzero off fun i => plane_aboutS3 angle (unit i)

/-! ## Rotations that tilt the axis -/

section

variable {r : PoincareRotation}

/-- The image of a unit vector of the plane, projected again, is no longer than one. -/
lemma block_le_one (proper : r.Proper) (α : ℝ) :
    (r.m 0 0 * cos α + r.m 0 1 * sin α) ^ 2 + (r.m 1 0 * cos α + r.m 1 1 * sin α) ^ 2 ≤ 1 := by
  have unit : (StokesVector.mk (cos α) (sin α) 0).OnSphere := by
    unfold OnSphere
    linear_combination cos_sq_add_sin_sq α
  have image := proper.length_keeps unit
  unfold OnSphere at image
  simp only [mul_zero, add_zero] at image
  nlinarith [mul_self_nonneg (r.m 2 0 * cos α + r.m 2 1 * sin α)]

/-- A vector of length at most one, halved, does not cancel the direction `(a, b)` of length `q`. -/
lemma beside_pos {a b x y q : ℝ} (pos : 0 < q) (length : q ^ 2 = a ^ 2 + b ^ 2) (short : x ^ 2 + y ^ 2 ≤ 1) :
    0 < a ^ 2 + b ^ 2 + q / 2 * (x * a + y * b) := by
  have square : (x * a + y * b) ^ 2 ≤ q ^ 2 := by
    nlinarith [sq_nonneg (x * b - y * a), mul_le_mul_of_nonneg_right short (sq_nonneg q)]
  have lower : -q ≤ x * a + y * b := (abs_le_of_sq_le_sq' square pos.le).1
  nlinarith [mul_le_mul_of_nonneg_left lower pos.le]

/-- How far a rotated sample of a cone lies in the direction `(m02, m12)` of the rotated axis. -/
lemma cone_along (proper : r.Proper) (h : ℝ) (i : Fin trajectorySamples) :
    (((r.transmit (cone h)).samples i).plane * (starRingEnd ℂ) ⟨r.m 0 2, r.m 1 2⟩).re =
      (r.m 0 2 ^ 2 + r.m 1 2 ^ 2 +
        h * ((r.m 0 0 * cos (i.val * (π / 8)) + r.m 0 1 * sin (i.val * (π / 8))) * r.m 0 2 +
          (r.m 1 0 * cos (i.val * (π / 8)) + r.m 1 1 * sin (i.val * (π / 8))) * r.m 1 2)) / √(h ^ 2 + 1) := by
  rw [PoincareRotation.transmit, plane_apply proper (cone_onSphere h i), cone_sample, Complex.mul_re]
  simp only [Complex.conj_re, Complex.conj_im]
  ring

/-- A cone narrower than the tilt: after the rotation the axis is outside of it. -/
lemma cone_beside (proper : r.Proper) {q : ℝ} (pos : 0 < q) (length : q ^ 2 = r.m 0 2 ^ 2 + r.m 1 2 ^ 2)
    (i : Fin trajectorySamples) :
    0 < (((r.transmit (cone (q / 2))).samples i).plane * (starRingEnd ℂ) ⟨r.m 0 2, r.m 1 2⟩).re := by
  rw [cone_along proper]
  exact div_pos (beside_pos pos length (block_le_one proper _)) (cone_mag_pos _)

end

/-! ## Rotations that turn the axis over -/

section

variable {r : PoincareRotation}

/-- The s3 axis is mapped to its opposite. -/
structure Flipped (r : PoincareRotation) : Prop where
  m02 : r.m 0 2 = 0
  m12 : r.m 1 2 = 0
  m01 : r.m 0 1 = r.m 1 0
  m11 : r.m 1 1 = -r.m 0 0
  unit : r.m 0 0 ^ 2 + r.m 1 0 ^ 2 = 1

/-- Turned over, the plane is reflected. -/
lemma Flipped.plane (flipped : Flipped r) (proper : r.Proper) {v : StokesVector} (unit : v.OnSphere) :
    (r.apply v).plane = ⟨r.m 0 0, r.m 1 0⟩ * (starRingEnd ℂ) v.plane := by
  rw [plane_apply proper unit, flipped.m01, flipped.m11, flipped.m02, flipped.m12]
  apply Complex.ext
  · simp [StokesVector.plane]
  · simp [StokesVector.plane]
    ring

lemma Flipped.offAxis (flipped : Flipped r) (proper : r.Proper) {t : PolarizationTrajectory}
    (unit : ∀ i, (t.samples i).OnSphere) (off : t.OffAxis) : (r.transmit t).OffAxis := by
  intro i
  rw [PoincareRotation.transmit, flipped.plane proper (unit i)]
  exact mul_ne_zero (unit_ne_zero flipped.unit) ((map_ne_zero _).mpr (off i))

/-- Turned over, the samples of a cone run the other way round. -/
lemma Flipped.winding (flipped : Flipped r) (proper : r.Proper) {h : ℝ} (pos : 0 < h) :
    (r.transmit (cone h)).windingNumberS3 = -1 := by
  have phase : (r.transmit (cone h)).phase =
      fun i => (Complex.arg ⟨r.m 0 0, r.m 1 0⟩ : Angle) + i.val • ((-(π / 8) : ℝ) : Angle) := by
    funext i
    have conj : (starRingEnd ℂ) ((cone h).samples i).plane ≠ 0 := (map_ne_zero _).mpr (cone_offAxis pos i)
    have before : (Complex.arg ((cone h).samples i).plane : Angle) = i.val • ((π / 8 : ℝ) : Angle) :=
      congrFun (cone_phase pos) i
    rw [PolarizationTrajectory.phase, PoincareRotation.transmit, flipped.plane proper (cone_onSphere h i),
      Complex.arg_mul_coe_angle (unit_ne_zero flipped.unit) conj, Complex.arg_conj_coe_angle, before, Angle.coe_neg,
      smul_neg]
  have closed : 16 • ((-(π / 8) : ℝ) : Angle) = 0 := by
    rw [Angle.coe_neg, smul_neg, nsmul_eighth, neg_zero]
  have representative : ((-(π / 8) : ℝ) : Angle).toReal = -(π / 8) := by
    rw [Angle.toReal_coe_eq_self_iff]
    constructor <;> linarith [pi_pos]
  apply winding_of_turns
  rw [phase, turns_add, turns_regular closed, representative]
  push_cast
  ring

lemma eq_zero_of_sum_sq {a b : ℝ} (zero : a ^ 2 + b ^ 2 = 0) : a = 0 ∧ b = 0 := by
  obtain ⟨first, second⟩ := (add_eq_zero_iff_of_nonneg (sq_nonneg a) (sq_nonneg b)).mp zero
  exact ⟨pow_eq_zero_iff two_ne_zero |>.mp first, pow_eq_zero_iff two_ne_zero |>.mp second⟩

lemma exists_angle {c s : ℝ} (unit : c ^ 2 + s ^ 2 = 1) : ∃ angle, cos angle = c ∧ sin angle = s := by
  have norm : ‖(⟨c, s⟩ : ℂ)‖ = 1 := by
    rw [Complex.norm_def, Complex.normSq_mk, ← sq, ← sq, unit, sqrt_one]
  use Complex.arg ⟨c, s⟩
  constructor
  · rw [Complex.cos_arg (unit_ne_zero unit), norm, div_one]
  · rw [Complex.sin_arg, norm, div_one]

/-- With the s3 axis mapped to itself, the plane is mapped to itself, too. -/
lemma axis_entries (proper : r.Proper) (m02 : r.m 0 2 = 0) (m12 : r.m 1 2 = 0) :
    r.m 2 0 = 0 ∧ r.m 2 1 = 0 ∧ (r.m 2 2 = 1 ∨ r.m 2 2 = -1) := by
  have c22 := proper.columns 2 2
  have c02 := proper.columns 0 2
  have c12 := proper.columns 1 2
  simp only [m02, m12, mul_zero, zero_add, ↓reduceIte, Fin.reduceEq] at c22 c02 c12
  have nonzero : r.m 2 2 ≠ 0 := left_ne_zero_of_mul_eq_one c22
  have m20 : r.m 2 0 = 0 := (mul_eq_zero.mp c02).resolve_right nonzero
  have m21 : r.m 2 1 = 0 := (mul_eq_zero.mp c12).resolve_right nonzero
  exact ⟨m20, m21, mul_self_eq_one_iff.mp c22⟩

/-- A proper rotation that keeps the axis in place either turns around it or turns it over. -/
lemma upright_or_flipped (proper : r.Proper) (m02 : r.m 0 2 = 0) (m12 : r.m 1 2 = 0) :
    (∃ angle, r = PoincareRotation.aboutS3 angle) ∨ Flipped r := by
  obtain ⟨m20, m21, axis⟩ := axis_entries proper m02 m12
  have c00 := proper.columns 0 0
  have c11 := proper.columns 1 1
  have det := (PoincareRotation.proper_iff.mp proper).2
  rw [Matrix.det_fin_three] at det
  simp only [m02, m12, m20, m21, mul_zero, zero_mul, add_zero, sub_zero, ↓reduceIte] at c00 c11 det
  have unit : r.m 0 0 ^ 2 + r.m 1 0 ^ 2 = 1 := by
    linear_combination c00
  obtain up | down := axis
  · -- the determinant makes the block a rotation
    have squares : (r.m 1 1 - r.m 0 0) ^ 2 + (r.m 0 1 + r.m 1 0) ^ 2 = 0 := by
      rw [up] at det
      linear_combination c00 + c11 - 2 * det
    obtain ⟨diagonal, opposite⟩ := eq_zero_of_sum_sq squares
    have m11 : r.m 1 1 = r.m 0 0 := sub_eq_zero.mp diagonal
    have m01 : r.m 0 1 = -r.m 1 0 := eq_neg_of_add_eq_zero_left opposite
    obtain ⟨angle, c, s⟩ := exists_angle unit
    left
    use angle
    ext i j
    fin_cases i <;> fin_cases j <;> simp [PoincareRotation.aboutS3, c, s, m01, m02, m11, m12, m20, m21, up]
  · -- the determinant makes the block a reflection
    have squares : (r.m 1 1 + r.m 0 0) ^ 2 + (r.m 0 1 - r.m 1 0) ^ 2 = 0 := by
      rw [down] at det
      linear_combination c00 + c11 - 2 * det
    obtain ⟨diagonal, opposite⟩ := eq_zero_of_sum_sq squares
    right
    exact ⟨m02, m12, sub_eq_zero.mp opposite, eq_neg_of_add_eq_zero_left diagonal, unit⟩

end

/-! ## Which rotations leave the winding number as it is -/

section

variable {r : PoincareRotation}

/-- Every trajectory on the sphere that avoids the axis, before and after the rotation, keeps its winding number. -/
def PmdInvariant (r : PoincareRotation) : Prop :=
  ∀ t : PolarizationTrajectory, (∀ i, (t.samples i).OnSphere) → t.OffAxis → (r.transmit t).OffAxis →
    (r.transmit t).windingNumberS3 = t.windingNumberS3

/-- An invariant rotation does not tilt the axis. -/
lemma PmdInvariant.axis (invariant : PmdInvariant r) (proper : r.Proper) : r.m 0 2 = 0 ∧ r.m 1 2 = 0 := by
  by_contra tilted
  have pos : 0 < r.m 0 2 ^ 2 + r.m 1 2 ^ 2 :=
    lt_of_le_of_ne (by positivity) fun zero => tilted (eq_zero_of_sum_sq zero.symm)
  have root : 0 < √(r.m 0 2 ^ 2 + r.m 1 2 ^ 2) := sqrt_pos.mpr pos
  have beside := cone_beside proper root (sq_sqrt pos.le)
  have off : (r.transmit (cone (√(r.m 0 2 ^ 2 + r.m 1 2 ^ 2) / 2))).OffAxis := by
    intro i zero
    have along := beside i
    rw [zero, zero_mul] at along
    exact lt_irrefl 0 along
  have same := invariant _ (cone_onSphere _) (cone_offAxis (half_pos root)) off
  rw [winding_halfPlane beside, winding_cone (half_pos root)] at same
  exact zero_ne_one same

/-- An invariant rotation does not turn the axis over. -/
lemma PmdInvariant.not_flipped (invariant : PmdInvariant r) (proper : r.Proper) : ¬ Flipped r := by
  intro flipped
  have off := flipped.offAxis proper (cone_onSphere 1) (cone_offAxis one_pos)
  have same := invariant _ (cone_onSphere 1) (cone_offAxis one_pos) off
  rw [flipped.winding proper one_pos, winding_cone one_pos] at same
  norm_num at same

/-- The winding number of every admissible trajectory survives a rotation of the Poincaré sphere exactly when the
rotation is one about the s3 axis. -/
theorem pmd_invariant_iff (r : PoincareRotation) (proper : r.Proper) :
    PmdInvariant r ↔ ∃ angle, r = PoincareRotation.aboutS3 angle := by
  constructor
  · intro invariant
    obtain ⟨m02, m12⟩ := invariant.axis proper
    obtain about | flipped := upright_or_flipped proper m02 m12
    · exact about
    · exact absurd flipped (invariant.not_flipped proper)
  · rintro ⟨angle, rfl⟩ t unit off _
    exact winding_aboutS3 angle unit off

/-- One radian about the s3 axis. -/
theorem pmd_invariant_aboutS3_one :
    (PoincareRotation.aboutS3 1).Proper ∧ PmdInvariant (PoincareRotation.aboutS3 1) :=
  have proper := (PoincareRotation.Built.aboutS3 1).proper
  ⟨proper, (pmd_invariant_iff (PoincareRotation.aboutS3 1) proper).mpr ⟨1, rfl⟩⟩

lemma flipped_aboutS1_pi : Flipped (PoincareRotation.aboutS1 π) := by
  constructor <;> simp [PoincareRotation.aboutS1]

/-- Half a turn about the s1 axis takes a trajectory that winds once to one that winds once the other way. -/
theorem not_pmd_invariant : (PoincareRotation.aboutS1 π).Built ∧ (PoincareRotation.aboutS1 π).Proper ∧
    (∀ i, ((cone 1).samples i).OnSphere) ∧ (cone 1).OffAxis ∧
    ((PoincareRotation.aboutS1 π).transmit (cone 1)).OffAxis ∧ (cone 1).windingNumberS3 = 1 ∧
    ((PoincareRotation.aboutS1 π).transmit (cone 1)).windingNumberS3 = -1 := by
  have built := PoincareRotation.Built.aboutS1 π
  have off := flipped_aboutS1_pi.offAxis built.proper (cone_onSphere 1) (cone_offAxis one_pos)
  exact ⟨built, built.proper, cone_onSphere 1, cone_offAxis one_pos, off, winding_cone one_pos,
    flipped_aboutS1_pi.winding built.proper one_pos⟩

end

end Otap.Optics
