import Otap.Lib.Winding
import Mathlib.LinearAlgebra.UnitaryGroup
import Mathlib.LinearAlgebra.Matrix.Notation

/-!
# Polarization trajectories

Port of the polarization part of `otap-core/src/dimensions.rs` (`StokesVector`, `PolarizationTrajectory`) and of the
channel of `otap-sim/src/lib.rs` (`PoincareRotation`, the rotation of the samples in `Channel::transmit`), over the real
numbers in place of `f32`.

The winding number is read through the projection of each sample onto the equatorial plane (`StokesVector.plane`), a
complex number: `windingNumberS3_eq` says that it depends only on the classes of the arguments of the projections, and
`windingNumberS3_spec` that it is exactly the number of their turns.
A rotation in `SO(3)` maps the sphere to itself (`Proper.apply_onSphere`), so that the normalization in `apply` does
nothing there (`Proper.apply_eq`).
-/

namespace Otap.Optics

open Real Otap.Lib

/-! ## Trajectories -/

structure StokesVector where
  s1 : ℝ
  s2 : ℝ
  s3 : ℝ

/-- Construct from raw components. Normalizes to the unit sphere. -/
noncomputable def StokesVector.new (s1 s2 s3 : ℝ) : StokesVector :=
  let mag := max (√(s1 * s1 + s2 * s2 + s3 * s3)) 1e-9
  { s1 := s1 / mag, s2 := s2 / mag, s3 := s3 / mag }

abbrev trajectorySamples : ℕ := 16

structure PolarizationTrajectory where
  samples : Fin trajectorySamples → StokesVector

/-- `y.atan2(x)`. -/
noncomputable def atan2 (y x : ℝ) : ℝ :=
  Complex.arg ⟨x, y⟩

section

local instance atLeastTwo_two : Nat.AtLeastTwo 2 := ⟨le_rfl⟩

/-- `f32::round`: half-way cases away from zero. -/
noncomputable def roundAway (x : ℝ) : ℤ :=
  if 0 ≤ x then ⌊x + 1 / 2⌋ else ⌈x - 1 / 2⌉

/-- `as i32`, which saturates. -/
def asI32 (n : ℤ) : ℤ :=
  max (-2 ^ 31) (min n (2 ^ 31 - 1))

/-- The discrete winding number of the trajectory around the s3 axis. -/
noncomputable def PolarizationTrajectory.windingNumberS3 (t : PolarizationTrajectory) : ℤ :=
  let totalAngle := (List.finRange trajectorySamples).foldl (fun total i =>
    let a := t.samples i
    let b := t.samples (i + 1)   -- `(i + 1) % TRAJECTORY_SAMPLES`
    let thetaA := atan2 a.s2 a.s1
    let thetaB := atan2 b.s2 b.s1
    total + wrapAngle (thetaB - thetaA)) 0
  asI32 (roundAway (totalAngle / (2 * π)))

end

/-! ## Rotations of the Poincaré sphere -/

@[ext]
structure PoincareRotation where
  m : Matrix (Fin 3) (Fin 3) ℝ

namespace PoincareRotation

def identity : PoincareRotation :=
  { m := !![1, 0, 0; 0, 1, 0; 0, 0, 1] }

noncomputable def aboutS3 (angle : ℝ) : PoincareRotation :=
  { m := !![cos angle, -sin angle, 0; sin angle, cos angle, 0; 0, 0, 1] }

noncomputable def aboutS1 (angle : ℝ) : PoincareRotation :=
  { m := !![1, 0, 0; 0, cos angle, -sin angle; 0, sin angle, cos angle] }

noncomputable def aboutS2 (angle : ℝ) : PoincareRotation :=
  { m := !![cos angle, 0, sin angle; 0, 1, 0; -sin angle, 0, cos angle] }

/-- Compose two rotations (`self` then `other`). -/
noncomputable def andThen (self other : PoincareRotation) : PoincareRotation :=
  { m := Matrix.of fun i j => ∑ k, other.m i k * self.m k j }

/-- Apply the rotation to a Stokes vector. -/
noncomputable def apply (r : PoincareRotation) (v : StokesVector) : StokesVector :=
  StokesVector.new
    (r.m 0 0 * v.s1 + r.m 0 1 * v.s2 + r.m 0 2 * v.s3)
    (r.m 1 0 * v.s1 + r.m 1 1 * v.s2 + r.m 1 2 * v.s3)
    (r.m 2 0 * v.s1 + r.m 2 1 * v.s2 + r.m 2 2 * v.s3)

/-- What `Channel::transmit` does to the polarization of a transient: every sample is rotated. -/
noncomputable def transmit (r : PoincareRotation) (t : PolarizationTrajectory) : PolarizationTrajectory :=
  { samples := fun i => r.apply (t.samples i) }

/-- The rotations a channel can be built with. -/
inductive Built : PoincareRotation → Prop where
  | identity : Built identity
  | aboutS1 (angle) : Built (aboutS1 angle)
  | aboutS2 (angle) : Built (aboutS2 angle)
  | aboutS3 (angle) : Built (aboutS3 angle)
  | andThen {r q} : Built r → Built q → Built (r.andThen q)

/-- A proper rotation: a member of `SO(3)`. -/
def Proper (r : PoincareRotation) : Prop :=
  r.m ∈ Matrix.specialOrthogonalGroup (Fin 3) ℝ

lemma proper_iff {r : PoincareRotation} : r.Proper ↔ r.m * r.m.transpose = 1 ∧ r.m.det = 1 := by
  rw [Proper, Matrix.mem_specialOrthogonalGroup_iff, Matrix.mem_orthogonalGroup_iff]

lemma Built.proper {r : PoincareRotation} (built : r.Built) : r.Proper := by
  induction built with
  | identity =>
    rw [proper_iff, PoincareRotation.identity, Matrix.one_fin_three.symm]
    simp
  | aboutS1 angle | aboutS2 angle | aboutS3 angle =>
    rw [proper_iff]
    constructor
    · ext i j
      fin_cases i <;> fin_cases j <;>
        simp [PoincareRotation.aboutS1, PoincareRotation.aboutS2, PoincareRotation.aboutS3, Matrix.mul_apply,
          Fin.sum_univ_three] <;>
        nlinarith [cos_sq_add_sin_sq angle]
    · rw [Matrix.det_fin_three]
      simp [PoincareRotation.aboutS1, PoincareRotation.aboutS2, PoincareRotation.aboutS3]
      nlinarith [cos_sq_add_sin_sq angle]
  | @andThen r q _ _ ihr ihq =>
    exact mul_mem ihq ihr

lemma Proper.transpose_mul {r : PoincareRotation} (proper : r.Proper) : r.m.transpose * r.m = 1 :=
  mul_eq_one_comm.mp (proper_iff.mp proper).1

/-- The columns of a proper rotation are orthonormal. -/
lemma Proper.columns {r : PoincareRotation} (proper : r.Proper) (i j : Fin 3) :
    r.m 0 i * r.m 0 j + r.m 1 i * r.m 1 j + r.m 2 i * r.m 2 j = if i = j then 1 else 0 := by
  have entry := congrFun (congrFun proper.transpose_mul i) j
  rwa [Matrix.mul_apply, Fin.sum_univ_three, Matrix.one_apply] at entry

end PoincareRotation

/-! ## The sphere -/

namespace StokesVector

/-- Fully polarized light. -/
def OnSphere (v : StokesVector) : Prop :=
  v.s1 * v.s1 + v.s2 * v.s2 + v.s3 * v.s3 = 1

/-- The projection of a sample onto the s1-s2 equatorial plane. -/
def plane (v : StokesVector) : ℂ :=
  ⟨v.s1, v.s2⟩

/-- Raw components on the sphere are kept. -/
lemma new_eq_self {s1 s2 s3 : ℝ} (unit : s1 * s1 + s2 * s2 + s3 * s3 = 1) :
    StokesVector.new s1 s2 s3 = ⟨s1, s2, s3⟩ := by
  have mag : max (√(s1 * s1 + s2 * s2 + s3 * s3)) 1e-9 = 1 := by
    rw [unit, sqrt_one]
    norm_num
  simp only [StokesVector.new, mag, div_one]

end StokesVector

open StokesVector

section

variable {r : PoincareRotation} {v : StokesVector}

/-- A proper rotation keeps the length, by the orthonormality of its columns. -/
lemma PoincareRotation.Proper.length_keeps (proper : r.Proper) (unit : v.OnSphere) :
    OnSphere ⟨r.m 0 0 * v.s1 + r.m 0 1 * v.s2 + r.m 0 2 * v.s3,
      r.m 1 0 * v.s1 + r.m 1 1 * v.s2 + r.m 1 2 * v.s3,
      r.m 2 0 * v.s1 + r.m 2 1 * v.s2 + r.m 2 2 * v.s3⟩ := by
  have c00 := proper.columns 0 0
  have c11 := proper.columns 1 1
  have c22 := proper.columns 2 2
  have c01 := proper.columns 0 1
  have c02 := proper.columns 0 2
  have c12 := proper.columns 1 2
  simp only [↓reduceIte, zero_ne_one, Fin.reduceEq] at c00 c11 c22 c01 c02 c12
  unfold OnSphere at unit ⊢
  linear_combination unit + v.s1 ^ 2 * c00 + v.s2 ^ 2 * c11 + v.s3 ^ 2 * c22 + 2 * v.s1 * v.s2 * c01 +
    2 * v.s1 * v.s3 * c02 + 2 * v.s2 * v.s3 * c12

/-- On the sphere `apply` is the product with the matrix: there is nothing to normalize. -/
lemma PoincareRotation.Proper.apply_eq (proper : r.Proper) (unit : v.OnSphere) :
    r.apply v = ⟨r.m 0 0 * v.s1 + r.m 0 1 * v.s2 + r.m 0 2 * v.s3,
      r.m 1 0 * v.s1 + r.m 1 1 * v.s2 + r.m 1 2 * v.s3,
      r.m 2 0 * v.s1 + r.m 2 1 * v.s2 + r.m 2 2 * v.s3⟩ :=
  new_eq_self (proper.length_keeps unit)

lemma PoincareRotation.Proper.apply_onSphere (proper : r.Proper) (unit : v.OnSphere) : (r.apply v).OnSphere := by
  rw [proper.apply_eq unit]
  exact proper.length_keeps unit

end

/-! ## The winding number of the projections

The variables of the loop of `winding_number_s3` have names of their own here. -/

/-- A whole number of turns is not changed by the rounding. -/
lemma roundAway_intCast (n : ℤ) : roundAway n = n := by
  have half : ⌊(1 / 2 : ℝ)⌋ = 0 := by norm_num
  unfold roundAway
  split
  · rw [Int.floor_intCast_add, half, add_zero]
  · rw [sub_eq_add_neg, Int.ceil_intCast_add, Int.ceil_neg, half, neg_zero, add_zero]

/-- The argument of a projection, up to full turns. -/
noncomputable def PolarizationTrajectory.phase (t : PolarizationTrajectory) (i : Fin trajectorySamples) : Angle :=
  Complex.arg (t.samples i).plane

namespace PolarizationTrajectory

/-- `theta_b - theta_a`. -/
noncomputable def rawIncrement (t : PolarizationTrajectory) (i : Fin trajectorySamples) : ℝ :=
  atan2 (t.samples (i + 1)).s2 (t.samples (i + 1)).s1 - atan2 (t.samples i).s2 (t.samples i).s1

/-- `d` after both loops. -/
noncomputable def increment (t : PolarizationTrajectory) (i : Fin trajectorySamples) : ℝ :=
  wrapAngle (t.rawIncrement i)

/-- `total_angle` at the end. -/
noncomputable def totalAngle (t : PolarizationTrajectory) : ℝ :=
  (List.finRange trajectorySamples).foldl (fun total i => total + t.increment i) 0

lemma windingNumberS3_round (t : PolarizationTrajectory) :
    t.windingNumberS3 = asI32 (roundAway (t.totalAngle / (2 * π))) :=
  rfl

lemma increment_eq (t : PolarizationTrajectory) (i : Fin trajectorySamples) :
    t.increment i = (t.phase (i + 1) - t.phase i).toReal := by
  rw [increment, wrapAngle_eq, rawIncrement, Angle.coe_sub]
  rfl

lemma totalAngle_eq (t : PolarizationTrajectory) : t.totalAngle = turns t.phase := by
  simp only [totalAngle, turns, Fin.sum_univ_def, List.sum_eq_foldl, List.foldl_map, increment_eq]

lemma windingNumberS3_eq (t : PolarizationTrajectory) :
    t.windingNumberS3 = asI32 (roundAway (turns t.phase / (2 * π))) := by
  rw [windingNumberS3_round, totalAngle_eq]

/-- Sixteen wrapped increments: the turns are a whole number between -7 and 8, which `round` and `as i32` keep. -/
lemma windingNumberS3_spec (t : PolarizationTrajectory) :
    turns t.phase = t.windingNumberS3 * (2 * π) ∧ -7 ≤ t.windingNumberS3 ∧ t.windingNumberS3 ≤ 8 := by
  obtain ⟨k, whole⟩ := turns_closed t.phase
  have above : (-8 : ℝ) < k := by
    have := neg_lt_turns t.phase
    rw [whole] at this
    push_cast at this
    nlinarith [pi_pos]
  have below : (k : ℝ) ≤ 8 := by
    have := turns_le t.phase
    rw [whole] at this
    push_cast at this
    nlinarith [pi_pos]
  have above : -8 < k := by exact_mod_cast above
  have below : k ≤ 8 := by exact_mod_cast below
  have winding : t.windingNumberS3 = k := by
    rw [t.windingNumberS3_eq, whole, mul_div_cancel_right₀ _ two_pi_pos.ne', roundAway_intCast, asI32]
    omega
  rw [winding]
  exact ⟨whole, by omega, below⟩

end PolarizationTrajectory

end Otap.Optics
