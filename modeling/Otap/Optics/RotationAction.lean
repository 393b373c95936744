import Otap.Optics.Polarization
import Mathlib.Analysis.SpecialFunctions.Trigonometric.Inverse

/-!
# Rotations act on the sphere

`apply` normalizes what the matrix gives and `then` multiplies the matrices in the order of the fiber. On the Poincaré
sphere the normalization does nothing, so `apply` is the product with the matrix (`Proper.coords_apply`), and the
rotations a channel can be built with act on the sphere: one after the other is the product (`Proper.apply_andThen`),
the transpose undoes a rotation (`Built.exists_transpose`), and inner products stay (`Proper.dot_apply`).
-/

namespace Otap.Optics

open Real Matrix

/-! ## Coordinates -/

namespace StokesVector

/-- The inner product of two Stokes vectors. -/
def dot (u v : StokesVector) : ℝ :=
  u.s1 * v.s1 + u.s2 * v.s2 + u.s3 * v.s3

/-- Angular distance on the Poincaré sphere (radians). -/
noncomputable def angularDistance (self other : StokesVector) : ℝ :=
  arccos (max (-1) (min (self.dot other) 1))

/-- Horizontal linear polarization (canonical reference state). -/
def horizontal : StokesVector :=
  { s1 := 1, s2 := 0, s3 := 0 }

def coords (v : StokesVector) : Fin 3 → ℝ :=
  ![v.s1, v.s2, v.s3]

variable {u v : StokesVector}

lemma coords_injective : Function.Injective coords := by
  rintro ⟨u1, u2, u3⟩ ⟨v1, v2, v3⟩ e
  obtain rfl : u1 = v1 := congrFun e 0
  obtain rfl : u2 = v2 := congrFun e 1
  obtain rfl : u3 = v3 := congrFun e 2
  rfl

lemma dot_eq (u v : StokesVector) : u.dot v = u.coords ⬝ᵥ v.coords := by
  simp [dot, coords, dotProduct, Fin.sum_univ_three]

lemma horizontal_onSphere : horizontal.OnSphere := by
  simp [OnSphere, horizontal]

end StokesVector

open StokesVector

/-! ## The action -/

namespace PoincareRotation

variable {r q : PoincareRotation} {u v : StokesVector}

lemma andThen_m (r q : PoincareRotation) : (r.andThen q).m = q.m * r.m :=
  rfl

lemma Proper.coords_apply (proper : r.Proper) (unit : v.OnSphere) : (r.apply v).coords = r.m *ᵥ v.coords := by
  rw [proper.apply_eq unit]
  ext i
  fin_cases i <;> simp [coords, mulVec, dotProduct, Fin.sum_univ_three]

lemma apply_identity (unit : v.OnSphere) : identity.apply v = v := by
  apply coords_injective
  rw [Built.identity.proper.coords_apply unit, identity, ← one_fin_three, one_mulVec]

/-- One fiber behind another: the matrices are multiplied in the order of transit. -/
lemma Proper.apply_andThen (proper : r.Proper) (proper' : q.Proper) (unit : v.OnSphere) :
    (r.andThen q).apply v = q.apply (r.apply v) := by
  have both : (r.andThen q).Proper := mul_mem proper' proper
  apply coords_injective
  rw [both.coords_apply unit, proper'.coords_apply (proper.apply_onSphere unit), proper.coords_apply unit,
    mulVec_mulVec, andThen_m]

lemma Proper.dot_apply (proper : r.Proper) (unit : u.OnSphere) (unit' : v.OnSphere) :
    (r.apply u).dot (r.apply v) = u.dot v := by
  rw [dot_eq, dot_eq, proper.coords_apply unit, proper.coords_apply unit']
  calc (r.m *ᵥ u.coords) ⬝ᵥ (r.m *ᵥ v.coords)
      = (u.coords ᵥ* (r.mᵀ * r.m)) ⬝ᵥ v.coords := by rw [dotProduct_mulVec, vecMul_mulVec]
    _ = u.coords ⬝ᵥ v.coords := by rw [proper.transpose_mul, vecMul_one]

/-- Every rotation a channel can be built with can be undone by one. -/
lemma Built.exists_transpose (built : r.Built) : ∃ r' : PoincareRotation, r'.Built ∧ r'.m = r.mᵀ := by
  induction built with
  | identity =>
    refine ⟨_, .identity, ?_⟩
    rw [PoincareRotation.identity, ← one_fin_three, transpose_one]
  | aboutS1 angle =>
    refine ⟨_, .aboutS1 (-angle), ?_⟩
    ext i j
    fin_cases i <;> fin_cases j <;> simp [PoincareRotation.aboutS1]
  | aboutS2 angle =>
    refine ⟨_, .aboutS2 (-angle), ?_⟩
    ext i j
    fin_cases i <;> fin_cases j <;> simp [PoincareRotation.aboutS2]
  | aboutS3 angle =>
    refine ⟨_, .aboutS3 (-angle), ?_⟩
    ext i j
    fin_cases i <;> fin_cases j <;> simp [PoincareRotation.aboutS3]
  | andThen _ _ ihr ihq =>
    -- undone in the opposite order
    obtain ⟨r', builtR, transposeR⟩ := ihr
    obtain ⟨q', builtQ, transposeQ⟩ := ihq
    refine ⟨_, .andThen builtQ builtR, ?_⟩
    rw [andThen_m, andThen_m, transpose_mul, transposeR, transposeQ]

lemma Proper.apply_undone (proper : r.Proper) (proper' : q.Proper) (undoes : q.m * r.m = 1) (unit : v.OnSphere) :
    q.apply (r.apply v) = v := by
  apply coords_injective
  rw [proper'.coords_apply (proper.apply_onSphere unit), proper.coords_apply unit, mulVec_mulVec, undoes, one_mulVec]

lemma Built.exists_inverse (built : r.Built) : ∃ r' : PoincareRotation, r'.Built ∧
    ∀ w : StokesVector, w.OnSphere → r'.apply (r.apply w) = w ∧ r.apply (r'.apply w) = w := by
  obtain ⟨r', built', transpose⟩ := built.exists_transpose
  have left : r'.m * r.m = 1 := by rw [transpose, built.proper.transpose_mul]
  refine ⟨r', built', fun w unit => ⟨?_, ?_⟩⟩
  · exact built.proper.apply_undone built'.proper left unit
  · exact built'.proper.apply_undone built.proper (mul_eq_one_comm.mp left) unit

end PoincareRotation

open PoincareRotation

/-- The rotations a channel can be built with act on the sphere by isometries. -/
theorem rotations_act_by_isometries {r q : PoincareRotation} (builtR : r.Built) (builtQ : q.Built)
    {u v : StokesVector} (unitU : u.OnSphere) (unitV : v.OnSphere) :
    identity.apply u = u ∧
    (r.andThen q).apply u = q.apply (r.apply u) ∧
    (∃ r' : PoincareRotation, r'.Built ∧
      ∀ w : StokesVector, w.OnSphere → r'.apply (r.apply w) = w ∧ r.apply (r'.apply w) = w) ∧
    (r.apply u).OnSphere ∧
    (r.apply u).dot (r.apply v) = u.dot v ∧
    (r.apply u).angularDistance (r.apply v) = u.angularDistance v := by
  have dot := builtR.proper.dot_apply unitU unitV
  refine ⟨apply_identity unitU, ?_, builtR.exists_inverse, ?_, dot, ?_⟩
  · exact builtR.proper.apply_andThen builtQ.proper unitU
  · exact builtR.proper.apply_onSphere unitU
  · rw [angularDistance, dot, angularDistance]

/-- A fiber that rotates about two axes, and light that has crossed a part of it. -/
theorem rotations_act_on_horizontal :
    ((aboutS3 1).andThen (aboutS1 1)).Built ∧ ((aboutS3 1).apply horizontal).OnSphere ∧
    (((aboutS3 1).andThen (aboutS1 1)).apply horizontal).dot
      (((aboutS3 1).andThen (aboutS1 1)).apply ((aboutS3 1).apply horizontal)) =
        horizontal.dot ((aboutS3 1).apply horizontal) := by
  have built : ((aboutS3 1).andThen (aboutS1 1)).Built := .andThen (.aboutS3 1) (.aboutS1 1)
  have unit : ((aboutS3 1).apply horizontal).OnSphere := (Built.aboutS3 1).proper.apply_onSphere horizontal_onSphere
  obtain ⟨-, -, -, -, dot, -⟩ := rotations_act_by_isometries built (.aboutS2 1) horizontal_onSphere unit
  exact ⟨built, unit, dot⟩

end Otap.Optics
