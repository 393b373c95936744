import Otap.Chronos.Coherence
import Otap.Optics.Channel
import Mathlib.LinearAlgebra.Matrix.Notation

/-!
# Transport through fibre

Embeds `stage-chronos/transport.py` and `OtapFiberChannel` of `fiber_channel.py`: Lorentz boosts, and the impairments of
a fibre link. The draws of the noise generators are arguments.

Boosts and polarization mode dispersion keep every interval, so that any sequence of them is found perfectly coherent
(`lossless_coherent`). Of the other impairments that are not random, dispersion and group delay shear the time of a
point and polarization dependent loss shrinks its coordinates. Between points of equal time both can only make an
interval smaller, so that loss never makes up for shear (`interval_transfer`); dispersion and group delay are one shear
and may cancel each other.
-/

namespace Otap.Chronos

open Otap.Lib

variable {K : Type} [Field K] [LinearOrder K]

/-! ## The code -/

/-- `SpacetimeTransport.apply_lorentz_boost`. -/
def applyLorentzBoost (math : RealMath K) (manifold : List (SpacetimePoint K)) (velocity : K) :
    Except PyError (List (SpacetimePoint K)) :=
  if ¬ (-1 < velocity ∧ velocity < 1) then .error .valueError
  else
    let gamma := 1 / math.sqrt (1 - velocity ^ 2)
    .ok (manifold.map fun p => ⟨gamma * (p.t - velocity * p.x), gamma * (p.x - velocity * p.t), p.y, p.z⟩)

/-- The draws `dx[i]`, `dy[i]`, `dz[i]` of a generator. -/
structure Draw (K : Type) where
  dx : K
  dy : K
  dz : K

def perturb (manifold : List (SpacetimePoint K)) (draws : Nat → Draw K) : List (SpacetimePoint K) :=
  manifold.zipIdx.map fun (p, i) => ⟨p.t, p.x + (draws i).dx, p.y + (draws i).dy, p.z + (draws i).dz⟩

/-- `SpacetimeTransport.apply_decoherence_noise`, where `normal` draws with a given standard deviation; numpy refuses
    a negative one. -/
def applyDecoherenceNoise (manifold : List (SpacetimePoint K)) (noiseLevel : K) (normal : K → Nat → Draw K) :
    Except PyError (List (SpacetimePoint K)) :=
  if noiseLevel < 0 then .error .valueError else .ok (perturb manifold (normal noiseLevel))

/-- `_CD_NM_PER_UNIT`: `4e-5`. -/
def cdNmPerUnit : K := ((4 : Nat) : K) / ((100000 : Nat) : K)

/-- `_DGD_MANIFOLD_PER_PS`: `1e-3`. -/
def dgdManifoldPerPs : K := 1 / ((1000 : Nat) : K)

/-- `_EDFA_NOISE_SCALE`: `0.02`. -/
def edfaNoiseScale : K := ((2 : Nat) : K) / ((100 : Nat) : K)

section Rotations

variable (math : RealMath K) (a : K)

/-- `_rot_s1`. -/
def rotS1 : Matrix (Fin 3) (Fin 3) K :=
  !![1, 0, 0; 0, math.cos a, -math.sin a; 0, math.sin a, math.cos a]

/-- `_rot_s2`. -/
def rotS2 : Matrix (Fin 3) (Fin 3) K :=
  !![math.cos a, 0, math.sin a; 0, 1, 0; -math.sin a, 0, math.cos a]

/-- `_rot_s3`. -/
def rotS3 : Matrix (Fin 3) (Fin 3) K :=
  !![math.cos a, -math.sin a, 0; math.sin a, math.cos a, 0; 0, 0, 1]

end Rotations

structure FiberSpec (K : Type) where
  pmdS1 : K
  pmdS2 : K
  pmdS3 : K
  cdPsPerNmPerKm : K
  lengthKm : K
  dgdPs : K
  pdlS1Db : K
  pdlS2Db : K
  pdlS3Db : K
  edfaNoiseFigureDb : K
  nAmplifiers : Int

namespace FiberSpec

/-- `ideal`: the defaults. -/
def ideal : FiberSpec K where
  pmdS1 := 0
  pmdS2 := 0
  pmdS3 := 0
  cdPsPerNmPerKm := 0
  lengthKm := 0
  dgdPs := 0
  pdlS1Db := 0
  pdlS2Db := 0
  pdlS3Db := 0
  edfaNoiseFigureDb := 0
  nAmplifiers := 0

/-- `pdl_impaired`. -/
def pdlImpaired (pdlDb : K) : FiberSpec K :=
  { ideal with pdlS1Db := pdlDb, pdlS2Db := pdlDb * (1 / ((2 : Nat) : K)), pdlS3Db := pdlDb * (1 / ((4 : Nat) : K)) }

variable (math : RealMath K) (s : FiberSpec K)

/-- The rotation `_R` that a channel is built with. -/
def rotation : Matrix (Fin 3) (Fin 3) K :=
  rotS1 math s.pmdS1 * rotS2 math s.pmdS2 * rotS3 math s.pmdS3

section

local instance three_neZero : NeZero 3 := ⟨by decide⟩

/-- `_pmd`, for one point. -/
def pmd (p : SpacetimePoint K) : SpacetimePoint K :=
  let R := s.rotation math
  ⟨p.t, R 0 0 * p.x + R 0 1 * p.y + R 0 2 * p.z, R 1 0 * p.x + R 1 1 * p.y + R 1 2 * p.z,
    R 2 0 * p.x + R 2 1 * p.y + R 2 2 * p.z⟩

end

/-- `dl_ps_per_nm`. -/
def dlPsPerNm : K :=
  s.cdPsPerNmPerKm * s.lengthKm

/-- The factor `k_cd`. -/
def kCd : K :=
  s.dlPsPerNm * cdNmPerUnit

/-- `_chromatic_dispersion`, for one point. -/
def chromaticDispersion (p : SpacetimePoint K) : SpacetimePoint K :=
  ⟨p.t + s.kCd * p.x, p.x, p.y, p.z⟩

/-- The factor `half_tau`. -/
def halfTau : K :=
  s.dgdPs * (1 / ((2 : Nat) : K)) * dgdManifoldPerPs

/-- The projection of a point onto the first axis. -/
def proj (p : SpacetimePoint K) : K :=
  let r := math.sqrt (p.x * p.x + p.y * p.y + p.z * p.z)
  if r > 1 / ((10000000000 : Nat) : K) then p.x / r else 0

/-- `_dgd`, for one point. -/
def dgd (p : SpacetimePoint K) : SpacetimePoint K :=
  ⟨p.t + s.halfTau * proj math p, p.x, p.y, p.z⟩

/-- `10 ** (-db / 20)`. -/
def attenuation (db : K) : K :=
  math.pow10 (-db / ((20 : Nat) : K))

/-- `_pdl`, for one point. -/
def pdl (p : SpacetimePoint K) : SpacetimePoint K :=
  ⟨p.t, p.x * attenuation math s.pdlS1Db, p.y * attenuation math s.pdlS2Db, p.z * attenuation math s.pdlS3Db⟩

/-- The standard deviation of `_edfa_noise`, which is not negative. -/
def sigma : K :=
  edfaNoiseScale * math.sqrt (math.pow10 (s.edfaNoiseFigureDb / ((10 : Nat) : K)) * (s.nAmplifiers : K))

/-- `OtapFiberChannel.apply`. -/
def apply (normal : K → Nat → Draw K) (manifold : List (SpacetimePoint K)) : List (SpacetimePoint K) :=
  let pts := manifold.map (s.pmd math)
  let pts := if s.cdPsPerNmPerKm ≠ 0 ∧ s.lengthKm ≠ 0 then pts.map s.chromaticDispersion else pts
  let pts := if s.dgdPs ≠ 0 then pts.map (s.dgd math) else pts
  let pts := if s.pdlS1Db ≠ 0 ∨ s.pdlS2Db ≠ 0 ∨ s.pdlS3Db ≠ 0 then pts.map (s.pdl math) else pts
  if s.edfaNoiseFigureDb > 0 ∧ s.nAmplifiers > 0 then perturb pts (normal (s.sigma math)) else pts

end FiberSpec

/-! ## Boosts -/

section Boosts

variable [IsStrictOrderedRing K] (math : RealMath K)

/-- One point of a boost by a factor `gamma`. -/
def boostPoint (gamma velocity : K) (p : SpacetimePoint K) : SpacetimePoint K :=
  ⟨gamma * (p.t - velocity * p.x), gamma * (p.x - velocity * p.t), p.y, p.z⟩

/-- The factor `gamma`. -/
def lorentzFactor (velocity : K) : K :=
  1 / math.sqrt (1 - velocity ^ 2)

omit [IsStrictOrderedRing K] in
lemma applyLorentzBoost_eq {velocity : K} (slow : -1 < velocity ∧ velocity < 1) (manifold : List (SpacetimePoint K)) :
    applyLorentzBoost math manifold velocity =
      .ok (manifold.map (boostPoint (lorentzFactor math velocity) velocity)) := by
  rw [applyLorentzBoost, if_neg (not_not.mpr slow)]
  rfl

lemma one_sub_sq_pos {velocity : K} (slow : -1 < velocity ∧ velocity < 1) : 0 < 1 - velocity ^ 2 := by
  have factored : 1 - velocity ^ 2 = (1 - velocity) * (1 + velocity) := by ring
  rw [factored]
  exact mul_pos (by linarith [slow.2]) (by linarith [slow.1])

lemma lorentzFactor_sq {velocity : K} (slow : -1 < velocity ∧ velocity < 1) :
    lorentzFactor math velocity ^ 2 * (1 - velocity ^ 2) = 1 := by
  have pos := one_sub_sq_pos slow
  rw [lorentzFactor, div_pow, one_pow, math.sqrt_sq _ pos.le, one_div_mul_cancel pos.ne']

/-- A boost keeps intervals. -/
lemma interval_boostPoint {velocity : K} (slow : -1 < velocity ∧ velocity < 1) (p q : SpacetimePoint K) :
    (boostPoint (lorentzFactor math velocity) velocity p).interval
      (boostPoint (lorentzFactor math velocity) velocity q) = p.interval q := by
  have unit := lorentzFactor_sq math slow
  simp only [boostPoint, SpacetimePoint.interval]
  linear_combination ((p.x - q.x) ^ 2 - (p.t - q.t) ^ 2) * unit

end Boosts

/-! ## Polarization mode dispersion -/

omit [LinearOrder K] in
open Matrix in
/-- An orthogonal matrix keeps the length of a vector. -/
lemma dotProduct_mulVec_self {n : Type*} [Fintype n] [DecidableEq n] {R : Matrix n n K} (orthogonal : Rᵀ * R = 1)
    (v : n → K) : (R *ᵥ v) ⬝ᵥ (R *ᵥ v) = v ⬝ᵥ v := by
  rw [Matrix.dotProduct_mulVec, ← Matrix.mulVec_transpose, Matrix.mulVec_mulVec, orthogonal, Matrix.one_mulVec]

section Orthogonal

open Matrix

omit [LinearOrder K] in
lemma transpose_mul_self_mul {A B : Matrix (Fin 3) (Fin 3) K} (hA : Aᵀ * A = 1) (hB : Bᵀ * B = 1) :
    (A * B)ᵀ * (A * B) = 1 := by
  rw [Matrix.transpose_mul, Matrix.mul_assoc, ← Matrix.mul_assoc Aᵀ, hA, Matrix.one_mul, hB]

variable (math : RealMath K) (a : K)

lemma rotS1_orthogonal : (rotS1 math a)ᵀ * rotS1 math a = 1 := by
  have unit := math.cos_sq_add_sin_sq a
  ext i j
  fin_cases i <;> fin_cases j <;> simp [rotS1, Matrix.mul_apply, Fin.sum_univ_three] <;> grind

lemma rotS2_orthogonal : (rotS2 math a)ᵀ * rotS2 math a = 1 := by
  have unit := math.cos_sq_add_sin_sq a
  ext i j
  fin_cases i <;> fin_cases j <;> simp [rotS2, Matrix.mul_apply, Fin.sum_univ_three] <;> grind

lemma rotS3_orthogonal : (rotS3 math a)ᵀ * rotS3 math a = 1 := by
  have unit := math.cos_sq_add_sin_sq a
  ext i j
  fin_cases i <;> fin_cases j <;> simp [rotS3, Matrix.mul_apply, Fin.sum_univ_three] <;> grind

lemma FiberSpec.rotation_orthogonal (s : FiberSpec K) : (s.rotation math)ᵀ * s.rotation math = 1 :=
  transpose_mul_self_mul (transpose_mul_self_mul (rotS1_orthogonal ..) (rotS2_orthogonal ..)) (rotS3_orthogonal ..)

/-- The rotation of a link keeps distances. -/
lemma FiberSpec.pmd_distance (s : FiberSpec K) (p q : SpacetimePoint K) :
    ((s.pmd math p).x - (s.pmd math q).x) ^ 2 + ((s.pmd math p).y - (s.pmd math q).y) ^ 2 +
        ((s.pmd math p).z - (s.pmd math q).z) ^ 2 =
      (p.x - q.x) ^ 2 + (p.y - q.y) ^ 2 + (p.z - q.z) ^ 2 := by
  have kept := dotProduct_mulVec_self (s.rotation_orthogonal math) ![p.x - q.x, p.y - q.y, p.z - q.z]
  simp only [dotProduct, Matrix.mulVec, Fin.sum_univ_three, Matrix.cons_val] at kept
  simp only [FiberSpec.pmd]
  linear_combination kept

/-- The rotation with the opposite angles. -/
def FiberSpec.opposite (s : FiberSpec K) : FiberSpec K :=
  { s with pmdS1 := -s.pmdS1, pmdS2 := -s.pmdS2, pmdS3 := -s.pmdS3 }

/-- The rotation that `Channel::random_pmd` of the simulator makes of the same three angles. -/
noncomputable def FiberSpec.simulated (s : FiberSpec ℝ) : Optics.PoincareRotation :=
  ((Optics.PoincareRotation.aboutS1 s.pmdS1).andThen (.aboutS2 s.pmdS2)).andThen (.aboutS3 s.pmdS3)

open Optics in
lemma FiberSpec.simulated_eq_transpose (s : FiberSpec ℝ) : s.simulated.m = (s.opposite.rotation .real)ᵀ := by
  ext i j
  fin_cases i <;> fin_cases j <;>
    simp [simulated, PoincareRotation.andThen, PoincareRotation.aboutS1, PoincareRotation.aboutS2,
      PoincareRotation.aboutS3, rotation, opposite, rotS1, rotS2, rotS3, RealMath.real, Fin.sum_univ_three] <;> ring

open Optics in
/-- The simulator composes its three rotations in the opposite order: they make up the inverse of a link's rotation by
    the opposite angles, and the link's own rotation only if one of the angles is a multiple of `π`. -/
theorem random_pmd_composition :
    (∀ seed, ∃ s : FiberSpec ℝ, (Channel.randomPmd seed).pmdRotation = s.simulated) ∧
      ∀ s : FiberSpec ℝ, s.simulated.m * s.opposite.rotation .real = 1 ∧
        (s.simulated.m = s.rotation .real → Real.sin s.pmdS1 * Real.sin s.pmdS2 * Real.sin s.pmdS3 = 0) := by
  refine ⟨fun seed => ?_, fun s => ⟨?_, fun same => ?_⟩⟩
  · exact ⟨{ FiberSpec.ideal with pmdS1 := _, pmdS2 := _, pmdS3 := _ }, rfl⟩
  · rw [s.simulated_eq_transpose, s.opposite.rotation_orthogonal]
  · -- the entry in the middle has the product once with each sign
    have entry := congrFun (congrFun same 1) 1
    simp [FiberSpec.simulated, PoincareRotation.andThen, PoincareRotation.aboutS1, PoincareRotation.aboutS2,
      PoincareRotation.aboutS3, FiberSpec.rotation, rotS1, rotS2, rotS3, RealMath.real, Matrix.mul_apply,
      Fin.sum_univ_three] at entry
    linarith

end Orthogonal

/-! ## What a link does to intervals -/

namespace FiberSpec

variable (math : RealMath K) (s : FiberSpec K)

/-- A link without amplifier noise. -/
def Quiet : Prop :=
  ¬ (s.edfaNoiseFigureDb > 0 ∧ s.nAmplifiers > 0)

/-- How far dispersion and group delay shift the time of a point. -/
def shear (p : SpacetimePoint K) : K :=
  s.kCd * (s.pmd math p).x + s.halfTau * proj math (s.pmd math p)

/-- What a quiet link does to a point. -/
def transfer (p : SpacetimePoint K) : SpacetimePoint K :=
  s.pdl math (s.dgd math (s.chromaticDispersion (s.pmd math p)))

omit [LinearOrder K] in
/-- The guard of dispersion skips a step that would do nothing. -/
lemma chromaticDispersion_skipped (skipped : ¬ (s.cdPsPerNmPerKm ≠ 0 ∧ s.lengthKm ≠ 0)) :
    s.chromaticDispersion = id := by
  have zero : s.kCd = 0 := by
    rw [kCd, dlPsPerNm]
    grind
  funext p
  simp [chromaticDispersion, zero]

lemma dgd_skipped (skipped : ¬ s.dgdPs ≠ 0) : s.dgd math = id := by
  have zero : s.halfTau = 0 := by rw [halfTau, not_not.mp skipped, zero_mul, zero_mul]
  funext p
  simp [dgd, zero]

lemma attenuation_zero : attenuation math 0 = 1 := by
  rw [attenuation, neg_zero, zero_div, math.pow10_zero]

lemma pdl_skipped (skipped : ¬ (s.pdlS1Db ≠ 0 ∨ s.pdlS2Db ≠ 0 ∨ s.pdlS3Db ≠ 0)) : s.pdl math = id := by
  push Not at skipped
  obtain ⟨first, second, third⟩ := skipped
  funext p
  simp [pdl, first, second, third, attenuation_zero]

omit [Field K] [LinearOrder K] in
/-- A step behind a guard that only skips what does nothing. -/
lemma map_of_guard {α : Type} {c : Prop} [Decidable c] {f : α → α} (skipped : ¬ c → f = id) (l : List α) :
    (if c then l.map f else l) = l.map f := by
  split
  case isTrue => rfl
  case isFalse no => rw [skipped no, List.map_id]

lemma apply_quiet (quiet : s.Quiet) (normal : K → Nat → Draw K) (manifold : List (SpacetimePoint K)) :
    s.apply math normal manifold = manifold.map (s.transfer math) := by
  rw [apply, if_neg quiet, map_of_guard s.chromaticDispersion_skipped, map_of_guard (s.dgd_skipped math),
    map_of_guard (s.pdl_skipped math), List.map_map, List.map_map, List.map_map]
  rfl

/-- The projection does not read the time. -/
lemma proj_time (p : SpacetimePoint K) (t : K) : proj math ⟨t, p.x, p.y, p.z⟩ = proj math p :=
  rfl

lemma transfer_eq (p : SpacetimePoint K) :
    s.transfer math p = ⟨p.t + s.shear math p, (s.pmd math p).x * attenuation math s.pdlS1Db,
      (s.pmd math p).y * attenuation math s.pdlS2Db, (s.pmd math p).z * attenuation math s.pdlS3Db⟩ := by
  have time : (s.pmd math p).t = p.t := rfl
  simp only [transfer, pdl, dgd, chromaticDispersion, proj_time, shear, time, add_assoc]

/-- How much smaller a quiet link makes the interval of two points. -/
def intervalLoss (p q : SpacetimePoint K) : K :=
  (s.shear math p - s.shear math q) ^ 2 +
    (1 - attenuation math s.pdlS1Db ^ 2) * ((s.pmd math p).x - (s.pmd math q).x) ^ 2 +
    (1 - attenuation math s.pdlS2Db ^ 2) * ((s.pmd math p).y - (s.pmd math q).y) ^ 2 +
    (1 - attenuation math s.pdlS3Db ^ 2) * ((s.pmd math p).z - (s.pmd math q).z) ^ 2

/-- Between points of equal time, shear and loss both make the interval smaller. -/
lemma interval_transfer {p q : SpacetimePoint K} (time : p.t = q.t) :
    (s.transfer math p).interval (s.transfer math q) - p.interval q = -s.intervalLoss math p q := by
  have kept := s.pmd_distance math p q
  simp only [transfer_eq, SpacetimePoint.interval, intervalLoss, time]
  linear_combination kept

end FiberSpec

/-! ## Sequences of transports -/

/-- A call of one of the transports; the draws are those of its generator. -/
inductive Hop (K : Type) where
  | boost (velocity : K)
  | noise (noiseLevel : K) (normal : K → Nat → Draw K)
  | fiber (spec : FiberSpec K) (normal : K → Nat → Draw K)

namespace Hop

variable (math : RealMath K)

def run (manifold : List (SpacetimePoint K)) : Hop K → Except PyError (List (SpacetimePoint K))
  | boost velocity => applyLorentzBoost math manifold velocity
  | noise noiseLevel normal => applyDecoherenceNoise manifold noiseLevel normal
  | fiber spec normal => .ok (spec.apply math normal manifold)

/-- The calls that raise an error: boosts that are not slower than light, and a negative noise level. -/
def Refused : Hop K → Prop
  | boost velocity => ¬ (-1 < velocity ∧ velocity < 1)
  | noise noiseLevel _ => noiseLevel < 0
  | fiber _ _ => False

/-- Boosts, and links that only rotate. -/
def Lossless : Hop K → Prop
  | boost velocity => -1 < velocity ∧ velocity < 1
  | noise _ _ => False
  | fiber spec _ => spec.Quiet ∧ spec.dlPsPerNm = 0 ∧ spec.dgdPs = 0 ∧
      spec.pdlS1Db = 0 ∧ spec.pdlS2Db = 0 ∧ spec.pdlS3Db = 0

end Hop

/-- Run the transports one after the other. -/
def transport (math : RealMath K) (hops : List (Hop K)) (manifold : List (SpacetimePoint K)) :
    Except PyError (List (SpacetimePoint K)) :=
  hops.foldlM (fun manifold hop => hop.run math manifold) manifold

section Ordered

variable [IsStrictOrderedRing K] (math : RealMath K)

/-- A lossless call moves every point by the same isometry. -/
lemma Hop.run_lossless {hop : Hop K} (lossless : hop.Lossless) :
    ∃ f, Isometric f ∧ ∀ manifold, hop.run math manifold = .ok (manifold.map f) := by
  cases hop with
  | boost velocity =>
    exact ⟨_, interval_boostPoint math lossless, applyLorentzBoost_eq math lossless⟩
  | noise noiseLevel normal => exact lossless.elim
  | fiber spec normal =>
    obtain ⟨quiet, dl, dgd, first, second, third⟩ := lossless
    refine ⟨spec.transfer math, fun p q => ?_, fun manifold => congrArg _ (spec.apply_quiet math quiet normal manifold)⟩
    have kept := spec.pmd_distance math p q
    have still (r : SpacetimePoint K) : spec.shear math r = 0 := by
      simp [FiberSpec.shear, FiberSpec.kCd, FiberSpec.halfTau, dl, dgd]
    simp only [FiberSpec.transfer_eq, still, first, second, third, FiberSpec.attenuation_zero, SpacetimePoint.interval]
    linear_combination kept

/-- Lossless calls, one after the other, make up an isometry. -/
lemma transport_lossless {hops : List (Hop K)} (lossless : ∀ hop ∈ hops, hop.Lossless) :
    ∃ f, Isometric f ∧ ∀ manifold, transport math hops manifold = .ok (manifold.map f) := by
  induction hops with
  | nil => exact ⟨id, fun _ _ => rfl, fun manifold => by rw [List.map_id]; rfl⟩
  | cons hop hops ih =>
    obtain ⟨f, isoF, runF⟩ := Hop.run_lossless math (lossless hop List.mem_cons_self)
    obtain ⟨g, isoG, runG⟩ := ih fun later mem => lossless later (List.mem_cons_of_mem hop mem)
    refine ⟨g ∘ f, fun p q => (isoG _ _).trans (isoF p q), fun manifold => ?_⟩
    rw [transport, List.foldlM_cons, runF, ← List.map_map, ← runG]
    rfl

omit [IsStrictOrderedRing K] in
/-- A call raises a `ValueError` if it is refused, and nothing else. -/
lemma Hop.run_error_iff {hop : Hop K} {manifold : List (SpacetimePoint K)} {e : PyError} :
    hop.run math manifold = .error e ↔ e = .valueError ∧ hop.Refused := by
  cases hop with
  | boost velocity =>
    by_cases slow : -1 < velocity ∧ velocity < 1
    · simp [run, Refused, applyLorentzBoost, slow]
    · simp [run, Refused, applyLorentzBoost, slow, eq_comm]
  | noise noiseLevel normal =>
    by_cases negative : noiseLevel < 0
    · simp [run, Refused, applyDecoherenceNoise, negative, eq_comm]
    · simp [run, Refused, applyDecoherenceNoise, negative]
  | fiber spec normal => simp [run, Refused]

omit [IsStrictOrderedRing K] in
/-- A run fails if and only if one of its calls is refused. -/
lemma transport_error_iff {hops : List (Hop K)} {manifold : List (SpacetimePoint K)} {e : PyError} :
    transport math hops manifold = .error e ↔ e = .valueError ∧ ∃ hop ∈ hops, hop.Refused := by
  induction hops generalizing manifold with
  | nil => simp [transport, pure, Except.pure]
  | cons hop hops ih =>
    rw [transport, List.foldlM_cons]
    cases first : hop.run math manifold with
    | error e' =>
      obtain ⟨rfl, refused⟩ := (Hop.run_error_iff math).mp first
      have raised : ((.error .valueError : Except PyError (List (SpacetimePoint K))) >>= fun manifold =>
          hops.foldlM (fun manifold hop => hop.run math manifold) manifold) = .error .valueError := rfl
      rw [raised, Except.error.injEq]
      exact ⟨fun same => ⟨same.symm, hop, List.mem_cons_self, refused⟩, fun h => h.1.symm⟩
    | ok next =>
      have accepted : ¬ hop.Refused := by
        intro refused
        have raised : hop.run math manifold = .error .valueError := (Hop.run_error_iff math).mpr ⟨rfl, refused⟩
        rw [first] at raised
        cases raised
      have later : transport math hops next = .error e ↔ e = .valueError ∧ ∃ hop ∈ hops, hop.Refused := ih
      refine later.trans (and_congr_right fun _ => ?_)
      rw [List.exists_mem_cons_iff, or_iff_right accepted]

/-- Any sequence of boosts and of links that only rotate is found perfectly coherent, and a sequence of transports of
    whatever kind fails exactly if one of its boosts is not slower than light or one of its noise levels is negative. -/
theorem lossless_coherent (hops : List (Hop K)) (tx : List (SpacetimePoint K)) {sampleSize : Int}
    (ne : sampleSize ≠ 0) :
    ((∀ hop ∈ hops, hop.Lossless) → ∃ rx, transport math hops tx = .ok rx ∧
        measureCoherence math tx rx sampleSize = .ok (1, 0)) ∧
      ∀ e, transport math hops tx = .error e ↔ e = .valueError ∧ ∃ hop ∈ hops, hop.Refused := by
  refine ⟨fun lossless => ?_, fun e => transport_error_iff math⟩
  obtain ⟨f, iso, run⟩ := transport_lossless math lossless
  refine ⟨tx.map f, run tx, ?_⟩
  rw [measureCoherence_eq math (List.length_map f).symm ne, deviation_isometric iso, neg_zero, zero_mul, math.exp_zero]

end Ordered

/-- Half the velocity of light. -/
noncomputable def halfLight : ℝ := 1 / ((2 : Nat) : ℝ)

lemma halfLight_slow : -1 < halfLight ∧ halfLight < 1 := by
  rw [halfLight]
  constructor <;> norm_num

/-- A boost and a link keep two points coherent; a boost and a negative noise level raise an error. -/
theorem lossless_coherent_boosted :
    (∃ rx, transport .real [.boost halfLight, .fiber .ideal fun _ _ => ⟨0, 0, 0⟩] restPair = .ok rx ∧
      measureCoherence .real restPair rx 20 = .ok (1, 0)) ∧
    transport .real [.boost halfLight, .noise (-1) fun _ _ => ⟨0, 0, 0⟩] restPair = .error .valueError := by
  have ne : (20 : Int) ≠ 0 := by decide
  refine ⟨(lossless_coherent .real _ _ ne).1 fun hop mem => ?_, ((lossless_coherent .real _ _ ne).2 _).mpr ?_⟩
  · rcases List.mem_pair.mp mem with rfl | rfl
    · exact halfLight_slow
    · exact ⟨fun noisy => lt_irrefl _ noisy.1, zero_mul _, rfl, rfl, rfl, rfl⟩
  · exact ⟨rfl, _, List.mem_cons_of_mem _ List.mem_cons_self, neg_one_lt_zero⟩

/-! ## Impaired links -/

namespace FiberSpec

variable [IsStrictOrderedRing K] (math : RealMath K)

/-- The losses of a link without gain are not negative. -/
structure Passive (s : FiberSpec K) : Prop where
  first : 0 ≤ s.pdlS1Db
  second : 0 ≤ s.pdlS2Db
  third : 0 ≤ s.pdlS3Db

lemma attenuation_anti {db db' : K} (le : db ≤ db') : attenuation math db' ≤ attenuation math db := by
  refine math.pow10_strictMono.monotone ?_
  exact div_le_div_of_nonneg_right (neg_le_neg le) (Nat.cast_nonneg _)

/-- What an axis loses of the square of a length grows with the loss. -/
lemma one_sub_attenuation_mono {db db' : K} (le : db ≤ db') :
    1 - attenuation math db ^ 2 ≤ 1 - attenuation math db' ^ 2 :=
  sub_le_sub_left (pow_le_pow_left₀ (math.pow10_pos _).le (attenuation_anti math le) 2) 1

lemma one_sub_attenuation_nonneg {db : K} (nonneg : 0 ≤ db) : 0 ≤ 1 - attenuation math db ^ 2 := by
  have := one_sub_attenuation_mono math nonneg
  rwa [attenuation_zero, one_pow, sub_self] at this

lemma one_sub_attenuation_pos {db : K} (pos : 0 < db) : 0 < 1 - attenuation math db ^ 2 := by
  have below : attenuation math db < 1 := by
    rw [← attenuation_zero math]
    refine math.pow10_strictMono (div_lt_div_of_pos_right (neg_lt_neg pos) ?_)
    exact Nat.cast_pos.mpr (by decide)
  exact sub_pos.mpr (pow_lt_one₀ (math.pow10_pos _).le below (by decide))

lemma axis_loss_nonneg {db : K} (nonneg : 0 ≤ db) (d : K) : 0 ≤ (1 - attenuation math db ^ 2) * d ^ 2 :=
  mul_nonneg (one_sub_attenuation_nonneg math nonneg) (sq_nonneg d)

/-- An axis keeps its part of an interval if it loses nothing or has no part. -/
lemma axis_loss_eq_zero_iff {db : K} (nonneg : 0 ≤ db) (d : K) :
    (1 - attenuation math db ^ 2) * d ^ 2 = 0 ↔ (0 < db → d = 0) := by
  rcases nonneg.eq_or_lt with rfl | pos
  · simp [attenuation_zero]
  · rw [mul_eq_zero, or_iff_right (one_sub_attenuation_pos math pos).ne', sq_eq_zero_iff]
    exact ⟨fun zero _ => zero, fun zero => zero pos⟩

variable {s s' : FiberSpec K}

lemma intervalLoss_nonneg (passive : s.Passive) (p q : SpacetimePoint K) : 0 ≤ s.intervalLoss math p q := by
  have first := axis_loss_nonneg math passive.first ((s.pmd math p).x - (s.pmd math q).x)
  have second := axis_loss_nonneg math passive.second ((s.pmd math p).y - (s.pmd math q).y)
  have third := axis_loss_nonneg math passive.third ((s.pmd math p).z - (s.pmd math q).z)
  exact add_nonneg (add_nonneg (add_nonneg (sq_nonneg _) first) second) third

/-- The intervals that a link keeps. -/
lemma intervalLoss_eq_zero_iff (passive : s.Passive) (p q : SpacetimePoint K) :
    s.intervalLoss math p q = 0 ↔ s.shear math p = s.shear math q ∧
      (0 < s.pdlS1Db → (s.pmd math p).x = (s.pmd math q).x) ∧ (0 < s.pdlS2Db → (s.pmd math p).y = (s.pmd math q).y) ∧
      (0 < s.pdlS3Db → (s.pmd math p).z = (s.pmd math q).z) := by
  have first := axis_loss_nonneg math passive.first ((s.pmd math p).x - (s.pmd math q).x)
  have second := axis_loss_nonneg math passive.second ((s.pmd math p).y - (s.pmd math q).y)
  have third := axis_loss_nonneg math passive.third ((s.pmd math p).z - (s.pmd math q).z)
  have square := sq_nonneg (s.shear math p - s.shear math q)
  rw [intervalLoss, add_eq_zero_iff_of_nonneg (add_nonneg (add_nonneg square first) second) third,
    add_eq_zero_iff_of_nonneg (add_nonneg square first) second, add_eq_zero_iff_of_nonneg square first,
    axis_loss_eq_zero_iff math passive.first, axis_loss_eq_zero_iff math passive.second,
    axis_loss_eq_zero_iff math passive.third, sq_eq_zero_iff]
  simp only [sub_eq_zero, and_assoc]

/-- A link is at least as impaired as another one: the same rotation, no smaller losses, and a shear of which the
    other one's is a part. -/
structure Stronger (s s' : FiberSpec K) : Prop where
  pmd : s.pmdS1 = s'.pmdS1 ∧ s.pmdS2 = s'.pmdS2 ∧ s.pmdS3 = s'.pmdS3
  first : s.pdlS1Db ≤ s'.pdlS1Db
  second : s.pdlS2Db ≤ s'.pdlS2Db
  third : s.pdlS3Db ≤ s'.pdlS3Db
  shear : ∃ c, c ^ 2 ≤ 1 ∧ s.dlPsPerNm = c * s'.dlPsPerNm ∧ s.dgdPs = c * s'.dgdPs

lemma intervalLoss_mono (stronger : s.Stronger s') (p q : SpacetimePoint K) :
    s.intervalLoss math p q ≤ s'.intervalLoss math p q := by
  obtain ⟨c, le, dl, dgd⟩ := stronger.shear
  have rotated (r : SpacetimePoint K) : s.pmd math r = s'.pmd math r := by
    simp only [FiberSpec.pmd, rotation, stronger.pmd.1, stronger.pmd.2.1, stronger.pmd.2.2]
  have part (r : SpacetimePoint K) : s.shear math r = c * s'.shear math r := by
    rw [FiberSpec.shear, FiberSpec.shear, rotated, kCd, kCd, halfTau, halfTau, dl, dgd]
    ring
  have sheared : (s.shear math p - s.shear math q) ^ 2 ≤ (s'.shear math p - s'.shear math q) ^ 2 := by
    rw [part, part, ← mul_sub, mul_pow]
    exact mul_le_of_le_one_left (sq_nonneg _) le
  rw [intervalLoss, intervalLoss, rotated, rotated]
  refine add_le_add (add_le_add (add_le_add sheared ?_) ?_) ?_
  · exact mul_le_mul_of_nonneg_right (one_sub_attenuation_mono math stronger.first) (sq_nonneg _)
  · exact mul_le_mul_of_nonneg_right (one_sub_attenuation_mono math stronger.second) (sq_nonneg _)
  · exact mul_le_mul_of_nonneg_right (one_sub_attenuation_mono math stronger.third) (sq_nonneg _)

omit [IsStrictOrderedRing K] in
/-- The change of a sampled interval, for points that are emitted at one time. -/
lemma intervalChange_transfer {tx : List (SpacetimePoint K)} {t : K} (time : ∀ p ∈ tx, p.t = t) {sampleSize : Int}
    {p : Nat × Nat} (sampled : p ∈ sampledPairs tx.length sampleSize) :
    intervalChange tx (tx.map (s.transfer math)) p =
      -s.intervalLoss math (tx.getD p.1 .origin) (tx.getD p.2 .origin) := by
  obtain ⟨a, memA, b, memB, rfl, rfl, change⟩ := intervalChange_map (s.transfer math) sampled
  rw [change, s.interval_transfer math ((time _ memA).trans (time _ memB).symm)]

end FiberSpec

section Impaired

variable [IsStrictOrderedRing K] (math : RealMath K) {s s' : FiberSpec K} {tx : List (SpacetimePoint K)} {t : K}

/-- Among links without amplifier noise and without gain, a more impaired one is never found more coherent. -/
theorem impairments_accumulate (quiet : s.Quiet) (quiet' : s'.Quiet) (passive : s.Passive) (stronger : s.Stronger s')
    (time : ∀ p ∈ tx, p.t = t) {sampleSize : Int} (ne : sampleSize ≠ 0) (normal normal' : K → Nat → Draw K) :
    ∃ phi mse phi' mse', measureCoherence math tx (s.apply math normal tx) sampleSize = .ok (phi, mse) ∧
      measureCoherence math tx (s'.apply math normal' tx) sampleSize = .ok (phi', mse') ∧ phi' ≤ phi ∧ phi ≤ 1 := by
  rw [s.apply_quiet math quiet, s'.apply_quiet math quiet']
  refine ⟨_, _, _, _, measureCoherence_eq math (List.length_map _).symm ne,
    measureCoherence_eq math (List.length_map _).symm ne, ?_, ?_⟩
  · refine exp_deviation_anti math rfl fun p sampled => ?_
    have nonneg := FiberSpec.intervalLoss_nonneg math passive (tx.getD p.1 .origin) (tx.getD p.2 .origin)
    have le := FiberSpec.intervalLoss_mono math stronger (tx.getD p.1 .origin) (tx.getD p.2 .origin)
    rw [FiberSpec.intervalChange_transfer math time sampled, FiberSpec.intervalChange_transfer math time sampled,
      abs_neg, abs_neg, abs_of_nonneg nonneg, abs_of_nonneg (nonneg.trans le)]
    exact le
  · have nonneg := deviation_nonneg tx (tx.map (s.transfer math)) sampleSize
    rw [← math.exp_zero]
    exact math.exp_strictMono.monotone (mul_nonpos_of_nonpos_of_nonneg (neg_nonpos.mpr nonneg) gain_pos.le)

/-- A link is found perfectly coherent if and only if it delays the two points of every sampled pair alike and no axis
    that has a loss tells them apart. -/
theorem channel_coherent_iff (quiet : s.Quiet) (passive : s.Passive) (time : ∀ p ∈ tx, p.t = t) {sampleSize : Int}
    (ne : sampleSize ≠ 0) (normal : K → Nat → Draw K) :
    ∃ phi mse, measureCoherence math tx (s.apply math normal tx) sampleSize = .ok (phi, mse) ∧
      (phi = 1 ↔ ∀ p ∈ sampledPairs tx.length sampleSize,
        let a := tx.getD p.1 .origin
        let b := tx.getD p.2 .origin
        s.shear math a = s.shear math b ∧ (0 < s.pdlS1Db → (s.pmd math a).x = (s.pmd math b).x) ∧
          (0 < s.pdlS2Db → (s.pmd math a).y = (s.pmd math b).y) ∧
          (0 < s.pdlS3Db → (s.pmd math a).z = (s.pmd math b).z)) := by
  rw [s.apply_quiet math quiet]
  refine ⟨_, _, measureCoherence_eq math (List.length_map _).symm ne, ?_⟩
  rw [exp_deviation_eq_one_iff]
  refine forall₂_congr fun p sampled => ?_
  rw [FiberSpec.intervalChange_transfer math time sampled, neg_eq_zero, FiberSpec.intervalLoss_eq_zero_iff math passive]

end Impaired

/-- A link with a loss of one decibel on its first axis. -/
noncomputable def tappedFiber : FiberSpec ℝ := .pdlImpaired 1

lemma tappedFiber_quiet : tappedFiber.Quiet :=
  fun noisy => lt_irrefl _ noisy.1

lemma tappedFiber_passive : tappedFiber.Passive := by
  constructor <;> simp [tappedFiber, FiberSpec.pdlImpaired]

theorem impairments_accumulate_tappedFiber :
    ∃ phi mse phi' mse', measureCoherence .real [⟨0, 1, 0, 0⟩, ⟨0, 0, 1, 0⟩]
        (FiberSpec.ideal.apply .real (fun _ _ => ⟨0, 0, 0⟩) [⟨0, 1, 0, 0⟩, ⟨0, 0, 1, 0⟩]) 20 = .ok (phi, mse) ∧
      measureCoherence .real [⟨0, 1, 0, 0⟩, ⟨0, 0, 1, 0⟩]
        (tappedFiber.apply .real (fun _ _ => ⟨0, 0, 0⟩) [⟨0, 1, 0, 0⟩, ⟨0, 0, 1, 0⟩]) 20 = .ok (phi', mse') ∧
      phi' ≤ phi ∧ phi ≤ 1 := by
  have quiet : (FiberSpec.ideal : FiberSpec ℝ).Quiet := fun noisy => lt_irrefl _ noisy.1
  have passive : (FiberSpec.ideal : FiberSpec ℝ).Passive := ⟨le_rfl, le_rfl, le_rfl⟩
  have stronger : FiberSpec.ideal.Stronger tappedFiber :=
    ⟨⟨rfl, rfl, rfl⟩, tappedFiber_passive.first, tappedFiber_passive.second, tappedFiber_passive.third, 0, by simp,
      by simp [FiberSpec.dlPsPerNm, FiberSpec.ideal], by simp [FiberSpec.ideal]⟩
  have time : ∀ p ∈ ([⟨0, 1, 0, 0⟩, ⟨0, 0, 1, 0⟩] : List (SpacetimePoint ℝ)), p.t = 0 := by simp
  have ne : (20 : Int) ≠ 0 := by decide
  exact impairments_accumulate .real quiet tappedFiber_quiet passive stronger time ne _ _

/-- Two points of the tapped link that differ along the axis with the loss. -/
theorem channel_coherent_iff_tappedFiber :
    ∃ phi mse, measureCoherence .real [⟨0, 1, 0, 0⟩, ⟨0, 0, 1, 0⟩]
      (tappedFiber.apply .real (fun _ _ => ⟨0, 0, 0⟩) [⟨0, 1, 0, 0⟩, ⟨0, 0, 1, 0⟩]) 20 = .ok (phi, mse) ∧ phi ≠ 1 := by
  have time : ∀ p ∈ ([⟨0, 1, 0, 0⟩, ⟨0, 0, 1, 0⟩] : List (SpacetimePoint ℝ)), p.t = 0 := by simp
  have ne : (20 : Int) ≠ 0 := by decide
  obtain ⟨phi, mse, measured, one⟩ :=
    channel_coherent_iff .real tappedFiber_quiet tappedFiber_passive time ne fun _ _ => ⟨0, 0, 0⟩
  refine ⟨phi, mse, measured, fun perfect => ?_⟩
  have sampled : ((0, 1) : Nat × Nat) ∈ sampledPairs 2 20 := by decide
  have same := (one.mp perfect (0, 1) sampled).2.1 (by simp [tappedFiber, FiberSpec.pdlImpaired])
  simp [tappedFiber, FiberSpec.pdlImpaired, FiberSpec.ideal, FiberSpec.pmd, FiberSpec.rotation, rotS1, rotS2, rotS3,
    RealMath.real, Matrix.mul_apply, Fin.sum_univ_three] at same

end Otap.Chronos
