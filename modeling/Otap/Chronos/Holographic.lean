import Otap.Chronos.Coherence
import Mathlib.Analysis.SpecialFunctions.Complex.Arg
import Mathlib.LinearAlgebra.UnitaryGroup

/-!
# Holographic transport

Embeds the rest of `stage-chronos/holographic.py`: helices, holograms, the multimode fibre with its phase conjugation,
and the pipeline, over the real and complex numbers. The matrices that the fibre is built from are arguments.

A hologram turns the complex number `x + iy` of a point by its `z`, and a reconstruction turns it back
(`hologramPoint_eq`, `reconstructPoint_plane`). So the receiver, who undoes the fibre, recovers the manifold itself,
while somebody who does not recovers it exactly if the fibre leaves the hologram as it is (`pipeline_recovers`). The
measure of coherence does not see a common phase: a fibre that only turns the whole hologram hides nothing from it
(`global_phase_coherent`).
-/

namespace Otap.Chronos

open Otap.Lib Complex

/-! ## The code -/

/-- The step `2.0 * np.pi / num_points` between the points of a helix. -/
noncomputable def helixStep (numPoints : Int) : ℝ :=
  ((2 : Nat) : ℝ) * Real.pi / (numPoints : ℝ)

/-- `np.arange(num_points) * (2.0 * np.pi / num_points)`. -/
noncomputable def zCoords (numPoints : Int) : List ℝ :=
  (List.range numPoints.toNat).map fun i : ℕ => (i : ℝ) * helixStep numPoints

/-- `STAGEHelixEncoder.generate_helix`. -/
noncomputable def generateHelix (dataSymbol numPoints : Int) (radius : ℝ) : Except PyError (List (SpacetimePoint ℝ)) :=
  if numPoints = 0 then .error .zeroDivisionError
  else
    let lCharge : Int := 1 + dataSymbol
    .ok ((zCoords numPoints).map fun z =>
      ⟨0, radius * Real.cos ((lCharge : ℝ) * z), radius * Real.sin ((lCharge : ℝ) * z), z⟩)

/-- One entry of `SpatialLightModulator.create_hologram`. -/
noncomputable def hologramPoint (p : SpacetimePoint ℝ) : ℂ :=
  let phase := arg ⟨p.x, p.y⟩ + p.z
  let amplitude := Real.sqrt (p.x ^ 2 + p.y ^ 2)
  (amplitude : ℂ) * exp (I * (phase : ℂ))

noncomputable def createHologram (manifold : List (SpacetimePoint ℝ)) : List ℂ :=
  manifold.map hologramPoint

/-- One point of `SpatialLightModulator.reconstruct_manifold`. -/
noncomputable def reconstructPoint (e : ℂ) (z : ℝ) : SpacetimePoint ℝ :=
  let amplitude := ‖e‖
  let phase := arg e - z
  ⟨0, amplitude * Real.cos phase, amplitude * Real.sin phase, z⟩

noncomputable def reconstructManifold (hologram : List ℂ) (zs : List ℝ) : List (SpacetimePoint ℝ) :=
  List.zipWith reconstructPoint hologram zs

/-- A multimode fibre: its transmission matrix is unitary. -/
structure MultimodeFiber (modes : ℕ) where
  transmissionMatrix : Matrix (Fin modes) (Fin modes) ℂ
  unitary : transmissionMatrix ∈ Matrix.unitaryGroup (Fin modes) ℂ

namespace MultimodeFiber

variable {modes : ℕ}

/-- `Q * ph`, from the factors of a QR decomposition. -/
noncomputable def scaled (Q R : Matrix (Fin modes) (Fin modes) ℂ) : Matrix (Fin modes) (Fin modes) ℂ :=
  Matrix.of fun i j => Q i j * (R j j / (‖R j j‖ : ℂ))

lemma scaled_unitary {Q R : Matrix (Fin modes) (Fin modes) ℂ} (unitary : Q ∈ Matrix.unitaryGroup (Fin modes) ℂ)
    (diag : ∀ j, R j j ≠ 0) : scaled Q R ∈ Matrix.unitaryGroup (Fin modes) ℂ := by
  have unit (j : Fin modes) : (R j j / (‖R j j‖ : ℂ)) * star (R j j / (‖R j j‖ : ℂ)) = 1 := by
    have ne : (‖R j j‖ : ℂ) ≠ 0 := ofReal_ne_zero.mpr (norm_ne_zero_iff.mpr (diag j))
    rw [star_def, mul_conj, normSq_eq_norm_sq, norm_div, norm_real, norm_norm,
      div_self (norm_ne_zero_iff.mpr (diag j))]
    simp
  rw [Matrix.mem_unitaryGroup_iff] at unitary ⊢
  rw [← unitary]
  ext i k
  simp only [Matrix.mul_apply, Matrix.star_apply, scaled, Matrix.of_apply, star_mul']
  refine Finset.sum_congr rfl fun j _ => ?_
  linear_combination (Q i j * star (Q k j)) * unit j

/-- The constructor, for the factors of a matrix of full rank. -/
noncomputable def ofQR (Q R : Matrix (Fin modes) (Fin modes) ℂ) (unitary : Q ∈ Matrix.unitaryGroup (Fin modes) ℂ)
    (diag : ∀ j, R j j ≠ 0) : MultimodeFiber modes :=
  ⟨scaled Q R, scaled_unitary unitary diag⟩

variable (fiber : MultimodeFiber modes)

/-- `conjugation_matrix`. -/
noncomputable def conjugationMatrix : Matrix (Fin modes) (Fin modes) ℂ :=
  fiber.transmissionMatrix.conjTranspose

end MultimodeFiber

/-- `matrix @ vector`, which refuses a vector of another length. -/
noncomputable def matmul {modes : ℕ} (m : Matrix (Fin modes) (Fin modes) ℂ) (v : List ℂ) : Except PyError (List ℂ) :=
  if v.length ≠ modes then .error .valueError
  else .ok (List.ofFn (m.mulVec fun i => v.getD i 0))

/-- What `run_holographic_pipeline` returns. -/
structure PipelineResult where
  phiAdversary : Option ℝ
  phiReceiver : Option ℝ
  txManifold : List (SpacetimePoint ℝ)
  rxManifold : List (SpacetimePoint ℝ)
  advManifold : List (SpacetimePoint ℝ)

/-- `run_holographic_pipeline`, with a fibre that has been built before. -/
noncomputable def runHolographicPipeline {modes : ℕ} (fiber : MultimodeFiber modes)
    (dataSymbol resolution sampleSize : Int) : Except PyError PipelineResult := do
  let txManifold ← generateHelix dataSymbol resolution 1
  let zs := zCoords resolution
  let txHologram := createHologram txManifold
  let rxSpeckle ← matmul fiber.transmissionMatrix txHologram
  let advManifold := reconstructManifold rxSpeckle zs
  let phiAdversary ← measureHolographicCoherence .real txManifold advManifold sampleSize
  let rxRecovered ← matmul fiber.conjugationMatrix rxSpeckle
  let rxManifold := reconstructManifold rxRecovered zs
  let phiReceiver ← measureHolographicCoherence .real txManifold rxManifold sampleSize
  return ⟨phiAdversary, phiReceiver, txManifold, rxManifold, advManifold⟩

/-! ## Holograms -/

/-- The complex number of a point. -/
def SpacetimePoint.plane (p : SpacetimePoint ℝ) : ℂ := ⟨p.x, p.y⟩

/-- A hologram turns a point by its `z`. -/
lemma hologramPoint_eq (p : SpacetimePoint ℝ) : hologramPoint p = p.plane * exp (I * (p.z : ℂ)) := by
  have amplitude : Real.sqrt (p.x ^ 2 + p.y ^ 2) = ‖p.plane‖ := by
    rw [norm_def, normSq_apply]
    simp only [SpacetimePoint.plane, sq]
  have polar := norm_mul_exp_arg_mul_I p.plane
  rw [hologramPoint, amplitude, ofReal_add, mul_add, exp_add, ← mul_assoc, mul_comm I]
  change (‖p.plane‖ : ℂ) * exp ((arg p.plane : ℂ) * I) * _ = _
  rw [polar]

/-- Polar coordinates. -/
lemma mk_polar (r phase : ℝ) : (⟨r * Real.cos phase, r * Real.sin phase⟩ : ℂ) = r * exp (phase * I) := by
  apply Complex.ext
  · simp [exp_ofReal_mul_I_re, exp_ofReal_mul_I_im]
  · simp [exp_ofReal_mul_I_re, exp_ofReal_mul_I_im]

/-- A reconstruction turns it back. -/
lemma reconstructPoint_plane (e : ℂ) (z : ℝ) : (reconstructPoint e z).plane = e * exp (-(I * (z : ℂ))) := by
  have polar := norm_mul_exp_arg_mul_I e
  rw [SpacetimePoint.plane, reconstructPoint, mk_polar, ofReal_sub, sub_mul, sub_eq_add_neg, exp_add, ← mul_assoc,
    polar, mul_comm (z : ℂ) I]

/-- A point is determined by its time, its complex number and its `z`. -/
lemma SpacetimePoint.eq_of_plane {p q : SpacetimePoint ℝ} (time : p.t = q.t) (plane : p.plane = q.plane)
    (z : p.z = q.z) : p = q := by
  obtain ⟨x, y⟩ := Complex.ext_iff.mp plane
  cases p
  cases q
  simp_all [SpacetimePoint.plane]

lemma reconstructPoint_injective (z : ℝ) : Function.Injective fun e => reconstructPoint e z := by
  intro e e' same
  have planes : (reconstructPoint e z).plane = (reconstructPoint e' z).plane := congrArg SpacetimePoint.plane same
  rw [reconstructPoint_plane, reconstructPoint_plane] at planes
  exact mul_right_cancel₀ (exp_ne_zero _) planes

/-- The round trip of a point that is emitted at time zero. -/
lemma reconstruct_hologramPoint {p : SpacetimePoint ℝ} (time : p.t = 0) :
    reconstructPoint (hologramPoint p) p.z = p := by
  refine SpacetimePoint.eq_of_plane time.symm ?_ rfl
  rw [reconstructPoint_plane, hologramPoint_eq, mul_assoc, ← exp_add, add_neg_cancel, exp_zero, mul_one]

/-! ## The fibre -/

/-- A list as a vector. -/
def vector (l : List ℂ) {n : ℕ} (i : Fin n) : ℂ := l.getD i 0

lemma vector_ofFn {n : ℕ} (v : Fin n → ℂ) : vector (List.ofFn v) = v := by
  funext i
  simp [vector]

lemma ofFn_vector {n : ℕ} {l : List ℂ} (len : l.length = n) : List.ofFn (vector l : Fin n → ℂ) = l := by
  subst len
  apply List.ext_getElem
  · simp
  · intro i lt lt'
    simp [vector, lt']

/-- Phase conjugation undoes the fibre. -/
lemma MultimodeFiber.conjugation_mulVec {modes : ℕ} (fiber : MultimodeFiber modes) (v : Fin modes → ℂ) :
    fiber.conjugationMatrix.mulVec (fiber.transmissionMatrix.mulVec v) = v := by
  have inverse := Matrix.mem_unitaryGroup_iff'.mp fiber.unitary
  rw [Matrix.star_eq_conjTranspose] at inverse
  rw [Matrix.mulVec_mulVec, conjugationMatrix, inverse, Matrix.one_mulVec]

/-! ## The pipeline -/

/-- The points of a helix. -/
noncomputable def helixPoint (dataSymbol : Int) (z : ℝ) : SpacetimePoint ℝ :=
  ⟨0, 1 * Real.cos (((1 + dataSymbol : Int) : ℝ) * z), 1 * Real.sin (((1 + dataSymbol : Int) : ℝ) * z), z⟩

noncomputable def helix (dataSymbol resolution : Int) : List (SpacetimePoint ℝ) :=
  (zCoords resolution).map (helixPoint dataSymbol)

lemma helix_length (dataSymbol resolution : Int) : (helix dataSymbol resolution).length = resolution.toNat := by
  simp [helix, zCoords]

lemma generateHelix_eq {resolution : Int} (pos : 0 < resolution) (dataSymbol : Int) :
    generateHelix dataSymbol resolution 1 = .ok (helix dataSymbol resolution) := by
  rw [generateHelix, if_neg pos.ne']
  rfl

/-- The hologram of a helix. -/
noncomputable def helixVector (dataSymbol resolution : Int) : Fin resolution.toNat → ℂ :=
  vector (createHologram (helix dataSymbol resolution))

/-- What is reconstructed from a vector. -/
noncomputable def reconstructed (resolution : Int) (v : Fin resolution.toNat → ℂ) : List (SpacetimePoint ℝ) :=
  reconstructManifold (List.ofFn v) (zCoords resolution)

lemma reconstructed_length (resolution : Int) (v : Fin resolution.toNat → ℂ) :
    (reconstructed resolution v).length = resolution.toNat := by
  simp [reconstructed, reconstructManifold, zCoords]

lemma reconstructed_injective (resolution : Int) : Function.Injective (reconstructed resolution) := by
  intro v w same
  funext i
  have lt (u : Fin resolution.toNat → ℂ) : i < (reconstructed resolution u).length := by
    rw [reconstructed_length]
    exact i.isLt
  have points := List.getElem_of_eq same (lt v)
  simp only [reconstructed, reconstructManifold, List.getElem_zipWith, List.getElem_ofFn] at points
  exact reconstructPoint_injective _ points

/-- What is reconstructed from the hologram is the helix. -/
lemma reconstructed_helixVector (dataSymbol resolution : Int) :
    reconstructed resolution (helixVector dataSymbol resolution) = helix dataSymbol resolution := by
  have len : (createHologram (helix dataSymbol resolution)).length = resolution.toNat := by
    rw [createHologram, List.length_map, helix_length]
  rw [reconstructed, helixVector, ofFn_vector len, reconstructManifold, createHologram, helix, List.map_map,
    List.zipWith_map_left, List.zipWith_self]
  exact List.map_congr_left fun z _ => reconstruct_hologramPoint rfl

/-- What the pipeline returns. -/
lemma runHolographicPipeline_eq {resolution : Int} (pos : 0 < resolution) (fiber : MultimodeFiber resolution.toNat)
    (dataSymbol : Int) {sampleSize : Int} (ne : sampleSize ≠ 0) :
    runHolographicPipeline fiber dataSymbol resolution sampleSize =
      let tx := helix dataSymbol resolution
      let adv := reconstructed resolution (fiber.transmissionMatrix.mulVec (helixVector dataSymbol resolution))
      let phi (after : List (SpacetimePoint ℝ)) : Option ℝ :=
        if sampledPairs resolution.toNat sampleSize = [] then none
        else some (RealMath.real.exp (-deviation tx after sampleSize * gain))
      .ok ⟨phi adv, phi tx, tx, tx, adv⟩ := by
  have lenTx := helix_length dataSymbol resolution
  have lenAdv := reconstructed_length resolution
    (fiber.transmissionMatrix.mulVec (helixVector dataSymbol resolution))
  have sent : matmul fiber.transmissionMatrix (createHologram (helix dataSymbol resolution)) =
      .ok (List.ofFn (fiber.transmissionMatrix.mulVec (helixVector dataSymbol resolution))) := by
    rw [matmul, if_neg (by rw [createHologram, List.length_map, lenTx]; simp)]
    rfl
  have received : matmul fiber.conjugationMatrix
      (List.ofFn (fiber.transmissionMatrix.mulVec (helixVector dataSymbol resolution))) =
        .ok (List.ofFn (helixVector dataSymbol resolution)) := by
    rw [matmul, if_neg (by simp)]
    change Except.ok (List.ofFn (fiber.conjugationMatrix.mulVec (vector (List.ofFn _)))) = _
    rw [vector_ofFn, fiber.conjugation_mulVec]
  have adversary := measureHolographicCoherence_eq .real (lenTx.trans lenAdv.symm) ne
  have receiver := measureHolographicCoherence_eq .real (Eq.refl (helix dataSymbol resolution).length) ne
  have recovered := reconstructed_helixVector dataSymbol resolution
  rw [lenTx] at adversary receiver
  rw [reconstructed] at recovered adversary
  simp only [runHolographicPipeline, generateHelix_eq pos, sent, received, bind, Except.bind, recovered, adversary,
    receiver, pure, Except.pure]
  rfl

/-- The receiver recovers the manifold that was sent, through every fibre, and measures perfect coherence (or a NaN,
    where fewer than two points are sampled). An adversary who reads the speckle reconstructs the manifold exactly if
    the fibre leaves its hologram as it is. -/
theorem pipeline_recovers {resolution : Int} (pos : 0 < resolution) (fiber : MultimodeFiber resolution.toNat)
    (dataSymbol : Int) {sampleSize : Int} (ne : sampleSize ≠ 0) :
    ∃ r, runHolographicPipeline fiber dataSymbol resolution sampleSize = .ok r ∧
      generateHelix dataSymbol resolution 1 = .ok r.txManifold ∧ r.rxManifold = r.txManifold ∧
      r.phiReceiver =
        (if (pyRange 0 resolution.toNat (sampleStep resolution.toNat sampleSize)).length < 2 then none else some 1) ∧
      (r.advManifold = r.txManifold ↔ fiber.transmissionMatrix.mulVec (vector (createHologram r.txManifold)) =
        vector (createHologram r.txManifold)) := by
  refine ⟨_, runHolographicPipeline_eq pos fiber dataSymbol ne, generateHelix_eq pos dataSymbol, rfl, ?_, ?_⟩
  · have still : deviation (helix dataSymbol resolution) (helix dataSymbol resolution) sampleSize = 0 := by
      have := deviation_isometric (fun _ _ => rfl : Isometric id) (helix dataSymbol resolution) sampleSize
      rwa [List.map_id] at this
    simp only [still, neg_zero, zero_mul, RealMath.exp_zero, sampledPairs, pairs_eq_nil_iff]
  · dsimp only
    rw [← reconstructed_helixVector dataSymbol resolution, (reconstructed_injective resolution).eq_iff,
      reconstructed_helixVector]
    rfl

/-- The rotation of the plane by a phase. -/
noncomputable def turn (c : ℂ) (p : SpacetimePoint ℝ) : SpacetimePoint ℝ :=
  ⟨p.t, (c * p.plane).re, (c * p.plane).im, p.z⟩

lemma turn_isometric {c : ℂ} (unit : ‖c‖ = 1) : Isometric (turn c) := by
  intro p q
  have sq : c.re ^ 2 + c.im ^ 2 = 1 := by
    have := Complex.sq_norm c
    rw [unit, normSq_apply] at this
    linarith
  simp only [turn, SpacetimePoint.plane, SpacetimePoint.interval, mul_re, mul_im]
  linear_combination ((p.x - q.x) ^ 2 + (p.y - q.y) ^ 2) * sq

/-- What is reconstructed from a hologram that has been turned as a whole. -/
lemma reconstructed_smul (dataSymbol resolution : Int) (c : ℂ) :
    reconstructed resolution (c • helixVector dataSymbol resolution) = (helix dataSymbol resolution).map (turn c) := by
  have same := reconstructed_helixVector dataSymbol resolution
  apply List.ext_getElem
  · rw [reconstructed_length, List.length_map, helix_length]
  · intro i lt lt'
    have points := List.getElem_of_eq same (by rwa [reconstructed_length] at lt ⊢)
    simp only [reconstructed, reconstructManifold, List.getElem_zipWith, List.getElem_ofFn, List.getElem_map,
      Pi.smul_apply, smul_eq_mul] at points ⊢
    refine SpacetimePoint.eq_of_plane ?_ ?_ ?_
    · rw [← points]
      rfl
    · rw [reconstructPoint_plane, mul_assoc, ← reconstructPoint_plane, points]
      rfl
    · rw [← points]
      rfl

/-- Where the fibre only turns the hologram by a common phase, the adversary measures the coherence of the
    receiver. -/
theorem global_phase_coherent {resolution : Int} (pos : 0 < resolution) (fiber : MultimodeFiber resolution.toNat)
    (dataSymbol : Int) {sampleSize : Int} (ne : sampleSize ≠ 0) {c : ℂ} (unit : ‖c‖ = 1) {tx : List (SpacetimePoint ℝ)}
    (sent : generateHelix dataSymbol resolution 1 = .ok tx)
    (turned : fiber.transmissionMatrix.mulVec (vector (createHologram tx)) = c • vector (createHologram tx)) :
    ∃ r, runHolographicPipeline fiber dataSymbol resolution sampleSize = .ok r ∧ r.phiAdversary = r.phiReceiver := by
  rw [generateHelix_eq pos] at sent
  cases sent
  refine ⟨_, runHolographicPipeline_eq pos fiber dataSymbol ne, ?_⟩
  have adversary := deviation_isometric (turn_isometric unit) (helix dataSymbol resolution) sampleSize
  have receiver := deviation_isometric (fun _ _ => rfl : Isometric id) (helix dataSymbol resolution) sampleSize
  rw [List.map_id] at receiver
  have speckle : fiber.transmissionMatrix.mulVec (helixVector dataSymbol resolution) =
    c • helixVector dataSymbol resolution := turned
  simp only [speckle, reconstructed_smul, adversary, receiver]

/-- A fibre that turns every mode by half a period. -/
noncomputable def halfTurnFiber : MultimodeFiber (4 : Int).toNat where
  transmissionMatrix := -1
  unitary := by
    rw [Matrix.mem_unitaryGroup_iff]
    simp

theorem pipeline_recovers_halfTurnFiber :
    ∃ r, runHolographicPipeline halfTurnFiber 2 4 20 = .ok r ∧ r.rxManifold = r.txManifold ∧
      r.phiReceiver = some 1 := by
  have pos : (0 : Int) < 4 := by decide
  have ne : (20 : Int) ≠ 0 := by decide
  obtain ⟨r, ran, -, same, phi, -⟩ := pipeline_recovers pos halfTurnFiber 2 ne
  rw [if_neg (by decide)] at phi
  exact ⟨r, ran, same, phi⟩

theorem global_phase_coherent_halfTurnFiber :
    ∃ r, runHolographicPipeline halfTurnFiber 2 4 20 = .ok r ∧ r.phiAdversary = r.phiReceiver := by
  have pos : (0 : Int) < 4 := by decide
  have ne : (20 : Int) ≠ 0 := by decide
  have unit : ‖(-1 : ℂ)‖ = 1 := by simp
  refine global_phase_coherent pos halfTurnFiber 2 ne unit (generateHelix_eq pos 2) ?_
  simp [halfTurnFiber, Matrix.neg_mulVec]

end Otap.Chronos
