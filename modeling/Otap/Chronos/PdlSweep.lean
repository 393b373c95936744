import Otap.Chronos.FiberChannel

/-!
# The sweep over polarization dependent loss

Embeds `encode_torus` of `stage-chronos/encoder.py` and `pdl_sweep.py`: the calibrated coherence of a torus under a loss
on one axis, for an ascending list of losses, and the first loss at which it is below a threshold.

The loss enters the deviation of every interval by one common factor, so that the calibrated coherence is
`1 / (1 + (1 - ρ²) c)` where `ρ` is the attenuation and `c` does not depend on it (`measureNormalizedDeviation_pdl`).
It falls along the sweep, and `crossing` is the exact boundary of detection (`crossing_is_boundary`).
-/

namespace Otap.Chronos

open Otap.Lib

variable {K : Type} [Field K] [LinearOrder K]

/-! ## The code -/

/-- A decimal fraction. -/
def decimal (n d : Nat) : K := (n : K) / (d : K)

/-- `STAGEManifoldEncoder.encode_torus`; `np.linspace` refuses a negative number of points. -/
def encodeTorus (math : RealMath K) (symbol : Int) (timeT : K) (resolution : Int) :
    Except PyError (List (SpacetimePoint K)) :=
  if resolution < 0 then .error .valueError
  else
    let R : K := decimal 2 1 + (symbol : K) * 1
    let r : K := decimal 1 2 + (symbol : K) * decimal 1 2
    let thetas := linspace 0 (decimal 2 1 * math.pi) resolution.toNat
    let phis := linspace 0 (decimal 2 1 * math.pi) resolution.toNat
    .ok (thetas.flatMap fun theta => phis.map fun phi =>
      ⟨timeT, (R + r * math.cos theta) * math.cos phi, (R + r * math.cos theta) * math.sin phi, r * math.sin theta⟩)

/-- `_apply_pdl`. -/
def applyPdl (math : RealMath K) (manifold : List (SpacetimePoint K)) (pdlDb : K) : List (SpacetimePoint K) :=
  let ratio := math.pow10 (-pdlDb / ((20 : Nat) : K))
  manifold.map fun p => ⟨p.t, p.x, p.y * ratio, p.z⟩

/-- `measure_normalized_deviation`. -/
def measureNormalizedDeviation (math : RealMath K) (tx rx : List (SpacetimePoint K)) (sampleSize : Int) :
    Except PyError (K × K) :=
  if sampleSize = 0 then .error .zeroDivisionError
  else
    let n := tx.length
    let step := sampleStep n sampleSize
    if ∃ i ∈ pyRange 0 n step, ∃ j ∈ pyRange (i + step) n step, rx.length ≤ i ∨ rx.length ≤ j then .error .indexError
    else
      let (sqDev, sqRef, comparisons) := (pyRange 0 n step).foldl (fun acc i =>
        (pyRange (i + step) n step).foldl (fun (sqDev, sqRef, comparisons) j =>
          let ds2B := (tx.getD i .origin).interval (tx.getD j .origin)
          let ds2A := (rx.getD i .origin).interval (rx.getD j .origin)
          (sqDev + (ds2A - ds2B) ^ 2, sqRef + ds2B ^ 2, comparisons + 1)) acc) ((0 : K), (0 : K), (0 : Nat))
      let rmsDev := math.sqrt (sqDev / ((max 1 comparisons : Nat) : K))
      let rmsRef := math.sqrt (sqRef / ((max 1 comparisons : Nat) : K))
      let rmsRel := rmsDev / max (decimal 1 1000000000000) rmsRef
      .ok (rmsRel, 1 / (1 + rmsRel))

/-- The losses of the sweep. -/
def pdlPoints : List K :=
  linspace 0 (decimal 1 2) 26 ++ linspace (decimal 3 5) (decimal 3 2) 10 ++ linspace (decimal 7 4) (decimal 3 1) 6

/-- A row `(pdl_db, phi_cal, rms_rel)` of the results. -/
structure SweepRow (K : Type) where
  pdlDb : K
  phiCal : K
  rmsRel : K

/-- `run_pdl_sweep`. -/
def runPdlSweep (math : RealMath K) (resolution sampleSize : Int) : Except PyError (List (SweepRow K)) := do
  let tx ← encodeTorus math 1 0 resolution
  pdlPoints.mapM fun pdlDb => do
    let rx := applyPdl math tx pdlDb
    let (rmsRel, phiCal) ← measureNormalizedDeviation math tx rx sampleSize
    return ⟨pdlDb, phiCal, rmsRel⟩

/-- `crossing`. -/
def crossing (results : List (SweepRow K)) (thrPhi : K) : Option K :=
  (results.find? fun row => row.phiCal < thrPhi).map SweepRow.pdlDb

/-! ## The normalized deviation -/

section Loops

omit [LinearOrder K]

/-- A loop with two sums and a count. -/
lemma foldl_sums_count {α : Type} (f g : α → K) (l : List α) (s t : K) (c : Nat) :
    l.foldl (fun acc p => (acc.1 + f p, acc.2.1 + g p, acc.2.2 + 1)) (s, t, c) =
      (s + (l.map f).sum, t + (l.map g).sum, c + l.length) := by
  induction l generalizing s t c with
  | nil => simp
  | cons a l ih =>
    rw [List.foldl_cons, ih]
    simp only [List.map_cons, List.sum_cons, List.length_cons, Prod.mk.injEq]
    exact ⟨by ring, by ring, by omega⟩

end Loops

/-- The mean square of the sampled intervals. -/
def reference (manifold : List (SpacetimePoint K)) (sampleSize : Int) : K :=
  mean ((sampledPairs manifold.length sampleSize).map fun p =>
    (manifold.getD p.1 .origin).interval (manifold.getD p.2 .origin) ^ 2)

/-- What `measure_normalized_deviation` divides by. -/
def scale (math : RealMath K) (manifold : List (SpacetimePoint K)) (sampleSize : Int) : K :=
  max (decimal 1 1000000000000) (math.sqrt (reference manifold sampleSize))

/-- What `measure_normalized_deviation` returns. -/
lemma measureNormalizedDeviation_eq (math : RealMath K) {tx rx : List (SpacetimePoint K)} {sampleSize : Int}
    (len : tx.length = rx.length) (ne : sampleSize ≠ 0) :
    measureNormalizedDeviation math tx rx sampleSize =
      .ok (math.sqrt (deviation tx rx sampleSize) / scale math tx sampleSize,
        1 / (1 + math.sqrt (deviation tx rx sampleSize) / scale math tx sampleSize)) := by
  have inRange : ¬ ∃ i ∈ pyRange 0 tx.length (sampleStep tx.length sampleSize),
      ∃ j ∈ pyRange (i + sampleStep tx.length sampleSize) tx.length (sampleStep tx.length sampleSize),
        rx.length ≤ i ∨ rx.length ≤ j := by
    rintro ⟨i, memI, j, memJ, le⟩
    have := lt_of_mem_pyRange (sampleStep_pos ..) memI
    have := lt_of_mem_pyRange (sampleStep_pos ..) memJ
    omega
  have loops : (pyRange 0 tx.length (sampleStep tx.length sampleSize)).foldl (fun acc i =>
      (pyRange (i + sampleStep tx.length sampleSize) tx.length (sampleStep tx.length sampleSize)).foldl
        (fun acc j => (acc.1 + intervalChange tx rx (i, j) ^ 2,
          acc.2.1 + (tx.getD i .origin).interval (tx.getD j .origin) ^ 2, acc.2.2 + 1)) acc)
        ((0 : K), (0 : K), (0 : Nat)) =
      (((sampledPairs tx.length sampleSize).map fun p => intervalChange tx rx p ^ 2).sum,
        ((sampledPairs tx.length sampleSize).map fun p =>
          (tx.getD p.1 .origin).interval (tx.getD p.2 .origin) ^ 2).sum,
        (sampledPairs tx.length sampleSize).length) := by
    rw [foldl_loops (sampleStep_pos ..) fun (acc : K × K × Nat) p => (acc.1 + intervalChange tx rx p ^ 2,
      acc.2.1 + (tx.getD p.1 .origin).interval (tx.getD p.2 .origin) ^ 2, acc.2.2 + 1), foldl_sums_count, zero_add,
      zero_add, Nat.zero_add]
    rfl
  rw [measureNormalizedDeviation, if_neg ne]
  dsimp only
  rw [if_neg inRange]
  unfold intervalChange at loops
  rw [loops]
  dsimp only
  rw [sum_div_count, sum_div_count]
  rfl

/-! ## The loss as a common factor -/

/-- How far the sampled points lie apart along the axis with the loss. -/
def spread (manifold : List (SpacetimePoint K)) (sampleSize : Int) : K :=
  mean ((sampledPairs manifold.length sampleSize).map fun p =>
    ((manifold.getD p.1 .origin).y - (manifold.getD p.2 .origin).y) ^ 4)

lemma deviation_applyPdl (math : RealMath K) (tx : List (SpacetimePoint K)) (pdlDb : K) (sampleSize : Int) :
    deviation tx (applyPdl math tx pdlDb) sampleSize =
      (1 - FiberSpec.attenuation math pdlDb ^ 2) ^ 2 * spread tx sampleSize := by
  have change : ∀ p ∈ sampledPairs tx.length sampleSize, intervalChange tx (applyPdl math tx pdlDb) p ^ 2 =
      (1 - FiberSpec.attenuation math pdlDb ^ 2) ^ 2 *
        ((tx.getD p.1 .origin).y - (tx.getD p.2 .origin).y) ^ 4 := by
    intro p sampled
    obtain ⟨a, -, b, -, rfl, rfl, same⟩ := intervalChange_map
      (fun p : SpacetimePoint K => ⟨p.t, p.x, p.y * FiberSpec.attenuation math pdlDb, p.z⟩) sampled
    have applied : applyPdl math tx pdlDb =
      tx.map fun p => ⟨p.t, p.x, p.y * FiberSpec.attenuation math pdlDb, p.z⟩ := rfl
    rw [applied, same]
    simp only [SpacetimePoint.interval]
    ring
  rw [deviation, List.map_congr_left change, mean, List.sum_map_mul_left, List.length_map, spread, mean,
    List.length_map, mul_div_assoc]

section Ordered

variable [IsStrictOrderedRing K] (math : RealMath K)

/-- The part of the deviation that does not depend on the loss. -/
def sensitivity (tx : List (SpacetimePoint K)) (sampleSize : Int) : K :=
  math.sqrt (spread tx sampleSize) / scale math tx sampleSize

/-- The calibrated coherence under a loss. -/
def calibrated (tx : List (SpacetimePoint K)) (sampleSize : Int) (pdlDb : K) : K :=
  1 / (1 + (1 - FiberSpec.attenuation math pdlDb ^ 2) * sensitivity math tx sampleSize)

lemma spread_nonneg (tx : List (SpacetimePoint K)) (sampleSize : Int) : 0 ≤ spread tx sampleSize := by
  refine div_nonneg (List.sum_nonneg fun v mem => ?_) (Nat.cast_nonneg _)
  obtain ⟨p, -, rfl⟩ := List.mem_map.mp mem
  exact Even.pow_nonneg (by decide) _

lemma sensitivity_nonneg (tx : List (SpacetimePoint K)) (sampleSize : Int) : 0 ≤ sensitivity math tx sampleSize := by
  refine div_nonneg (math.sqrt_nonneg _) (le_max_of_le_right (math.sqrt_nonneg _))

lemma measureNormalizedDeviation_pdl (tx : List (SpacetimePoint K)) {pdlDb : K} (nonneg : 0 ≤ pdlDb) {sampleSize : Int}
    (ne : sampleSize ≠ 0) :
    measureNormalizedDeviation math tx (applyPdl math tx pdlDb) sampleSize =
      .ok ((1 - FiberSpec.attenuation math pdlDb ^ 2) * sensitivity math tx sampleSize,
        calibrated math tx sampleSize pdlDb) := by
  have factor := FiberSpec.one_sub_attenuation_nonneg math nonneg
  have root : math.sqrt (deviation tx (applyPdl math tx pdlDb) sampleSize) =
      (1 - FiberSpec.attenuation math pdlDb ^ 2) * math.sqrt (spread tx sampleSize) := by
    refine math.sqrt_eq (mul_nonneg factor (math.sqrt_nonneg _)) ?_
    rw [mul_pow, math.sqrt_sq _ (spread_nonneg tx sampleSize), deviation_applyPdl]
  have len : tx.length = (applyPdl math tx pdlDb).length := (List.length_map _).symm
  rw [measureNormalizedDeviation_eq math len ne, root, mul_div_assoc]
  rfl

lemma one_le_denominator (tx : List (SpacetimePoint K)) (sampleSize : Int) {pdlDb : K} (nonneg : 0 ≤ pdlDb) :
    1 ≤ 1 + (1 - FiberSpec.attenuation math pdlDb ^ 2) * sensitivity math tx sampleSize :=
  le_add_of_nonneg_right
    (mul_nonneg (FiberSpec.one_sub_attenuation_nonneg math nonneg) (sensitivity_nonneg math tx sampleSize))

/-- More loss is never found more coherent. -/
lemma calibrated_anti (tx : List (SpacetimePoint K)) (sampleSize : Int) {a b : K} (nonneg : 0 ≤ a) (le : a ≤ b) :
    calibrated math tx sampleSize b ≤ calibrated math tx sampleSize a := by
  refine one_div_le_one_div_of_le (one_pos.trans_le (one_le_denominator math tx sampleSize nonneg)) ?_
  refine add_le_add_right (mul_le_mul_of_nonneg_right ?_ (sensitivity_nonneg math tx sampleSize)) 1
  exact FiberSpec.one_sub_attenuation_mono math le

omit [IsStrictOrderedRing K] in
lemma calibrated_zero (tx : List (SpacetimePoint K)) (sampleSize : Int) : calibrated math tx sampleSize 0 = 1 := by
  rw [calibrated, FiberSpec.attenuation_zero]
  simp

/-! ## The sweep -/

lemma decimal_lt {a b c d : Nat} (posB : 0 < b) (posD : 0 < d) (lt : a * d < c * b) :
    (decimal a b : K) < decimal c d := by
  rw [decimal, decimal, div_lt_div_iff₀ (Nat.cast_pos.mpr posB) (Nat.cast_pos.mpr posD)]
  exact_mod_cast lt

lemma pdlPoints_ascending : (pdlPoints : List K).Pairwise (· < ·) := by
  have first : (0 : K) < decimal 1 2 := div_pos (Nat.cast_pos.mpr one_pos) (Nat.cast_pos.mpr two_pos)
  have second : (decimal 3 5 : K) < decimal 3 2 := decimal_lt (by decide) (by decide) (by decide)
  have third : (decimal 7 4 : K) < decimal 3 1 := decimal_lt (by decide) (by decide) (by decide)
  have gap : (decimal 1 2 : K) < decimal 3 5 := decimal_lt (by decide) (by decide) (by decide)
  have gap' : (decimal 3 2 : K) < decimal 7 4 := decimal_lt (by decide) (by decide) (by decide)
  refine List.pairwise_append.mpr ⟨List.pairwise_append.mpr
    ⟨linspace_ascending first 26, linspace_ascending second 10, fun a memA b memB => ?_⟩,
    linspace_ascending third 6, fun a memA b memB => ?_⟩
  · exact ((mem_linspace first.le memA).2.trans_lt gap).trans_le (mem_linspace second.le memB).1
  · have below : a ≤ decimal 3 2 := by
      rcases List.mem_append.mp memA with low | middle
      · exact ((mem_linspace first.le low).2.trans gap.le).trans second.le
      · exact (mem_linspace second.le middle).2
    exact (below.trans_lt gap').trans_le (mem_linspace third.le memB).1

omit [LinearOrder K] [IsStrictOrderedRing K] in
/-- The sweep begins without a loss. -/
lemma pdlPoints_cons : ∃ rest, (pdlPoints : List K) = 0 :: rest := by
  obtain ⟨rest, grid⟩ := linspace_zero_start (decimal 1 2 : K) (by decide : 0 < 26)
  rw [pdlPoints, grid]
  exact ⟨_, rfl⟩

lemma pdlPoints_nonneg {v : K} (mem : v ∈ pdlPoints) : 0 ≤ v := by
  have ascending := pdlPoints_ascending (K := K)
  obtain ⟨rest, points⟩ := pdlPoints_cons (K := K)
  rw [points] at mem ascending
  rcases List.mem_cons.mp mem with rfl | later
  · exact le_rfl
  · exact ((List.pairwise_cons.mp ascending).1 v later).le

/-- The rows of a sweep. -/
def sweepRow (tx : List (SpacetimePoint K)) (sampleSize : Int) (pdlDb : K) : SweepRow K :=
  ⟨pdlDb, calibrated math tx sampleSize pdlDb,
    (1 - FiberSpec.attenuation math pdlDb ^ 2) * sensitivity math tx sampleSize⟩

lemma runPdlSweep_eq {resolution sampleSize : Int} (nonneg : 0 ≤ resolution) (ne : sampleSize ≠ 0) :
    ∃ tx, encodeTorus math 1 0 resolution = .ok tx ∧
      runPdlSweep math resolution sampleSize = .ok (pdlPoints.map (sweepRow math tx sampleSize)) := by
  have encoded : ∃ tx, encodeTorus math 1 0 resolution = .ok tx := by
    rw [encodeTorus, if_neg (not_lt.mpr nonneg)]
    exact ⟨_, rfl⟩
  obtain ⟨tx, sent⟩ := encoded
  refine ⟨tx, sent, ?_⟩
  have rows (l : List K) (all : ∀ v ∈ l, 0 ≤ v) : (l.mapM fun pdlDb => (do
      let (rmsRel, phiCal) ← measureNormalizedDeviation math tx (applyPdl math tx pdlDb) sampleSize
      return ⟨pdlDb, phiCal, rmsRel⟩ : Except PyError (SweepRow K))) = .ok (l.map (sweepRow math tx sampleSize)) := by
    induction l with
    | nil => rfl
    | cons v l ih =>
      rw [List.mapM_cons, ih fun w mem => all w (List.mem_cons_of_mem v mem),
        measureNormalizedDeviation_pdl math tx (all v List.mem_cons_self) ne]
      rfl
  rw [runPdlSweep, sent]
  exact rows pdlPoints fun v => pdlPoints_nonneg

omit [Field K] [IsStrictOrderedRing K] in
/-- In a list with ascending keys where everything after an element that satisfies `p` does so too, the first one that
    does is the boundary. -/
lemma find_of_ascending {α : Type} {key : α → K} {p : α → Bool} {l : List α}
    (keys : l.Pairwise fun a b => key a < key b) (stays : l.Pairwise fun a b => p a → p b) {r : α}
    (found : l.find? p = some r) :
    ∀ a ∈ l, p a = true ↔ key r ≤ key a := by
  induction l with
  | nil => cases found
  | cons head l ih =>
    obtain ⟨keysHead, keysRest⟩ := List.pairwise_cons.mp keys
    obtain ⟨staysHead, staysRest⟩ := List.pairwise_cons.mp stays
    intro a mem
    cases here : p head with
    | true =>
      rw [List.find?_cons_of_pos here] at found
      cases found
      rcases List.mem_cons.mp mem with rfl | later
      · exact ⟨fun _ => le_rfl, fun _ => here⟩
      · exact ⟨fun _ => (keysHead a later).le, fun _ => staysHead a later here⟩
    | false =>
      rw [List.find?_cons_of_neg (by simp [here])] at found
      rcases List.mem_cons.mp mem with rfl | later
      · have above := keysHead r (List.mem_of_find?_eq_some found)
        simp [here, above]
      · exact ih keysRest staysRest found a later

/-- A sweep succeeds for every resolution and sample size, starts at a coherence of one without a loss and never rises;
    whatever the threshold, `crossing` is the exact boundary between the losses that are detected and those that are
    not. -/
theorem crossing_is_boundary {resolution sampleSize : Int} (nonneg : 0 ≤ resolution) (ne : sampleSize ≠ 0) :
    ∃ results, runPdlSweep math resolution sampleSize = .ok results ∧ results.map SweepRow.pdlDb = pdlPoints ∧
      results.head?.map SweepRow.phiCal = some 1 ∧ (results.Pairwise fun a b => b.phiCal ≤ a.phiCal) ∧
      ∀ thrPhi, (crossing results thrPhi = none ↔ ∀ row ∈ results, thrPhi ≤ row.phiCal) ∧
        ∀ pdlDb, crossing results thrPhi = some pdlDb →
          ∀ row ∈ results, row.phiCal < thrPhi ↔ pdlDb ≤ row.pdlDb := by
  obtain ⟨tx, -, ran⟩ := runPdlSweep_eq math nonneg ne
  have falls : (pdlPoints.map (sweepRow math tx sampleSize)).Pairwise fun a b => b.phiCal ≤ a.phiCal := by
    refine List.pairwise_map.mpr (pdlPoints_ascending.imp_of_mem fun memA _ lt => ?_)
    exact calibrated_anti math tx sampleSize (pdlPoints_nonneg memA) lt.le
  refine ⟨_, ran, ?_, ?_, falls, fun thrPhi => ⟨?_, fun pdlDb crossed row mem => ?_⟩⟩
  · rw [List.map_map]
    exact List.map_id _
  · obtain ⟨rest, points⟩ := pdlPoints_cons (K := K)
    rw [points]
    exact congrArg some (calibrated_zero math tx sampleSize)
  · rw [crossing, Option.map_eq_none_iff, List.find?_eq_none]
    simp only [decide_eq_true_eq, not_lt]
  · obtain ⟨first, found, rfl⟩ := Option.map_eq_some_iff.mp crossed
    have keys : (pdlPoints.map (sweepRow math tx sampleSize)).Pairwise fun a b => a.pdlDb < b.pdlDb :=
      List.pairwise_map.mpr pdlPoints_ascending
    have stays : (pdlPoints.map (sweepRow math tx sampleSize)).Pairwise fun a b =>
        decide (a.phiCal < thrPhi) = true → decide (b.phiCal < thrPhi) = true :=
      falls.imp fun le lt => decide_eq_true (le.trans_lt (of_decide_eq_true lt))
    have boundary := find_of_ascending keys stays found row mem
    rwa [decide_eq_true_eq] at boundary

end Ordered

theorem crossing_is_boundary_twenty :
    ∃ results, runPdlSweep RealMath.real 20 50 = .ok results ∧ (results.Pairwise fun a b => b.phiCal ≤ a.phiCal) := by
  have nonneg : (0 : Int) ≤ 20 := by decide
  have ne : (50 : Int) ≠ 0 := by decide
  obtain ⟨results, ran, -, -, falls, -⟩ := crossing_is_boundary .real nonneg ne
  exact ⟨results, ran, falls⟩

end Otap.Chronos
