import Otap.Lib.PairLoop
import Otap.Lib.RealMath
import Otap.Lib.Smoothing

/-!
# Coherence of manifolds

Embeds `SpacetimePoint` of `stage-chronos/spacetime.py`, `measure_coherence` of `coherence.py` and
`measure_holographic_coherence` of `holographic.py`, over the numbers of an ordered field. The first one loops over the
pairs of sampled points, the second one fills tables and selects the entries above the diagonal.

Both are the mean square deviation of the intervals over the pairs of the sampled indices (`deviation`), so that they
agree wherever there are pairs; without any, the first one returns a coherence of one and the second one a NaN
(`holographic_coherence_eq`). A coherence of one says that every sampled interval is kept (`exp_deviation_eq_one_iff`).
-/

namespace Otap.Chronos

open Otap.Lib

section Sums

variable {K : Type} [Field K]

/-- A loop that adds up and counts. -/
lemma foldl_sum_count {α : Type} (f : α → K) (l : List α) (s : K) (c : Nat) :
    l.foldl (fun acc p => (acc.1 + f p, acc.2 + 1)) (s, c) = (s + (l.map f).sum, c + l.length) := by
  induction l generalizing s c with
  | nil => simp
  | cons a l ih =>
    rw [List.foldl_cons, ih, List.map_cons, List.sum_cons, List.length_cons]
    congr 1
    · ring
    · omega

/-- The sum over the count, where a count of zero is taken as one. -/
lemma sum_div_count {α : Type} (l : List α) (f : α → K) :
    (l.map f).sum / ((max 1 l.length : Nat) : K) = mean (l.map f) := by
  cases l with
  | nil => simp [mean]
  | cons a l => rw [Nat.max_eq_right (by simp), mean, List.length_map]

end Sums

variable {K : Type} [Field K] [LinearOrder K]

/-! ## The code -/

/-- A point in Minkowski spacetime. -/
structure SpacetimePoint (K : Type) where
  t : K
  x : K
  y : K
  z : K
  deriving DecidableEq

namespace SpacetimePoint

/-- `interval`: the signature is (-, +, +, +). -/
def interval (p q : SpacetimePoint K) : K :=
  -(p.t - q.t) ^ 2 + (p.x - q.x) ^ 2 + (p.y - q.y) ^ 2 + (p.z - q.z) ^ 2

def origin : SpacetimePoint K := ⟨0, 0, 0, 0⟩

end SpacetimePoint

/-- What the Python code raises. -/
inductive PyError where
  | assertionError
  | zeroDivisionError
  | indexError
  | valueError
  deriving DecidableEq

/-- `max(1, n // sample_size)`. -/
def sampleStep (n : Nat) (sampleSize : Int) : Nat :=
  (max 1 (Int.fdiv n sampleSize)).toNat

/-- The gain `1000` of both measures. -/
def gain : K := ((1000 : Nat) : K)

/-- `measure_coherence`. The loops read indices below the length of both lists only. -/
def measureCoherence (math : RealMath K) (before after : List (SpacetimePoint K)) (sampleSize : Int) :
    Except PyError (K × K) :=
  if before.length ≠ after.length then .error .assertionError
  else if sampleSize = 0 then .error .zeroDivisionError
  else
    let n := before.length
    let step := sampleStep n sampleSize
    let (mse, comparisons) := (pyRange 0 n step).foldl (fun acc i =>
      (pyRange (i + step) n step).foldl (fun (mse, comparisons) j =>
        let ds2Before := (before.getD i .origin).interval (before.getD j .origin)
        let ds2After := (after.getD i .origin).interval (after.getD j .origin)
        (mse + (ds2After - ds2Before) ^ 2, comparisons + 1)) acc) ((0 : K), (0 : Nat))
    let mse := mse / ((max 1 comparisons : Nat) : K)
    .ok (math.exp (-mse * gain), mse)

/-- `_manifold_to_coords`: the points at the sampled indices. -/
def manifoldToCoords (manifold : List (SpacetimePoint K)) (idx : List Nat) : List (SpacetimePoint K) :=
  idx.map fun i => manifold.getD i .origin

/-- `_pairwise_intervals`: the entries of the table. -/
def pairwiseIntervals (coords : List (SpacetimePoint K)) (i j : Nat) : K :=
  (coords.getD i .origin).interval (coords.getD j .origin)

/-- `measure_holographic_coherence`; `none` is a NaN, which is what `np.mean` makes of no numbers. -/
def measureHolographicCoherence (math : RealMath K) (original recovered : List (SpacetimePoint K)) (sampleSize : Int) :
    Except PyError (Option K) :=
  if sampleSize = 0 then .error .zeroDivisionError
  else
    let n := original.length
    let idx := pyRange 0 n (sampleStep n sampleSize)
    if ∃ i ∈ idx, recovered.length ≤ i then .error .indexError
    else
      let ds2Orig := pairwiseIntervals (manifoldToCoords original idx)
      let ds2Rec := pairwiseIntervals (manifoldToCoords recovered idx)
      let masked := upper idx.length fun i j => (ds2Orig i j - ds2Rec i j) ^ 2
      if masked = [] then .ok none else .ok (some (math.exp (-mean masked * gain)))

/-! ## The deviation of intervals -/

/-- The pairs of sampled indices. -/
def sampledPairs (n : Nat) (sampleSize : Int) : List (Nat × Nat) :=
  pairs (pyRange 0 n (sampleStep n sampleSize))

/-- How far the interval of two points has changed. -/
def intervalChange (before after : List (SpacetimePoint K)) (p : Nat × Nat) : K :=
  (after.getD p.1 .origin).interval (after.getD p.2 .origin) -
    (before.getD p.1 .origin).interval (before.getD p.2 .origin)

/-- The mean square of the changes; zero if there are no pairs. -/
def deviation (before after : List (SpacetimePoint K)) (sampleSize : Int) : K :=
  mean ((sampledPairs before.length sampleSize).map fun p => intervalChange before after p ^ 2)

lemma sampleStep_pos (n : Nat) (sampleSize : Int) : 0 < sampleStep n sampleSize := by
  rw [sampleStep]
  have := le_max_left 1 (Int.fdiv n sampleSize)
  omega

/-- What `measure_coherence` returns. -/
lemma measureCoherence_eq (math : RealMath K) {before after : List (SpacetimePoint K)} {sampleSize : Int}
    (len : before.length = after.length) (ne : sampleSize ≠ 0) :
    measureCoherence math before after sampleSize =
      .ok (math.exp (-deviation before after sampleSize * gain), deviation before after sampleSize) := by
  have loops : (pyRange 0 before.length (sampleStep before.length sampleSize)).foldl (fun acc i =>
      (pyRange (i + sampleStep before.length sampleSize) before.length (sampleStep before.length sampleSize)).foldl
        (fun acc j => (acc.1 + intervalChange before after (i, j) ^ 2, acc.2 + 1)) acc) ((0 : K), (0 : Nat)) =
      (((sampledPairs before.length sampleSize).map fun p => intervalChange before after p ^ 2).sum,
        (sampledPairs before.length sampleSize).length) := by
    rw [foldl_loops (sampleStep_pos ..) fun (acc : K × Nat) p => (acc.1 + intervalChange before after p ^ 2, acc.2 + 1),
      foldl_sum_count, zero_add, Nat.zero_add]
    rfl
  have average := sum_div_count (sampledPairs before.length sampleSize) fun p => intervalChange before after p ^ 2
  rw [measureCoherence, if_neg (not_not.mpr len), if_neg ne]
  unfold intervalChange at loops average
  dsimp only
  rw [loops]
  dsimp only
  rw [average]
  rfl

omit [LinearOrder K] in
/-- The table of the changes, above the diagonal. -/
lemma upper_changes (original recovered : List (SpacetimePoint K)) (idx : List Nat) :
    (upper idx.length fun i j => (pairwiseIntervals (manifoldToCoords original idx) i j -
        pairwiseIntervals (manifoldToCoords recovered idx) i j) ^ 2) =
      (pairs idx).map fun p => intervalChange original recovered p ^ 2 := by
  rw [← upper_eq idx 0 fun i j => intervalChange original recovered (i, j) ^ 2]
  refine upper_congr fun i ltI j ltJ => ?_
  have coords (manifold : List (SpacetimePoint K)) {k : Nat} (lt : k < idx.length) :
      (manifoldToCoords manifold idx).getD k .origin = manifold.getD (idx.getD k 0) .origin := by
    simp [manifoldToCoords, lt]
  rw [pairwiseIntervals, pairwiseIntervals, coords _ ltI, coords _ ltJ, coords _ ltI, coords _ ltJ, intervalChange]
  ring

/-- What `measure_holographic_coherence` returns. -/
lemma measureHolographicCoherence_eq (math : RealMath K) {original recovered : List (SpacetimePoint K)}
    {sampleSize : Int} (len : original.length = recovered.length) (ne : sampleSize ≠ 0) :
    measureHolographicCoherence math original recovered sampleSize =
      .ok (if sampledPairs original.length sampleSize = [] then none
        else some (math.exp (-deviation original recovered sampleSize * gain))) := by
  have inRange : ¬ ∃ i ∈ pyRange 0 original.length (sampleStep original.length sampleSize), recovered.length ≤ i := by
    rintro ⟨i, mem, le⟩
    have := lt_of_mem_pyRange (sampleStep_pos ..) mem
    omega
  rw [measureHolographicCoherence, if_neg ne]
  dsimp only
  rw [if_neg inRange, upper_changes, ← sampledPairs, ← deviation]
  simp only [List.map_eq_nil_iff]
  split
  case isTrue => rfl
  case isFalse => rfl

omit [LinearOrder K] in
/-- The intervals of a manifold that is transported point by point. -/
lemma intervalChange_map (f : SpacetimePoint K → SpacetimePoint K) {manifold : List (SpacetimePoint K)}
    {sampleSize : Int} {p : Nat × Nat} (sampled : p ∈ sampledPairs manifold.length sampleSize) :
    ∃ a ∈ manifold, ∃ b ∈ manifold, a = manifold.getD p.1 .origin ∧ b = manifold.getD p.2 .origin ∧
      intervalChange manifold (manifold.map f) p = (f a).interval (f b) - a.interval b := by
  obtain ⟨first, second⟩ := mem_pairs sampled
  have lt := lt_of_mem_pyRange (sampleStep_pos ..) first
  have lt' := lt_of_mem_pyRange (sampleStep_pos ..) second
  refine ⟨manifold.getD p.1 .origin, ?_, manifold.getD p.2 .origin, ?_, rfl, rfl, ?_⟩
  · simp [lt]
  · simp [lt']
  · rw [intervalChange]
    simp [lt, lt']

/-! ## Coherence -/

section Ordered

variable [IsStrictOrderedRing K]

lemma gain_pos : (0 : K) < gain :=
  Nat.cast_pos.mpr (by decide)

lemma deviation_nonneg (before after : List (SpacetimePoint K)) (sampleSize : Int) :
    0 ≤ deviation before after sampleSize := by
  refine div_nonneg (List.sum_nonneg fun v mem => ?_) (Nat.cast_nonneg _)
  obtain ⟨p, -, rfl⟩ := List.mem_map.mp mem
  exact sq_nonneg _

/-- There is no deviation if and only if every sampled interval is kept. -/
lemma deviation_eq_zero_iff {before after : List (SpacetimePoint K)} {sampleSize : Int} :
    deviation before after sampleSize = 0 ↔
      ∀ p ∈ sampledPairs before.length sampleSize, intervalChange before after p = 0 := by
  have nonneg : ∀ v ∈ (sampledPairs before.length sampleSize).map fun p => intervalChange before after p ^ 2,
      0 ≤ v := by
    intro v mem
    obtain ⟨p, -, rfl⟩ := List.mem_map.mp mem
    exact sq_nonneg _
  rw [deviation, mean_eq_zero_iff nonneg, List.forall_mem_map]
  exact forall₂_congr fun p _ => sq_eq_zero_iff

/-- A map of points that keeps intervals. -/
def Isometric (f : SpacetimePoint K → SpacetimePoint K) : Prop :=
  ∀ p q, (f p).interval (f q) = p.interval q

lemma deviation_isometric {f : SpacetimePoint K → SpacetimePoint K} (iso : Isometric f)
    (manifold : List (SpacetimePoint K)) (sampleSize : Int) : deviation manifold (manifold.map f) sampleSize = 0 := by
  refine deviation_eq_zero_iff.mpr fun p sampled => ?_
  obtain ⟨a, -, b, -, -, -, change⟩ := intervalChange_map f sampled
  rw [change, iso, sub_self]

/-- A coherence of one says that nothing deviates. -/
lemma exp_deviation_eq_one_iff (math : RealMath K) {before after : List (SpacetimePoint K)} {sampleSize : Int} :
    math.exp (-deviation before after sampleSize * gain) = 1 ↔
      ∀ p ∈ sampledPairs before.length sampleSize, intervalChange before after p = 0 := by
  rw [math.exp_eq_one_iff, mul_eq_zero, neg_eq_zero, or_iff_left gain_pos.ne', deviation_eq_zero_iff]

/-- Where no interval changes less, the coherence is not greater. -/
lemma exp_deviation_anti (math : RealMath K) {before before' after after' : List (SpacetimePoint K)} {sampleSize : Int}
    (len : before.length = before'.length)
    (le : ∀ p ∈ sampledPairs before.length sampleSize,
      |intervalChange before after p| ≤ |intervalChange before' after' p|) :
    math.exp (-deviation before' after' sampleSize * gain) ≤ math.exp (-deviation before after sampleSize * gain) := by
  refine math.exp_strictMono.monotone (mul_le_mul_of_nonneg_right (neg_le_neg ?_) gain_pos.le)
  rw [deviation, deviation, ← len]
  exact mean_mono fun p mem => sq_le_sq.mpr (le p mem)

/-- The loops and the tables measure the same, as long as at least two points are sampled. With fewer points the loops
    find perfect coherence, and the tables none at all. Coherence is perfect if and only if every interval between two
    sampled points is kept. -/
theorem holographic_coherence_eq (math : RealMath K) {before after : List (SpacetimePoint K)} {sampleSize : Int}
    (len : before.length = after.length) (ne : sampleSize ≠ 0) :
    ∃ phi mse, measureCoherence math before after sampleSize = .ok (phi, mse) ∧
      measureHolographicCoherence math before after sampleSize =
        .ok (if (pyRange 0 before.length (sampleStep before.length sampleSize)).length < 2 then none else some phi) ∧
      (phi = 1 ↔ ∀ p ∈ sampledPairs before.length sampleSize,
        (after.getD p.1 .origin).interval (after.getD p.2 .origin) =
          (before.getD p.1 .origin).interval (before.getD p.2 .origin)) ∧
      ((pyRange 0 before.length (sampleStep before.length sampleSize)).length < 2 → phi = 1 ∧ mse = 0) := by
  refine ⟨_, _, measureCoherence_eq math len ne, ?_, ?_, fun few => ?_⟩
  · simp only [measureHolographicCoherence_eq math len ne, sampledPairs, pairs_eq_nil_iff]
  · rw [exp_deviation_eq_one_iff]
    exact forall₂_congr fun p _ => sub_eq_zero
  · have none : sampledPairs before.length sampleSize = [] := pairs_eq_nil_iff.mpr few
    have zero : deviation before after sampleSize = 0 := by
      rw [deviation_eq_zero_iff, none]
      exact fun _ mem => nomatch mem
    rw [exp_deviation_eq_one_iff, none]
    exact ⟨fun _ mem => (nomatch mem), zero⟩

end Ordered

/-- Two points, at rest and at distance one. -/
noncomputable def restPair : List (SpacetimePoint ℝ) :=
  [⟨0, 0, 0, 0⟩, ⟨0, 1, 0, 0⟩]

/-- The same points, drawn together. -/
noncomputable def drawnPair : List (SpacetimePoint ℝ) :=
  [⟨0, 0, 0, 0⟩, ⟨0, 0, 0, 0⟩]

/-- Both measures see that the points were drawn together, and agree. -/
theorem holographic_coherence_eq_twoPoints :
    ∃ phi mse, measureCoherence .real restPair drawnPair 20 = .ok (phi, mse) ∧
      measureHolographicCoherence .real restPair drawnPair 20 = .ok (some phi) ∧ phi ≠ 1 := by
  have len : restPair.length = drawnPair.length := rfl
  have ne : (20 : Int) ≠ 0 := by decide
  obtain ⟨phi, mse, loops, tables, kept, -⟩ := holographic_coherence_eq .real len ne
  refine ⟨phi, mse, loops, tables, fun perfect => ?_⟩
  have same := kept.mp perfect (0, 1) (show (0, 1) ∈ sampledPairs 2 20 by decide)
  norm_num [SpacetimePoint.interval, restPair, drawnPair] at same

end Otap.Chronos
