import Mathlib.Analysis.Real.Sqrt
import Otap.Chronos.Layered

/-!
# Ramps against the layered tracker

A tap lowers the stream linearly over a ramp, as `run_layered_sweep` of `stage-chronos/layered.py` inserts it. The
baseline of a tracker that is not COMPROMISED lies between the lowered stream (`le_base`) and the lowered stream 59
frames earlier (`base_le`), up to jitter; and it falls by `1 / 40` at most in 399 frames.

* `alwaysDetected`: so a ramp that is steep enough for its depth is found on every stream, and a slope of `7 / 68000` a
  frame is steep enough (`detectable_of_steep`).
* `slow_ramp_evades`: on a stream that alternates between two levels, a slope of `1 / 16000` a frame is never found,
  however deep the drop. The jitter keeps the deviation of the fast layer large, and the slow layer sees less than its
  threshold at any time.
* `not_alwaysDetected_of_slow`: a stream that also rises while the tap goes in hides `9 / 1000` more.
-/

namespace Otap.Chronos
open Otap.Lib

/-! ## The adversary -/

section Adversary

variable {K : Type} [Field K] [LinearOrder K]

/-- How far the tap is in at frame `t`, as `run_layered_sweep` inserts it:
    `min(1.0, (t - tap_start) / max(1, ramp))`, and nothing before its start. -/
def tapProgress (tapStart ramp t : Nat) : K :=
  if t < tapStart then 0 else min 1 (((t - tapStart : Nat) : K) / (max 1 ramp : Nat))

/-- The stream, lowered by a tap. -/
def tapped (phi : Nat → K) (tapStart ramp : Nat) (drop : K) (t : Nat) : K :=
  phi t - drop * tapProgress tapStart ramp t

/-- The part of the drop that the baseline may have before it at the end of a ramp: the last 59 frames of it. -/
def lagShare (ramp : Nat) : K :=
  min 1 (59 / (ramp : K))

/-- The jitter of the stream, from peak to peak. -/
def Jitters (width : K) (phi : Nat → K) : Prop :=
  ∃ lo, ∀ t, lo ≤ phi t ∧ phi t ≤ lo + width

end Adversary

section Progress

variable {K : Type} [Field K] [LinearOrder K] [IsStrictOrderedRing K] {s R : Nat}

lemma tapProgress_eq (pos : 1 ≤ R) (t : Nat) : tapProgress s R t = min 1 (((t - s : Nat) : K) / R) := by
  unfold tapProgress
  split
  case isTrue early =>
    rw [Nat.sub_eq_zero_of_le early.le, Nat.cast_zero, zero_div, min_eq_right zero_le_one]
  case isFalse => rw [max_eq_right pos]

lemma tapProgress_of_le (pos : 1 ≤ R) {t : Nat} (le : t ≤ s) : tapProgress s R t = (0 : K) := by
  rw [tapProgress_eq pos, Nat.sub_eq_zero_of_le le, Nat.cast_zero, zero_div, min_eq_right zero_le_one]

lemma tapProgress_of_ge (pos : 1 ≤ R) {t : Nat} (ge : s + R ≤ t) : tapProgress s R t = (1 : K) := by
  have R_pos : (0 : K) < R := Nat.cast_pos.mpr pos
  rw [tapProgress_eq pos, min_eq_left]
  rw [one_le_div R_pos]
  exact_mod_cast Nat.le_sub_of_add_le' ge

lemma tapProgress_le (pos : 1 ≤ R) {t j : Nat} (le : t ≤ s + j) : tapProgress s R t ≤ (j / R : K) := by
  rw [tapProgress_eq pos]
  refine (min_le_right _ _).trans ?_
  gcongr
  omega

/-- The tap goes in, -/
lemma tapProgress_mono (pos : 1 ≤ R) {t t' : Nat} (le : t ≤ t') : tapProgress s R t ≤ (tapProgress s R t' : K) := by
  rw [tapProgress_eq pos, tapProgress_eq pos]
  gcongr

/-- and `1 / R` of it at most in a frame. -/
lemma tapProgress_add_le (pos : 1 ≤ R) (t k : Nat) :
    tapProgress s R (t + k) ≤ (tapProgress s R t + k / R : K) := by
  have R_pos : (0 : K) < R := Nat.cast_pos.mpr pos
  rw [tapProgress_eq pos, tapProgress_eq pos, ← min_add_add_right, ← add_div]
  refine le_min ((min_le_left _ _).trans ?_) ((min_le_right _ _).trans ?_)
  · exact le_add_of_nonneg_right (by positivity)
  · gcongr
    exact_mod_cast (by omega : t + k - s ≤ t - s + k)

lemma tapProgress_succ_le (pos : 1 ≤ R) (t : Nat) : tapProgress s R (t + 1) ≤ (tapProgress s R t + 1 / R : K) := by
  have goes := tapProgress_add_le (K := K) (s := s) pos t 1
  rwa [Nat.cast_one] at goes

end Progress

/-! ## Bounds of the baseline -/

namespace LayeredTracker

section Bounds

variable {K : Type} [Field K] [LinearOrder K] {sqrt : K → K} {phi : Nat → K} {lo width : K} {s R N : Nat} {drop : K}

/-- The baselines of the tracker on the stream with the tap. -/
def base (sqrt : K → K) (phi : Nat → K) (s R : Nat) (drop : K) (n : Nat) : K :=
  (after .default sqrt (tapped phi s R drop) n).baseline

/-- Until it is latched, the baseline follows the stream with the tap. -/
lemma base_follows (unlatched : (after .default sqrt (tapped phi s R drop) N).state ≠ .compromised) :
    Follows (1 / 20) 3 (tapped phi s R drop) (base sqrt phi s R drop)
      (fun n => (after .default sqrt (tapped phi s R drop) n).shock) 50 N :=
  follows .default sqrt _ unlatched (Nat.succ_pos 2)

variable [IsStrictOrderedRing K]
variable (inside : ∀ t, lo ≤ phi t ∧ phi t ≤ lo + width) (warm : 50 ≤ s) (pos : 1 ≤ R) (nonneg : 0 ≤ drop)
include inside warm pos

/-- During the warm-up the tap is out. -/
lemma base_warmUp {n : Nat} (some : 1 ≤ n) (le : n ≤ 50) :
    lo ≤ base sqrt phi s R drop n ∧ base sqrt phi s R drop n ≤ lo + width := by
  obtain ⟨n, rfl⟩ := Nat.exists_eq_succ_of_ne_zero (Nat.one_le_iff_ne_zero.mp some)
  have lt : n < (LayeredConfig.default : LayeredConfig K).window := le
  have frames : ∀ v ∈ recent 50 (tapped phi s R drop) (n + 1), lo ≤ v ∧ v ≤ lo + width := by
    intro v mem
    obtain ⟨t, range, rfl⟩ := List.mem_map.mp mem
    have early : t < n + 1 := by
      have := List.mem_range'_1.mp range
      omega
    rw [tapped, tapProgress_of_le pos (by omega), mul_zero, sub_zero]
    exact inside t
  have ne : recent 50 (tapped phi s R drop) (n + 1) ≠ [] := by
    rw [← List.length_pos_iff, length_recent]
    omega
  rw [base, baseline_warmUp .default sqrt _ lt]
  exact ⟨le_mean ne fun v mem => (frames v mem).1, mean_le ne fun v mem => (frames v mem).2⟩

include nonneg
variable (unlatched : (after .default sqrt (tapped phi s R drop) N).state ≠ .compromised)
include unlatched

/-- The baseline stays above the lowered stream. -/
lemma le_base {n : Nat} (some : 1 ≤ n) (le : n ≤ N) :
    lo - drop * tapProgress s R (n - 1) ≤ base sqrt phi s R drop n := by
  have warmUp : ∀ n, 1 ≤ n → n ≤ 50 → lo - drop * tapProgress s R (n - 1) ≤ base sqrt phi s R drop n := by
    intro n some early
    rw [tapProgress_of_le pos (by omega), mul_zero, sub_zero]
    exact (base_warmUp inside warm pos some early).1
  rcases Nat.le_total n 50 with early | late
  · exact warmUp n some early
  · refine (base_follows unlatched).ge (by norm_num) (by norm_num) (fun n => lo - drop * tapProgress s R (n - 1)) ?_ ?_
      (warmUp 50 (by omega) le_rfl) late le
    · intro n
      have goes := tapProgress_mono (K := K) (s := s) pos (by omega : n - 1 ≤ n + 1 - 1)
      gcongr
    · intro n _ _
      have above := (inside n).1
      dsimp only [tapped]
      rw [Nat.add_sub_cancel]
      linarith

/-- The baseline follows the lowered stream at a distance of 59 frames. -/
lemma base_le {n : Nat} (some : 1 ≤ n) (le : n ≤ N) :
    base sqrt phi s R drop n ≤ lo + width - drop * tapProgress s R (n - 1) + drop / R * 59 := by
  have slope : 0 ≤ drop / R := by positivity
  have warmUp : ∀ n, 1 ≤ n → n ≤ 50 → base sqrt phi s R drop n ≤ lo + width - drop * tapProgress s R (n - 1) := by
    intro n some early
    rw [tapProgress_of_le pos (by omega), mul_zero, sub_zero]
    exact (base_warmUp inside warm pos some early).2
  rcases Nat.le_total n 50 with early | late
  · exact (warmUp n some early).trans (by linarith)
  · have follows := base_follows unlatched
    have few : ((after .default sqrt (tapped phi s R drop) n).shock : K) + 1 ≤ 3 := by
      exact_mod_cast follows.held_lt late le
    have lag := follows.le_lag (by norm_num) (by norm_num) (fun n => lo + width - drop * tapProgress s R (n - 1)) 57
      slope ?_ ?_ (by norm_num) ((warmUp 50 (by omega) le_rfl).trans ?_) late le
    · refine lag.trans ?_
      gcongr
      linarith
    · intro n
      have goes := tapProgress_succ_le (K := K) (s := s) pos (n - 1)
      have next := tapProgress_mono (K := K) (s := s) pos (by omega : n + 1 - 1 ≤ n - 1 + 1)
      have step : drop * tapProgress s R (n + 1 - 1) ≤ drop * (tapProgress s R (n - 1) + 1 / R) := by
        gcongr
        exact next.trans goes
      rw [mul_add, mul_one_div] at step
      linarith
    · intro n _ _
      have below := (inside n).2
      dsimp only [tapped]
      rw [Nat.add_sub_cancel]
      linarith
    · exact le_add_of_nonneg_right (mul_nonneg slope (add_nonneg (by norm_num) (Nat.cast_nonneg _)))

/-- The baseline stays below the stream. -/
lemma base_le_top {n : Nat} (some : 1 ≤ n) (le : n ≤ N) : base sqrt phi s R drop n ≤ lo + width := by
  rcases Nat.le_total n 50 with early | late
  · exact (base_warmUp inside warm pos some early).2
  · have top := (base_follows unlatched).le_lag (by norm_num) (by norm_num) (fun _ => lo + width) 57 (le_refl 0)
      (fun _ => (add_zero _).ge) ?_ (by norm_num) ?_ late le
    · simpa using top
    · intro n _ _
      have below := (inside n).2
      have out : 0 ≤ drop * tapProgress s R n :=
        mul_nonneg nonneg ((tapProgress_of_le pos (Nat.zero_le s)).ge.trans (tapProgress_mono pos (Nat.zero_le n)))
      dsimp only [tapped]
      linarith
    · rw [zero_mul, add_zero]
      exact (base_warmUp inside warm pos (by omega) le_rfl).2

/-- After the ramp the baseline comes down to the lowered stream. -/
lemma base_le_end {n : Nat} (le : s + R + 1 + n ≤ N) :
    base sqrt phi s R drop (s + R + 1 + n) ≤
      lo + width - drop + drop * lagShare R * (19 / 20) ^ (n / 3) := by
  have R_pos : (0 : K) < R := Nat.cast_pos.mpr pos
  have arrived : tapProgress s R (s + R + 1 - 1) = (1 : K) := tapProgress_of_ge pos (by omega)
  have init : base sqrt phi s R drop (s + R + 1) ≤ lo + width - drop + drop * lagShare R := by
    have top := base_le_top inside warm pos nonneg unlatched (n := s + R + 1) (by omega) (by omega)
    have lag := base_le inside warm pos nonneg unlatched (n := s + R + 1) (by omega) (by omega)
    rw [arrived, mul_one, div_mul_eq_mul_div, mul_div_assoc] at lag
    rw [lagShare, mul_min_of_nonneg _ _ nonneg, mul_one, ← min_add_add_left]
    exact le_min (by linarith) lag
  have excess : 0 ≤ drop * lagShare R := mul_nonneg nonneg (le_min zero_le_one (by positivity))
  have decay := ((base_follows unlatched).tail (n := s + R + 1) (by omega) (by omega)).le_decay (by norm_num)
    (by norm_num) (lo + width - drop) excess ?_ init le
  · rwa [show (1 : K) - 1 / 20 = 19 / 20 by norm_num] at decay
  · intro n ge _
    have below := (inside n).2
    dsimp only [tapped]
    rw [tapProgress_of_ge pos (by omega)]
    linarith

/-- What an unlatched tracker says about the ramp: over `m` histories of the slow layer, up to `n` frames after the end
    of the ramp, its baseline comes down by what the tap adds after its first `j` frames, less jitter and distance. -/
lemma ramp_le (late : 400 ≤ s) {n m j : Nat} (le : s + R + 1 + n ≤ N) (spans : R + n ≤ 399 * m + j) :
    drop * (1 - j / R - lagShare R * (19 / 20) ^ (n / 3)) ≤ width + m / 40 := by
  -- as few histories as reach back to frame `j` of the ramp
  obtain ⟨k, few, reach, room⟩ : ∃ k, k ≤ m ∧ R + n ≤ 399 * k + j ∧ 399 * k ≤ R + n - j + 398 :=
    ⟨(R + n - j + 398) / 399, by omega, by omega, by omega⟩
  obtain ⟨u, start⟩ : ∃ u, u + k * 399 = s + R + 1 + n := ⟨s + R + 1 + n - k * 399, by omega⟩
  have some : 1 ≤ u := by omega
  have window : ∀ n, 1 ≤ n → n + 399 ≤ N → base sqrt phi s R drop n - base sqrt phi s R drop (n + 399) ≤ 1 / 40 := by
    intro n some le
    exact ratchet_silent .default sqrt _ unlatched some (by change 50 + 1 ≤ n + 399; omega) le
  have falls := falls_le_of_window window some (m := k) (by omega)
  have high := base_le_end inside warm pos nonneg unlatched le
  have low := le_base inside warm pos nonneg unlatched some (by omega)
  have tap : drop * tapProgress s R (u - 1) ≤ drop * (j / R) := by
    gcongr
    exact tapProgress_le pos (by omega)
  have few : (k : K) ≤ m := by exact_mod_cast few
  rw [start] at falls
  linarith

end Bounds

end LayeredTracker

/-! ## Ramps that are detected -/

/-- The tracker is never alarmed by the stream. -/
def StaysHealthy (phi : Nat → ℝ) : Prop :=
  ∀ n, (LayeredTracker.after .default Real.sqrt phi n).state = .healthy

/-- A tap that takes `ramp` frames to lower a stream by `drop` is found 450 frames after its ramp at the latest,
    whatever the stream and whenever it starts. -/
def AlwaysDetected (ramp : Nat) (drop : ℝ) : Prop :=
  ∀ phi, Jitters (1 / 100) phi → StaysHealthy phi → ∀ tapStart, 400 ≤ tapStart →
    (LayeredTracker.after .default Real.sqrt (tapped phi tapStart ramp drop) (tapStart + ramp + 450 + 1)).state =
      .compromised

/-- What the tap adds after its first `j` frames exceeds what `m` histories of the slow layer let pass, up to `n` frames
    after the ramp. -/
def Detectable (ramp : Nat) (drop : ℝ) : Prop :=
  ∃ n m j : Nat, n ≤ 450 ∧ ramp + n ≤ 399 * m + j ∧
    1 / 100 + m * 0.025 < drop * (1 - j / ramp - lagShare ramp * 0.95 ^ (n / 3))

lemma alwaysDetected {R : Nat} {drop : ℝ} (pos : 1 ≤ R) (deep : 3 / 50 ≤ drop) (detectable : Detectable R drop) :
    AlwaysDetected R drop := by
  rintro phi ⟨lo, inside⟩ - s late
  obtain ⟨n, m, j, soon, spans, exceeds⟩ := detectable
  by_contra unlatched
  have bound := LayeredTracker.ramp_le inside (by omega) pos (by linarith) unlatched late (n := n) (by omega) spans
  linarith

/-- A slope of `7 / 68000` a frame is steep enough. -/
lemma detectable_of_steep {R : Nat} {drop : ℝ} (pos : 1 ≤ R) (deep : 3 / 50 ≤ drop) (steep : 7 * R < 68000 * drop) :
    Detectable R drop := by
  have R_pos : (0 : ℝ) < R := Nat.cast_pos.mpr pos
  have share : (lagShare R : ℝ) ≤ 59 / R := min_le_right _ _
  rcases Nat.lt_or_ge R 142 with short | long
  · -- the baseline is down 54 frames after the ramp
    have all : (lagShare R : ℝ) ≤ 1 := min_le_left _ _
    refine ⟨54, 1, 0, by omega, by omega, ?_⟩
    norm_num
    nlinarith
  · rcases Nat.lt_or_ge R 399 with within | beyond
    · -- one history holds the ramp
      have small : (59 : ℝ) / R ≤ 59 / 142 := by
        gcongr
        exact_mod_cast long
      refine ⟨0, 1, 0, by omega, by omega, ?_⟩
      norm_num
      nlinarith
    · -- one history holds the end of the ramp
      refine ⟨0, 1, R - 399, by omega, by omega, ?_⟩
      have rest : (1 : ℝ) - (R - 399 : Nat) / R - 59 / R = 340 / R := by
        rw [Nat.cast_sub beyond]
        field_simp
        norm_num
      have slope : 7 / 200 < drop * (340 / R) := by
        rw [mul_div_assoc', lt_div_iff₀ R_pos]
        linarith
      have lower : drop * (340 / R) ≤ drop * (1 - (R - 399 : Nat) / R - lagShare R * (19 / 20) ^ (0 / 3)) := by
        rw [← rest, Nat.zero_div, pow_zero, mul_one]
        gcongr
      push_cast at lower ⊢
      linarith

/-! ## Ramps that are not -/

/-- A stream that alternates between two levels. -/
noncomputable def alternating (t : Nat) : ℝ :=
  if t % 2 = 0 then 1 else 999 / 1000

lemma alternating_inside (t : Nat) : 999 / 1000 ≤ alternating t ∧ alternating t ≤ 999 / 1000 + 1 / 1000 := by
  unfold alternating
  split <;> norm_num

lemma abs_alternating_sub (t : Nat) : |alternating t - alternating (t + 1)| = 1 / 1000 := by
  unfold alternating
  rcases Nat.mod_two_eq_zero_or_one t with even | odd
  · rw [if_pos even, if_neg (by omega)]
    norm_num
  · rw [if_neg (by omega), if_pos (by omega)]
    norm_num

section Slow

variable {s R n : Nat} {drop : ℝ}

/-- What a slow tap does to the stream while `k` frames of it go in. -/
lemma abs_drop_mul_le (pos : 1 ≤ R) (slope : |drop| ≤ R / 16000) {x k : ℝ} (nonneg : 0 ≤ x) (le : x ≤ k / R) :
    |drop * x| ≤ k / 16000 := by
  have R_pos : (0 : ℝ) < R := Nat.cast_pos.mpr pos
  rw [abs_mul, abs_of_nonneg nonneg]
  calc |drop| * x ≤ R / 16000 * (k / R) := by gcongr
    _ = k / 16000 := by field_simp

lemma jumps_tapped (pos : 1 ≤ R) (slope : |drop| ≤ R / 16000) (t : Nat) :
    3 / 3200 ≤ |tapped alternating s R drop t - tapped alternating s R drop (t + 1)| := by
  have goes := tapProgress_mono (K := ℝ) (s := s) pos (Nat.le_succ t)
  have little := tapProgress_succ_le (K := ℝ) (s := s) pos t
  have tap : |drop * (tapProgress s R (t + 1) - tapProgress s R t)| ≤ 1 / 16000 :=
    abs_drop_mul_le pos slope (sub_nonneg.mpr goes) (by linarith)
  have split : tapped alternating s R drop t - tapped alternating s R drop (t + 1) =
      drop * (tapProgress s R (t + 1) - tapProgress s R t) - (alternating (t + 1) - alternating t) := by
    rw [tapped, tapped]
    ring
  have triangle := abs_sub_abs_le_abs_sub (alternating (t + 1) - alternating t)
    (drop * (tapProgress s R (t + 1) - tapProgress s R t))
  rw [abs_sub_comm _ (alternating t), abs_alternating_sub] at triangle
  rw [split, abs_sub_comm]
  linarith

/-- The jitter of the stream keeps the deviation large. -/
lemma le_sqrt_variance (pos : 1 ≤ R) (slope : |drop| ≤ R / 16000) (full : 50 ≤ n) :
    3 / 6400 ≤ Real.sqrt (variance (recent 50 (tapped alternating s R drop) n)) := by
  have jumps := sq_le_variance (v := fun i => tapped alternating s R drop (n - 50 + i)) (d := 3 / 3200)
    (k := 25) (by norm_num) (by norm_num) fun j _ => jumps_tapped pos slope (n - 50 + 2 * j)
  rw [recent_of_le full]
  refine Real.le_sqrt_of_sq_le (le_trans (le_of_eq ?_) jumps)
  norm_num

/-- The part of the tap that is in the baseline `n` frames after the warm-up, if no frame alarms the tracker. -/
noncomputable def absorbed (s R n : Nat) : ℝ :=
  smoothed LayeredConfig.default.alpha (fun t => tapProgress s R (50 + t)) 0 n

/-- The baseline `n` frames after the warm-up, if no frame alarms the tracker. -/
noncomputable def level (s R : Nat) (drop : ℝ) (n : Nat) : ℝ :=
  smoothed LayeredConfig.default.alpha (fun t => tapped alternating s R drop (50 + t)) (1999 / 2000) n

lemma level_eq (n : Nat) :
    level s R drop n =
      smoothed (1 / 20) (fun t => alternating (50 + t)) (1999 / 2000) n - drop * absorbed s R n :=
  smoothed_sub_mul _ _ _ _ _ _

/-- The jitter is smoothed out of the baseline. -/
lemma abs_ripple_le (n : Nat) :
    |smoothed (1 / 20) (fun t => alternating (50 + t)) (1999 / 2000) n - 1999 / 2000| ≤ 1 / 40000 := by
  have ripple := smoothed_alternating (y := fun t => alternating (50 + t)) (α := 1 / 20) (c := 1999 / 2000)
    (h := 1 / 2000) (by norm_num) (by norm_num) (by norm_num) ?_ ?_ n
  · norm_num at ripple ⊢
    exact ripple
  · intro t even
    rw [alternating, if_pos (by omega)]
    norm_num
  · intro t odd
    rw [alternating, if_neg (by omega)]
    norm_num

variable (late : 400 ≤ s) (pos : 1 ≤ R)
include late pos

/-- The baseline is 20 frames behind the tap at most, -/
lemma absorbed_lag (n : Nat) :
    0 ≤ tapProgress s R (50 + n) - absorbed s R n ∧ tapProgress s R (50 + n) - absorbed s R n ≤ 20 / R := by
  have start : tapProgress s R (50 + 0) = (0 : ℝ) := tapProgress_of_le pos (by omega)
  have lag := smoothed_lag (y := fun t => tapProgress s R (50 + t)) (α := (1 / 20 : ℝ)) (by norm_num) (by norm_num)
    (fun t => tapProgress_mono pos (by omega)) (fun t => tapProgress_succ_le pos (50 + t)) n
  rw [start] at lag
  obtain ⟨ahead, near⟩ : 0 ≤ tapProgress s R (50 + n) - absorbed s R n ∧
    1 / 20 * (tapProgress s R (50 + n) - absorbed s R n) ≤ 1 / R := lag
  have frames : (20 : ℝ) / R = 20 * (1 / R) := by ring
  exact ⟨ahead, by linarith⟩

/-- and takes `k / R` of it in at most in `k` frames. -/
lemma absorbed_rises (n k : Nat) :
    absorbed s R n ≤ absorbed s R (n + k) ∧ absorbed s R (n + k) - absorbed s R n ≤ k / R := by
  have start : tapProgress s R (50 + 0) = (0 : ℝ) := tapProgress_of_le pos (by omega)
  have rises := smoothed_rises (y := fun t => tapProgress s R (50 + t)) (α := (1 / 20 : ℝ)) (by norm_num) (by norm_num)
    (fun t => tapProgress_mono pos (by omega)) (fun t => tapProgress_succ_le pos (50 + t)) n k
  rw [start, mul_one_div] at rises
  exact ⟨rises.1, sub_le_iff_le_add'.mpr rises.2⟩

variable (slope : |drop| ≤ R / 16000)
include slope

/-- The baseline falls with the tap, -/
lemma level_falls (n k : Nat) : level s R drop n - level s R drop (n + k) ≤ 1 / 20000 + k / 16000 := by
  obtain ⟨up, little⟩ := absorbed_rises late pos n k
  have tap := abs_le.mp (abs_drop_mul_le pos slope (sub_nonneg.mpr up) little)
  have before := abs_le.mp (abs_ripple_le n)
  have after := abs_le.mp (abs_ripple_le (n + k))
  rw [level_eq, level_eq]
  linarith

/-- not before it, -/
lemma le_level {n : Nat} (early : 50 + n ≤ s + 49) : 1999 / 2000 - 1 / 40000 - 49 / 16000 ≤ level s R drop n := by
  have taken : 0 ≤ absorbed s R n := by
    have rises := (absorbed_rises late pos 0 n).1
    rwa [Nat.zero_add] at rises
  have little : absorbed s R n ≤ (49 : Nat) / R :=
    (sub_nonneg.mp (absorbed_lag late pos n).1).trans (tapProgress_le pos early)
  have tap := abs_le.mp (abs_drop_mul_le pos slope taken little)
  have ripple := abs_le.mp (abs_ripple_le n)
  rw [level_eq]
  push_cast at tap
  linarith

/-- and close to the frames. -/
lemma level_near (n : Nat) :
    -(1 / 2000 + 1 / 40000 + 20 / 16000) ≤ tapped alternating s R drop (50 + n) - level s R drop n := by
  obtain ⟨ahead, near⟩ := absorbed_lag late pos n
  have tap := abs_le.mp (abs_drop_mul_le pos slope ahead near)
  have ripple := abs_le.mp (abs_ripple_le n)
  have low := (alternating_inside (50 + n)).1
  rw [level_eq, tapped]
  linarith

end Slow

namespace LayeredTracker

section Evaded

variable {s R n : Nat} {drop : ℝ}

/-- The tracker on the alternating stream with a tap. -/
noncomputable def evaded (s R : Nat) (drop : ℝ) (n : Nat) : LayeredTracker ℝ :=
  after .default Real.sqrt (tapped alternating s R drop) n

/-- It has noticed nothing. -/
structure Quiet (s R : Nat) (drop : ℝ) (n : Nat) : Prop where
  state : (evaded s R drop n).state = .healthy
  history : (evaded s R drop n).history = recent 50 (tapped alternating s R drop) n
  var : 2 ≤ n → (evaded s R drop n).var = variance (recent 50 (tapped alternating s R drop) n)
  baseline : ∀ k, 50 + k ≤ n → (evaded s R drop (50 + k)).baseline = level s R drop k

lemma Quiet.unlatched (quiet : Quiet s R drop n) : (evaded s R drop n).state ≠ .compromised := by
  rw [quiet.state]
  decide

variable (late : 400 ≤ s) (pos : 1 ≤ R)
include late pos

/-- The warm-up ends with the baseline between the levels. -/
lemma evaded_warmUp : (evaded s R drop 50).baseline = 1999 / 2000 := by
  have out : ∀ t < 50, tapped alternating s R drop t = alternating t := by
    intro t early
    rw [tapped, tapProgress_of_le pos (by omega), mul_zero, sub_zero]
  rw [evaded, baseline_warmUp .default Real.sqrt _ (n := 49) (by decide)]
  refine (congrArg mean (recent_of_le le_rfl)).trans (mean_pairs (k := 25) (by norm_num) fun j lt => ?_)
  rw [out _ (by omega), out _ (by omega), alternating, alternating, if_pos (by omega), if_neg (by omega)]
  norm_num

lemma quiet_warmUp (early : n ≤ 50) : Quiet s R drop n := by
  obtain ⟨history, state, -⟩ := after_warmUp .default Real.sqrt (tapped alternating s R drop) (n := n) early
  refine ⟨state, history, fun some => ?_, fun k le => ?_⟩
  · obtain ⟨n, rfl⟩ := Nat.exists_eq_succ_of_ne_zero (by omega : n ≠ 0)
    exact var_warmUp .default Real.sqrt _ (by omega) early
  · obtain rfl : k = 0 := by omega
    exact evaded_warmUp late pos

variable (slope : |drop| ≤ R / 16000)
include slope

/-- The frame is not far below the baseline, compared with the deviation. -/
lemma Quiet.calm (quiet : Quiet s R drop (50 + n)) :
    ¬ (evaded s R drop (50 + n)).zScore Real.sqrt (tapped alternating s R drop (50 + n)) < -4 := by
  have near := level_near late pos slope n
  have deviation := le_sqrt_variance (s := s) pos slope (Nat.le_add_right 50 n)
  rw [← quiet.var (by omega)] at deviation
  have std : 0 < Real.sqrt (evaded s R drop (50 + n)).var := by linarith
  rw [zScore, if_pos std, not_lt, le_div_iff₀ std, quiet.baseline n le_rfl]
  linarith

lemma Quiet.next (quiet : Quiet s R drop (50 + n)) :
    evaded s R drop (50 + n + 1) =
      ((evaded s R drop (50 + n)).calmed .default (tapped alternating s R drop (50 + n))).slowLayer .default
        (50 + n : Nat) :=
  process_calm (length_history .default Real.sqrt _ (Nat.le_add_right 50 n)).ge quiet.unlatched
    (quiet.calm late pos slope)

lemma Quiet.smooths (quiet : Quiet s R drop (50 + n)) :
    (evaded s R drop (50 + n + 1)).baseline =
      smooth (1 / 20) (tapped alternating s R drop (50 + n)) (evaded s R drop (50 + n)).baseline := by
  rw [quiet.next late pos slope]
  exact slowLayer_keeps.2

lemma Quiet.baseline_next (quiet : Quiet s R drop (50 + n)) :
    (evaded s R drop (50 + n + 1)).baseline = level s R drop (n + 1) := by
  rw [quiet.smooths late pos slope, quiet.baseline n le_rfl]
  rfl

/-- The baseline has not fallen far since the oldest one in the history of the slow layer. -/
lemma Quiet.baseline_falls (quiet : Quiet s R drop (50 + n)) (long : 349 ≤ n) :
    (evaded s R drop (50 + n + 1 - 400 + 1)).baseline - (evaded s R drop (50 + n + 1)).baseline ≤ 1 / 40 := by
  rw [quiet.baseline_next late pos slope]
  rcases Nat.lt_or_ge n 398 with early | full
  · -- the oldest is from the warm-up, and the tap is hardly in
    have oldest : (evaded s R drop (50 + n + 1 - 400 + 1)).baseline ≤ _ :=
      (base_warmUp alternating_inside (by omega) pos (by omega) (by omega)).2
    have newest := le_level late pos slope (n := n + 1) (by omega)
    linarith
  · have oldest := quiet.baseline (n - 398) (by omega)
    have falls := level_falls late pos slope (n - 398) 399
    rw [show n - 398 + 399 = n + 1 by omega] at falls
    rw [show 50 + n + 1 - 400 + 1 = 50 + (n - 398) by omega, oldest]
    push_cast at falls
    linarith

lemma Quiet.silent (quiet : Quiet s R drop (50 + n)) :
    ¬ (((evaded s R drop (50 + n)).calmed .default (tapped alternating s R drop (50 + n))).recorded
      .default).Ratchets .default := by
  have hist : (((evaded s R drop (50 + n)).calmed .default (tapped alternating s R drop (50 + n))).recorded
      .default).baselineHist = recent 400 (fun t => (evaded s R drop (t + 1)).baseline) (50 + n + 1) := by
    have before : (evaded s R drop (50 + n)).baselineHist =
        recent 400 (fun t => (evaded s R drop (t + 1)).baseline) (50 + n) :=
      baselineHist_after .default Real.sqrt _ quiet.unlatched le_rfl
    rw [← pushHistory_recent, quiet.smooths late pos slope, ← before, recorded, calmed, LayeredConfig.default]
  rintro ⟨length, ratchets⟩
  have long : 400 ≤ 50 + n + 1 := by
    rw [hist, length_recent] at length
    exact (Nat.min_le_left _ _).trans' length.ge
  rw [netDrop, hist, headD_recent (by norm_num) long, getLastD_recent (by norm_num) long, Nat.add_sub_cancel]
    at ratchets
  exact absurd ratchets (not_lt.mpr (quiet.baseline_falls late pos slope (by omega)))

lemma Quiet.succ (quiet : Quiet s R drop (50 + n)) : Quiet s R drop (50 + n + 1) := by
  have next := (quiet.next late pos slope).trans (slowLayer_silent (quiet.silent late pos slope))
  have history : (evaded s R drop (50 + n + 1)).history =
      recent 50 (tapped alternating s R drop) (50 + n + 1) := by
    rw [next, ← pushHistory_recent, ← quiet.history]
    rfl
  refine ⟨?_, history, fun _ => ?_, fun k le => ?_⟩
  · rw [next, recorded, calmed, quiet.state]
    rfl
  · rw [← history, next]
    rfl
  · rcases Nat.lt_or_ge n k with last | before
    · obtain rfl : k = n + 1 := by omega
      exact quiet.baseline_next late pos slope
    · exact quiet.baseline k (by omega)

/-- A slow ramp goes unnoticed. -/
lemma quiet (n : Nat) : Quiet s R drop n := by
  rcases Nat.le_total n 50 with early | full
  · exact quiet_warmUp late pos early
  · induction n, full using Nat.le_induction with
    | base => exact quiet_warmUp late pos le_rfl
    | succ n full ih =>
      obtain ⟨k, rfl⟩ := Nat.exists_eq_add_of_le full
      exact ih.succ late pos slope

end Evaded

end LayeredTracker

/-- A slope of `1 / 16000` a frame or less never even alarms the tracker, however deep the drop. -/
theorem slow_ramp_evades {s R : Nat} {drop : ℝ} (late : 400 ≤ s) (pos : 1 ≤ R) (slow : |drop| ≤ R / 16000) :
    StaysHealthy (tapped alternating s R drop) :=
  fun n => (LayeredTracker.quiet late pos slow n).state

/-- In particular the stream itself does not. -/
lemma alternating_healthy : StaysHealthy alternating := by
  have untapped : tapped alternating 400 1 0 = alternating := by
    funext t
    rw [tapped, zero_mul, sub_zero]
  rw [← untapped]
  exact slow_ramp_evades le_rfl le_rfl (by norm_num)

/-- A stream that rises while the tap goes in. -/
noncomputable def masking (R : Nat) : Nat → ℝ :=
  tapped alternating 400 R (-(9 / 1000))

lemma masking_jitters {R : Nat} (pos : 1 ≤ R) : Jitters (1 / 100) (masking R) := by
  refine ⟨999 / 1000, fun t => ?_⟩
  obtain ⟨low, high⟩ := alternating_inside t
  have starts := tapProgress_mono (K := ℝ) (s := 400) pos (Nat.zero_le t)
  have ends : tapProgress 400 R t ≤ (1 : ℝ) := by
    rw [tapProgress_eq pos]
    exact min_le_left _ _
  rw [tapProgress_of_le pos (Nat.zero_le _)] at starts
  rw [masking, tapped]
  exact ⟨by linarith, by linarith⟩

/-- The rise takes its part of the drop away. -/
lemma tapped_masking {R : Nat} {drop : ℝ} :
    tapped (masking R) 400 R drop = tapped alternating 400 R (drop - 9 / 1000) := by
  funext t
  rw [tapped, masking, tapped, tapped]
  ring

lemma not_alwaysDetected_of_evades {R : Nat} {drop : ℝ} {phi : Nat → ℝ} (jitters : Jitters (1 / 100) phi)
    (healthy : StaysHealthy phi) (evades : StaysHealthy (tapped phi 400 R drop)) : ¬ AlwaysDetected R drop := by
  intro detected
  have found := detected phi jitters healthy 400 le_rfl
  rw [evades] at found
  cases found

lemma not_alwaysDetected_of_slow {R : Nat} {drop : ℝ} (pos : 1 ≤ R) (deep : 3 / 50 ≤ drop)
    (slow : drop ≤ 9 / 1000 + R / 16000) : ¬ AlwaysDetected R drop := by
  refine not_alwaysDetected_of_evades (masking_jitters pos) (slow_ramp_evades le_rfl pos ?_) ?_
  · rw [abs_neg, abs_of_pos (by norm_num)]
    linarith
  · rw [tapped_masking]
    refine slow_ramp_evades le_rfl pos ?_
    rw [abs_of_nonneg (by linarith)]
    linarith

/-! ## Main result -/

/-- Ramps that are steep enough for their depth are detected, and slow ones are not. -/
theorem ramp_detection {R : Nat} {drop : ℝ} (pos : 1 ≤ R) (deep : 3 / 50 ≤ drop) :
    (Detectable R drop → AlwaysDetected R drop) ∧ (drop ≤ 9 / 1000 + R / 16000 → ¬ AlwaysDetected R drop) :=
  ⟨alwaysDetected pos deep, not_alwaysDetected_of_slow pos deep⟩

theorem ramp_detection_longest : Detectable 582 (3 / 50) ∧ AlwaysDetected 582 (3 / 50) := by
  have detectable : Detectable 582 (3 / 50) := detectable_of_steep (by norm_num) le_rfl (by norm_num)
  exact ⟨detectable, (ramp_detection (by norm_num) le_rfl).1 detectable⟩

/-- A tap that takes 2000 frames is not detected. -/
theorem not_alwaysDetected : ¬ AlwaysDetected 2000 (3 / 50) := by
  have jitters : Jitters (1 / 100) alternating :=
    ⟨999 / 1000, fun t => ⟨(alternating_inside t).1, (alternating_inside t).2.trans (by norm_num)⟩⟩
  refine not_alwaysDetected_of_evades jitters alternating_healthy (slow_ramp_evades le_rfl (by norm_num) ?_)
  rw [abs_of_pos (by norm_num)]
  norm_num

end Otap.Chronos
