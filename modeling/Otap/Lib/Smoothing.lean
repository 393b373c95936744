import Mathlib.Tactic

/-!
# Smoothed signals

Mean and variance of a list of numbers, and exponential smoothing of a signal.

A smoothed value moves a fraction `α` of the way to the signal in each step, or is held; it is never held `limit` times
in a row (`Follows`). It stays above a falling lower bound of the signal (`Follows.ge`), follows an upper bound that
falls with slope `σ` at a distance of a few `σ` (`Follows.le_lag`), and comes down to a constant one geometrically
(`Follows.le_decay`).

A value that is never held is a sequence of its own (`smoothed`): it rises no faster than a rising signal
(`smoothed_rises`), which is ahead of it by a few steps at most (`smoothed_lag`).
-/

namespace Otap.Lib

variable {K : Type*} [Field K]

/-- `np.mean`. -/
def mean (l : List K) : K :=
  l.sum / l.length

/-- `np.var`: the mean square deviation from the mean. -/
def variance (l : List K) : K :=
  mean (l.map fun v => (v - mean l) ^ 2)

/-- One step of exponential smoothing. -/
def smooth (α y b : K) : K :=
  α * y + (1 - α) * b

/-- A signal, smoothed from a value on. -/
def smoothed (α : K) (y : ℕ → K) (b : K) : ℕ → K
  | 0 => b
  | n + 1 => smooth α (y n) (smoothed α y b n)

/-- Smoothing is linear. -/
lemma smoothed_sub_mul (α c : K) (y z : ℕ → K) (b : K) (n : ℕ) :
    smoothed α (fun t => y t - c * z t) b n = smoothed α y b n - c * smoothed α z 0 n := by
  induction n with
  | zero => rw [smoothed, smoothed, smoothed, mul_zero, sub_zero]
  | succ n ih =>
    rw [smoothed, smoothed, smoothed, ih, smooth, smooth, smooth]
    ring

/-- From step `first` to step `last` the value `b` follows the signal `y`; `held` counts the steps since it moved. -/
structure Follows (α : K) (limit : ℕ) (y b : ℕ → K) (held : ℕ → ℕ) (first last : ℕ) : Prop where
  held_first : held first < limit
  step : ∀ n, first ≤ n → n < last →
    (held n + 1 < limit ∧ held (n + 1) = held n + 1 ∧ b (n + 1) = b n) ∨
      (held (n + 1) = 0 ∧ b (n + 1) = smooth α (y n) (b n))

lemma Follows.held_lt {α : K} {y b : ℕ → K} {held : ℕ → ℕ} {limit first last : ℕ}
    (follows : Follows α limit y b held first last) {n : ℕ} (ge : first ≤ n) (le : n ≤ last) : held n < limit := by
  induction n, ge using Nat.le_induction with
  | base => exact follows.held_first
  | succ n ge _ =>
    rcases follows.step n ge le with ⟨lt, held, -⟩ | ⟨zero, -⟩
    · rwa [held]
    · rw [zero]
      exact Nat.zero_lt_of_lt follows.held_first

lemma Follows.tail {α : K} {y b : ℕ → K} {held : ℕ → ℕ} {limit first last : ℕ}
    (follows : Follows α limit y b held first last) {n : ℕ} (ge : first ≤ n) (le : n ≤ last) :
    Follows α limit y b held n last where
  held_first := follows.held_lt ge le
  step k ge' lt := follows.step k (ge.trans ge') lt

variable [LinearOrder K] [IsStrictOrderedRing K]

/-! ## Lists -/

lemma le_mean {l : List K} {lo : K} (ne : l ≠ []) (le : ∀ v ∈ l, lo ≤ v) : lo ≤ mean l := by
  have pos : (0 : K) < l.length := Nat.cast_pos.mpr (List.length_pos_iff.mpr ne)
  rw [mean, le_div_iff₀ pos, mul_comm, ← nsmul_eq_mul]
  exact List.card_nsmul_le_sum l lo le

/-- The mean of values that are greater is greater. -/
lemma mean_mono {ι : Type*} {l : List ι} {f g : ι → K} (le : ∀ i ∈ l, f i ≤ g i) : mean (l.map f) ≤ mean (l.map g) := by
  rw [mean, mean, List.length_map, List.length_map]
  exact div_le_div_of_nonneg_right (List.sum_le_sum le) (Nat.cast_nonneg _)

/-- The mean of values that are not negative is zero only if they all are. -/
lemma mean_eq_zero_iff {l : List K} (nonneg : ∀ v ∈ l, 0 ≤ v) : mean l = 0 ↔ ∀ v ∈ l, v = 0 := by
  constructor
  · intro zero v mem
    have pos : (0 : K) < l.length := Nat.cast_pos.mpr (List.length_pos_of_mem mem)
    have sum : l.sum = 0 := by
      rw [mean, div_eq_zero_iff] at zero
      exact zero.resolve_right pos.ne'
    refine le_antisymm ?_ (nonneg v mem)
    rw [← sum]
    exact List.single_le_sum nonneg v mem
  · intro zeros
    rw [mean, List.sum_eq_zero zeros, zero_div]

lemma mean_le {l : List K} {hi : K} (ne : l ≠ []) (le : ∀ v ∈ l, v ≤ hi) : mean l ≤ hi := by
  have pos : (0 : K) < l.length := Nat.cast_pos.mpr (List.length_pos_iff.mpr ne)
  rw [mean, div_le_iff₀ pos, mul_comm, ← nsmul_eq_mul]
  exact List.sum_le_card_nsmul l hi le

/-- A sequence whose pairs have the mean `c` has the mean `c`. -/
lemma mean_pairs {v : ℕ → K} {c : K} {k : ℕ} (pos : 0 < k) (pairs : ∀ j < k, v (2 * j) + v (2 * j + 1) = 2 * c) :
    mean ((List.range (2 * k)).map v) = c := by
  have sums : ∀ n ≤ k, ((List.range (2 * n)).map v).sum = (2 * n : ℕ) * c := by
    intro n le
    induction n with
    | zero => simp
    | succ n ih =>
      rw [Nat.mul_succ, List.range_succ, List.range_succ]
      simp only [List.map_append, List.map_cons, List.map_nil, List.sum_append, List.sum_cons, List.sum_nil]
      have pair := pairs n le
      have before := ih (by omega)
      push_cast at before ⊢
      linarith
  have length : ((2 * k : ℕ) : K) ≠ 0 := Nat.cast_ne_zero.mpr (by omega)
  rw [mean, List.length_map, List.length_range, sums k le_rfl, mul_div_cancel_left₀ c length]

/-- Two numbers at a distance of `d` or more are not both close to a third one. -/
lemma sq_le_two_mul {d a b c : K} (nonneg : 0 ≤ d) (far : d ≤ |a - b|) :
    d ^ 2 ≤ 2 * ((a - c) ^ 2 + (b - c) ^ 2) := by
  have sq : d ^ 2 ≤ (a - b) ^ 2 := by
    rw [← sq_abs (a - b)]
    gcongr
  nlinarith [sq_nonneg (a + b - 2 * c)]

/-- A sequence that jumps by `d` or more in every other step has a variance of at least `d ^ 2 / 4`. -/
lemma sq_le_variance {v : ℕ → K} {d : K} (nonneg : 0 ≤ d) {k : ℕ} (pos : 0 < k)
    (jumps : ∀ j < k, d ≤ |v (2 * j) - v (2 * j + 1)|) : d ^ 2 / 4 ≤ variance ((List.range (2 * k)).map v) := by
  have sums : ∀ c : K, ∀ n ≤ k, (n : K) * (d ^ 2 / 2) ≤ ((List.range (2 * n)).map fun i => (v i - c) ^ 2).sum := by
    intro c n le
    induction n with
    | zero => simp
    | succ n ih =>
      have pair := sq_le_two_mul nonneg (jumps n le) (c := c)
      rw [Nat.mul_succ, List.range_succ, List.range_succ]
      simp only [List.map_append, List.map_cons, List.map_nil, List.sum_append, List.sum_cons, List.sum_nil]
      have before := ih (by omega)
      push_cast
      linarith
  have length : (0 : K) < ((2 * k : ℕ) : K) := by exact_mod_cast Nat.mul_pos Nat.two_pos pos
  rw [variance, mean, List.map_map, List.length_map, List.length_range, le_div_iff₀ length]
  have total := sums (mean ((List.range (2 * k)).map v)) k le_rfl
  push_cast
  refine le_trans (le_of_eq ?_) total
  ring

/-! ## Smoothing -/

section Smoothing

variable {α : K} {y b : ℕ → K} {held : ℕ → ℕ} {limit first last : ℕ}

lemma le_smooth {lo y b : K} (nonneg : 0 ≤ α) (le : α ≤ 1) (below : lo ≤ y) (low : lo ≤ b) : lo ≤ smooth α y b := by
  unfold smooth
  nlinarith

lemma smooth_le {hi e y b : K} (nonneg : 0 ≤ α) (le : α ≤ 1) (above : y ≤ hi) (high : b ≤ hi + e) :
    smooth α y b ≤ hi + (1 - α) * e := by
  unfold smooth
  nlinarith

/-- The value stays above a falling bound. -/
lemma Follows.ge (follows : Follows α limit y b held first last) (nonneg : 0 ≤ α) (le_one : α ≤ 1) (lo : ℕ → K)
    (falls : ∀ n, lo (n + 1) ≤ lo n) (below : ∀ n, first ≤ n → n < last → lo (n + 1) ≤ y n)
    (init : lo first ≤ b first) {n : ℕ} (ge : first ≤ n) (le : n ≤ last) : lo n ≤ b n := by
  induction n, ge using Nat.le_induction with
  | base => exact init
  | succ n ge ih =>
    have before := (falls n).trans (ih (by omega))
    rcases follows.step n ge le with ⟨-, -, same⟩ | ⟨-, moved⟩
    · rwa [same]
    · rw [moved]
      exact le_smooth nonneg le_one (below n ge le) before

/-- The value follows a bound that falls by `σ` a step at most, at a distance that the steps in which it is held add
    to. -/
lemma Follows.le_lag (follows : Follows α limit y b held first last) (nonneg : 0 ≤ α) (le_one : α ≤ 1) (hi : ℕ → K)
    (lag : K) {σ : K} (slope_nonneg : 0 ≤ σ) (slope : ∀ n, hi n ≤ hi (n + 1) + σ)
    (above : ∀ n, first ≤ n → n < last → y n ≤ hi (n + 1)) (lags : (1 - α) * (lag + limit) ≤ lag)
    (init : b first ≤ hi first + σ * (lag + held first)) {n : ℕ} (ge : first ≤ n) (le : n ≤ last) :
    b n ≤ hi n + σ * (lag + held n) := by
  induction n, ge using Nat.le_induction with
  | base => exact init
  | succ n ge ih =>
    have before := ih (by omega)
    have falls := slope n
    rcases follows.step n ge le with ⟨-, held, same⟩ | ⟨zero, moved⟩
    · rw [same, held]
      push_cast
      linarith
    · have few : (held n : K) + 1 ≤ limit := by exact_mod_cast follows.held_lt ge (by omega)
      have high : b n ≤ hi (n + 1) + σ * (lag + limit) := by nlinarith
      rw [moved, zero, Nat.cast_zero, add_zero]
      calc smooth α (y n) (b n)
          ≤ hi (n + 1) + (1 - α) * (σ * (lag + limit)) := smooth_le nonneg le_one (above n ge le) high
        _ = hi (n + 1) + σ * ((1 - α) * (lag + limit)) := by ring
        _ ≤ hi (n + 1) + σ * lag := by gcongr

/-- The value comes down to a constant bound. -/
lemma Follows.le_decay (follows : Follows α limit y b held first last) (nonneg : 0 ≤ α) (le_one : α ≤ 1) (hi : K)
    {e : K} (excess : 0 ≤ e) (above : ∀ n, first ≤ n → n < last → y n ≤ hi) (init : b first ≤ hi + e) {n : ℕ}
    (le : first + n ≤ last) : b (first + n) ≤ hi + e * (1 - α) ^ (n / limit) := by
  -- `k` steps moved the value, with fewer than `limit` in between
  have moved : ∃ k, n ≤ limit * k + held (first + n) ∧ b (first + n) ≤ hi + e * (1 - α) ^ k := by
    induction n with
    | zero => exact ⟨0, Nat.zero_le _, by simpa using init⟩
    | succ n ih =>
      obtain ⟨k, few, bound⟩ := ih (by omega)
      have lt := follows.held_lt (Nat.le_add_right first n) (by omega)
      rcases follows.step (first + n) (by omega) (by omega) with ⟨-, held, same⟩ | ⟨zero, moved⟩
      · refine ⟨k, ?_, ?_⟩
        · rw [← Nat.add_assoc, held]
          omega
        · rw [← Nat.add_assoc, same]
          exact bound
      · refine ⟨k + 1, ?_, ?_⟩
        · rw [← Nat.add_assoc, zero, Nat.mul_succ]
          omega
        · rw [← Nat.add_assoc, moved, pow_succ]
          calc smooth α (y (first + n)) (b (first + n))
              ≤ hi + (1 - α) * (e * (1 - α) ^ k) := smooth_le nonneg le_one (above _ (by omega) (by omega)) bound
            _ = hi + e * ((1 - α) ^ k * (1 - α)) := by ring
  obtain ⟨k, few, bound⟩ := moved
  have lt := follows.held_lt (Nat.le_add_right first n) le
  have quotient : n / limit ≤ k := by
    rw [← Nat.lt_succ_iff, Nat.div_lt_iff_lt_mul (Nat.zero_lt_of_lt lt), Nat.succ_mul, Nat.mul_comm]
    omega
  refine bound.trans ?_
  have shrinks : (1 - α) ^ k ≤ (1 - α) ^ (n / limit) :=
    pow_le_pow_of_le_one (by linarith) (by linarith) quotient
  gcongr

/-- What falls by `θ` at most in every `w` steps. -/
lemma falls_le_of_window {w : ℕ} {θ : K} (window : ∀ n, first ≤ n → n + w ≤ last → b n - b (n + w) ≤ θ) {n m : ℕ}
    (ge : first ≤ n) (le : n + m * w ≤ last) : b n - b (n + m * w) ≤ m * θ := by
  induction m with
  | zero => simp
  | succ m ih =>
    have step := window (n + m * w) (by omega) (by rw [Nat.succ_mul] at le; omega)
    have before := ih (by rw [Nat.succ_mul] at le; omega)
    rw [Nat.succ_mul, ← Nat.add_assoc]
    push_cast
    linarith

section Rising

variable {σ : K} (nonneg : 0 ≤ α) (le_one : α ≤ 1) (rises : ∀ n, y n ≤ y (n + 1)) (slope : ∀ n, y (n + 1) ≤ y n + σ)
include nonneg le_one rises slope

/-- A rising signal is ahead of its smoothed value, by `σ / α` at most if it rises by `σ` a step at most. -/
lemma smoothed_lag (n : ℕ) : 0 ≤ y n - smoothed α y (y 0) n ∧ α * (y n - smoothed α y (y 0) n) ≤ σ := by
  have remains : 0 ≤ 1 - α := sub_nonneg.mpr le_one
  induction n with
  | zero =>
    have up := rises 0
    have step := slope 0
    rw [smoothed, sub_self, mul_zero]
    exact ⟨le_rfl, by linarith⟩
  | succ n ih =>
    obtain ⟨ahead, near⟩ := ih
    have up := rises n
    have step := slope n
    have lag : y (n + 1) - smoothed α y (y 0) (n + 1) =
        y (n + 1) - y n + (1 - α) * (y n - smoothed α y (y 0) n) := by
      rw [smoothed, smooth]
      ring
    rw [lag]
    refine ⟨add_nonneg (by linarith) (mul_nonneg remains ahead), ?_⟩
    calc α * (y (n + 1) - y n + (1 - α) * (y n - smoothed α y (y 0) n))
        = α * (y (n + 1) - y n) + (1 - α) * (α * (y n - smoothed α y (y 0) n)) := by ring
      _ ≤ α * σ + (1 - α) * σ := by
        gcongr
        linarith
      _ = σ := by ring

/-- The smoothed value rises no faster than the signal. -/
lemma smoothed_rises (n k : ℕ) :
    smoothed α y (y 0) n ≤ smoothed α y (y 0) (n + k) ∧
      smoothed α y (y 0) (n + k) ≤ smoothed α y (y 0) n + k * σ := by
  induction k with
  | zero => simp
  | succ k ih =>
    obtain ⟨up, bound⟩ := ih
    obtain ⟨ahead, near⟩ := smoothed_lag nonneg le_one rises slope (n + k)
    have ahead := mul_nonneg nonneg ahead
    have step : smoothed α y (y 0) (n + (k + 1)) =
        smoothed α y (y 0) (n + k) + α * (y (n + k) - smoothed α y (y 0) (n + k)) := by
      rw [← Nat.add_assoc, smoothed, smooth]
      ring
    rw [step]
    push_cast
    exact ⟨by linarith, by linarith⟩

end Rising

/-- A signal that alternates about `c` keeps its smoothed value near `c`. -/
lemma smoothed_alternating {c h : K} (nonneg : 0 ≤ α) (le_one : α ≤ 1) (swing : 0 ≤ h)
    (even : ∀ n, n % 2 = 0 → y n = c + h) (odd : ∀ n, n % 2 = 1 → y n = c - h) (n : ℕ) :
    |smoothed α y c n - c| ≤ α * h := by
  have small : 0 ≤ α * h := mul_nonneg nonneg swing
  have less : α * (α * h) ≤ α * h := mul_le_of_le_one_left small le_one
  -- after an even number of steps the value is below `c`, else above it
  have sides : (n % 2 = 0 → c - α * h ≤ smoothed α y c n ∧ smoothed α y c n ≤ c) ∧
      (n % 2 = 1 → c ≤ smoothed α y c n ∧ smoothed α y c n ≤ c + α * h) := by
    induction n with
    | zero =>
      rw [smoothed]
      exact ⟨fun _ => ⟨by linarith, le_rfl⟩, fun parity => by omega⟩
    | succ n ih =>
      rw [smoothed, smooth]
      refine ⟨fun parity => ?_, fun parity => ?_⟩
      · obtain ⟨low, high⟩ := ih.2 (by omega)
        rw [odd n (by omega)]
        exact ⟨by nlinarith, by nlinarith⟩
      · obtain ⟨low, high⟩ := ih.1 (by omega)
        rw [even n (by omega)]
        exact ⟨by nlinarith, by nlinarith⟩
  rw [abs_le]
  rcases Nat.mod_two_eq_zero_or_one n with parity | parity
  · obtain ⟨low, high⟩ := sides.1 parity
    exact ⟨by linarith, by linarith⟩
  · obtain ⟨low, high⟩ := sides.2 parity
    exact ⟨by linarith, by linarith⟩

end Smoothing

end Otap.Lib
