import Mathlib.Analysis.SpecialFunctions.Pow.Real
import Mathlib.Analysis.SpecialFunctions.Trigonometric.Basic

/-!
# Functions of a mathematical library

What programs take from a library of elementary functions, over an ordered field, with the facts about them that do not
depend on how they are computed. `RealMath.real` are the functions themselves. `linspace` are the evenly spaced grids.
-/

namespace Otap.Lib

variable {K : Type*} [Field K] [LinearOrder K]

structure RealMath (K : Type*) [Field K] [LinearOrder K] where
  pi : K
  exp : K → K
  sqrt : K → K
  cos : K → K
  sin : K → K
  /-- `10 ** x`. -/
  pow10 : K → K
  exp_zero : exp 0 = 1
  exp_strictMono : StrictMono exp
  sqrt_nonneg : ∀ x, 0 ≤ sqrt x
  sqrt_sq : ∀ x, 0 ≤ x → sqrt x ^ 2 = x
  cos_sq_add_sin_sq : ∀ a, cos a ^ 2 + sin a ^ 2 = 1
  pow10_zero : pow10 0 = 1
  pow10_pos : ∀ x, 0 < pow10 x
  pow10_strictMono : StrictMono pow10

namespace RealMath

noncomputable def real : RealMath ℝ where
  pi := Real.pi
  exp := Real.exp
  sqrt := Real.sqrt
  cos := Real.cos
  sin := Real.sin
  pow10 x := ((10 : ℕ) : ℝ) ^ x
  exp_zero := Real.exp_zero
  exp_strictMono := Real.exp_strictMono
  sqrt_nonneg := Real.sqrt_nonneg
  sqrt_sq _ := Real.sq_sqrt
  cos_sq_add_sin_sq := Real.cos_sq_add_sin_sq
  pow10_zero := Real.rpow_zero _
  pow10_pos := Real.rpow_pos_of_pos (by norm_num)
  pow10_strictMono := Real.strictMono_rpow_of_base_gt_one (by norm_num)

variable (math : RealMath K)

lemma exp_eq_one_iff {x : K} : math.exp x = 1 ↔ x = 0 := by
  rw [← math.exp_zero]
  exact math.exp_strictMono.injective.eq_iff

variable [IsStrictOrderedRing K]

/-- A square root is determined by its square. -/
lemma sqrt_eq {x y : K} (nonneg : 0 ≤ y) (sq : y ^ 2 = x) : math.sqrt x = y := by
  have root : math.sqrt x ^ 2 = y ^ 2 := by rw [math.sqrt_sq x (sq ▸ sq_nonneg y), sq]
  exact (pow_left_inj₀ (math.sqrt_nonneg _) nonneg (by decide : (2 : ℕ) ≠ 0)).mp root

end RealMath

/-! ## Grids -/

section Grids

omit [LinearOrder K]

/-- `np.linspace`, for a number of points that is not negative. -/
def linspace (start stop : K) (num : ℕ) : List K :=
  (List.range num).map fun i : ℕ => start + (i : K) * ((stop - start) / ((num - 1 : ℕ) : K))

lemma linspace_zero_start (stop : K) {num : ℕ} (pos : 0 < num) : ∃ rest, linspace 0 stop num = 0 :: rest := by
  obtain ⟨n, rfl⟩ := Nat.exists_eq_succ_of_ne_zero pos.ne'
  rw [linspace, List.range_succ_eq_map, List.map_cons, Nat.cast_zero, zero_mul, add_zero]
  exact ⟨_, rfl⟩

end Grids

section Grids

variable [IsStrictOrderedRing K] {start stop : K}

lemma mem_linspace (le : start ≤ stop) {num : ℕ} {v : K} (mem : v ∈ linspace start stop num) :
    start ≤ v ∧ v ≤ stop := by
  obtain ⟨i, inRange, rfl⟩ := List.mem_map.mp mem
  have lt := List.mem_range.mp inRange
  have width : 0 ≤ stop - start := sub_nonneg.mpr le
  constructor
  · exact le_add_of_nonneg_right (mul_nonneg (Nat.cast_nonneg i) (div_nonneg width (Nat.cast_nonneg _)))
  · rcases Nat.eq_zero_or_pos (num - 1) with zero | pos
    · have first : i = 0 := by omega
      rw [first, Nat.cast_zero, zero_mul, add_zero]
      exact le
    · have posK : (0 : K) < ((num - 1 : ℕ) : K) := Nat.cast_pos.mpr pos
      have share : (i : K) * ((stop - start) / ((num - 1 : ℕ) : K)) ≤ stop - start := by
        rw [← mul_div_assoc, div_le_iff₀ posK, mul_comm]
        exact mul_le_mul_of_nonneg_left (Nat.cast_le.mpr (by omega)) width
      linarith

/-- A grid ascends. -/
lemma linspace_ascending (lt : start < stop) (num : ℕ) : (linspace start stop num).Pairwise (· < ·) := by
  refine List.pairwise_map.mpr (List.Pairwise.imp_of_mem ?_ List.pairwise_lt_range)
  intro i j _ inRange before
  have pos : (0 : K) < ((num - 1 : ℕ) : K) := by
    have := List.mem_range.mp inRange
    exact Nat.cast_pos.mpr (by omega)
  have step : 0 < (stop - start) / ((num - 1 : ℕ) : K) := div_pos (sub_pos.mpr lt) pos
  exact add_lt_add_right (mul_lt_mul_of_pos_right (Nat.cast_lt.mpr before) step) start

end Grids

end Otap.Lib
