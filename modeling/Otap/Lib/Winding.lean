import Mathlib.Analysis.SpecialFunctions.Complex.Arg
import Mathlib.Tactic

/-!
# Winding of closed polygons

An angle is brought into the interval `(-π, π]` by subtracting or adding full turns (`wrapAngle`), which gives the
representative `Real.Angle.toReal` of its class. `turns` adds the wrapped increments around a closed sequence of
angles. `Loop` is the run of a `while` loop, so that `wrapDown_loop` and `wrapUp_loop` say that both loops end.

The sum does not change when a constant is added to all angles (`turns_add`) or when the sequence starts elsewhere
(`turns_shift`); it is `n` times the increment when the increments are equal (`turns_regular`), and zero when the angles
have representatives within a half turn (`turns_eq_zero`). It is always a whole number of full turns (`turns_closed`).
The interval of the wrapped increments is half-open: so are the bounds (`neg_lt_turns`, `turns_le`), and the sequence
run backwards winds the other way unless an increment is a half turn (`turns_rev`).
-/

namespace Otap.Lib

open Real

/-! ## Wrapping -/

/-- The run of `while guard { body }` from a state to the state it ends in. -/
inductive Loop {α : Type*} (guard : α → Prop) (body : α → α) : α → α → Prop where
  | done {x} : ¬ guard x → Loop guard body x x
  | next {x out} : guard x → Loop guard body (body x) out → Loop guard body x out

/-- `while d > PI { d -= 2.0 * PI; }`. -/
noncomputable def wrapDown (d : ℝ) : ℝ :=
  if d > π then wrapDown (d - 2 * π) else d
termination_by ⌈d / (2 * π)⌉₊
decreasing_by
  rename_i above
  have pos : 0 < d / (2 * π) := div_pos (pi_pos.trans above) two_pi_pos
  rw [sub_div, div_self two_pi_pos.ne', Nat.ceil_sub_one]
  exact Nat.sub_one_lt (Nat.ceil_pos.mpr pos).ne'

/-- `while d <= -PI { d += 2.0 * PI; }`. -/
noncomputable def wrapUp (d : ℝ) : ℝ :=
  if d ≤ -π then wrapUp (d + 2 * π) else d
termination_by ⌈-d / (2 * π)⌉₊
decreasing_by
  rename_i below
  have pos : 0 < -d / (2 * π) := div_pos (by linarith [pi_pos]) two_pi_pos
  rw [neg_add, add_div, neg_div (2 * π) (2 * π), div_self two_pi_pos.ne', ← sub_eq_add_neg, Nat.ceil_sub_one]
  exact Nat.sub_one_lt (Nat.ceil_pos.mpr pos).ne'

noncomputable def wrapAngle (d : ℝ) : ℝ :=
  wrapUp (wrapDown d)

lemma wrapDown_loop (d : ℝ) : Loop (· > π) (· - 2 * π) d (wrapDown d) := by
  induction d using wrapDown.induct with
  | case1 d above ih =>
    rw [wrapDown, if_pos above]
    exact .next above ih
  | case2 d below =>
    rw [wrapDown, if_neg below]
    exact .done below

lemma wrapUp_loop (d : ℝ) : Loop (· ≤ -π) (· + 2 * π) d (wrapUp d) := by
  induction d using wrapUp.induct with
  | case1 d below ih =>
    rw [wrapUp, if_pos below]
    exact .next below ih
  | case2 d above =>
    rw [wrapUp, if_neg above]
    exact .done above

lemma wrapDown_spec (d : ℝ) : wrapDown d ≤ π ∧ (wrapDown d : Angle) = d := by
  induction d using wrapDown.induct with
  | case1 d above ih =>
    rw [wrapDown, if_pos above]
    exact ⟨ih.1, ih.2.trans (by simp)⟩
  | case2 d below =>
    rw [wrapDown, if_neg below]
    exact ⟨not_lt.mp below, rfl⟩

lemma wrapUp_spec (d : ℝ) (le : d ≤ π) : -π < wrapUp d ∧ wrapUp d ≤ π ∧ (wrapUp d : Angle) = d := by
  induction d using wrapUp.induct with
  | case1 d below ih =>
    rw [wrapUp, if_pos below]
    obtain ⟨lower, upper, same⟩ := ih (by linarith)
    exact ⟨lower, upper, same.trans (by simp)⟩
  | case2 d above =>
    rw [wrapUp, if_neg above]
    exact ⟨not_le.mp above, le, rfl⟩

/-- Both loops together choose the representative in `(-π, π]`. -/
lemma wrapAngle_eq (d : ℝ) : wrapAngle d = (d : Angle).toReal := by
  obtain ⟨le, same⟩ := wrapDown_spec d
  obtain ⟨lower, upper, same'⟩ := wrapUp_spec (wrapDown d) le
  rw [wrapAngle, ← same, ← same']
  exact (Angle.toReal_coe_eq_self_iff.mpr ⟨lower, upper⟩).symm

/-! ## Turns -/

section

variable {n : ℕ} [NeZero n]

/-- The wrapped increments around a closed sequence of angles, added up. -/
noncomputable def turns (θ : Fin n → Angle) : ℝ :=
  ∑ i, (θ (i + 1) - θ i).toReal

lemma turns_add (α : Angle) (θ : Fin n → Angle) : turns (fun i => α + θ i) = turns θ := by
  unfold turns
  simp only [add_sub_add_left_eq_sub]

/-- The sequence may start anywhere. -/
lemma turns_shift (k : Fin n) (θ : Fin n → Angle) : turns (fun i => θ (i + k)) = turns θ := by
  unfold turns
  simp only [add_right_comm _ 1 k]
  exact Equiv.sum_comp (Equiv.addRight k) fun i => (θ (i + 1) - θ i).toReal

lemma turns_closed (θ : Fin n → Angle) : ∃ k : ℤ, turns θ = k * (2 * π) := by
  -- as a class the increments are differences, and those cancel around the sequence
  have cancel : (turns θ : Angle) = 0 := by
    calc (turns θ : Angle) = ∑ i, (((θ (i + 1) - θ i).toReal : ℝ) : Angle) := map_sum Angle.coeHom _ _
      _ = ∑ i, θ (i + 1) - ∑ i, θ i := by simp only [Angle.coe_toReal, Finset.sum_sub_distrib]
      _ = 0 := sub_eq_zero.mpr (Equiv.sum_comp (Equiv.addRight 1) θ)
  obtain ⟨k, whole⟩ := Angle.coe_eq_zero_iff.mp cancel
  exact ⟨k, by rw [← whole, zsmul_eq_mul]⟩

lemma turns_le (θ : Fin n → Angle) : turns θ ≤ n * π := by
  have bound := Finset.sum_le_card_nsmul Finset.univ _ π fun i _ => (θ (i + 1) - θ i).toReal_le_pi
  rwa [Finset.card_univ, Fintype.card_fin, nsmul_eq_mul] at bound

lemma neg_lt_turns (θ : Fin n → Angle) : -(n * π) < turns θ := by
  have bound : ∑ _i : Fin n, -π < turns θ :=
    Finset.sum_lt_sum_of_nonempty ⟨0, Finset.mem_univ 0⟩ fun i _ => (θ (i + 1) - θ i).neg_pi_lt_toReal
  rwa [Finset.sum_const, Finset.card_univ, Fintype.card_fin, nsmul_eq_mul, mul_neg] at bound

/-- Backwards every increment is negated. A half turn would stay as it is. -/
lemma turns_rev {θ : Fin n → Angle} (noHalf : ∀ i, θ (i + 1) - θ i ≠ π) : turns (fun i => θ i.rev) = -turns θ := by
  have increment (i : Fin n) :
      (θ (i + 1).rev - θ i.rev).toReal = -(θ ((i + 1).rev + 1) - θ (i + 1).rev).toReal := by
    have next : (i + 1).rev + 1 = i.rev := by rw [Fin.rev_add, sub_add_cancel]
    rw [← next, ← Angle.toReal_neg_eq_neg_toReal_iff.mpr (noHalf _), neg_sub]
  unfold turns
  simp only [increment, Finset.sum_neg_distrib]
  exact congrArg _ (Equiv.sum_comp ((Equiv.addRight 1).trans Fin.revPerm) fun i => (θ (i + 1) - θ i).toReal)

/-- In the last increment, which closes the sequence, the index is reduced modulo `n`. -/
lemma regular_increment {δ : Angle} (closed : n • δ = 0) (i : Fin n) : (i + 1).val • δ - i.val • δ = δ := by
  have index : (i + 1).val = (i.val + 1) % n := by
    rw [Fin.val_add, Fin.val_one', Nat.add_mod_mod]
  rw [index, ← nsmul_eq_mod_nsmul _ closed, succ_nsmul, add_sub_cancel_left]

/-- Equal increments. -/
lemma turns_regular {δ : Angle} (closed : n • δ = 0) : turns (fun i : Fin n => i.val • δ) = n * δ.toReal := by
  unfold turns
  simp only [regular_increment closed, Finset.sum_const, Finset.card_univ, Fintype.card_fin, nsmul_eq_mul]

/-- Angles within a half turn: the increments need no wrapping and cancel. -/
lemma turns_eq_zero {θ : Fin n → Angle} {x : Fin n → ℝ} (represents : ∀ i, θ i = x i)
    (within : ∀ i, |x i| < π / 2) : turns θ = 0 := by
  have increment (i : Fin n) : (θ (i + 1) - θ i).toReal = x (i + 1) - x i := by
    have next := abs_lt.mp (within (i + 1))
    have here := abs_lt.mp (within i)
    rw [represents, represents, ← Angle.coe_sub, Angle.toReal_coe_eq_self_iff]
    constructor <;> linarith
  unfold turns
  simp only [increment, Finset.sum_sub_distrib]
  rw [sub_eq_zero]
  exact Equiv.sum_comp (Equiv.addRight 1) x

end

end Otap.Lib
