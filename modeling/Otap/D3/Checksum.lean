import Otap.D3.Session

/-!
# The rolling photon checksum

`calculate_rpc` of `crates/luxstream-otap-d3/src/rpc.rs` as a number: the seed plus the weighted sum of the values,
modulo `2 ^ 32`. On the documented ranges a weight times a value stays below the modulus, so that no change of one
value can be absorbed by it (`calculateRpc_set_ne`).
-/

namespace Otap.D3

/-- What one unit of the symbol's value adds: `W_λ · P_i`. -/
def Symbol.weight (s : Symbol) : Nat :=
  s.lambda.toNat * 7919 * s.pol.toU8.toNat

/-- `value` is a 10-bit number and `lambda` a DWDM channel number. -/
def Symbol.Documented (s : Symbol) : Prop :=
  s.value.toNat ≤ 1023 ∧ 1 ≤ s.lambda.toNat ∧ s.lambda.toNat ≤ 96

instance (s : Symbol) : Decidable s.Documented :=
  inferInstanceAs (Decidable (_ ∧ _ ∧ _))

/-- The sum of the terms, over the natural numbers. -/
def weightedSum (symbols : List Symbol) : Nat :=
  (symbols.map fun s => s.value.toNat * s.weight).sum

lemma Polarization.toU8_bounds (p : Polarization) : 1 ≤ p.toU8.toNat ∧ p.toU8.toNat ≤ 5 := by
  cases p <;> decide

lemma Symbol.weight_pos {s : Symbol} (documented : s.Documented) : 0 < s.weight :=
  Nat.mul_pos (Nat.mul_pos documented.2.1 (by decide)) s.pol.toU8_bounds.1

lemma Symbol.weight_le {s : Symbol} (documented : s.Documented) : s.weight ≤ 96 * 7919 * 5 :=
  Nat.mul_le_mul (Nat.mul_le_mul_right _ documented.2.2) s.pol.toU8_bounds.2

/-- The accumulator of the loop, modulo the width of its type. -/
lemma toNat_foldl_term (symbols : List Symbol) (acc : UInt64) :
    (symbols.foldl (fun acc s => acc + s.value.toUInt64 * (s.lambda.toUInt64 * 7919) * s.pol.toU8.toUInt64)
      acc).toNat ≡ acc.toNat + weightedSum symbols [MOD 2 ^ 64] := by
  induction symbols generalizing acc with
  | nil => exact .refl _
  | cons s symbols ih =>
    have term : (acc + s.value.toUInt64 * (s.lambda.toUInt64 * 7919) * s.pol.toU8.toUInt64).toNat ≡
        acc.toNat + s.value.toNat * s.weight [MOD 2 ^ 64] := by
      simp [Nat.ModEq, UInt64.toNat_add, UInt64.toNat_mul, Symbol.weight, Nat.mul_assoc]
    rw [weightedSum, List.map_cons, List.sum_cons, ← weightedSum, ← Nat.add_assoc]
    exact (ih _).trans (term.add_right _)

/-- The checksum is the documented sum. -/
lemma toNat_calculateRpc (symbols : List Symbol) (domain : UInt32) (epochNonce : UInt64) :
    (calculateRpc symbols domain epochNonce).toNat =
      (epochNonce.toNat + domain.toNat * 31 + weightedSum symbols) % 2 ^ 32 := by
  have loop := toNat_foldl_term symbols (epochNonce + domain.toUInt64 * 31)
  have seed : (epochNonce + domain.toUInt64 * 31).toNat ≡ epochNonce.toNat + domain.toNat * 31 [MOD 2 ^ 64] := by
    simp [Nat.ModEq, UInt64.toNat_add, UInt64.toNat_mul]
  have low : (calculateRpc symbols domain epochNonce).toNat =
      (symbols.foldl (fun acc s => acc + s.value.toUInt64 * (s.lambda.toUInt64 * 7919) * s.pol.toU8.toUInt64)
        (epochNonce + domain.toUInt64 * 31)).toNat % 2 ^ 32 := by
    rw [calculateRpc, UInt64.toNat_toUInt32, UInt64.toNat_and]
    exact (congrArg (· % 2 ^ 32) (Nat.and_two_pow_sub_one_eq_mod _ 32)).trans (Nat.mod_mod _ _)
  rw [low]
  exact (loop.trans (seed.add_right _)).of_dvd (by decide)

/-- The sum with one value replaced, against the rest of the sum. -/
lemma weightedSum_set (symbols : List Symbol) (i : Nat) (h : i < symbols.length) (v : UInt16) :
    ∃ rest, weightedSum symbols = symbols[i].value.toNat * symbols[i].weight + rest ∧
      weightedSum (symbols.set i { symbols[i] with value := v }) = v.toNat * symbols[i].weight + rest := by
  induction symbols generalizing i with
  | nil => cases h
  | cons s symbols ih =>
    cases i with
    | zero => exact ⟨weightedSum symbols, rfl, rfl⟩
    | succ i =>
      obtain ⟨rest, before, after⟩ := ih i (Nat.lt_of_succ_lt_succ h)
      refine ⟨s.value.toNat * s.weight + rest, ?_, ?_⟩
      · rw [weightedSum, List.map_cons, List.sum_cons, ← weightedSum, before]
        exact Nat.add_left_comm ..
      · rw [List.set_cons_succ, weightedSum, List.map_cons, List.sum_cons, ← weightedSum]
        exact (congrArg _ after).trans (Nat.add_left_comm ..)

/-- No two documented values of one symbol have the same term modulo `2 ^ 32`. -/
lemma term_inj {s : Symbol} (documented : s.Documented) {v v' : Nat} (hv : v ≤ 1023) (hv' : v' ≤ 1023)
    (e : v * s.weight ≡ v' * s.weight [MOD 2 ^ 32]) : v = v' := by
  have small {v : Nat} (hv : v ≤ 1023) : v * s.weight < 2 ^ 32 :=
    calc v * s.weight ≤ 1023 * (96 * 7919 * 5) := Nat.mul_le_mul hv (s.weight_le documented)
      _ < 2 ^ 32 := by decide
  exact Nat.eq_of_mul_eq_mul_right (s.weight_pos documented) (e.eq_of_lt_of_lt (small hv) (small hv'))

/-- A frame of documented symbols in which exactly one value is changed, to another 10-bit value, has another
    checksum, whatever its domain and epoch nonce. -/
theorem calculateRpc_set_ne (symbols : List Symbol) (documented : ∀ s ∈ symbols, s.Documented) (domain : UInt32)
    (epochNonce : UInt64) (i : Nat) (h : i < symbols.length) (v : UInt16) (hv : v.toNat ≤ 1023)
    (changed : v ≠ symbols[i].value) :
    calculateRpc (symbols.set i { symbols[i] with value := v }) domain epochNonce ≠
      calculateRpc symbols domain epochNonce := by
  intro e
  obtain ⟨rest, before, after⟩ := weightedSum_set symbols i h v
  have sums := congrArg UInt32.toNat e
  rw [toNat_calculateRpc, toNat_calculateRpc, before, after] at sums
  have terms : v.toNat * symbols[i].weight ≡ symbols[i].value.toNat * symbols[i].weight [MOD 2 ^ 32] :=
    Nat.ModEq.add_right_cancel' rest (Nat.ModEq.add_left_cancel' _ sums)
  have valid := documented _ (List.getElem_mem h)
  exact changed (UInt16.toNat_inj.mp (term_inj valid hv valid.1 terms))

theorem calculateRpc_set_ne_twoSymbols :
    calculateRpc [⟨1023, 34, .h⟩, ⟨501, 34, .v⟩] 0 7 ≠ calculateRpc twoSymbols 0 7 :=
  calculateRpc_set_ne twoSymbols (by decide) 0 7 1 (by decide) 501 (by decide) (by decide)

end Otap.D3
