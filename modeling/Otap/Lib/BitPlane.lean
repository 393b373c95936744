import Mathlib.Tactic

/-!
# Bit planes

A table of keys stored transposed: plane `p` holds bit `p` of every key, one lane per entry. Comparing
all entries with one key is then a reduction over the planes, `acc &&& plane` where the bit of the key
is set and `acc &&& ~~~plane` where it is not; `getLsbD_matchPlanes` says that it leaves exactly the
lanes whose bits are the bits of the key. The key of one lane is read back plane by plane (`gatherBits`).

The set lanes of a word are enumerated by the loop `for b != 0 { …; b &= b - 1 }` (`scanBits`): each
round yields the lowest set bit and clears it, so the loop lists the set lanes in increasing order
(`scanBits_eq`). The last section is about arrays of words that such loops fill in place.
-/

namespace Otap.Lib

variable {n w : Nat}

/-- Write one bit of a word. -/
def writeBit (v : BitVec n) (i : Nat) (b : Bool) : BitVec n :=
  if b then v ||| BitVec.twoPow n i else v &&& ~~~BitVec.twoPow n i

lemma getLsbD_writeBit (v : BitVec n) {i : Nat} (hi : i < n) (b : Bool) (j : Nat) :
    (writeBit v i b).getLsbD j = if j = i then b else v.getLsbD j := by
  rw [writeBit]
  by_cases h : j = i
  · subst h
    cases b <;> simp [hi]
  · cases b with
    | true => simp [h, show i ≠ j from Ne.symm h]
    | false =>
      by_cases hj : j < n
      · simp [h, hj]
      · simp [h, hj, BitVec.getLsbD_of_ge v j (by omega)]

/-- The word that a loop over all lanes assembles bit by bit. -/
def ofLanes (n : Nat) (f : Nat → Bool) : BitVec n :=
  (List.range n).foldl (fun v j => writeBit v j (f j)) 0#n

lemma getLsbD_ofLanes (f : Nat → Bool) {j : Nat} (hj : j < n) : (ofLanes n f).getLsbD j = f j := by
  suffices h : ∀ k ≤ n, ((List.range k).foldl (fun v j => writeBit v j (f j)) 0#n).getLsbD j
      = if j < k then f j else false by
    rw [ofLanes, h n le_rfl, if_pos hj]
  intro k hk
  induction k with
  | zero => simp
  | succ k ih =>
    rw [List.range_succ, List.foldl_append, List.foldl_cons, List.foldl_nil,
      getLsbD_writeBit _ (by omega), ih (by omega)]
    by_cases h : j = k
    · simp [h]
    · simp [h, show j < k + 1 ↔ j < k by omega]

/-- The key of a lane, gathered plane by plane: bit `p` is set if plane `p` has it. -/
def gatherBits (w : Nat) (f : Nat → Bool) : BitVec w :=
  (List.range w).foldl (fun v p => if f p then v ||| 1#w <<< p else v) 0#w

lemma getLsbD_gatherBits (f : Nat → Bool) {p : Nat} (lt : p < w) : (gatherBits w f).getLsbD p = f p := by
  -- after `k` planes the first `k` bits are there
  suffices rounds : ∀ k ≤ w, ((List.range k).foldl (fun v p => if f p then v ||| 1#w <<< p else v) 0#w).getLsbD p =
      (decide (p < k) && f p) by
    rw [gatherBits, rounds w le_rfl, decide_eq_true lt, Bool.true_and]
  intro k le
  induction k with
  | zero => simp
  | succ k ih =>
    have before := ih (by omega)
    have bit : (1#w <<< k).getLsbD p = decide (p = k) := by
      rw [← BitVec.twoPow_eq, BitVec.getLsbD_twoPow, decide_eq_true (show k < w by omega), Bool.true_and]
      exact decide_eq_decide.mpr eq_comm
    rw [List.range_succ, List.foldl_append, List.foldl_cons, List.foldl_nil]
    split
    case isTrue set =>
      rw [BitVec.getLsbD_or, before, bit]
      by_cases here : p = k
      · simp [here, set]
      · simp [here, show p < k + 1 ↔ p < k by omega]
    case isFalse unset =>
      rw [before]
      by_cases here : p = k
      · simp [here, Bool.eq_false_iff.mpr unset]
      · simp [show p < k + 1 ↔ p < k by omega]

/-! ## Matching a key against all lanes -/

/-- Reduce the planes by the bits of `key`, starting from the lanes in `init`. -/
def matchPlanes (key : BitVec w) (planes : Nat → BitVec n) (init : BitVec n) : BitVec n :=
  (List.range w).foldl
    (fun acc p => if key.getLsbD p then acc &&& planes p else acc &&& ~~~planes p) init

/-- The reduction keeps the lanes of `init` that carry the bits of `key`. -/
lemma getLsbD_matchPlanes (key : BitVec w) (planes : Nat → BitVec n) (init : BitVec n) {j : Nat}
    (hj : j < n) :
    (matchPlanes key planes init).getLsbD j = true ↔
      init.getLsbD j = true ∧ ∀ p < w, (planes p).getLsbD j = key.getLsbD p := by
  -- the reduction over the first `k` planes compares the first `k` bits
  suffices h : ∀ k, ((List.range k).foldl
      (fun acc p => if key.getLsbD p then acc &&& planes p else acc &&& ~~~planes p) init).getLsbD j
        = true ↔ init.getLsbD j = true ∧ ∀ p < k, (planes p).getLsbD j = key.getLsbD p from h w
  intro k
  induction k with
  | zero => simp
  | succ k ih =>
    rw [List.range_succ, List.foldl_append, List.foldl_cons, List.foldl_nil]
    simp only [Nat.forall_lt_succ_right, ← and_assoc, ← ih]
    cases key.getLsbD k <;> simp [hj]

/-- A lane that stores `value` matches `key` if and only if the two are equal. -/
lemma lane_eq_iff {value key : BitVec w} {planes : Nat → BitVec n} {j : Nat}
    (lane : ∀ p < w, (planes p).getLsbD j = value.getLsbD p) :
    (∀ p < w, (planes p).getLsbD j = key.getLsbD p) ↔ value = key := by
  constructor
  · intro h
    apply BitVec.eq_of_getLsbD_eq
    intro p hp
    rw [← lane p hp, h p hp]
  · rintro rfl
    exact lane

/-! ## Enumerating the set lanes -/

/-- Clearing the lowest set bit. -/
lemma getLsbD_and_sub_one {b : BitVec n} (hb : b ≠ 0#n) (j : Nat) :
    (b &&& (b - 1#n)).getLsbD j = (b.getLsbD j && decide (j ≠ b.ctz.toNat)) := by
  have htrue := BitVec.getLsbD_true_ctz_of_ne_zero (x := b) hb
  have hlow : ∀ i, i < b.ctz.toNat → b.getLsbD i = false :=
    fun i hi => BitVec.getLsbD_false_of_lt_ctz hi
  generalize b.ctz.toNat = t at htrue hlow
  have ht : t < n := BitVec.lt_of_getLsbD htrue
  -- the number is an odd multiple of `2 ^ t`
  have hmod : b.toNat % 2 ^ (t + 1) = 2 ^ t := by
    apply Nat.eq_of_testBit_eq
    intro i
    rw [Nat.testBit_mod_two_pow, Nat.testBit_two_pow]
    rcases Nat.lt_trichotomy i t with h | rfl | h
    · have := hlow i h
      simp only [BitVec.getLsbD] at this
      simp [this, show t ≠ i by omega]
    · simpa [BitVec.getLsbD] using htrue
    · simp [show ¬ i < t + 1 by omega, show t ≠ i by omega]
  have hdiv := Nat.div_add_mod b.toNat (2 ^ (t + 1))
  rw [hmod] at hdiv
  have hpos : 0 < 2 ^ t := Nat.two_pow_pos t
  have hsub : (b - 1#n).toNat = 2 ^ (t + 1) * (b.toNat / 2 ^ (t + 1)) + (2 ^ t - 1) := by
    have hlt := b.isLt
    have h1 : (1#n).toNat = 1 := by
      rw [BitVec.toNat_ofNat]
      exact Nat.mod_eq_of_lt (Nat.one_lt_two_pow (by omega))
    rw [BitVec.toNat_sub_of_le (by rw [BitVec.le_def, h1]; omega), h1]
    omega
  have hbit : (b - 1#n).getLsbD j = if j < t + 1 then decide (j < t) else b.getLsbD j := by
    rw [BitVec.getLsbD, hsub, Nat.testBit_two_pow_mul_add _ (by rw [pow_succ]; omega)]
    split
    · rw [Nat.testBit_two_pow_sub_one]
    · rename_i h
      rw [BitVec.getLsbD, Nat.testBit_div_two_pow]
      congr 1
      omega
  rw [BitVec.getLsbD_and, hbit]
  rcases Nat.lt_trichotomy j t with h | rfl | h
  · simp [hlow j h]
  · simp
  · simp [show ¬ j < t + 1 by omega, show j ≠ t by omega]

/-- The set lanes of `b` as the loop `for b != 0 { …TrailingZeros(b)…; b &= b - 1 }` visits them. Each
    round clears a bit, so the width of the word is enough fuel. -/
def scanBits : Nat → BitVec n → List Nat
  | 0, _ => []
  | fuel + 1, b => if b = 0#n then [] else b.ctz.toNat :: scanBits fuel (b &&& (b - 1#n))

/-- A strictly increasing enumeration starts with its least element. -/
lemma filter_range_cons {p : Nat → Bool} {t : Nat} (ht : t < n) (hp : p t = true)
    (hlow : ∀ i < t, p i = false) :
    (List.range n).filter p = t :: (List.range n).filter (fun j => p j && decide (j ≠ t)) := by
  have sorted : ((List.range n).filter p).Pairwise (· < ·) := List.pairwise_lt_range.filter _
  have sorted' : (t :: (List.range n).filter (fun j => p j && decide (j ≠ t))).Pairwise (· < ·) := by
    refine List.pairwise_cons.mpr ⟨?_, List.pairwise_lt_range.filter _⟩
    intro j hj
    simp only [ne_eq, List.mem_filter, Bool.and_eq_true, decide_eq_true_eq] at hj
    rcases Nat.lt_trichotomy j t with h | h | h
    · exact absurd hj.2.1 (by simp [hlow j h])
    · exact absurd h hj.2.2
    · exact h
  refine List.Perm.eq_of_pairwise (fun a b _ _ hab hba => ?_) sorted sorted' ?_
  · omega
  · rw [List.perm_ext_iff_of_nodup sorted.nodup sorted'.nodup]
    intro j
    by_cases h : j = t
    · simp [h, ht, hp]
    · simp [h]

/-- The loop lists the set lanes in increasing order. -/
lemma scanBits_eq (b : BitVec n) : scanBits n b = (List.range n).filter (fun j => b.getLsbD j) := by
  suffices h : ∀ fuel (b : BitVec n), ((List.range n).filter (fun j => b.getLsbD j)).length ≤ fuel →
      scanBits fuel b = (List.range n).filter (fun j => b.getLsbD j) by
    refine h n b ?_
    simpa using List.length_filter_le (fun j => b.getLsbD j) (List.range n)
  intro fuel
  induction fuel with
  | zero =>
    intro b h
    exact (List.length_eq_zero_iff.mp (Nat.le_zero.mp h)).symm
  | succ fuel ih =>
    intro b h
    rw [scanBits]
    split
    case isTrue hb => simp [hb]
    case isFalse hb =>
      have htrue := BitVec.getLsbD_true_ctz_of_ne_zero (x := b) hb
      have e := filter_range_cons (BitVec.lt_of_getLsbD htrue) htrue
        (fun i hi => BitVec.getLsbD_false_of_lt_ctz hi)
      simp only [← getLsbD_and_sub_one hb] at e
      rw [e] at h ⊢
      rw [ih _ (by simpa using h)]

/-! ## Arrays filled in place -/

variable {α : Type*}

/-- A loop that updates the first `k` cells of an array from their own contents. -/
lemma foldl_update_range (f : Nat → α → α) (a : Nat → α) (k : Nat) :
    (List.range k).foldl (fun a i => Function.update a i (f i (a i))) a
      = fun i => if i < k then f i (a i) else a i := by
  induction k with
  | zero => simp
  | succ k ih =>
    rw [List.range_succ, List.foldl_append, ih]
    funext i
    by_cases h : i = k
    · subst h
      simp
    · simp [h, show i < k + 1 ↔ i < k by omega]

end Otap.Lib
