import Mathlib.Tactic

/-!
# Fields of a register file

The first part is about fields packed into one word: a field of width `k` at bit `s` is written by
clearing its bits and setting the new ones and read by a shift and a mask. A read of the field returns
what was written (`extractLsb'_insertField`), and a write does not change a field at other bits
(`extractLsb'_insertField_disjoint`).

The second part is about runs: what a reader sees after a run of updates is the last value that the
updates of the run wrote for it, or what it saw before the run (`read_run`).
-/

namespace Otap.Lib

/-! ## Packed fields -/

section Packed

variable {n k k' : Nat}

/-- The word with the field of width `k` at bit `s` replaced by `v`. -/
def insertField (w : BitVec n) (s : Nat) (v : BitVec k) : BitVec n :=
  (w &&& ~~~((BitVec.allOnes k).setWidth n <<< s)) ||| (v.setWidth n <<< s)

lemma getLsbD_insertField (w : BitVec n) (s : Nat) (v : BitVec k) (i : Nat) :
    (insertField w s v).getLsbD i =
      if s ≤ i ∧ i < s + k ∧ i < n then v.getLsbD (i - s) else w.getLsbD i := by
  unfold insertField
  simp only [BitVec.getLsbD_or, BitVec.getLsbD_and, BitVec.getLsbD_not, BitVec.getLsbD_shiftLeft,
    BitVec.getLsbD_setWidth, BitVec.getLsbD_allOnes]
  by_cases hn : i < n
  case neg => simp [hn, BitVec.getLsbD_of_ge w i (Nat.not_lt.mp hn)]
  case pos =>
    by_cases hs : i < s
    case pos => simp [hn, hs, Nat.not_le.mpr hs]
    case neg =>
      by_cases hk : i - s < k
      case pos =>
        simp [hn, hs, hk, Nat.not_lt.mp hs, show i < s + k by omega, show i - s < n by omega]
      case neg =>
        simp [hn, hs, hk, show ¬ i < s + k by omega, BitVec.getLsbD_of_ge v (i - s) (by omega)]

lemma extractLsb'_insertField {s : Nat} (w : BitVec n) (v : BitVec k) (fits : s + k ≤ n) :
    (insertField w s v).extractLsb' s k = v := by
  apply BitVec.eq_of_getLsbD_eq
  intro i lt
  rw [BitVec.getLsbD_extractLsb', getLsbD_insertField]
  simp [lt, show s + i < n by omega]

lemma extractLsb'_insertField_disjoint {s s' : Nat} (w : BitVec n) (v : BitVec k)
    (apart : s' + k' ≤ s ∨ s + k ≤ s') :
    (insertField w s v).extractLsb' s' k' = w.extractLsb' s' k' := by
  apply BitVec.eq_of_getLsbD_eq
  intro i lt
  rw [BitVec.getLsbD_extractLsb', BitVec.getLsbD_extractLsb', getLsbD_insertField,
    if_neg (by omega)]

/-- A field read by a shift and a mask. -/
lemma setWidth_shift_mask (w : BitVec n) (s : Nat) :
    ((w >>> s) &&& (BitVec.allOnes k).setWidth n).setWidth k = w.extractLsb' s k := by
  apply BitVec.eq_of_getLsbD_eq
  intro i lt
  simp only [BitVec.getLsbD_setWidth, BitVec.getLsbD_and, BitVec.getLsbD_ushiftRight,
    BitVec.getLsbD_allOnes, BitVec.getLsbD_extractLsb', lt, decide_true, Bool.true_and, Bool.and_true]
  by_cases hn : i < n
  case pos => simp [hn]
  case neg => simp [hn, BitVec.getLsbD_of_ge w (s + i) (by omega)]

end Packed

/-! ## The last write of a run -/

section LastWrite

variable {σ ι β : Type*}

/-- The last value that the updates write, for a reader to whom update `c` writes `written c`. -/
def lastWrite (written : ι → Option β) (calls : List ι) : Option β :=
  calls.reverse.findSome? written

lemma lastWrite_concat (written : ι → Option β) (calls : List ι) (c : ι) :
    lastWrite written (calls ++ [c]) = (written c).or (lastWrite written calls) := by
  unfold lastWrite
  rw [List.reverse_append, List.reverse_singleton, List.singleton_append, List.findSome?_cons]
  cases written c with
  | none => rfl
  | some b => rfl

/-- The last write is that of some update, or no update writes. -/
lemma lastWrite_cases (written : ι → Option β) (calls : List ι) :
    (∃ c ∈ calls, ∃ b, written c = some b ∧ lastWrite written calls = some b) ∨
      (∀ c ∈ calls, written c = none) ∧ lastWrite written calls = none := by
  cases last : lastWrite written calls with
  | none => exact .inr ⟨fun c mem => List.findSome?_eq_none_iff.mp last c (List.mem_reverse.mpr mem), rfl⟩
  | some b =>
    obtain ⟨c, mem, wrote⟩ := List.exists_of_findSome?_eq_some last
    exact .inl ⟨c, List.mem_reverse.mp mem, b, wrote, rfl⟩

/-- A reader that every update either writes or leaves alone sees the last write of a run. -/
lemma read_run {step : σ → ι → σ} {read : σ → β} {written : ι → Option β}
    (law : ∀ s c, read (step s c) = (written c).getD (read s)) (s : σ) (calls : List ι) :
    read (calls.foldl step s) = (lastWrite written calls).getD (read s) := by
  induction calls using List.reverseRecOn with
  | nil => rfl
  | append_singleton calls c ih =>
    rw [List.foldl_concat, law, ih, lastWrite_concat]
    cases written c with
    | none => rfl
    | some b => rfl

end LastWrite

end Otap.Lib
