import Mathlib.Tactic
import Mathlib.Data.List.DropRight

/-!
# Circular buffers and files of fixed-size records

`RingRep c xs ring` says what a circular buffer of capacity `c` holds after the pushes `xs`: push
number `k` sits at position `k % c` as long as it is among the last `c` pushes. `RingRep.push` is the
write that an implementation performs (append while there is room, else overwrite the oldest slot) and
`RingRep.mem_iff` says that membership in the buffer is membership in the last `c` pushes,
`xs.rtake c`.

The second half is about a file that stores such a buffer as consecutive records of `b` bytes each:
`flatMap enc` lays the records out, and dropping, taking or overwriting at a multiple of `b` acts on
whole records.
-/

namespace Otap.Lib

variable {α β : Type*}

/-- What a circular buffer of capacity `c` holds after the pushes `xs`. -/
structure RingRep (c : Nat) (xs ring : List α) : Prop where
  length : ring.length = min xs.length c
  slot : ∀ k, k < xs.length → xs.length ≤ k + c → ring[k % c]? = xs[k]?

/-- Nothing has been pushed yet. -/
lemma RingRep.nil {c} : RingRep c ([] : List α) [] where
  length := by simp
  slot k h := by simp at h

/-- A buffer that has not wrapped holds the pushes themselves. -/
lemma RingRep.of_le {c} {xs : List α} (h : xs.length ≤ c) : RingRep c xs xs where
  length := by omega
  slot k hk _ := by rw [Nat.mod_eq_of_lt (by omega)]

/-- Two of the last `c` pushes share a slot only if they are the same push. -/
lemma ring_slot_inj {c n j k : Nat} (hj : j < n) (hk : k < n) (hj' : n ≤ j + c) (hk' : n ≤ k + c)
    (e : j % c = k % c) : j = k := by
  rcases Nat.lt_or_ge j k with h | h
  · have : (k - j) % c = 0 := Nat.sub_mod_eq_zero_of_mod_eq e.symm
    rw [Nat.mod_eq_of_lt (by omega)] at this
    omega
  · have : (j - k) % c = 0 := Nat.sub_mod_eq_zero_of_mod_eq e
    rw [Nat.mod_eq_of_lt (by omega)] at this
    omega

/-- Every slot of a full buffer holds one of the last `c` pushes. -/
lemma ring_slot_surj {c n j : Nat} (hj : j < c) (hn : c ≤ n) :
    ∃ k, k < n ∧ n ≤ k + c ∧ k % c = j := by
  have hc : 0 < c := by omega
  have hm := Nat.mod_lt (n - 1 - j) hc
  have hle := Nat.mod_le (n - 1 - j) c
  refine ⟨n - 1 - (n - 1 - j) % c, by omega, by omega, ?_⟩
  have e : n - 1 - (n - 1 - j) % c = j + c * ((n - 1 - j) / c) := by
    have := Nat.mod_add_div (n - 1 - j) c
    omega
  rw [e, Nat.add_mul_mod_self_left, Nat.mod_eq_of_lt hj]

/-- Membership in the buffer is membership in the last `c` pushes. -/
lemma RingRep.mem_iff {c} {xs ring : List α} (rep : RingRep c xs ring) {x} :
    x ∈ ring ↔ x ∈ xs.rtake c := by
  rw [List.rtake, List.mem_drop_iff_getElem, List.mem_iff_getElem]
  constructor
  · rintro ⟨j, hj, rfl⟩
    have hlen := rep.length
    rcases Nat.lt_or_ge xs.length c with h | h
    · have hs := rep.slot j (by omega) (by omega)
      rw [Nat.mod_eq_of_lt (by omega), List.getElem?_eq_getElem hj,
        List.getElem?_eq_getElem (by omega)] at hs
      refine ⟨j, by omega, ?_⟩
      simp [Option.some.inj hs, show xs.length - c = 0 by omega]
    · obtain ⟨k, hk, hk', e⟩ := ring_slot_surj (n := xs.length) (show j < c by omega) h
      have hs := rep.slot k hk hk'
      rw [e, List.getElem?_eq_getElem hj, List.getElem?_eq_getElem hk] at hs
      refine ⟨k - (xs.length - c), by omega, ?_⟩
      simp only [Option.some.inj hs, show xs.length - c + (k - (xs.length - c)) = k by omega]
  · rintro ⟨i, hi, rfl⟩
    have hs := rep.slot (xs.length - c + i) (by omega) (by omega)
    rw [List.getElem?_eq_getElem (l := xs) (by omega)] at hs
    obtain ⟨hj, hs⟩ := List.getElem?_eq_some_iff.mp hs
    exact ⟨_, hj, hs⟩

/-- The write position of the next push. -/
def ringPush (c n : Nat) (ring : List α) (x : α) : List α :=
  if ring.length < c then ring ++ [x] else ring.set (n % c) x

/-- Pushing keeps the representation. -/
lemma RingRep.push {c} {xs ring : List α} (hc : 0 < c) (rep : RingRep c xs ring) (x : α) :
    RingRep c (xs ++ [x]) (ringPush c xs.length ring x) := by
  have hlen := rep.length
  unfold ringPush
  split
  case isTrue h =>
    refine ⟨by simp; omega, fun k hk hk' => ?_⟩
    simp only [List.length_append, List.length_singleton] at hk hk'
    rw [Nat.mod_eq_of_lt (by omega), List.getElem?_append, List.getElem?_append,
      show ring.length = xs.length by omega]
    split
    · have hs := rep.slot k (by omega) (by omega)
      rwa [Nat.mod_eq_of_lt (by omega)] at hs
    · rfl
  case isFalse h =>
    refine ⟨by simp; omega, fun k hk hk' => ?_⟩
    simp only [List.length_append, List.length_singleton] at hk hk'
    rcases Nat.lt_or_ge k xs.length with h' | h'
    · have ne : xs.length % c ≠ k % c := by
        intro e
        exact absurd (ring_slot_inj (n := xs.length + 1) (by omega) hk (by omega) hk' e) (by omega)
      rw [List.getElem?_set_ne ne, List.getElem?_append_left h']
      exact rep.slot k h' (by omega)
    · obtain rfl : k = xs.length := by omega
      have := Nat.mod_lt xs.length hc
      simp [show xs.length % c < ring.length by omega]

section Records

variable {b : Nat} {enc : α → List β}

/-- Dropping a multiple of the record size drops whole records. -/
lemma drop_flatMap_records (henc : ∀ a, (enc a).length = b) (l : List α) (i : Nat) :
    (l.flatMap enc).drop (i * b) = (l.drop i).flatMap enc := by
  induction l generalizing i with
  | nil => simp
  | cons a l ih =>
    cases i with
    | zero => simp
    | succ i =>
      rw [List.flatMap_cons, List.drop_succ_cons, ← ih i, List.drop_append, henc,
        List.drop_eq_nil_of_le (by rw [henc, Nat.succ_mul]; omega), List.nil_append]
      congr 1
      rw [Nat.succ_mul]; omega

/-- Taking a multiple of the record size takes whole records. -/
lemma take_flatMap_records (henc : ∀ a, (enc a).length = b) (l : List α) (i : Nat) :
    (l.flatMap enc).take (i * b) = (l.take i).flatMap enc := by
  induction l generalizing i with
  | nil => simp
  | cons a l ih =>
    cases i with
    | zero => simp
    | succ i =>
      rw [List.flatMap_cons, List.take_succ_cons, List.flatMap_cons, ← ih i, List.take_append, henc,
        List.take_of_length_le (by rw [henc, Nat.succ_mul]; omega)]
      congr 2
      rw [Nat.succ_mul]; omega

/-- The size of a file of records. -/
lemma length_flatMap_records (henc : ∀ a, (enc a).length = b) (l : List α) :
    (l.flatMap enc).length = l.length * b := by
  induction l with
  | nil => simp
  | cons a l ih => rw [List.flatMap_cons, List.length_append, ih, henc, List.length_cons, Nat.succ_mul]; omega

/-- Overwriting the bytes of record `i` replaces that record. -/
lemma overwrite_flatMap_records (henc : ∀ a, (enc a).length = b) (l : List α) {i : Nat} (x : α)
    (hi : i < l.length) :
    (l.flatMap enc).take (i * b) ++ enc x ++ (l.flatMap enc).drop (i * b + b)
      = (l.set i x).flatMap enc := by
  rw [take_flatMap_records henc, show i * b + b = (i + 1) * b by rw [Nat.succ_mul],
    drop_flatMap_records henc, List.set_eq_take_append_cons_drop, if_pos hi]
  simp

end Records

end Otap.Lib
