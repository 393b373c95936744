import Otap.Lib.GoSlice
import Otap.Bitweave.Avx512

/-!
# The scan into a caller's buffer

Embeds `CheckConflictsBuf` and `extractConflicts` of `flr/internal/bitweave/bitweave_buffered.go`, which append the
conflicts to `buf[:0]`. The scalar masks are those of `CheckConflicts`, and the three loops of each word append what
`CheckConflicts` lists; so `checkConflictsBuf_eq`: on the scalar path the two scans return one list, whatever the
buffer held.
-/

namespace Otap.Bitweave
open Otap.Lib

/-! ## The code -/

/-- One `for b != 0` loop of `extractConflicts`. Each round clears a bit, so the width of the word is enough fuel. -/
def LeaseIndex.appendBits (idx : LeaseIndex) (fresh : Nat → List Conflict) (type : ConflictType) (w : Nat) :
    Nat → BitVec 64 → Heap Conflict × Slice → Heap Conflict × Slice
  | 0, _, results => results
  | fuel + 1, b, results =>
    if b = 0#64 then results
    else
      let trail := b.ctz.toNat
      let slot := w * 64 + trail
      idx.appendBits fresh type w fuel (b &&& (b - 1#64))
        (Slice.append fresh results.1 results.2 { type, leaseID := idx.leaseIDs slot, slotIndex := slot })

/-- `LeaseIndex.extractConflicts`. -/
def LeaseIndex.extractConflicts (idx : LeaseIndex) (fresh : Nat → List Conflict) (masks : ConflictMasks)
    (heap : Heap Conflict) (buf : Slice) : Heap Conflict × Slice :=
  let words := (idx.count + 63) / 64
  (List.range words).foldl
    (fun results w =>
      let results := idx.appendBits fresh .lambdaCollision w 64 (masks.lambda w) results
      let results := idx.appendBits fresh .awgPortCollision w 64 (masks.port w) results
      idx.appendBits fresh .tenantIsolation w 64 (masks.tenant w) results)
    (heap, buf.truncate)

/-- `LeaseIndex.CheckConflictsBuf`, with the build constant `avx512Enabled` as an argument: the heap after it and the
    slice that it returns. -/
def LeaseIndex.checkConflictsBuf (idx : LeaseIndex) (avx512Enabled : Bool) (regs : Registers)
    (fresh : Nat → List Conflict) (q : Attributes) (excludeSlot : Int) (heap : Heap Conflict) (buf : Slice) :
    Heap Conflict × Slice :=
  idx.extractConflicts fresh (idx.computeConflictMasks avx512Enabled regs q excludeSlot) heap buf

/-! ## The masks -/

/-- The scalar path computes the masks of `CheckConflicts`. -/
lemma computeConflictMasks_scalar (idx : LeaseIndex) (regs : Registers) (q : Attributes) (excludeSlot : Int)
    (some : (idx.count + 63) / 64 ≠ 0) :
    idx.computeConflictMasks false regs q excludeSlot = idx.conflictMasks q excludeSlot := by
  rw [LeaseIndex.computeConflictMasks, if_neg some, if_neg Bool.false_ne_true, LeaseIndex.conflictMasks,
    LeaseIndex.combineMatches]
  simp only [matchScalar32_eq, matchScalar16_eq]
  by_cases excluded : 0 ≤ excludeSlot ∧ excludeSlot < maxLeases
  case pos => simp only [Words.exclude, if_pos excluded]
  case neg => simp only [Words.exclude, if_neg excluded]

/-! ## The extraction -/

section
variable {idx : LeaseIndex} {fresh : Nat → List Conflict}

/-- A loop over the bits of a word appends the conflicts that `CheckConflicts` lists for them. -/
lemma appendBits_eq (type : ConflictType) (w fuel : Nat) (b : BitVec 64) (results : Heap Conflict × Slice) :
    idx.appendBits fresh type w fuel b results =
      Slice.appendAll fresh results ((scanBits fuel b).map fun trail =>
        { type, leaseID := idx.leaseIDs (w * 64 + trail), slotIndex := w * 64 + trail }) := by
  induction fuel generalizing b results with
  | zero => rfl
  | succ fuel ih =>
    rw [LeaseIndex.appendBits, scanBits]
    by_cases zero : b = 0#64
    case pos => rw [if_pos zero, if_pos zero]; rfl
    case neg =>
      rw [if_neg zero, if_neg zero, ih]
      rfl

/-- The conflicts of a word. -/
def LeaseIndex.wordConflicts (idx : LeaseIndex) (masks : ConflictMasks) (w : Nat) : List Conflict :=
  idx.extractWord .lambdaCollision masks.lambda w ++ idx.extractWord .awgPortCollision masks.port w ++
    idx.extractWord .tenantIsolation masks.tenant w

lemma appendAll_append (results : Heap Conflict × Slice) (xs ys : List Conflict) :
    Slice.appendAll fresh results (xs ++ ys) = Slice.appendAll fresh (Slice.appendAll fresh results xs) ys :=
  List.foldl_append

lemma extractConflicts_eq (masks : ConflictMasks) (heap : Heap Conflict) (buf : Slice) :
    idx.extractConflicts fresh masks heap buf =
      Slice.appendAll fresh (heap, buf.truncate)
        ((List.range ((idx.count + 63) / 64)).flatMap (idx.wordConflicts masks)) := by
  rw [LeaseIndex.extractConflicts]
  generalize (heap, buf.truncate) = results
  generalize List.range ((idx.count + 63) / 64) = words
  induction words generalizing results with
  | nil => rfl
  | cons w words ih =>
    rw [List.foldl_cons, ih, List.flatMap_cons, appendAll_append]
    simp only [appendBits_eq, LeaseIndex.wordConflicts, appendAll_append]
    rfl

/-- On the scalar path the words hold the conflicts that `CheckConflicts` lists. -/
lemma flatMap_wordConflicts (idx : LeaseIndex) (regs : Registers) (q : Attributes) (excludeSlot : Int) :
    (List.range ((idx.count + 63) / 64)).flatMap
        (idx.wordConflicts (idx.computeConflictMasks false regs q excludeSlot)) =
      idx.checkConflicts q excludeSlot := by
  rw [LeaseIndex.checkConflicts]
  by_cases empty : (idx.count + 63) / 64 = 0
  case pos => rw [if_pos empty, empty]; rfl
  case neg =>
    rw [if_neg empty, computeConflictMasks_scalar idx regs q excludeSlot empty]
    rfl

end

/-- On the scalar path the scan into a buffer returns what `CheckConflicts` returns, for every index that calls of
    `Insert` and `Remove` reach and for every buffer. -/
theorem checkConflictsBuf_eq (calls : List IndexCall) (regs : Registers) (fresh : Nat → List Conflict)
    (q : Attributes) (excludeSlot : Int) {heap : Heap Conflict} {buf : Slice} (valid : buf.InBounds heap) :
    Slice.shown ((calls.foldl LeaseIndex.step newLeaseIndex).checkConflictsBuf false regs fresh q excludeSlot heap
        buf) =
      (calls.foldl LeaseIndex.step newLeaseIndex).checkConflicts q excludeSlot := by
  rw [LeaseIndex.checkConflictsBuf, extractConflicts_eq, Slice.shown_appendAll valid.truncate,
    Slice.elements_truncate, List.nil_append]
  exact flatMap_wordConflicts _ regs q excludeSlot

/-- A buffer with room for one conflict, which holds a stale one. -/
def staleHeap : Heap Conflict := [[⟨.tenantIsolation, "stale", 7⟩]]

def staleBuffer : Slice where
  array := 0
  offset := 0
  len := 1
  cap := 1
  len_le := le_rfl

/-- Four conflicts outgrow the buffer, and a nil buffer gives the same ones. -/
theorem checkConflictsBuf_eq_stale :
    Slice.shown (([.insert "a" fullQuery, .insert "b" fullQuery].foldl LeaseIndex.step newLeaseIndex).checkConflictsBuf
        false clearRegisters (fun _ => []) fullQuery (-1) staleHeap staleBuffer) =
      ([.insert "a" fullQuery, .insert "b" fullQuery].foldl LeaseIndex.step newLeaseIndex).checkConflicts
        fullQuery (-1) ∧
    Slice.shown (([.insert "a" fullQuery, .insert "b" fullQuery].foldl LeaseIndex.step newLeaseIndex).checkConflictsBuf
        false clearRegisters (fun _ => []) fullQuery (-1) [] .nil) =
      [ ⟨.lambdaCollision, "a", 0⟩, ⟨.lambdaCollision, "b", 1⟩, ⟨.awgPortCollision, "a", 0⟩,
        ⟨.awgPortCollision, "b", 1⟩ ] :=
  ⟨checkConflictsBuf_eq _ _ _ _ _ (.inr ⟨_, rfl, le_rfl⟩),
    (checkConflictsBuf_eq _ _ _ _ _ Slice.inBounds_nil).trans (by decide +kernel)⟩

end Otap.Bitweave
