import Otap.Lib.BitPlane

/-!
# Bit-plane lease index

Embedding of `flr/internal/bitweave/bitweave.go`: the transposed lease index and its conflict scan.
`uint64` words are `BitVec 64`, the attributes `uint32` and `uint16` are `BitVec 32` and `BitVec 16`.
The fixed-size Go arrays are functions of the index (`Words` for `[wordsPerPlane]uint64`, `Planes` for
`[32][wordsPerPlane]uint64` and `[16][wordsPerPlane]uint64`); every index the code forms is in range.

The four attributes are handled by the same loops at two widths, so those loops are written once with
the width as a parameter: `Planes.insert`, `Planes.clear` and `matchScalar`.
-/

namespace Otap.Bitweave
open Otap.Lib

/-- `MaxLeases`. -/
def maxLeases : Nat := 1024

/-- `[wordsPerPlane]uint64`. -/
abbrev Words := Nat → BitVec 64

/-- `[32][wordsPerPlane]uint64` and `[16][wordsPerPlane]uint64`. -/
abbrev Planes := Nat → Words

/-- `LeaseIndex`. -/
structure LeaseIndex where
  channelNum : Planes
  awgID : Planes
  tenantID : Planes
  awgPort : Planes
  active : Words
  exclusive : Words
  leaseIDs : Nat → String
  count : Nat

/-- `NewLeaseIndex`. -/
def newLeaseIndex : LeaseIndex where
  channelNum := fun _ _ => 0
  awgID := fun _ _ => 0
  tenantID := fun _ _ => 0
  awgPort := fun _ _ => 0
  active := fun _ => 0
  exclusive := fun _ => 0
  leaseIDs := fun _ => ""
  count := 0

/-! ## Insert and Remove -/

/-- `(value>>uint(p))&1 == 1`. -/
def bitSet {w : Nat} (value : BitVec w) (p : Nat) : Bool :=
  (value >>> p) &&& 1#w == 1#w

/-- `a[word] |= 1 << bit`. -/
def Words.setBit (a : Words) (word bit : Nat) : Words :=
  Function.update a word (a word ||| 1#64 <<< bit)

/-- `a[word] &= mask`. -/
def Words.andMask (a : Words) (word : Nat) (mask : BitVec 64) : Words :=
  Function.update a word (a word &&& mask)

/-- `for p := 0; p < w; p++ { if (value>>uint(p))&1 == 1 { planes[p][word] |= 1 << bit } }`. -/
def Planes.insert {w : Nat} (planes : Planes) (value : BitVec w) (word bit : Nat) : Planes :=
  (List.range w).foldl
    (fun planes p =>
      if bitSet value p then Function.update planes p ((planes p).setBit word bit) else planes)
    planes

/-- `for p := 0; p < w; p++ { planes[p][word] &= mask }`. -/
def Planes.clear (planes : Planes) (w word : Nat) (mask : BitVec 64) : Planes :=
  (List.range w).foldl (fun planes p => Function.update planes p ((planes p).andMask word mask)) planes

/-- The attributes a lease is indexed under, and the arguments of a query. -/
structure Attributes where
  channelNum : BitVec 32
  awgID : BitVec 16
  tenantID : BitVec 16
  awgPort : BitVec 16
  exclusive : Bool
  deriving DecidableEq

/-- `LeaseIndex.Insert`: the slot and the index after the call. -/
def LeaseIndex.insert (idx : LeaseIndex) (leaseID : String) (a : Attributes) :
    Except String (Nat × LeaseIndex) :=
  if idx.count ≥ maxLeases then
    .error s!"lease index full ({maxLeases} max)"
  else
    let slot := idx.count
    let word := slot / 64
    let bit := slot % 64
    .ok (slot,
      { active := idx.active.setBit word bit
        exclusive := if a.exclusive then idx.exclusive.setBit word bit else idx.exclusive
        channelNum := idx.channelNum.insert a.channelNum word bit
        awgID := idx.awgID.insert a.awgID word bit
        tenantID := idx.tenantID.insert a.tenantID word bit
        awgPort := idx.awgPort.insert a.awgPort word bit
        leaseIDs := Function.update idx.leaseIDs slot leaseID
        count := idx.count + 1 })

/-- `LeaseIndex.Remove`. -/
def LeaseIndex.remove (idx : LeaseIndex) (slot : Int) : LeaseIndex :=
  if slot < 0 ∨ slot ≥ maxLeases then idx
  else
    let slot := slot.toNat
    let word := slot / 64
    let mask := ~~~(1#64 <<< (slot % 64))
    { active := idx.active.andMask word mask
      exclusive := idx.exclusive.andMask word mask
      channelNum := idx.channelNum.clear 32 word mask
      awgID := idx.awgID.clear 16 word mask
      tenantID := idx.tenantID.clear 16 word mask
      awgPort := idx.awgPort.clear 16 word mask
      leaseIDs := Function.update idx.leaseIDs slot ""
      count := idx.count }

/-! ## CheckConflicts -/

/-- `ConflictType`, without the unused `NoConflict`. -/
inductive ConflictType where
  | lambdaCollision
  | awgPortCollision
  | tenantIsolation
  deriving DecidableEq

/-- `Conflict`. -/
structure Conflict where
  type : ConflictType
  leaseID : String
  slotIndex : Nat
  deriving DecidableEq

/-- The loop nest that matches one attribute: `match` starts as a copy of `Active`, and plane by plane
    every word below `words` is reduced by the plane or by its complement. -/
def matchScalar {w : Nat} (value : BitVec w) (planes : Planes) (active : Words) (words : Nat) : Words :=
  (List.range w).foldl
    (fun acc p => (List.range words).foldl
      (fun acc i =>
        Function.update acc i (if bitSet value p then acc i &&& planes p i else acc i &&& ~~~planes p i))
      acc)
    active

/-- `var a [wordsPerPlane]uint64; for w := 0; w < words; w++ { a[w] = f(w) }`. -/
def fillWords (words : Nat) (f : Nat → BitVec 64) : Words :=
  (List.range words).foldl (fun a w => Function.update a w (f w)) (fun _ => 0)

/-- The three conflict masks. -/
structure ConflictMasks where
  lambda : Words
  port : Words
  tenant : Words

/-- The part of `LeaseIndex.CheckConflicts` that computes the masks. -/
def LeaseIndex.conflictMasks (idx : LeaseIndex) (q : Attributes) (excludeSlot : Int) : ConflictMasks :=
  let words := (idx.count + 63) / 64
  let channelMatch := matchScalar q.channelNum idx.channelNum idx.active words
  let awgMatch := matchScalar q.awgID idx.awgID idx.active words
  let portMatch := matchScalar q.awgPort idx.awgPort idx.active words
  let tenantMatch := matchScalar q.tenantID idx.tenantID idx.active words
  let differentTenant := fillWords words fun w => idx.active w &&& ~~~tenantMatch w
  let proposedExclMask : BitVec 64 := if q.exclusive then ~~~0#64 else 0#64
  let lambdaConflicts := fillWords words fun w =>
    let sameChannelSameAwg := channelMatch w &&& awgMatch w
    sameChannelSameAwg &&& (idx.exclusive w ||| proposedExclMask)
  let portConflicts := fillWords words fun w => awgMatch w &&& portMatch w
  let tenantConflicts := fillWords words fun w =>
    let sameChannelSameAwg := channelMatch w &&& awgMatch w
    sameChannelSameAwg &&& differentTenant w
  if 0 ≤ excludeSlot ∧ excludeSlot < maxLeases then
    let exWord := excludeSlot.toNat / 64
    let exMask := ~~~(1#64 <<< (excludeSlot.toNat % 64))
    { lambda := lambdaConflicts.andMask exWord exMask
      port := portConflicts.andMask exWord exMask
      tenant := tenantConflicts.andMask exWord exMask }
  else { lambda := lambdaConflicts, port := portConflicts, tenant := tenantConflicts }

/-- One `for b != 0` loop of the extraction: the conflicts of the set lanes of word `w`. -/
def LeaseIndex.extractWord (idx : LeaseIndex) (type : ConflictType) (a : Words) (w : Nat) :
    List Conflict :=
  (scanBits 64 (a w)).map fun trail =>
    let slot := w * 64 + trail
    { type, leaseID := idx.leaseIDs slot, slotIndex := slot }

/-- `LeaseIndex.CheckConflicts`. -/
def LeaseIndex.checkConflicts (idx : LeaseIndex) (q : Attributes) (excludeSlot : Int) : List Conflict :=
  let words := (idx.count + 63) / 64
  if words = 0 then []
  else
    let masks := idx.conflictMasks q excludeSlot
    (List.range words).flatMap fun w =>
      idx.extractWord .lambdaCollision masks.lambda w
        ++ idx.extractWord .awgPortCollision masks.port w
        ++ idx.extractWord .tenantIsolation masks.tenant w

end Otap.Bitweave
