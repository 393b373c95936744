import Otap.Bitweave.Refinement

/-!
# The lens

Embeds `LeaseIndex.Lens` of `flr/internal/bitweave/bitweave.go`, which reads the leases back from the bit planes. On an
index that represents a list of live leases it returns that list (`Represents.lens_eq`), so after any calls it returns
what the calls have inserted and not removed (`lens_exact`).
-/

namespace Otap.Bitweave
open Otap.Lib

/-! ## The code -/

structure LensSnapshot where
  leaseID : String
  channel : BitVec 32
  awgID : BitVec 16
  tenantID : BitVec 16
  awgPort : BitVec 16
  exclusive : Bool
  slot : Nat
  deriving DecidableEq

/-- `for p := 0; p < w; p++ { if (planes[p][word] & mask) != 0 { value |= (1 << uint(p)) } }`. -/
def Planes.gather (planes : Planes) (w word : Nat) (mask : BitVec 64) : BitVec w :=
  gatherBits w fun p => planes p word &&& mask != 0

/-- The snapshot of one set bit of a word. -/
def LeaseIndex.snapshot (idx : LeaseIndex) (w trail : Nat) : LensSnapshot :=
  let slot := w * 64 + trail
  let mask := 1#64 <<< trail
  { leaseID := idx.leaseIDs slot
    channel := idx.channelNum.gather 32 w mask
    awgID := idx.awgID.gather 16 w mask
    tenantID := idx.tenantID.gather 16 w mask
    awgPort := idx.awgPort.gather 16 w mask
    exclusive := idx.exclusive w &&& mask != 0
    slot := slot }

/-- `LeaseIndex.Lens`. -/
def LeaseIndex.lens (idx : LeaseIndex) : List LensSnapshot :=
  let words := (idx.count + 63) / 64
  (List.range words).flatMap fun w => (scanBits 64 (idx.active w)).map (idx.snapshot w)

/-! ## What is inserted -/

/-- The arguments of an `Insert` and the slot that it returned. -/
def insertedAs (leaseID : String) (a : Attributes) (slot : Nat) : LensSnapshot where
  leaseID := leaseID
  channel := a.channelNum
  awgID := a.awgID
  tenantID := a.tenantID
  awgPort := a.awgPort
  exclusive := a.exclusive
  slot := slot

/-- The index, and what the calls on it have inserted and not removed. -/
def trackStep (s : LeaseIndex × List LensSnapshot) : IndexCall → LeaseIndex × List LensSnapshot
  | .insert leaseID a =>
    match s.1.insert leaseID a with
    | .ok (slot, idx) => (idx, s.2 ++ [insertedAs leaseID a slot])
    | .error _ => s
  | .remove slot => (s.1.remove slot, s.2.filter fun l => (l.slot : Int) ≠ slot)

/-- The leases that a run of calls leaves live. -/
def liveAfter (calls : List IndexCall) : List LensSnapshot :=
  (calls.foldl trackStep (newLeaseIndex, [])).2

/-- The leases of a reference as they were inserted. -/
def Reference.snapshots (ref : Reference) : List LensSnapshot :=
  ref.live.map fun l => insertedAs l.id l.attrs l.slot

lemma trackStep_eq {idx : LeaseIndex} {ref : Reference} (rep : Represents idx ref) (call : IndexCall) :
    trackStep (idx, ref.snapshots) call = (idx.step call, (ref.step call).snapshots) := by
  cases call with
  | insert id a =>
    rw [trackStep, LeaseIndex.step, LeaseIndex.insert]
    by_cases full : idx.count ≥ maxLeases
    · have same : ref.step (.insert id a) = ref := if_pos (rep.count ▸ full)
      rw [if_pos full, same]
    · have next : ref.step (.insert id a) =
          { live := ref.live ++ [{ id, attrs := a, slot := ref.next }], next := ref.next + 1 } :=
        if_neg (rep.count ▸ full)
      rw [if_neg full, next, Reference.snapshots, Reference.snapshots, List.map_append, ← rep.count]
      rfl
  | remove slot =>
    rw [trackStep, LeaseIndex.step, Reference.step, Reference.snapshots, Reference.snapshots, List.filter_map]
    rfl

/-- The live leases are those of the reference. -/
lemma liveAfter_eq (calls : List IndexCall) :
    liveAfter calls = (calls.foldl Reference.step { live := [], next := 0 }).snapshots := by
  suffices run : ∀ idx ref, Represents idx ref → calls.foldl trackStep (idx, ref.snapshots) =
      (calls.foldl LeaseIndex.step idx, (calls.foldl Reference.step ref).snapshots) from
    congrArg Prod.snd (run newLeaseIndex { live := [], next := 0 } Represents.init)
  induction calls with
  | nil => exact fun _ _ _ => rfl
  | cons call calls ih =>
    intro idx ref rep
    rw [List.foldl_cons, trackStep_eq rep, ih _ _ (rep.step call)]
    rfl

/-! ## Reading back -/

/-- Masking with one bit. -/
lemma and_shiftLeft_ne_zero (b : BitVec 64) {trail : Nat} (lt : trail < 64) :
    (b &&& 1#64 <<< trail != 0) = b.getLsbD trail := by
  rw [← BitVec.twoPow_eq, BitVec.and_twoPow]
  cases b.getLsbD trail with
  | false => rfl
  | true =>
    rw [if_pos rfl, bne_iff_ne]
    intro zero
    have bit := congrArg (fun v => BitVec.getLsbD v trail) zero
    simp [lt] at bit

lemma gather_eq {w : Nat} {planes : Planes} {value : BitVec w} {slot : Nat}
    (lane : ∀ p < w, (planes p).lane slot = value.getLsbD p) :
    planes.gather w (slot / 64) (1#64 <<< (slot % 64)) = value := by
  have lt : slot % 64 < 64 := Nat.mod_lt _ (by decide)
  apply BitVec.eq_of_getLsbD_eq
  intro p hp
  rw [Planes.gather, getLsbD_gatherBits _ hp, and_shiftLeft_ne_zero _ lt]
  exact lane p hp

/-- The snapshot of a lane has the attributes of the lane. -/
lemma snapshot_eq {idx : LeaseIndex} {slot : Nat} {a : Attributes} (lane : idx.LaneIs slot true a) :
    idx.snapshot (slot / 64) (slot % 64) = insertedAs (idx.leaseIDs slot) a slot := by
  have lt : slot % 64 < 64 := Nat.mod_lt _ (by decide)
  have here : slot / 64 * 64 + slot % 64 = slot := by omega
  rw [LeaseIndex.snapshot, insertedAs]
  rw [gather_eq lane.channelNum, gather_eq lane.awgID, gather_eq lane.tenantID, gather_eq lane.awgPort,
    and_shiftLeft_ne_zero _ lt, here]
  congr 1
  exact lane.exclusive

lemma mem_lens {idx : LeaseIndex} {s : LensSnapshot} :
    s ∈ idx.lens ↔ ∃ slot, slot / 64 < (idx.count + 63) / 64 ∧ idx.active.lane slot = true ∧
      s = idx.snapshot (slot / 64) (slot % 64) := by
  simp only [LeaseIndex.lens, scanBits_eq, List.mem_flatMap, List.mem_map, List.mem_filter, List.mem_range]
  constructor
  · rintro ⟨w, word, trail, ⟨lt, active⟩, rfl⟩
    have hw : (w * 64 + trail) / 64 = w := by omega
    have ht : (w * 64 + trail) % 64 = trail := by omega
    refine ⟨w * 64 + trail, ?_, ?_, ?_⟩
    · rwa [hw]
    · rwa [Words.lane, hw, ht]
    · rw [hw, ht]
  · rintro ⟨slot, word, active, rfl⟩
    exact ⟨slot / 64, word, slot % 64, ⟨Nat.mod_lt _ (by decide), active⟩, rfl⟩

/-- The loops visit the slots in increasing order. -/
lemma sorted_lens (idx : LeaseIndex) : idx.lens.Pairwise fun s s' => s.slot < s'.slot := by
  rw [LeaseIndex.lens, List.pairwise_flatMap]
  refine ⟨fun w _ => ?_, List.pairwise_lt_range.imp fun {w w'} lt => ?_⟩
  · rw [scanBits_eq, List.pairwise_map]
    refine (List.pairwise_lt_range.filter _).imp fun {i j} lt => ?_
    exact Nat.add_lt_add_left lt _
  · intro s mem s' mem'
    rw [scanBits_eq] at mem mem'
    obtain ⟨i, inWord, rfl⟩ := List.mem_map.mp mem
    obtain ⟨j, -, rfl⟩ := List.mem_map.mp mem'
    have bound := List.mem_range.mp (List.mem_filter.mp inWord).1
    change w * 64 + i < w' * 64 + j
    omega

/-- The lens returns the leases that the index represents. -/
lemma Represents.lens_eq {idx : LeaseIndex} {ref : Reference} (rep : Represents idx ref) :
    idx.lens = ref.snapshots := by
  have sorted : ref.snapshots.Pairwise fun s s' => s.slot < s'.slot := by
    rw [Reference.snapshots, List.pairwise_map]
    exact rep.sorted
  have nodup {l : List LensSnapshot} (sorted : l.Pairwise fun s s' => s.slot < s'.slot) : l.Nodup :=
    sorted.imp fun lt same => lt.ne (congrArg LensSnapshot.slot same)
  have antisymm (s s' : LensSnapshot) (lt : s.slot < s'.slot) (lt' : s'.slot < s.slot) : s = s' :=
    absurd (lt.trans lt') (lt_irrefl _)
  refine List.Perm.eq_of_pairwise (fun s s' _ _ => antisymm s s') (sorted_lens idx) sorted ?_
  rw [List.perm_ext_iff_of_nodup (nodup (sorted_lens idx)) (nodup sorted)]
  intro s
  rw [mem_lens, Reference.snapshots, List.mem_map]
  constructor
  · rintro ⟨slot, -, active, rfl⟩
    obtain ⟨l, mem, rfl⟩ := rep.live_of_active active
    obtain ⟨lane, id⟩ := rep.live l mem
    exact ⟨l, mem, by rw [snapshot_eq lane, id]⟩
  · rintro ⟨l, mem, rfl⟩
    obtain ⟨lane, id⟩ := rep.live l mem
    have lt := rep.slot_lt l mem
    refine ⟨l.slot, ?_, lane.active, by rw [snapshot_eq lane, id]⟩
    rw [rep.count]
    omega

/-! ## Main result -/

/-- After any calls of `Insert` and `Remove` the lens returns, in the order of the slots, one snapshot for each lease
    that was inserted and not removed: the arguments of the `Insert` that returned the slot. -/
theorem lens_exact (calls : List IndexCall) :
    (calls.foldl LeaseIndex.step newLeaseIndex).lens = liveAfter calls ∧
      (liveAfter calls).Pairwise fun s s' => s.slot < s'.slot := by
  have exact := (Represents.run calls).lens_eq
  rw [← liveAfter_eq] at exact
  refine ⟨exact, ?_⟩
  rw [← exact]
  exact sorted_lens _

end Otap.Bitweave
