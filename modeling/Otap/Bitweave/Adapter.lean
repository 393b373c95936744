import Otap.Lib.KV
import Otap.Lib.Utf8
import Otap.Flr.Models
import Otap.Lib.Run
import Otap.Bitweave.Refinement

/-!
# The conflict adapter

Embeds `flr/internal/bitweave/adapter.go`: the engine that maps leases to the attributes of the bit-plane index. The
index of every engine that calls reach represents some list of live leases (`represents_run`), so what
`CheckLeaseConflicts` reports about a lease that the engine holds is the comparison of the attributes
(`reports_iff`).
-/

namespace Otap.Bitweave
open Otap.Lib Otap.Flr

/-! ## The code -/

/-- A lease ID as the index keeps it, one character for each byte. -/
def idString (id : Bytes) : String :=
  String.ofList (id.map fun b => Char.ofNat b.toNat)

/-- `ConflictEngine`. -/
structure ConflictEngine where
  index : LeaseIndex
  slots : KV Nat

/-- `NewConflictEngine`. -/
def newConflictEngine : ConflictEngine where
  index := newLeaseIndex
  slots := .empty

def leaseChannelNum (l : Lease) : BitVec 32 :=
  match l.wavelength with
  | none => 0
  | some w => w.channelNum.toBitVec

def leaseAwgID (l : Lease) : BitVec 16 :=
  match l.wavelength with
  | none => 0
  | some w => w.band.toBitVec.setWidth 16

def leaseAwgPort (l : Lease) : BitVec 16 :=
  match l.wavelength with
  | none => 0
  | some w => w.channelNum.toBitVec.setWidth 16

def leaseTenantID (l : Lease) : BitVec 16 :=
  if l.operatorID = [] then 0
  else (runes l.operatorID).foldl (fun h c => h * 31 + BitVec.ofNat 16 c) 0

def leaseExclusive (_ : Lease) : Bool :=
  true

/-- The arguments that the calls of the index get for a lease. -/
def leaseAttributes (l : Lease) : Attributes where
  channelNum := leaseChannelNum l
  awgID := leaseAwgID l
  tenantID := leaseTenantID l
  awgPort := leaseAwgPort l
  exclusive := leaseExclusive l

namespace ConflictEngine

/-- `IndexLease`. -/
def indexLease (ce : ConflictEngine) (lease : Lease) : Except String Unit × ConflictEngine :=
  match ce.slots.get lease.id with
  | some _ => (.ok (), ce)
  | none =>
    match ce.index.insert (idString lease.id) (leaseAttributes lease) with
    | .error err => (.error err, ce)
    | .ok (slot, index) => (.ok (), { index, slots := ce.slots.set lease.id slot })

/-- `RemoveLease`. -/
def removeLease (ce : ConflictEngine) (leaseID : Bytes) : ConflictEngine :=
  match ce.slots.get leaseID with
  | none => ce
  | some slot => { index := ce.index.remove slot, slots := ce.slots.delete leaseID }

/-- `CheckLeaseConflicts`. -/
def checkLeaseConflicts (ce : ConflictEngine) (proposed : Lease) (renewLeaseID : Bytes) : List Conflict :=
  let excludeSlot : Int :=
    if renewLeaseID = [] then -1
    else
      match ce.slots.get renewLeaseID with
      | some s => s
      | none => -1
  ce.index.checkConflicts (leaseAttributes proposed) excludeSlot

/-- The loop of `RebuildFrom`. -/
def rebuildLoop : List Lease → ConflictEngine → Except String Unit × ConflictEngine
  | [], ce => (.ok (), ce)
  | l :: leases, ce =>
    match ce.index.insert (idString l.id) (leaseAttributes l) with
    | .error err => (.error err, ce)
    | .ok (slot, index) => rebuildLoop leases { index, slots := ce.slots.set l.id slot }

/-- `RebuildFrom`: what the engine held before is dropped. -/
def rebuildFrom (leases : List Lease) : Except String Unit × ConflictEngine :=
  rebuildLoop leases newConflictEngine

/-- `LeaseCount`. -/
def leaseCount (ce : ConflictEngine) : Nat :=
  ce.index.count

end ConflictEngine

/-- A call that changes the engine. -/
inductive EngineCall where
  | indexLease (lease : Lease)
  | removeLease (leaseID : Bytes)
  | rebuildFrom (leases : List Lease)

/-- The engine after a call. -/
def ConflictEngine.step (ce : ConflictEngine) : EngineCall → ConflictEngine
  | .indexLease lease => (ce.indexLease lease).2
  | .removeLease leaseID => ce.removeLease leaseID
  | .rebuildFrom leases => (rebuildFrom leases).2

/-! ## The index of a reached engine -/

/-- A successful `Insert`: the slot that it takes, and the index after it. -/
lemma insert_ok {idx idx' : LeaseIndex} {id : String} {a : Attributes} {slot : Nat}
    (inserted : idx.insert id a = .ok (slot, idx')) : slot = idx.count ∧ idx' = idx.step (.insert id a) := by
  refine ⟨?_, by rw [LeaseIndex.step, inserted]⟩
  unfold LeaseIndex.insert at inserted
  split at inserted
  case isTrue => cases inserted
  case isFalse =>
    cases inserted
    rfl

/-- Insertion of a lease keeps the representation. -/
lemma Represents.inserted {idx idx' : LeaseIndex} {id : String} {a : Attributes} {slot : Nat}
    (inserted : idx.insert id a = .ok (slot, idx')) (rep : ∃ ref, Represents idx ref) : ∃ ref, Represents idx' ref := by
  obtain ⟨ref, rep⟩ := rep
  rw [(insert_ok inserted).2]
  exact ⟨_, rep.insert id a⟩

lemma represents_rebuildLoop {leases : List Lease} {ce : ConflictEngine} (rep : ∃ ref, Represents ce.index ref) :
    ∃ ref, Represents (ConflictEngine.rebuildLoop leases ce).2.index ref := by
  induction leases generalizing ce with
  | nil => exact rep
  | cons l leases ih =>
    rw [ConflictEngine.rebuildLoop]
    split
    case h_1 => exact rep
    case h_2 slot index inserted => exact ih (Represents.inserted inserted rep)

/-- Every call keeps the representation. -/
lemma represents_engineStep {ce : ConflictEngine} (rep : ∃ ref, Represents ce.index ref) (call : EngineCall) :
    ∃ ref, Represents (ce.step call).index ref := by
  cases call with
  | indexLease lease =>
    rw [ConflictEngine.step, ConflictEngine.indexLease]
    split
    case h_1 => exact rep
    case h_2 =>
      split
      case h_1 => exact rep
      case h_2 slot index inserted => exact Represents.inserted inserted rep
  | removeLease leaseID =>
    rw [ConflictEngine.step, ConflictEngine.removeLease]
    split
    case h_1 => exact rep
    case h_2 slot _ =>
      obtain ⟨ref, rep⟩ := rep
      exact ⟨_, rep.remove slot⟩
  | rebuildFrom leases => exact represents_rebuildLoop ⟨_, Represents.init⟩

/-- The engine after a run of calls. -/
def reachedEngine (calls : List EngineCall) : ConflictEngine :=
  calls.foldl ConflictEngine.step newConflictEngine

lemma represents_run (calls : List EngineCall) : ∃ ref, Represents (reachedEngine calls).index ref := by
  have init : ∃ ref, Represents newConflictEngine.index ref := ⟨_, Represents.init⟩
  exact @run_inv _ _ ConflictEngine.step (fun ce => ∃ ref, Represents ce.index ref) _ calls init
    fun _ call rep => represents_engineStep rep call

/-! ## Collisions with a held lease -/

/-- The engine holds the lease: its slot carries the attributes and the ID of the lease. -/
def ConflictEngine.Holds (ce : ConflictEngine) (a : Lease) : Prop :=
  ∃ slot, ce.slots.get a.id = some slot ∧ ce.index.LaneIs slot true (leaseAttributes a) ∧
    ce.index.leaseIDs slot = idString a.id

/-- `CheckLeaseConflicts` of `b`, proposed as a new lease, reports a λ-collision with `a`. -/
def ConflictEngine.Reports (ce : ConflictEngine) (a b : Lease) : Prop :=
  ∃ slot, ce.slots.get a.id = some slot ∧
    { type := .lambdaCollision, leaseID := idString a.id, slotIndex := slot } ∈ ce.checkLeaseConflicts b []

/-- A lease that is indexed anew is held. -/
lemma holds_indexLease {ce : ConflictEngine} {a : Lease} (rep : ∃ ref, Represents ce.index ref)
    (new : ce.slots.get a.id = none) (room : ce.index.count < maxLeases) : (ce.indexLease a).2.Holds a := by
  obtain ⟨ref, rep⟩ := rep
  rw [ConflictEngine.indexLease, new]
  dsimp only
  split
  case h_1 err failed =>
    rw [LeaseIndex.insert, if_neg (Nat.not_le.mpr room)] at failed
    cases failed
  case h_2 slot index inserted =>
    obtain ⟨rfl, rfl⟩ := insert_ok inserted
    have free : ∀ l ∈ ref.live, l.slot ≠ ce.index.count := fun l mem => (rep.count ▸ rep.slot_lt l mem).ne
    refine ⟨ce.index.count, KV.get_set_self _ _ _, ?_, ?_⟩
    · exact LeaseIndex.LaneIs.insert_same room _ _ (rep.free _ free)
    · rw [LeaseIndex.step_insert room]
      exact Function.update_self ..

/-- A reported collision with a held lease is equality of the channels and of the bands in 16 bits. -/
lemma reports_iff {ce : ConflictEngine} {a b : Lease} (rep : ∃ ref, Represents ce.index ref) (holds : ce.Holds a) :
    ce.Reports a b ↔ leaseChannelNum a = leaseChannelNum b ∧ leaseAwgID a = leaseAwgID b := by
  obtain ⟨ref, rep⟩ := rep
  obtain ⟨slot, found, lane, id⟩ := holds
  obtain ⟨l, mem, rfl⟩ := rep.live_of_active lane.active
  have scanned : l.slot / 64 < (ce.index.count + 63) / 64 := by
    have lt := rep.slot_lt l mem
    rw [rep.count]
    omega
  have mask := @mask_lane ce.index l.slot true _ (leaseAttributes b) (-1) (rep.count ▸ rep.next_le) scanned lane
    .lambdaCollision
  have collides : Collides (leaseAttributes a) (leaseAttributes b) .lambdaCollision ↔
      leaseChannelNum a = leaseChannelNum b ∧ leaseAwgID a = leaseAwgID b :=
    and_congr_right fun _ => and_iff_left (.inl rfl)
  constructor
  · rintro ⟨slot', found', reported⟩
    cases found.symm.trans found'
    exact collides.mp (mask.mp (mem_checkConflicts.mp reported).2.1).2.2
  · intro same
    exact ⟨l.slot, found, mem_checkConflicts.mpr ⟨scanned, mask.mpr ⟨by omega, rfl, collides.mpr same⟩, id.symm⟩⟩

end Otap.Bitweave
