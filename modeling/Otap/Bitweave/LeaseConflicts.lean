import Otap.Bitweave.Correspondence

/-!
# What the adapter reports

`CheckLeaseConflicts` of `flr/internal/bitweave/adapter.go` on an engine that holds a list of leases
(`ConflictEngine.Keeps`), as it does after a `RebuildFrom` of them.

The attributes of the index are narrower than the fields of a lease: 16 bits of the band, 16 bits of the channel for the
port, and a hash of 16 bits for the operator. `checkLeaseConflicts_exact` says what is reported in terms of these;
channels that differ by `2 ^ 16` share a port, and operators with one hash are one tenant.
-/

namespace Otap.Bitweave
open Otap.Lib Otap.Flr

/-! ## Conflicts -/

/-- `uint16(v)`. -/
def uint16 (v : Int32) : BitVec 16 :=
  v.toBitVec.setWidth 16

/-- The band of a lease; one without a wavelength counts as channel 0 of band 0. -/
def bandOf (l : Lease) : Int32 :=
  match l.wavelength with
  | none => 0
  | some w => w.band

def channelOf (l : Lease) : Int32 :=
  match l.wavelength with
  | none => 0
  | some w => w.channelNum

/-- The conflicts of two leases by the attributes of the index. -/
def Clashes (l proposed : Lease) : ConflictType → Prop
  | .lambdaCollision => channelOf l = channelOf proposed ∧ uint16 (bandOf l) = uint16 (bandOf proposed)
  | .awgPortCollision =>
    uint16 (bandOf l) = uint16 (bandOf proposed) ∧ uint16 (channelOf l) = uint16 (channelOf proposed)
  | .tenantIsolation =>
    (channelOf l = channelOf proposed ∧ uint16 (bandOf l) = uint16 (bandOf proposed)) ∧
      leaseTenantID l ≠ leaseTenantID proposed

/-- The leases have the same band and channel. -/
def SameWavelength (l proposed : Lease) : Prop :=
  ∃ v w, l.wavelength = some v ∧ proposed.wavelength = some w ∧ v.band = w.band ∧ v.channelNum = w.channelNum

/-- The conflicts of two leases by their fields. -/
def FieldsClash (l proposed : Lease) : ConflictType → Prop
  | .lambdaCollision => SameWavelength l proposed
  | .awgPortCollision => SameWavelength l proposed
  | .tenantIsolation => SameWavelength l proposed ∧ l.operatorID ≠ proposed.operatorID

lemma leaseChannelNum_eq (l : Lease) : leaseChannelNum l = (channelOf l).toBitVec := by
  rw [leaseChannelNum, channelOf]
  cases l.wavelength with
  | none => rfl
  | some w => rfl

lemma leaseAwgID_eq (l : Lease) : leaseAwgID l = uint16 (bandOf l) := by
  rw [leaseAwgID, bandOf]
  cases l.wavelength with
  | none => rfl
  | some w => rfl

lemma leaseAwgPort_eq (l : Lease) : leaseAwgPort l = uint16 (channelOf l) := by
  rw [leaseAwgPort, channelOf]
  cases l.wavelength with
  | none => rfl
  | some w => rfl

lemma collides_iff (l proposed : Lease) (type : ConflictType) :
    Collides (leaseAttributes l) (leaseAttributes proposed) type ↔ Clashes l proposed type := by
  have channel : leaseChannelNum l = leaseChannelNum proposed ↔ channelOf l = channelOf proposed := by
    rw [leaseChannelNum_eq, leaseChannelNum_eq, Int32.toBitVec_inj]
  have band : leaseAwgID l = leaseAwgID proposed ↔ uint16 (bandOf l) = uint16 (bandOf proposed) := by
    rw [leaseAwgID_eq, leaseAwgID_eq]
  have port : leaseAwgPort l = leaseAwgPort proposed ↔ uint16 (channelOf l) = uint16 (channelOf proposed) := by
    rw [leaseAwgPort_eq, leaseAwgPort_eq]
  cases type with
  | lambdaCollision => exact and_congr channel ((and_iff_left (.inl rfl)).trans band)
  | awgPortCollision => exact and_congr band port
  | tenantIsolation => exact and_assoc.symm.trans (and_congr_left' (and_congr channel band))

/-! ## Engines that hold a list of leases -/

namespace ConflictEngine

/-- The engine holds the leases of the list, whose IDs are distinct, and no others. -/
structure Keeps (ce : ConflictEngine) (leases : List Lease) : Prop where
  represents : ∃ ref, Represents ce.index ref
  corresponds : ce.Corresponds
  distinct : (leases.map Lease.id).Nodup
  holds : ∀ l ∈ leases, ce.Holds l
  only : ∀ id, ce.Indexed id → ∃ l ∈ leases, l.id = id

variable {ce : ConflictEngine} {leases : List Lease}

lemma keeps_new : newConflictEngine.Keeps [] where
  represents := ⟨_, Represents.init⟩
  corresponds := corresponds_new
  distinct := List.nodup_nil
  holds l mem := by cases mem
  only id held := by cases held

lemma Keeps.get_eq_none (keeps : ce.Keeps leases) {id : Bytes} (new : id ∉ leases.map Lease.id) :
    ce.slots.get id = none := by
  rw [← Option.not_isSome_iff_eq_none]
  intro held
  obtain ⟨l, mem, rfl⟩ := keeps.only id held
  exact new (List.mem_map_of_mem mem)

/-- A lease with a new ID. -/
lemma Keeps.inserted (keeps : ce.Keeps leases) {lease : Lease} (new : lease.id ∉ leases.map Lease.id)
    (room : ce.index.count < maxLeases) : (ce.inserted lease).Keeps (leases ++ [lease]) where
  represents := by
    obtain ⟨ref, rep⟩ := keeps.represents
    exact ⟨_, rep.insert _ _⟩
  corresponds := keeps.corresponds.inserted keeps.represents (keeps.get_eq_none new) room
  distinct := by
    rw [List.map_append, List.map_singleton, ← List.concat_eq_append]
    exact keeps.distinct.concat new
  holds l mem := by
    rcases List.mem_append.mp mem with old | here
    · obtain ⟨slot, found, lane, id⟩ := keeps.holds l old
      have other : l.id ≠ lease.id := fun same => new (same ▸ List.mem_map_of_mem old)
      have behind : slot ≠ ce.index.count := (lane_of_represents keeps.represents lane.active).1.ne
      refine ⟨slot, (KV.get_set_ne _ _ other).trans found, LeaseIndex.LaneIs.insert_other room _ _ behind lane, ?_⟩
      rw [(carries_inserted lease room slot).2, if_neg behind, id]
    · obtain rfl := List.mem_singleton.mp here
      have held := holds_indexLease keeps.represents (keeps.get_eq_none new) room
      rwa [indexLease_new (keeps.get_eq_none new) room] at held
  only id held := by
    rw [Indexed, ConflictEngine.inserted, KV.get_set] at held
    split at held
    case isTrue same => exact ⟨lease, List.mem_append_right _ (List.mem_singleton_self _), same.symm⟩
    case isFalse =>
      obtain ⟨l, mem, same⟩ := keeps.only id held
      exact ⟨l, List.mem_append_left _ mem, same⟩

lemma Keeps.rebuildLoop (keeps : ce.Keeps leases) (more : List Lease)
    (distinct : ((leases ++ more).map Lease.id).Nodup) (fits : ce.index.count + more.length ≤ maxLeases) :
    (ConflictEngine.rebuildLoop more ce).2.Keeps (leases ++ more) := by
  induction more generalizing ce leases with
  | nil =>
    rw [List.append_nil]
    exact keeps
  | cons lease more ih =>
    rw [List.length_cons] at fits
    have room : ce.index.count < maxLeases := by omega
    have new : lease.id ∉ leases.map Lease.id := by
      intro mem
      rw [List.map_append] at distinct
      exact (List.disjoint_of_nodup_append distinct) mem List.mem_cons_self
    rw [ConflictEngine.rebuildLoop, LeaseIndex.insert_eq, if_neg (Nat.not_le.mpr room), List.append_cons]
    rw [List.append_cons] at distinct
    have fits' : (ce.inserted lease).index.count + more.length ≤ maxLeases := by
      rw [count_inserted lease room]
      omega
    exact ih (keeps.inserted new room) distinct fits'

/-- `RebuildFrom`: every list of leases with distinct IDs that fits into the index is held by some engine. -/
lemma keeps_rebuildFrom (distinct : (leases.map Lease.id).Nodup) (fits : leases.length ≤ maxLeases) :
    (rebuildFrom leases).2.Keeps leases :=
  keeps_new.rebuildLoop leases distinct (by rwa [show newConflictEngine.index.count = 0 from rfl, Nat.zero_add])

/-- The leases of the list are the live ones of the index. -/
lemma Keeps.live_of_mem (keeps : ce.Keeps leases) {ref : Reference} (rep : Represents ce.index ref) {l : Lease}
    (mem : l ∈ leases) :
    ∃ r ∈ ref.live, ce.slots.get l.id = some r.slot ∧ r.attrs = leaseAttributes l ∧ r.id = idString l.id := by
  obtain ⟨slot, found, lane, carried⟩ := keeps.holds l mem
  obtain ⟨r, live, rfl⟩ := rep.live_of_active lane.active
  obtain ⟨lane', id⟩ := rep.live r live
  exact ⟨r, live, found, lane'.unique lane, id.symm.trans carried⟩

lemma Keeps.mem_of_live (keeps : ce.Keeps leases) {ref : Reference} (rep : Represents ce.index ref) {r : ReferenceLease}
    (live : r ∈ ref.live) :
    ∃ l ∈ leases, ce.slots.get l.id = some r.slot ∧ r.attrs = leaseAttributes l ∧ r.id = idString l.id := by
  obtain ⟨lane, id⟩ := rep.live r live
  obtain ⟨key, mapped⟩ := keeps.corresponds.onto r.slot lane.active
  obtain ⟨l, mem, rfl⟩ := keeps.only key (Option.isSome_iff_exists.mpr ⟨_, mapped⟩)
  obtain ⟨slot, found, lane', carried⟩ := keeps.holds l mem
  cases mapped.symm.trans found
  exact ⟨l, mem, found, lane.unique lane', id.symm.trans carried⟩

/-- The slot that the check leaves out. -/
lemma checkLeaseConflicts_eq (ce : ConflictEngine) (proposed : Lease) (renewLeaseID : Bytes) :
    ∃ excludeSlot : Int,
      ce.checkLeaseConflicts proposed renewLeaseID = ce.index.checkConflicts (leaseAttributes proposed) excludeSlot ∧
      ∀ slot : Nat, (slot : Int) ≠ excludeSlot ↔ renewLeaseID = [] ∨ ce.slots.get renewLeaseID ≠ some slot := by
  refine ⟨_, rfl, fun slot => ?_⟩
  by_cases fresh : renewLeaseID = []
  case pos =>
    rw [if_pos fresh]
    exact ⟨fun _ => .inl fresh, fun _ => by omega⟩
  case neg =>
    rw [if_neg fresh, or_iff_right fresh]
    cases ce.slots.get renewLeaseID with
    | none => exact ⟨fun _ held => (by cases held), fun _ => by dsimp only; omega⟩
    | some renewed => rw [ne_eq, ne_eq, Option.some_inj, Int.natCast_inj, eq_comm]

/-- The check reports, once each, the conflicts `clash` with leases of the list. -/
def ReportsExactly (ce : ConflictEngine) (leases : List Lease) (proposed : Lease) (renewLeaseID : Bytes)
    (clash : Lease → ConflictType → Prop) : Prop :=
  (ce.checkLeaseConflicts proposed renewLeaseID).Nodup ∧
    ∀ c, c ∈ ce.checkLeaseConflicts proposed renewLeaseID ↔
      ∃ l ∈ leases, clash l c.type ∧ ce.slots.get l.id = some c.slotIndex ∧ c.leaseID = idString l.id

/-- The reported conflicts determine which leases of the list clash. -/
lemma ReportsExactly.unique {proposed : Lease} {renewLeaseID : Bytes} {clash clash' : Lease → ConflictType → Prop}
    (exact : ce.ReportsExactly leases proposed renewLeaseID clash) (keeps : ce.Keeps leases)
    (exact' : ce.ReportsExactly leases proposed renewLeaseID clash') {l : Lease} (mem : l ∈ leases)
    {type : ConflictType} (clashes : clash l type) : clash' l type := by
  obtain ⟨slot, found, _, _⟩ := keeps.holds l mem
  have reported := (exact.2 ⟨type, idString l.id, slot⟩).mpr ⟨l, mem, clashes, found, rfl⟩
  obtain ⟨l', mem', clashes', _, id⟩ := (exact'.2 _).mp reported
  rwa [List.inj_on_of_nodup_map keeps.distinct mem mem' (idString_inj id)]

/-- A lease that the check with the given `renewLeaseID` looks at. -/
def Considers (renewLeaseID : Bytes) (l : Lease) : Prop :=
  renewLeaseID = [] ∨ l.id ≠ renewLeaseID

lemma Keeps.considers_iff (keeps : ce.Keeps leases) {l : Lease} {slot : Nat} (found : ce.slots.get l.id = some slot)
    (renewLeaseID : Bytes) :
    renewLeaseID = [] ∨ ce.slots.get renewLeaseID ≠ some slot ↔ Considers renewLeaseID l := by
  refine or_congr_right (not_congr ⟨fun same => ?_, fun same => ?_⟩)
  · exact keeps.corresponds.injective _ _ slot found same
  · rw [← same, found]

lemma Keeps.reports (keeps : ce.Keeps leases) (proposed : Lease) (renewLeaseID : Bytes) :
    ce.ReportsExactly leases proposed renewLeaseID fun l type =>
      Considers renewLeaseID l ∧ Clashes l proposed type := by
  obtain ⟨excludeSlot, check, excluded⟩ := checkLeaseConflicts_eq ce proposed renewLeaseID
  obtain ⟨ref, rep⟩ := keeps.represents
  refine ⟨check ▸ nodup_checkConflicts _ _ _, fun c => ?_⟩
  rw [check, rep.mem_iff, referenceScan]
  simp only [List.mem_flatMap, mem_referenceConflicts, excluded]
  constructor
  · rintro ⟨r, live, kept, collides, id, slot⟩
    obtain ⟨l, mem, found, attrs, carried⟩ := keeps.mem_of_live rep live
    rw [attrs, collides_iff] at collides
    exact ⟨l, mem, ⟨(keeps.considers_iff found _).mp kept, collides⟩, slot ▸ found, id.trans carried⟩
  · rintro ⟨l, mem, ⟨considered, clashes⟩, found, id⟩
    obtain ⟨r, live, found', attrs, carried⟩ := keeps.live_of_mem rep mem
    have slot : c.slotIndex = r.slot := Option.some.inj (found.symm.trans found')
    rw [← collides_iff, ← attrs] at clashes
    exact ⟨r, live, (keeps.considers_iff found' _).mpr considered, clashes, id.trans carried.symm, slot⟩

end ConflictEngine

/-- On an engine that holds a list of leases `CheckLeaseConflicts` reports, for exactly the leases other than the
    renewed one, the collisions of channels, of bands and ports in 16 bits and of the hashes of the operators. -/
theorem checkLeaseConflicts_exact {ce : ConflictEngine} {leases : List Lease} (keeps : ce.Keeps leases)
    (proposed : Lease) (renewLeaseID : Bytes) :
    ce.ReportsExactly leases proposed renewLeaseID fun l type =>
      ConflictEngine.Considers renewLeaseID l ∧ Clashes l proposed type :=
  keeps.reports proposed renewLeaseID

/-- A lease of an operator on a channel of the C band. -/
def channelLease (id operatorID : Bytes) (channelNum : Int32) : Lease where
  id := id
  wavelength := some { lambdaNm := ⟨0⟩, channelNum, band := bandCBand, gridGHz := ⟨0⟩ }
  endpointID := ascii "ep"
  operatorID := operatorID
  status := .active
  startTime := 0
  endTime := 0
  createdAt := 0
  updatedAt := 0
  tokenHash := []

theorem checkLeaseConflicts_exact_rebuilt :
    (ConflictEngine.rebuildFrom [channelLease (ascii "a") (ascii "Aa") 33]).2.ReportsExactly
      [channelLease (ascii "a") (ascii "Aa") 33] (channelLease (ascii "b") (ascii "C") 33) [] fun l type =>
        ConflictEngine.Considers [] l ∧ Clashes l (channelLease (ascii "b") (ascii "C") 33) type :=
  checkLeaseConflicts_exact (ConflictEngine.keeps_rebuildFrom (by decide) (by decide)) _ _

/-- The engine that holds one lease. -/
def holding (l : Lease) : ConflictEngine :=
  (ConflictEngine.rebuildFrom [l]).2

lemma keeps_holding (l : Lease) : (holding l).Keeps [l] :=
  ConflictEngine.keeps_rebuildFrom (List.nodup_singleton _) (Nat.succ_le_of_lt (by decide : 0 < maxLeases))

lemma not_sameWavelength {id id' operatorID operatorID' : Bytes} {channel channel' : Int32} (ne : channel ≠ channel') :
    ¬ SameWavelength (channelLease id operatorID channel) (channelLease id' operatorID' channel') := by
  rintro ⟨v, w, left, right, _, same⟩
  cases left
  cases right
  exact ne same

/-- A proposed lease. -/
def rival : Lease :=
  channelLease (ascii "b") (ascii "BB") 33

/-- The operators `Aa` and `BB` have one hash, so a lease of one on the channel of the other is not reported as a breach
    of their isolation. Channels 33 and 65569 have one port, so a lease on one is reported to collide with the other. -/
theorem not_fieldsClash_exact :
    (∃ l : Lease, l.operatorID ≠ rival.operatorID ∧
      ¬ (holding l).ReportsExactly [l] rival [] fun l type => l.id ≠ [] ∧ FieldsClash l rival type) ∧
    (∃ l : Lease, ¬ SameWavelength l rival ∧
      ¬ (holding l).ReportsExactly [l] rival [] fun l type => l.id ≠ [] ∧ FieldsClash l rival type) := by
  refine ⟨⟨channelLease (ascii "a") (ascii "Aa") 33, by decide, fun exact => ?_⟩,
    ⟨channelLease (ascii "a") (ascii "BB") 65569, ?_, fun exact => ?_⟩⟩
  · have fields : FieldsClash (channelLease (ascii "a") (ascii "Aa") 33) rival .tenantIsolation :=
      ⟨⟨_, _, rfl, rfl, rfl, rfl⟩, by decide⟩
    have reported := exact.unique (keeps_holding _) ((keeps_holding _).reports _ _) (List.mem_singleton_self _)
      ⟨by decide, fields⟩
    exact reported.2.2 (by decide)
  · exact not_sameWavelength (by decide)
  · have clashes : Clashes (channelLease (ascii "a") (ascii "BB") 65569) rival .awgPortCollision :=
      ⟨by decide, by decide⟩
    have fields := ((keeps_holding _).reports _ _).unique (keeps_holding _) exact (List.mem_singleton_self _)
      ⟨.inl rfl, clashes⟩
    exact not_sameWavelength (by decide) fields.2

end Otap.Bitweave
