import Otap.Bitweave.Adapter

/-!
# The adapter and its index

The conflict engine keeps two records of the leases that it holds: the index, with a slot for every `Insert`, and the
map from lease IDs to slots.

`LeaseIndex.Remove` clears a slot and neither counts it down nor gives it to a later lease. So the count of the index is
the number of leases that the engine holds only as long as no held lease is removed (`capacity_live_iff`).

`IndexLease` and `RemoveLease` keep the map a bijection onto the active slots. `RebuildFrom` does not look an ID up
before it inserts, and it drops what the engine held before it knows whether the list fits (`correspondence_iff`).
-/

namespace Otap.Bitweave
open Otap.Lib Otap.Flr

variable {ce : ConflictEngine} {leases : List Lease} {lease : Lease} {slot : Nat}

/-! ## What the calls do -/

/-- The error of an index without a free slot. -/
def indexFull : String :=
  s!"lease index full ({maxLeases} max)"

lemma LeaseIndex.insert_eq (idx : LeaseIndex) (id : String) (a : Attributes) :
    idx.insert id a =
      if idx.count ≥ maxLeases then .error indexFull else .ok (idx.count, idx.step (.insert id a)) := by
  unfold LeaseIndex.step LeaseIndex.insert
  split
  case isTrue => rfl
  case isFalse => rfl

namespace ConflictEngine

/-- The engine holds a lease with the ID. -/
def Indexed (ce : ConflictEngine) (id : Bytes) : Prop :=
  (ce.slots.get id).isSome

/-- The engine with one more lease, in the next slot. -/
def inserted (ce : ConflictEngine) (lease : Lease) : ConflictEngine where
  index := ce.index.step (.insert (idString lease.id) (leaseAttributes lease))
  slots := ce.slots.set lease.id ce.index.count

lemma indexLease_held (held : ce.slots.get lease.id = some slot) :
    ce.indexLease lease = (.ok (), ce) := by
  rw [indexLease, held]

lemma indexLease_full (new : ce.slots.get lease.id = none)
    (full : ce.index.count ≥ maxLeases) : ce.indexLease lease = (.error indexFull, ce) := by
  rw [indexLease, new, LeaseIndex.insert_eq, if_pos full]

lemma indexLease_new (new : ce.slots.get lease.id = none)
    (room : ce.index.count < maxLeases) : ce.indexLease lease = (.ok (), ce.inserted lease) := by
  rw [indexLease, new, LeaseIndex.insert_eq, if_neg (Nat.not_le.mpr room)]
  rfl

lemma removeLease_none {id : Bytes} (none : ce.slots.get id = none) : ce.removeLease id = ce := by
  rw [removeLease, none]

lemma removeLease_held {id : Bytes} (held : ce.slots.get id = some slot) :
    ce.removeLease id = { index := ce.index.step (.remove slot), slots := ce.slots.delete id } := by
  rw [removeLease, held]
  rfl

lemma count_inserted (lease : Lease) (room : ce.index.count < maxLeases) :
    (ce.inserted lease).index.count = ce.index.count + 1 := by
  rw [inserted, LeaseIndex.step_insert room]

lemma count_remove (idx : LeaseIndex) (slot : Int) : (idx.step (.remove slot)).count = idx.count := by
  rw [LeaseIndex.step, LeaseIndex.remove]
  split
  case isTrue => rfl
  case isFalse => rfl

end ConflictEngine

/-! ## Capacity -/

/-- A call that indexes or removes one lease. -/
inductive LeaseCall where
  | indexLease (lease : Lease)
  | removeLease (leaseID : Bytes)

def LeaseCall.toEngineCall : LeaseCall → EngineCall
  | indexLease lease => .indexLease lease
  | removeLease leaseID => .removeLease leaseID

/-- The number of leases that the engine holds. -/
def ConflictEngine.live (ce : ConflictEngine) : Nat :=
  ce.slots.entries.length

/-- The engine before call `n`. -/
def churnedAt (calls : List LeaseCall) (n : Nat) : ConflictEngine :=
  stateAt (fun ce call => ConflictEngine.step ce call.toEngineCall) newConflictEngine calls n

/-- The capacity of the engine is about the leases that it holds: there is room for a new one as long as they are fewer
    than `MaxLeases`, and `LeaseCount` is their number. -/
structure ConflictEngine.CapacityIsLive (ce : ConflictEngine) : Prop where
  room : ∀ lease : Lease, ¬ ce.Indexed lease.id → ce.live < maxLeases → (ce.indexLease lease).1 = .ok ()
  count : ce.leaseCount = ce.live

namespace ConflictEngine

/-- A call other than the removal of a held lease keeps the count at the number of held leases. -/
lemma count_step (exact : ce.leaseCount = ce.live) {call : LeaseCall}
    (keeps : ∀ id, call = .removeLease id → ¬ ce.Indexed id) :
    (ce.step call.toEngineCall).leaseCount = (ce.step call.toEngineCall).live := by
  cases call with
  | indexLease lease =>
    rw [LeaseCall.toEngineCall, step]
    cases held : ce.slots.get lease.id with
    | some slot => rwa [indexLease_held held]
    | none =>
      by_cases room : ce.index.count < maxLeases
      case pos =>
        rw [indexLease_new held room]
        calc (ce.inserted lease).index.count = ce.index.count + 1 := count_inserted lease room
          _ = ce.slots.entries.length + 1 := congrArg (· + 1) exact
          _ = (ce.inserted lease).slots.entries.length := (KV.length_set held).symm
      case neg => rwa [indexLease_full held (Nat.not_lt.mp room)]
  | removeLease id =>
    have none : ce.slots.get id = none := Option.not_isSome_iff_eq_none.mp (keeps id rfl)
    rwa [LeaseCall.toEngineCall, step, removeLease_none none]

/-- After the removal of a held lease the count is one too high. -/
lemma count_removeLease (exact : ce.leaseCount = ce.live) {id : Bytes} (held : ce.Indexed id) :
    (ce.removeLease id).leaseCount = (ce.removeLease id).live + 1 := by
  obtain ⟨slot, found⟩ := Option.isSome_iff_exists.mp held
  rw [removeLease_held found]
  calc (ce.index.step (.remove slot)).count = ce.index.count := count_remove _ _
    _ = ce.slots.entries.length := exact
    _ = (ce.slots.delete id).entries.length + 1 := (KV.length_delete found).symm

lemma capacityIsLive_of_count (exact : ce.leaseCount = ce.live) : ce.CapacityIsLive where
  room lease new lt := by
    have room : ce.index.count < maxLeases := lt_of_eq_of_lt exact lt
    rw [indexLease_new (Option.not_isSome_iff_eq_none.mp new) room]
  count := exact

end ConflictEngine

/-- The capacity is about the held leases at every moment of a run exactly if the run removes no lease that is held. -/
theorem capacity_live_iff (calls : List LeaseCall) :
    (∀ n, (churnedAt calls n).CapacityIsLive) ↔
      ∀ n id, calls[n]? = some (.removeLease id) → ¬ (churnedAt calls n).Indexed id := by
  constructor
  · intro live n id got held
    have after := (live (n + 1)).count
    have high := ConflictEngine.count_removeLease (live n).count held
    rw [churnedAt, stateAt_succ got] at after
    exact absurd (high.symm.trans after) (Nat.succ_ne_self _)
  · intro keeps n
    apply ConflictEngine.capacityIsLive_of_count
    refine stateAt_inv (P := fun ce : ConflictEngine => ce.leaseCount = ce.live) ?_ (Nat.zero_le n) rfl
    intro k call got exact
    refine ConflictEngine.count_step exact fun id removes => keeps k id ?_
    rw [got, removes]

/-- A lease without a wavelength. -/
def plainLease (id : Bytes) : Lease where
  id := id
  wavelength := none
  endpointID := ascii "ep"
  operatorID := ascii "op"
  status := .active
  startTime := 0
  endTime := 0
  createdAt := 0
  updatedAt := 0
  tokenHash := []

/-- One lease indexed and removed `k` times. -/
def churn : Nat → List LeaseCall
  | 0 => []
  | k + 1 => churn k ++ [.indexLease (plainLease (ascii "a")), .removeLease (ascii "a")]

/-- The engine after it. -/
def churned (k : Nat) : ConflictEngine :=
  churnedAt (churn k) (churn k).length

/-- Every time takes a slot and leaves the engine without a lease. -/
lemma churned_engine {k : Nat} (le : k ≤ maxLeases) : (churned k).index.count = k ∧ (churned k).slots = .empty := by
  induction k with
  | zero => exact ⟨rfl, rfl⟩
  | succ k ih =>
    obtain ⟨count, slots⟩ := ih (Nat.le_of_succ_le le)
    rw [churned, churnedAt, stateAt_of_length_le le_rfl] at count slots ⊢
    rw [churn, List.foldl_append]
    generalize (churn k).foldl _ newConflictEngine = ce at count slots
    have room : ce.index.count < maxLeases := lt_of_eq_of_lt count le
    have new : ce.slots.get (plainLease (ascii "a")).id = none := slots ▸ KV.get_empty _
    have held : (ce.inserted (plainLease (ascii "a"))).slots.get (ascii "a") = some ce.index.count :=
      KV.get_set_self _ _ _
    rw [List.foldl_cons, List.foldl_cons, List.foldl_nil, LeaseCall.toEngineCall, LeaseCall.toEngineCall,
      ConflictEngine.step, ConflictEngine.step, ConflictEngine.indexLease_new new room,
      ConflictEngine.removeLease_held held]
    refine ⟨?_, ?_⟩
    · rw [ConflictEngine.count_remove, ConflictEngine.count_inserted _ room, count]
    · rw [ConflictEngine.inserted, slots]
      rfl

/-- An engine that has given all its slots away and holds no lease. -/
lemma exhausted (count : ce.index.count = maxLeases) (slots : ce.slots = .empty) (lease : Lease) :
    ce.live = 0 ∧ ce.leaseCount = maxLeases ∧ (ce.indexLease lease).1 = .error indexFull ∧ ¬ ce.CapacityIsLive := by
  have empty : ce.live = 0 := congrArg (fun m => m.entries.length) slots
  have new : ce.slots.get lease.id = none := slots ▸ KV.get_empty _
  refine ⟨empty, count, ?_, fun live => ?_⟩
  · rw [ConflictEngine.indexLease_full new count.ge]
  · exact absurd (count.symm.trans (live.count.trans empty)) (by decide)

/-- After `MaxLeases` leases that came and went the engine holds none, counts all of them and takes no further one. -/
theorem not_capacity_live :
    (churned maxLeases).live = 0 ∧ (churned maxLeases).leaseCount = maxLeases ∧
      ((churned maxLeases).indexLease (plainLease (ascii "b"))).1 = .error indexFull ∧
      ¬ (churned maxLeases).CapacityIsLive := by
  obtain ⟨count, slots⟩ := churned_engine (le_refl maxLeases)
  exact exhausted count slots _

/-! ## Correspondence -/

lemma idString_inj {id id' : Bytes} (e : idString id = idString id') : id = id' := by
  have toNat (b : UInt8) : (Char.ofNat b.toNat).toNat = b.toNat := by
    have valid : b.toNat.isValidChar := .inl (lt_trans b.toNat_lt (by decide))
    rw [Char.ofNat, dif_pos valid]
    rfl
  have byte : Function.Injective fun b : UInt8 => Char.ofNat b.toNat := by
    intro b b' eq
    exact UInt8.toNat_inj.mp ((toNat b).symm.trans ((congrArg Char.toNat eq).trans (toNat b')))
  exact List.map_injective_iff.mpr byte (String.ofList_injective e)

/-- The list has the lease as the index keeps it: one with its ID and its attributes. -/
def ListsLease (leases : List Lease) (lease : Lease) : Prop :=
  ∃ l ∈ leases, l.id = lease.id ∧ leaseAttributes l = leaseAttributes lease

/-- A lane carries one set of attributes. -/
lemma LeaseIndex.LaneIs.unique {idx : LeaseIndex} {a b : Attributes} (lane : idx.LaneIs slot true a)
    (lane' : idx.LaneIs slot true b) : a = b := by
  have bits {w : Nat} {planes : Planes} {u v : BitVec w} (left : ∀ p < w, (planes p).lane slot = u.getLsbD p)
      (right : ∀ p < w, (planes p).lane slot = v.getLsbD p) : u = v :=
    BitVec.eq_of_getLsbD_eq fun p lt => (left p lt).symm.trans (right p lt)
  obtain ⟨_, _, _, _, _⟩ := a
  obtain ⟨_, _, _, _, _⟩ := b
  obtain rfl := bits lane.channelNum lane'.channelNum
  obtain rfl := bits lane.awgID lane'.awgID
  obtain rfl := bits lane.tenantID lane'.tenantID
  obtain rfl := bits lane.awgPort lane'.awgPort
  obtain rfl := lane.exclusive.symm.trans lane'.exclusive
  rfl

namespace ConflictEngine

/-- A slot of the index is active and carries the ID. -/
def Carries (ce : ConflictEngine) (slot : Nat) (id : Bytes) : Prop :=
  ce.index.active.lane slot = true ∧ ce.index.leaseIDs slot = idString id

/-- The map from IDs to slots is a bijection onto the active slots, and every slot carries the ID that is mapped to
    it. -/
structure Corresponds (ce : ConflictEngine) : Prop where
  carries : ∀ id slot, ce.slots.get id = some slot → ce.Carries slot id
  injective : ∀ id id' slot, ce.slots.get id = some slot → ce.slots.get id' = some slot → id = id'
  onto : ∀ slot, ce.index.active.lane slot = true → ∃ id, ce.slots.get id = some slot

/-- Injectivity comes with the carried IDs. -/
lemma Corresponds.mk_of_carries (carries : ∀ id slot, ce.slots.get id = some slot → ce.Carries slot id)
    (onto : ∀ slot, ce.index.active.lane slot = true → ∃ id, ce.slots.get id = some slot) : ce.Corresponds where
  carries := carries
  injective id id' slot found found' :=
    idString_inj ((carries id slot found).2.symm.trans (carries id' slot found').2)
  onto := onto

/-- A slot that carries an ID is the one that the ID is mapped to. -/
lemma Corresponds.slot_of_carries (corr : ce.Corresponds) {id : Bytes}
    (carried : ce.Carries slot id) : ce.slots.get id = some slot := by
  obtain ⟨id', found⟩ := corr.onto slot carried.1
  rwa [idString_inj (carried.2.symm.trans (corr.carries id' slot found).2)]

lemma corresponds_new : newConflictEngine.Corresponds :=
  .mk_of_carries (fun _ _ found => by cases found) fun slot active => by
    have blank := Represents.init.free slot fun l mem => (by cases mem)
    exact absurd (blank.active.symm.trans active) Bool.false_ne_true

/-- The slots of the engine with one more lease. -/
lemma carries_inserted (lease : Lease) (room : ce.index.count < maxLeases) (slot : Nat) :
    (ce.inserted lease).index.active.lane slot = (ce.index.active.lane slot || decide (slot = ce.index.count)) ∧
      (ce.inserted lease).index.leaseIDs slot =
        if slot = ce.index.count then idString lease.id else ce.index.leaseIDs slot := by
  rw [inserted, LeaseIndex.step_insert room]
  exact ⟨lane_setBit _ _ _, Function.update_apply ..⟩

/-- The slots after a removal. -/
lemma carries_remove {idx : LeaseIndex} {removed : Nat} (lt : removed < maxLeases) (slot : Nat) :
    (idx.step (.remove removed)).active.lane slot = (idx.active.lane slot && decide (slot ≠ removed)) ∧
      (idx.step (.remove removed)).leaseIDs slot = if slot = removed then "" else idx.leaseIDs slot := by
  rw [LeaseIndex.step_remove lt]
  exact ⟨lane_andMask _ _ _, Function.update_apply ..⟩

/-- The next slot is not active, and every active slot is one of the index. -/
lemma lane_of_represents {idx : LeaseIndex} (rep : ∃ ref, Represents idx ref)
    (active : idx.active.lane slot = true) : slot < idx.count ∧ slot < maxLeases := by
  obtain ⟨ref, rep⟩ := rep
  obtain ⟨l, mem, rfl⟩ := rep.live_of_active active
  have lt := rep.slot_lt l mem
  rw [rep.count]
  exact ⟨lt, lt.trans_le rep.next_le⟩

lemma Corresponds.inserted (corr : ce.Corresponds) (rep : ∃ ref, Represents ce.index ref)
    (new : ce.slots.get lease.id = none) (room : ce.index.count < maxLeases) :
    (ce.inserted lease).Corresponds := by
  refine .mk_of_carries (fun id slot found => ?_) fun slot active => ?_
  · obtain ⟨lane, carried⟩ := carries_inserted lease room slot
    rw [ConflictEngine.inserted, KV.get_set] at found
    split at found
    case isTrue same =>
      cases found
      refine ⟨?_, ?_⟩
      · rw [lane, decide_eq_true rfl, Bool.or_true]
      · rw [carried, if_pos rfl, same]
    case isFalse =>
      obtain ⟨active, carries⟩ := corr.carries id slot found
      have old : slot ≠ ce.index.count := (lane_of_represents rep active).1.ne
      refine ⟨?_, ?_⟩
      · rw [lane, active, Bool.true_or]
      · rw [carried, if_neg old, carries]
  · rw [(carries_inserted lease room slot).1, Bool.or_eq_true, decide_eq_true_eq] at active
    cases active with
    | inl old =>
      obtain ⟨id, found⟩ := corr.onto slot old
      have other : id ≠ lease.id := fun same => by
        rw [same, new] at found
        cases found
      exact ⟨id, (KV.get_set_ne _ _ other).trans found⟩
    | inr here =>
      subst here
      exact ⟨lease.id, KV.get_set_self _ _ _⟩

lemma Corresponds.removeLease (corr : ce.Corresponds) (rep : ∃ ref, Represents ce.index ref)
    (id : Bytes) : (ce.removeLease id).Corresponds ∧ ∀ slot, ¬ (ce.removeLease id).Carries slot id := by
  cases held : ce.slots.get id with
  | none =>
    rw [removeLease_none held]
    refine ⟨corr, fun slot carried => ?_⟩
    cases held.symm.trans (corr.slot_of_carries carried)
  | some removed =>
    have lt := (lane_of_represents rep (corr.carries id removed held).1).2
    rw [removeLease_held held]
    have corr' : ConflictEngine.Corresponds
        { index := ce.index.step (.remove removed), slots := ce.slots.delete id } := by
      refine .mk_of_carries (fun id' slot found => ?_) fun slot active => ?_
      · dsimp only at found
        rw [KV.get_delete] at found
        split at found
        case isTrue => cases found
        case isFalse other =>
          obtain ⟨active, carries⟩ := corr.carries id' slot found
          have kept : slot ≠ removed := fun same => other (corr.injective id' id slot found (same ▸ held))
          obtain ⟨lane, carried⟩ := @carries_remove ce.index removed lt slot
          refine ⟨?_, ?_⟩
          · rw [lane, active, Bool.true_and, decide_eq_true kept]
          · rw [carried, if_neg kept, carries]
      · rw [(carries_remove lt slot).1, Bool.and_eq_true, decide_eq_true_eq] at active
        obtain ⟨id', found⟩ := corr.onto slot active.1
        have other : id' ≠ id := fun same => active.2 (Option.some.inj (found.symm.trans (same ▸ held)))
        refine ⟨id', ?_⟩
        rw [KV.get_delete, if_neg other, found]
    refine ⟨corr', fun slot carried => ?_⟩
    have found := corr'.slot_of_carries carried
    dsimp only at found
    rw [KV.get_delete, if_pos rfl] at found
    cases found

/-- The engine holds what a rebuild has inserted: the leases of the list, each in the slot of its position. -/
structure Built (ce : ConflictEngine) (leases : List Lease) : Prop where
  count : ce.index.count = leases.length
  le : leases.length ≤ maxLeases
  lanes : ∀ slot lease, leases[slot]? = some lease → ce.index.LaneIs slot true (leaseAttributes lease)
  free : ∀ slot, leases.length ≤ slot → ce.index.LaneIs slot false blank
  ids : ∀ slot lease, leases[slot]? = some lease → ce.index.leaseIDs slot = idString lease.id
  slots : ∀ id slot, ce.slots.get id = some slot → ∃ lease, leases[slot]? = some lease ∧ lease.id = id
  indexed : ∀ lease ∈ leases, ce.Indexed lease.id

lemma Built.new : newConflictEngine.Built [] where
  count := rfl
  le := Nat.zero_le _
  lanes slot lease got := by cases got
  free slot _ := Represents.init.free slot fun l mem => (by cases mem)
  ids slot lease got := by cases got
  slots id slot found := by cases found
  indexed lease mem := by cases mem

lemma Built.inserted (built : ce.Built leases)
    (room : leases.length < maxLeases) (lease : Lease) : (ce.inserted lease).Built (leases ++ [lease]) where
  count := by
    rw [count_inserted lease (lt_of_eq_of_lt built.count room), built.count, List.length_append, List.length_singleton]
  le := by
    rw [List.length_append, List.length_singleton]
    exact room
  lanes := by
    have room' : ce.index.count < maxLeases := lt_of_eq_of_lt built.count room
    apply forall_getElem?_concat
    · intro slot l got
      have lt : slot < leases.length := (List.getElem?_eq_some_iff.mp got).1
      exact LeaseIndex.LaneIs.insert_other room' _ _ (built.count ▸ lt.ne) (built.lanes slot l got)
    · rw [← built.count]
      exact LeaseIndex.LaneIs.insert_same room' _ _ (built.free _ built.count.ge)
  free slot le := by
    rw [List.length_append, List.length_singleton] at le
    refine LeaseIndex.LaneIs.insert_other (lt_of_eq_of_lt built.count room) _ _ ?_ (built.free slot (by omega))
    rw [built.count]
    omega
  ids := by
    apply forall_getElem?_concat
    · intro slot l got
      have lt : slot < leases.length := (List.getElem?_eq_some_iff.mp got).1
      rw [(carries_inserted lease (lt_of_eq_of_lt built.count room) slot).2, built.count, if_neg lt.ne]
      exact built.ids slot l got
    · rw [(carries_inserted lease (lt_of_eq_of_lt built.count room) _).2, built.count, if_pos rfl]
  slots id slot found := by
    rw [ConflictEngine.inserted, KV.get_set] at found
    split at found
    case isTrue same =>
      cases found
      exact ⟨lease, by rw [built.count, List.getElem?_concat_length], same.symm⟩
    case isFalse =>
      obtain ⟨l, got, same⟩ := built.slots id slot found
      exact ⟨l, by rw [List.getElem?_append_left (List.getElem?_eq_some_iff.mp got).1, got], same⟩
  indexed l mem := by
    rw [Indexed, ConflictEngine.inserted, KV.get_set]
    split
    case isTrue => rfl
    case isFalse other =>
      cases List.mem_append.mp mem with
      | inl old => exact built.indexed l old
      | inr here => exact absurd (congrArg Lease.id (List.mem_singleton.mp here)) other

/-- A rebuild inserts the leases that fit; it fails if there are more. -/
lemma Built.rebuildLoop {done : List Lease} (built : ce.Built done) (leases : List Lease) :
    (ConflictEngine.rebuildLoop leases ce).2.Built ((done ++ leases).take maxLeases) ∧
      ((ConflictEngine.rebuildLoop leases ce).1 = .ok () ↔ (done ++ leases).length ≤ maxLeases) := by
  induction leases generalizing ce done with
  | nil =>
    rw [List.append_nil, List.take_of_length_le built.le]
    exact ⟨built, fun _ => built.le, fun _ => rfl⟩
  | cons lease leases ih =>
    rw [ConflictEngine.rebuildLoop, LeaseIndex.insert_eq, built.count]
    by_cases room : done.length < maxLeases
    case pos =>
      rw [if_neg (Nat.not_le.mpr room), List.append_cons]
      have next := ih (built.inserted room lease)
      rw [ConflictEngine.inserted, built.count] at next
      exact next
    case neg =>
      have full : done.length = maxLeases := le_antisymm built.le (Nat.not_lt.mp room)
      rw [if_pos (Nat.not_lt.mp room)]
      refine ⟨?_, fun ok => ?_, fun fits => ?_⟩
      · rw [← full, List.take_left]
        exact built
      · cases ok
      · rw [List.length_append, List.length_cons] at fits
        omega

/-- The active slots of a rebuilt engine are those of its list. -/
lemma Built.lt_of_active (built : ce.Built leases)
    (active : ce.index.active.lane slot = true) : slot < leases.length := by
  by_contra le
  exact Bool.false_ne_true ((built.free slot (Nat.not_lt.mp le)).active.symm.trans active)

/-- A slot of a rebuilt engine carries the ID of the lease at its position. -/
lemma Built.carries (built : ce.Built leases) (got : leases[slot]? = some lease) : ce.Carries slot lease.id :=
  ⟨(built.lanes slot lease got).active, built.ids slot lease got⟩

/-- A rebuilt engine corresponds to its index exactly if no ID came twice. -/
lemma Built.corresponds_iff (built : ce.Built leases) :
    ce.Corresponds ↔ (leases.map Lease.id).Nodup := by
  constructor
  · intro corr
    -- every slot is the one that its ID is mapped to
    have found {slot : Nat} {lease : Lease} (got : leases[slot]? = some lease) : ce.slots.get lease.id = some slot :=
      corr.slot_of_carries (built.carries got)
    rw [List.nodup_iff_getElem?_ne_getElem?]
    intro i j lt bound same
    rw [List.length_map] at bound
    have got := List.getElem?_eq_getElem (lt.trans bound)
    have got' := List.getElem?_eq_getElem bound
    rw [List.getElem?_map, List.getElem?_map, got, got', Option.map_some, Option.map_some] at same
    have here := found got
    rw [Option.some.inj same, found got'] at here
    exact lt.ne (Option.some.inj here).symm
  · intro nodup
    refine .mk_of_carries (fun id slot found => ?_) fun slot active => ?_
    · obtain ⟨lease, got, rfl⟩ := built.slots id slot found
      exact built.carries got
    · have got := List.getElem?_eq_getElem (built.lt_of_active active)
      obtain ⟨slot', found⟩ := Option.isSome_iff_exists.mp (built.indexed _ (List.mem_of_getElem? got))
      obtain ⟨lease', got', same⟩ := built.slots _ slot' found
      rw [getElem?_inj_of_nodup_map nodup got' got same] at found
      exact ⟨_, found⟩

/-- A rebuilt engine that corresponds to its index holds the leases of its list, with their attributes. -/
lemma Built.holds_iff (built : ce.Built leases) (corr : ce.Corresponds)
    : ce.Holds lease ↔ ListsLease leases lease := by
  constructor
  · rintro ⟨slot, found, lane, -⟩
    obtain ⟨l, got, same⟩ := built.slots lease.id slot found
    exact ⟨l, List.mem_of_getElem? got, same, (built.lanes slot l got).unique lane⟩
  · rintro ⟨l, mem, same, attrs⟩
    obtain ⟨slot, got⟩ := List.mem_iff_getElem?.mp mem
    have carried := built.carries got
    have lane := built.lanes slot l got
    rw [same] at carried
    rw [attrs] at lane
    exact ⟨slot, corr.slot_of_carries carried, lane, carried.2⟩

end ConflictEngine

lemma rebuildFrom_built (leases : List Lease) : (ConflictEngine.rebuildFrom leases).2.Built (leases.take maxLeases) :=
  (ConflictEngine.Built.new.rebuildLoop leases).1

lemma rebuildFrom_error :
    (∃ err, (ConflictEngine.rebuildFrom leases).1 = .error err) ↔ maxLeases < leases.length := by
  have ok := (ConflictEngine.Built.new.rebuildLoop leases).2
  rw [List.nil_append, ← ConflictEngine.rebuildFrom] at ok
  cases result : (ConflictEngine.rebuildFrom leases).1 with
  | error err =>
    rw [result] at ok
    refine ⟨fun _ => ?_, fun _ => ⟨err, rfl⟩⟩
    by_contra fits
    cases ok.mpr (Nat.not_lt.mp fits)
  | ok =>
    rw [result] at ok
    refine ⟨fun ⟨err, failed⟩ => (by cases failed), fun long => ?_⟩
    exact absurd (ok.mp rfl) (Nat.not_le.mpr long)

/-! ## Runs -/

/-- The engine before call `n`. -/
def engineAt (calls : List EngineCall) (n : Nat) : ConflictEngine :=
  stateAt ConflictEngine.step newConflictEngine calls n

/-- The two records stay in correspondence along the calls: at every moment the map is a bijection onto the active
    slots, a removed ID is carried by no slot, and a rebuild that fails leaves the held leases as they were, with their
    attributes. -/
structure StaysInStep (calls : List EngineCall) : Prop where
  corresponds : ∀ n, (engineAt calls n).Corresponds
  removed : ∀ n id, calls[n]? = some (.removeLease id) → ∀ slot, ¬ (engineAt calls (n + 1)).Carries slot id
  failed : ∀ n leases err, calls[n]? = some (.rebuildFrom leases) →
    (ConflictEngine.rebuildFrom leases).1 = .error err →
    ∀ lease, (engineAt calls (n + 1)).Holds lease ↔ (engineAt calls n).Holds lease

/-- A list that an engine can be rebuilt from: among the leases that fit no ID comes twice and, if there are more, those
    that fit are the leases that the engine holds already, with their attributes. -/
structure ConflictEngine.Admits (ce : ConflictEngine) (leases : List Lease) : Prop where
  distinct : ((leases.take maxLeases).map Lease.id).Nodup
  fits : maxLeases < leases.length → ∀ lease, ListsLease (leases.take maxLeases) lease ↔ ce.Holds lease

lemma engineAt_succ {calls : List EngineCall} {n : Nat} {call : EngineCall} (got : calls[n]? = some call) :
    engineAt calls (n + 1) = (engineAt calls n).step call :=
  stateAt_succ got

lemma represents_engineAt (calls : List EngineCall) (n : Nat) : ∃ ref, Represents (engineAt calls n).index ref :=
  represents_run (calls.take n)

/-- Calls keep the correspondence, a rebuild if the engine admits its list. -/
lemma ConflictEngine.Corresponds.step (corr : ce.Corresponds)
    (rep : ∃ ref, Represents ce.index ref) {call : EngineCall}
    (admits : ∀ leases, call = .rebuildFrom leases → ce.Admits leases) : (ce.step call).Corresponds := by
  cases call with
  | indexLease lease =>
    rw [ConflictEngine.step]
    cases held : ce.slots.get lease.id with
    | some slot => rwa [indexLease_held held]
    | none =>
      by_cases room : ce.index.count < maxLeases
      case pos =>
        rw [indexLease_new held room]
        exact corr.inserted rep held room
      case neg => rwa [indexLease_full held (Nat.not_lt.mp room)]
  | removeLease id => exact (corr.removeLease rep id).1
  | rebuildFrom leases => exact (rebuildFrom_built leases).corresponds_iff.mpr (admits leases rfl).distinct

/-- The records stay in correspondence along a run exactly if every rebuild of the run is from a list that the engine
    admits. -/
theorem correspondence_iff (calls : List EngineCall) :
    StaysInStep calls ↔
      ∀ n leases, calls[n]? = some (.rebuildFrom leases) → (engineAt calls n).Admits leases := by
  constructor
  · intro stays n leases got
    have corr := stays.corresponds (n + 1)
    rw [engineAt_succ got] at corr
    refine ⟨(rebuildFrom_built leases).corresponds_iff.mp corr, fun long lease => ?_⟩
    obtain ⟨err, failed⟩ := rebuildFrom_error.mpr long
    have same := stays.failed n leases err got failed lease
    rw [engineAt_succ got] at same
    exact ((rebuildFrom_built leases).holds_iff corr).symm.trans same
  · intro admits
    have corr (n : Nat) : (engineAt calls n).Corresponds := by
      refine stateAt_inv ?_ (Nat.zero_le n) ConflictEngine.corresponds_new
      intro k call got corr
      refine corr.step (represents_engineAt calls k) fun leases rebuilds => admits k leases ?_
      rw [got, rebuilds]
    refine ⟨corr, fun n id got => ?_, fun n leases err got failed lease => ?_⟩
    · rw [engineAt_succ got]
      exact ((corr n).removeLease (represents_engineAt calls n) id).2
    · have after := corr (n + 1)
      rw [engineAt_succ got] at after ⊢
      exact ((rebuildFrom_built leases).holds_iff after).trans
        ((admits n leases got).fits (rebuildFrom_error.mp ⟨err, failed⟩) lease)

/-- A rebuild from a list that has one ID twice, and a removal of the ID. -/
def twiceThenRemoved : List EngineCall :=
  [.rebuildFrom [plainLease (ascii "a"), plainLease (ascii "a")], .removeLease (ascii "a")]

/-- One lease more than there are slots. -/
def tooMany : List Lease :=
  (List.range (maxLeases + 1)).map fun i => plainLease (decimal i)

/-- A removed ID that came twice is still carried by a slot, and a rebuild that fails has put other leases in place of
    those that the engine held, here of none. -/
theorem not_correspondence :
    (engineAt twiceThenRemoved 2).Carries 0 (ascii "a") ∧ ¬ StaysInStep twiceThenRemoved ∧
      (engineAt [.rebuildFrom tooMany] 1).Holds (plainLease (decimal 0)) ∧ ¬ StaysInStep [.rebuildFrom tooMany] := by
  have carried : (engineAt twiceThenRemoved 2).Carries 0 (ascii "a") := ⟨by decide +kernel, by decide +kernel⟩
  have long : maxLeases < tooMany.length := by simp [tooMany]
  have fitting : tooMany.take maxLeases = (List.range maxLeases).map fun i => plainLease (decimal i) := by
    rw [tooMany, ← List.map_take, List.take_range]
    rfl
  have built := rebuildFrom_built tooMany
  have corr : (ConflictEngine.rebuildFrom tooMany).2.Corresponds := by
    rw [built.corresponds_iff, fitting, List.map_map]
    exact List.nodup_range.map fun i j same => Int.ofNat.inj (@decimalInt_inj (.ofNat i) (.ofNat j) same)
  have zero : (engineAt [.rebuildFrom tooMany] 1).Holds (plainLease (decimal 0)) := by
    refine (built.holds_iff corr).mpr ⟨plainLease (decimal 0), ?_, rfl, rfl⟩
    rw [fitting]
    exact List.mem_map.mpr ⟨0, List.mem_range.mpr (by decide), rfl⟩
  obtain ⟨err, failed⟩ := rebuildFrom_error.mpr long
  refine ⟨carried, fun stays => stays.removed 1 _ rfl 0 carried, zero, fun stays => ?_⟩
  obtain ⟨slot, found, -⟩ := (stays.failed 0 tooMany err rfl failed (plainLease (decimal 0))).mp zero
  cases found

end Otap.Bitweave
