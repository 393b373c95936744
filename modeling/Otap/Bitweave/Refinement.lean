import Otap.Bitweave.Index
import Otap.Lib.Run

/-!
# The bit-plane index refines a linear scan

The specification is the reference scan of `flr/internal/bitweave/bitweave_test.go`: a list of the live
leases with their slots (`Reference`), and a scan that compares every live lease with the query field
by field (`referenceScan`).

The bits of one slot, across all planes, form a lane (`Words.lane`). `LeaseIndex.LaneIs` says which
attributes a lane carries; `Represents` says that the lanes of the live slots carry the live leases and
that every other lane is blank, which `Insert` relies on because it only ever sets bits. The
operations keep the representation (`Represents.step`), every conflict mask has at a represented lane
the value of the field comparison (`mask_lane`), and `checkConflicts_refines` puts the two together for
the index reached by any sequence of calls.
-/

namespace Otap.Bitweave
open Otap.Lib

variable {idx : LeaseIndex}

/-! ## The specification -/

/-- `ReferenceLease` of the test. -/
structure ReferenceLease where
  id : String
  attrs : Attributes
  slot : Nat

/-- The live leases in slot order and the next slot. -/
structure Reference where
  live : List ReferenceLease
  next : Nat

/-- A call that changes the index. -/
inductive IndexCall where
  | insert (leaseID : String) (a : Attributes)
  | remove (slot : Int)

/-- The effect of a call on the index; a failed `Insert` leaves it as it is. -/
def LeaseIndex.step (idx : LeaseIndex) : IndexCall → LeaseIndex
  | .insert leaseID a =>
    match idx.insert leaseID a with
    | .ok (_, idx) => idx
    | .error _ => idx
  | .remove slot => idx.remove slot

/-- The effect of a call on the list of live leases. -/
def Reference.step (ref : Reference) : IndexCall → Reference
  | .insert id attrs =>
    if ref.next ≥ maxLeases then ref
    else { live := ref.live ++ [{ id, attrs, slot := ref.next }], next := ref.next + 1 }
  | .remove slot => { ref with live := ref.live.filter fun l => (l.slot : Int) ≠ slot }

/-- When a stored lease conflicts with a query. -/
def Collides (a q : Attributes) : ConflictType → Prop
  | .lambdaCollision => a.channelNum = q.channelNum ∧ a.awgID = q.awgID ∧ (a.exclusive ∨ q.exclusive)
  | .awgPortCollision => a.awgID = q.awgID ∧ a.awgPort = q.awgPort
  | .tenantIsolation => a.channelNum = q.channelNum ∧ a.awgID = q.awgID ∧ a.tenantID ≠ q.tenantID

instance (a q : Attributes) : ∀ type, Decidable (Collides a q type)
  | .lambdaCollision => inferInstanceAs (Decidable (_ ∧ _ ∧ _))
  | .awgPortCollision => inferInstanceAs (Decidable (_ ∧ _))
  | .tenantIsolation => inferInstanceAs (Decidable (_ ∧ _ ∧ _))

/-- The conflicts of one live lease. -/
def referenceConflicts (q : Attributes) (excludeSlot : Int) (l : ReferenceLease) : List Conflict :=
  if (l.slot : Int) = excludeSlot then []
  else
    ([.lambdaCollision, .awgPortCollision, .tenantIsolation].filter (Collides l.attrs q ·)).map
      fun type => { type, leaseID := l.id, slotIndex := l.slot }

/-- The linear scan over the live leases. -/
def referenceScan (live : List ReferenceLease) (q : Attributes) (excludeSlot : Int) : List Conflict :=
  live.flatMap (referenceConflicts q excludeSlot)

/-! ## Lanes -/

/-- The bit of a slot. -/
def Words.lane (a : Words) (slot : Nat) : Bool :=
  (a (slot / 64)).getLsbD (slot % 64)

lemma bitSet_eq {w} (value : BitVec w) {p} (hp : p < w) : bitSet value p = value.getLsbD p := by
  have h1 : ∀ i, (value >>> p &&& 1#w).getLsbD i = (decide (i = 0) && value.getLsbD p) := by
    intro i
    cases i with
    | zero => simp [show 0 < w by omega]
    | succ i => simp
  rw [bitSet, Bool.eq_iff_iff, beq_iff_eq]
  constructor
  · intro e
    have h := h1 0
    rw [e] at h
    simpa [show 0 < w by omega] using h.symm
  · intro e
    apply BitVec.eq_of_getLsbD_eq
    intro i hi
    rw [h1, e]
    simp [show 0 < w by omega]

/-- Different slots in one word have different bits. -/
lemma slot_eq {s t : Nat} (hw : s / 64 = t / 64) (hb : s % 64 = t % 64) : s = t := by
  omega

/-- The bit of a slot, among the bits of its word. -/
lemma getLsbD_slot {s t : Nat} (hw : t / 64 = s / 64) : (1#64 <<< (s % 64)).getLsbD (t % 64) = decide (t = s) := by
  have hs : s % 64 < 64 := Nat.mod_lt _ (by decide)
  rw [← BitVec.twoPow_eq, BitVec.getLsbD_twoPow, Bool.eq_iff_iff]
  simp only [hs, decide_true, Bool.true_and, decide_eq_true_eq]
  exact ⟨fun e => slot_eq hw e.symm, fun e => by rw [e]⟩

lemma lane_setBit (a : Words) (s t : Nat) :
    (a.setBit (s / 64) (s % 64)).lane t = (a.lane t || decide (t = s)) := by
  rw [Words.lane, Words.lane, Words.setBit, Function.update_apply]
  split
  case isTrue hw => rw [BitVec.getLsbD_or, getLsbD_slot hw, hw]
  case isFalse hw => simp [show t ≠ s from fun e => hw (by rw [e])]

lemma lane_andMask (a : Words) (s t : Nat) :
    (a.andMask (s / 64) (~~~(1#64 <<< (s % 64)))).lane t = (a.lane t && decide (t ≠ s)) := by
  rw [Words.lane, Words.lane, Words.andMask, Function.update_apply]
  split
  case isTrue hw =>
    have ht : t % 64 < 64 := Nat.mod_lt _ (by decide)
    rw [BitVec.getLsbD_and, BitVec.getLsbD_not, getLsbD_slot hw, hw, decide_eq_true ht, Bool.true_and, decide_not]
  case isFalse hw => simp [show t ≠ s from fun e => hw (by rw [e])]

lemma planes_insert {w} (planes : Planes) (value : BitVec w) (word bit : Nat) {p} (hp : p < w) :
    (planes.insert value word bit) p
      = if bitSet value p then (planes p).setBit word bit else planes p := by
  have h : ∀ planes : Planes, planes.insert value word bit = (List.range w).foldl
      (fun planes p => Function.update planes p
        (if bitSet value p then (planes p).setBit word bit else planes p)) planes := by
    intro planes
    rw [Planes.insert]
    congr 1
    funext planes p
    split
    · rfl
    · exact (Function.update_eq_self p planes).symm
  rw [h, foldl_update_range (fun p (x : Words) => if bitSet value p then x.setBit word bit else x)]
  simp [hp]

lemma lane_planes_insert {w} (planes : Planes) (value : BitVec w) (s t : Nat) {p} (hp : p < w) :
    ((planes.insert value (s / 64) (s % 64)) p).lane t
      = ((planes p).lane t || (value.getLsbD p && decide (t = s))) := by
  rw [planes_insert planes value _ _ hp, bitSet_eq value hp]
  cases value.getLsbD p with
  | true => simp [lane_setBit]
  | false => simp

lemma lane_planes_clear (planes : Planes) (w s t : Nat) {p} (hp : p < w) :
    ((planes.clear w (s / 64) (~~~(1#64 <<< (s % 64)))) p).lane t
      = ((planes p).lane t && decide (t ≠ s)) := by
  rw [Planes.clear,
    foldl_update_range (fun _ (x : Words) => x.andMask (s / 64) (~~~(1#64 <<< (s % 64))))]
  simp only [hp, ↓reduceIte]
  exact lane_andMask (planes p) s t

/-- Below `words` the loop nest computes the reduction of each word. -/
lemma matchScalar_eq {w} (value : BitVec w) (planes : Planes) (active : Words) {words i : Nat}
    (hi : i < words) :
    matchScalar value planes active words i = matchPlanes value (fun p => planes p i) (active i) := by
  suffices h : ∀ k ≤ w, (List.range k).foldl
      (fun acc p => (List.range words).foldl
        (fun acc i => Function.update acc i
          (if bitSet value p then acc i &&& planes p i else acc i &&& ~~~planes p i)) acc) active i
      = (List.range k).foldl (fun acc p =>
          if value.getLsbD p then acc &&& planes p i else acc &&& ~~~planes p i) (active i) from
    h w le_rfl
  intro k hk
  induction k with
  | zero => rfl
  | succ k ih =>
    rw [List.range_succ, List.foldl_append, List.foldl_append, ← ih (by omega)]
    simp only [List.foldl_cons, List.foldl_nil]
    rw [foldl_update_range
      (fun i x => if bitSet value k then x &&& planes k i else x &&& ~~~planes k i)]
    simp only [hi, ↓reduceIte, bitSet_eq value (show k < w by omega)]

/-- A matched lane is an active lane that carries the value. -/
lemma lane_matchScalar {w} (value : BitVec w) (planes : Planes) (active : Words) {words slot : Nat}
    (h : slot / 64 < words) :
    (matchScalar value planes active words).lane slot = true ↔
      active.lane slot = true ∧ ∀ p < w, (planes p).lane slot = value.getLsbD p := by
  rw [Words.lane, matchScalar_eq value planes active h]
  exact getLsbD_matchPlanes value _ _ (Nat.mod_lt _ (by decide))

lemma lane_fillWords (f : Nat → BitVec 64) {words slot : Nat} (h : slot / 64 < words) :
    (fillWords words f).lane slot = (f (slot / 64)).getLsbD (slot % 64) := by
  rw [Words.lane, fillWords, foldl_update_range (fun w _ => f w)]
  simp [h]

/-! ## The representation -/

/-- The lane of a slot is active or not and carries the given attributes. -/
structure LeaseIndex.LaneIs (idx : LeaseIndex) (slot : Nat) (active : Bool) (a : Attributes) :
    Prop where
  active : idx.active.lane slot = active
  exclusive : idx.exclusive.lane slot = a.exclusive
  channelNum : ∀ p < 32, (idx.channelNum p).lane slot = a.channelNum.getLsbD p
  awgID : ∀ p < 16, (idx.awgID p).lane slot = a.awgID.getLsbD p
  tenantID : ∀ p < 16, (idx.tenantID p).lane slot = a.tenantID.getLsbD p
  awgPort : ∀ p < 16, (idx.awgPort p).lane slot = a.awgPort.getLsbD p

/-- The attributes of a lane in which no bit is set. -/
def blank : Attributes where
  channelNum := 0
  awgID := 0
  tenantID := 0
  awgPort := 0
  exclusive := false

/-- The index stores exactly the leases of the reference. -/
structure Represents (idx : LeaseIndex) (ref : Reference) : Prop where
  count : idx.count = ref.next
  next_le : ref.next ≤ maxLeases
  sorted : ref.live.Pairwise (fun l l' => l.slot < l'.slot)
  slot_lt : ∀ l ∈ ref.live, l.slot < ref.next
  live : ∀ l ∈ ref.live, idx.LaneIs l.slot true l.attrs ∧ idx.leaseIDs l.slot = l.id
  free : ∀ slot, (∀ l ∈ ref.live, l.slot ≠ slot) → idx.LaneIs slot false blank

/-- An active slot is the slot of a live lease. -/
lemma Represents.live_of_active {idx ref} (rep : Represents idx ref) {slot : Nat}
    (active : idx.active.lane slot = true) : ∃ l ∈ ref.live, l.slot = slot := by
  by_contra dead
  have lane := rep.free slot fun l hl e => dead ⟨l, hl, e⟩
  exact Bool.false_ne_true (lane.active.symm.trans active)

lemma Represents.init : Represents newLeaseIndex { live := [], next := 0 } where
  count := rfl
  next_le := Nat.zero_le _
  sorted := .nil
  slot_lt := by simp
  live := by simp
  free slot _ := by
    constructor <;> simp [newLeaseIndex, blank, Words.lane]

/-- The index after a successful `Insert`. -/
lemma LeaseIndex.step_insert (h : idx.count < maxLeases) (id : String) (a : Attributes) :
    idx.step (.insert id a) =
      { active := idx.active.setBit (idx.count / 64) (idx.count % 64)
        exclusive :=
          if a.exclusive then idx.exclusive.setBit (idx.count / 64) (idx.count % 64)
          else idx.exclusive
        channelNum := idx.channelNum.insert a.channelNum (idx.count / 64) (idx.count % 64)
        awgID := idx.awgID.insert a.awgID (idx.count / 64) (idx.count % 64)
        tenantID := idx.tenantID.insert a.tenantID (idx.count / 64) (idx.count % 64)
        awgPort := idx.awgPort.insert a.awgPort (idx.count / 64) (idx.count % 64)
        leaseIDs := Function.update idx.leaseIDs idx.count id
        count := idx.count + 1 } := by
  simp [LeaseIndex.step, LeaseIndex.insert, show ¬ idx.count ≥ maxLeases by omega]

/-- The index after a `Remove` in range. -/
lemma LeaseIndex.step_remove {s : Nat} (hs : s < maxLeases) :
    idx.step (.remove s) =
      { active := idx.active.andMask (s / 64) (~~~(1#64 <<< (s % 64)))
        exclusive := idx.exclusive.andMask (s / 64) (~~~(1#64 <<< (s % 64)))
        channelNum := idx.channelNum.clear 32 (s / 64) (~~~(1#64 <<< (s % 64)))
        awgID := idx.awgID.clear 16 (s / 64) (~~~(1#64 <<< (s % 64)))
        tenantID := idx.tenantID.clear 16 (s / 64) (~~~(1#64 <<< (s % 64)))
        awgPort := idx.awgPort.clear 16 (s / 64) (~~~(1#64 <<< (s % 64)))
        leaseIDs := Function.update idx.leaseIDs s ""
        count := idx.count } := by
  have hrange : ¬ ((s : Int) < 0 ∨ (s : Int) ≥ maxLeases) := by omega
  simp only [LeaseIndex.step, LeaseIndex.remove, hrange, ↓reduceIte, Int.toNat_natCast]

/-- `Insert` leaves the lanes of the other slots alone. -/
lemma LeaseIndex.LaneIs.insert_other {slot act b} (h : idx.count < maxLeases) (id a)
    (ne : slot ≠ idx.count) (lane : idx.LaneIs slot act b) :
    (idx.step (.insert id a)).LaneIs slot act b := by
  obtain ⟨hact, hexcl, hch, hawg, hten, hport⟩ := lane
  rw [LeaseIndex.step_insert h]
  constructor
  · simp [lane_setBit, ne, hact]
  · simp only
    split
    · simp [lane_setBit, ne, hexcl]
    · exact hexcl
  · intro p hp
    simp [lane_planes_insert, hp, ne, hch]
  · intro p hp
    simp [lane_planes_insert, hp, ne, hawg]
  · intro p hp
    simp [lane_planes_insert, hp, ne, hten]
  · intro p hp
    simp [lane_planes_insert, hp, ne, hport]

/-- `Insert` writes the attributes into a blank lane. -/
lemma LeaseIndex.LaneIs.insert_same (h : idx.count < maxLeases) (id a)
    (lane : idx.LaneIs idx.count false blank) :
    (idx.step (.insert id a)).LaneIs idx.count true a := by
  obtain ⟨_, hexcl, hch, hawg, hten, hport⟩ := lane
  rw [LeaseIndex.step_insert h]
  constructor
  · simp [lane_setBit]
  · simp only
    split
    case isTrue e => simp [lane_setBit, e]
    case isFalse e => simpa [blank, e] using hexcl
  · intro p hp
    simp [lane_planes_insert, hp, hch, blank]
  · intro p hp
    simp [lane_planes_insert, hp, hawg, blank]
  · intro p hp
    simp [lane_planes_insert, hp, hten, blank]
  · intro p hp
    simp [lane_planes_insert, hp, hport, blank]

/-- `Remove` blanks the lane of its slot and leaves the others alone. -/
lemma LeaseIndex.LaneIs.remove {slot act b} {s : Nat} (hs : s < maxLeases) (lane : idx.LaneIs slot act b) :
    (idx.step (.remove s)).LaneIs slot (act && decide (slot ≠ s))
      (if slot = s then blank else b) := by
  obtain ⟨hact, hexcl, hch, hawg, hten, hport⟩ := lane
  rw [LeaseIndex.step_remove hs]
  by_cases e : slot = s
  · subst e
    constructor
    · simp [lane_andMask]
    · simp [lane_andMask, blank]
    · intro p hp
      simp [lane_planes_clear, hp, blank]
    · intro p hp
      simp [lane_planes_clear, hp, blank]
    · intro p hp
      simp [lane_planes_clear, hp, blank]
    · intro p hp
      simp [lane_planes_clear, hp, blank]
  · constructor
    · simp [lane_andMask, e, hact]
    · simp [lane_andMask, e, hexcl]
    · intro p hp
      simp [lane_planes_clear, hp, e, hch]
    · intro p hp
      simp [lane_planes_clear, hp, e, hawg]
    · intro p hp
      simp [lane_planes_clear, hp, e, hten]
    · intro p hp
      simp [lane_planes_clear, hp, e, hport]

lemma Represents.insert {idx ref} (rep : Represents idx ref) (id a) :
    Represents (idx.step (.insert id a)) (ref.step (.insert id a)) := by
  rcases Nat.lt_or_ge ref.next maxLeases with h | h
  · have hidx : idx.count < maxLeases := rep.count ▸ h
    have hnew : ∀ l ∈ ref.live, l.slot ≠ ref.next := fun l hl => (rep.slot_lt l hl).ne
    have href : ref.step (.insert id a)
        = { live := ref.live ++ [{ id, attrs := a, slot := ref.next }], next := ref.next + 1 } := by
      simp [Reference.step, show ¬ ref.next ≥ maxLeases by omega]
    have hids : (idx.step (.insert id a)).leaseIDs = Function.update idx.leaseIDs idx.count id := by
      rw [LeaseIndex.step_insert hidx]
    rw [href]
    constructor
    · rw [LeaseIndex.step_insert hidx, rep.count]
    · exact h
    · refine List.pairwise_append.mpr ⟨rep.sorted, List.pairwise_singleton _ _, ?_⟩
      intro l hl l' hl'
      obtain rfl := List.mem_singleton.mp hl'
      exact rep.slot_lt l hl
    · intro l hl
      rcases List.mem_append.mp hl with hl | hl
      · exact (rep.slot_lt l hl).trans (Nat.lt_succ_self _)
      · obtain rfl := List.mem_singleton.mp hl
        exact Nat.lt_succ_self _
    · intro l hl
      rw [hids, rep.count]
      rcases List.mem_append.mp hl with hl | hl
      · obtain ⟨lane, hid⟩ := rep.live l hl
        refine ⟨LeaseIndex.LaneIs.insert_other hidx id a (rep.count ▸ hnew l hl) lane, ?_⟩
        rw [Function.update_of_ne (hnew l hl), hid]
      · obtain rfl := List.mem_singleton.mp hl
        have lane := LeaseIndex.LaneIs.insert_same hidx id a (rep.free _ (rep.count ▸ hnew))
        exact ⟨rep.count ▸ lane, Function.update_self ..⟩
    · intro slot hslot
      simp only [List.mem_append, List.mem_singleton] at hslot
      have ne : slot ≠ idx.count := rep.count ▸ (hslot _ (.inr rfl)).symm
      exact LeaseIndex.LaneIs.insert_other hidx id a ne (rep.free slot fun l hl => hslot l (.inl hl))
  · have hidx : idx.count ≥ maxLeases := rep.count ▸ h
    simpa [LeaseIndex.step, LeaseIndex.insert, Reference.step, h, hidx] using rep

lemma Represents.remove {idx ref} (rep : Represents idx ref) (slot : Int) :
    Represents (idx.step (.remove slot)) (ref.step (.remove slot)) := by
  by_cases h : slot < 0 ∨ slot ≥ maxLeases
  · -- no live lease has such a slot
    have href : ref.step (.remove slot) = ref := by
      have : ∀ l ∈ ref.live, (l.slot : Int) ≠ slot := by
        intro l hl
        have := rep.slot_lt l hl
        have := rep.next_le
        omega
      rw [Reference.step, List.filter_eq_self.mpr fun l hl => decide_eq_true (this l hl)]
    rw [href]
    simpa [LeaseIndex.step, LeaseIndex.remove, h] using rep
  · obtain ⟨s, rfl⟩ : ∃ s : Nat, slot = s := ⟨slot.toNat, by omega⟩
    have hs : s < maxLeases := by omega
    have hmem : ∀ l, l ∈ (ref.step (.remove s)).live ↔ l ∈ ref.live ∧ l.slot ≠ s := by
      intro l
      simp [Reference.step]
    constructor
    · rw [LeaseIndex.step_remove hs]
      exact rep.count
    · exact rep.next_le
    · exact rep.sorted.filter _
    · intro l hl
      exact rep.slot_lt l ((hmem l).mp hl).1
    · intro l hl
      obtain ⟨hl, ne⟩ := (hmem l).mp hl
      obtain ⟨lane, hid⟩ := rep.live l hl
      refine ⟨by simpa [ne] using lane.remove hs, ?_⟩
      have hids : (idx.step (.remove s)).leaseIDs = Function.update idx.leaseIDs s "" := by
        rw [LeaseIndex.step_remove hs]
      rw [hids, Function.update_of_ne ne, hid]
    · intro t ht
      by_cases e : t = s
      · -- the removed slot: blank whatever it held before
        subst e
        by_cases hl : ∃ l ∈ ref.live, l.slot = t
        · obtain ⟨l, hl, rfl⟩ := hl
          simpa using (rep.live l hl).1.remove hs
        · have lane := rep.free t fun l hl' e => hl ⟨l, hl', e⟩
          simpa using lane.remove hs
      · have lane := rep.free t fun l hl e' => ht l ((hmem l).mpr ⟨hl, e' ▸ e⟩) e'
        simpa [e] using lane.remove hs

/-- Every call keeps the representation. -/
lemma Represents.step {idx ref} (rep : Represents idx ref) (call : IndexCall) :
    Represents (idx.step call) (ref.step call) := by
  cases call with
  | insert id a => exact rep.insert id a
  | remove slot => exact rep.remove slot

/-- Every index reached by calls represents the live leases. -/
lemma Represents.run (calls : List IndexCall) :
    Represents (calls.foldl LeaseIndex.step newLeaseIndex)
      (calls.foldl Reference.step { live := [], next := 0 }) := by
  have rep := Represents.init
  generalize newLeaseIndex = idx at rep
  generalize Reference.mk [] 0 = ref at rep
  induction calls generalizing idx ref with
  | nil => exact rep
  | cons call calls ih => exact ih _ _ (rep.step call)

/-! ## The conflict masks -/

/-- The mask of a conflict type. -/
def ConflictMasks.mask (masks : ConflictMasks) : ConflictType → Words
  | .lambdaCollision => masks.lambda
  | .awgPortCollision => masks.port
  | .tenantIsolation => masks.tenant

lemma getLsbD_lane (a : Words) (slot : Nat) :
    (a (slot / 64)).getLsbD (slot % 64) = a.lane slot := rfl

/-- Matching one attribute at a lane that carries the value `b`. -/
lemma lane_matched {w words slot act} {active : Words} {planes : Planes} {value b : BitVec w}
    (h : slot / 64 < words) (hact : active.lane slot = act)
    (lane : ∀ p < w, (planes p).lane slot = b.getLsbD p) :
    (matchScalar value planes active words).lane slot = (act && decide (b = value)) := by
  rw [Bool.eq_iff_iff, lane_matchScalar value planes active h, hact, Bool.and_eq_true,
    decide_eq_true_eq]
  apply and_congr_right
  intro _
  exact @lane_eq_iff 64 w b value (fun p => planes p (slot / 64)) (slot % 64) lane

/-- Without an excluded slot, each mask is the field comparison of its conflict type at a lane that carries `a`. -/
lemma lane_conflictMasks {slot act a q} (h : slot / 64 < (idx.count + 63) / 64)
    (lane : idx.LaneIs slot act a) (type : ConflictType) :
    ((idx.conflictMasks q (-1)).mask type).lane slot = true ↔ act = true ∧ Collides a q type := by
  obtain ⟨hact, hexcl, hch, hawg, hten, hport⟩ := lane
  have hbit : slot % 64 < 64 := Nat.mod_lt _ (by decide)
  rw [LeaseIndex.conflictMasks, if_neg (by omega)]
  cases type with
  | lambdaCollision =>
    have hprop : (if q.exclusive then ~~~0#64 else 0#64).getLsbD (slot % 64) = q.exclusive := by
      cases q.exclusive with
      | true => simp only [↓reduceIte, BitVec.getLsbD_not, hbit, BitVec.getLsbD_zero]; rfl
      | false => simp
    simp only [ConflictMasks.mask, lane_fillWords _ h, BitVec.getLsbD_and, BitVec.getLsbD_or,
      getLsbD_lane, lane_matched h hact hch, lane_matched h hact hawg, hexcl, hprop, Collides]
    cases act <;> simp [and_assoc]
  | awgPortCollision =>
    simp only [ConflictMasks.mask, lane_fillWords _ h, BitVec.getLsbD_and, getLsbD_lane,
      lane_matched h hact hawg, lane_matched h hact hport, Collides]
    cases act <;> simp
  | tenantIsolation =>
    simp only [ConflictMasks.mask, lane_fillWords _ h, BitVec.getLsbD_and, BitVec.getLsbD_not,
      getLsbD_lane, lane_matched h hact hch, lane_matched h hact hawg, lane_matched h hact hten,
      hact, Collides]
    cases act <;> simp [hbit, and_assoc]

/-- The excluded slot is cleared in every mask. -/
lemma lane_exclude {slot q excludeSlot} (hslot : slot < maxLeases) (type : ConflictType) :
    ((idx.conflictMasks q excludeSlot).mask type).lane slot
      = (((idx.conflictMasks q (-1)).mask type).lane slot && decide ((slot : Int) ≠ excludeSlot)) := by
  have none : ¬ (0 ≤ (-1 : Int) ∧ (-1 : Int) < maxLeases) := by omega
  by_cases hex : 0 ≤ excludeSlot ∧ excludeSlot < maxLeases
  case pos =>
    obtain ⟨s, rfl⟩ : ∃ s : Nat, excludeSlot = s := ⟨excludeSlot.toNat, by omega⟩
    simp only [LeaseIndex.conflictMasks, if_pos hex, none, ↓reduceIte, Int.toNat_natCast, ne_eq,
      Nat.cast_inj]
    cases type with
    | lambdaCollision => exact lane_andMask _ s slot
    | awgPortCollision => exact lane_andMask _ s slot
    | tenantIsolation => exact lane_andMask _ s slot
  case neg =>
    have ne : (slot : Int) ≠ excludeSlot := by omega
    simp only [LeaseIndex.conflictMasks, hex, none, ↓reduceIte, ne, ne_eq, not_false_eq_true,
      decide_true, Bool.and_true]

lemma mask_lane {slot act a q excludeSlot} (hcount : idx.count ≤ maxLeases)
    (h : slot / 64 < (idx.count + 63) / 64) (lane : idx.LaneIs slot act a) (type : ConflictType) :
    ((idx.conflictMasks q excludeSlot).mask type).lane slot = true ↔
      (slot : Int) ≠ excludeSlot ∧ act = true ∧ Collides a q type := by
  have hslot : slot < maxLeases := by
    rw [maxLeases] at hcount ⊢
    omega
  rw [lane_exclude hslot, Bool.and_eq_true, lane_conflictMasks h lane, decide_eq_true_eq]
  exact and_comm

/-! ## The enumerated conflicts -/

lemma mem_extractWord {type a w c} :
    c ∈ idx.extractWord type a w ↔
      c.type = type ∧ c.slotIndex / 64 = w ∧ a.lane c.slotIndex = true ∧
        c.leaseID = idx.leaseIDs c.slotIndex := by
  rw [LeaseIndex.extractWord, scanBits_eq]
  simp only [List.mem_map, List.mem_filter, List.mem_range]
  constructor
  · rintro ⟨j, ⟨hj, hb⟩, rfl⟩
    refine ⟨rfl, by simp; omega, ?_, rfl⟩
    have hw : (w * 64 + j) / 64 = w := by omega
    have hm : (w * 64 + j) % 64 = j := by omega
    simpa [Words.lane, hw, hm] using hb
  · rintro ⟨rfl, rfl, hb, hid⟩
    refine ⟨c.slotIndex % 64, ⟨Nat.mod_lt _ (by decide), hb⟩, ?_⟩
    have e : c.slotIndex / 64 * 64 + c.slotIndex % 64 = c.slotIndex := by omega
    obtain ⟨type, leaseID, slotIndex⟩ := c
    simp only at e hid
    simp [e, hid]

lemma mem_checkConflicts {q excludeSlot c} :
    c ∈ idx.checkConflicts q excludeSlot ↔
      c.slotIndex / 64 < (idx.count + 63) / 64 ∧
      ((idx.conflictMasks q excludeSlot).mask c.type).lane c.slotIndex = true ∧
      c.leaseID = idx.leaseIDs c.slotIndex := by
  have hwords : idx.checkConflicts q excludeSlot
      = (List.range ((idx.count + 63) / 64)).flatMap fun w =>
        idx.extractWord .lambdaCollision (idx.conflictMasks q excludeSlot).lambda w
          ++ idx.extractWord .awgPortCollision (idx.conflictMasks q excludeSlot).port w
          ++ idx.extractWord .tenantIsolation (idx.conflictMasks q excludeSlot).tenant w := by
    rw [LeaseIndex.checkConflicts]
    split
    case isTrue h => simp [h]
    case isFalse => rfl
  rw [hwords]
  simp only [List.mem_flatMap, List.mem_range, List.mem_append, mem_extractWord]
  obtain ⟨type, leaseID, slotIndex⟩ := c
  cases type <;> simp [ConflictMasks.mask]

lemma nodup_extractWord {type a w} : (idx.extractWord type a w).Nodup := by
  rw [LeaseIndex.extractWord, scanBits_eq]
  apply List.Nodup.map
  · intro i j e
    have := congrArg Conflict.slotIndex e
    simpa using this
  · exact List.nodup_range.filter _

lemma nodup_checkConflicts (idx : LeaseIndex) (q : Attributes) (excludeSlot : Int) :
    (idx.checkConflicts q excludeSlot).Nodup := by
  rw [LeaseIndex.checkConflicts]
  split
  case isTrue => exact List.nodup_nil
  case isFalse =>
    -- a conflict names its type and its word, so the parts are pairwise disjoint
    rw [List.nodup_flatMap]
    refine ⟨fun w _ => ?_, List.nodup_range.imp ?_⟩
    · refine List.nodup_append.mpr ⟨List.nodup_append.mpr
        ⟨nodup_extractWord, nodup_extractWord, ?_⟩, nodup_extractWord, ?_⟩
      · rintro c hc c' hc' rfl
        rw [mem_extractWord] at hc hc'
        exact absurd (hc.1.symm.trans hc'.1) (by decide)
      · rintro c hc c' hc' rfl
        rw [List.mem_append, mem_extractWord, mem_extractWord] at hc
        rw [mem_extractWord] at hc'
        rcases hc with hc | hc
        · exact absurd (hc.1.symm.trans hc'.1) (by decide)
        · exact absurd (hc.1.symm.trans hc'.1) (by decide)
    · intro w w' ne c hc hc'
      simp only [List.mem_append, mem_extractWord] at hc hc'
      apply ne
      rcases hc with (hc | hc) | hc <;> rcases hc' with (hc' | hc') | hc' <;>
        exact hc.2.1.symm.trans hc'.2.1

lemma mem_referenceConflicts {q excludeSlot l c} :
    c ∈ referenceConflicts q excludeSlot l ↔
      (l.slot : Int) ≠ excludeSlot ∧ Collides l.attrs q c.type ∧ c.leaseID = l.id ∧
        c.slotIndex = l.slot := by
  rw [referenceConflicts]
  split
  case isTrue h => simp [h]
  case isFalse h =>
    obtain ⟨type, leaseID, slotIndex⟩ := c
    simp only [List.mem_map, List.mem_filter, decide_eq_true_eq, Conflict.mk.injEq]
    constructor
    · rintro ⟨t, ⟨_, hc⟩, rfl, rfl, rfl⟩
      exact ⟨h, hc, rfl, rfl⟩
    · rintro ⟨_, hc, rfl, rfl⟩
      exact ⟨type, ⟨by cases type <;> simp, hc⟩, rfl, rfl, rfl⟩

lemma nodup_referenceScan {live : List ReferenceLease}
    (sorted : live.Pairwise (fun l l' => l.slot < l'.slot)) (q : Attributes) (excludeSlot : Int) :
    (referenceScan live q excludeSlot).Nodup := by
  rw [referenceScan, List.nodup_flatMap]
  refine ⟨fun l _ => ?_, sorted.imp ?_⟩
  · rw [referenceConflicts]
    split
    · exact List.nodup_nil
    · apply List.Nodup.map
      · intro t t' e
        exact congrArg Conflict.type e
      · exact List.Nodup.filter _ (by decide)
  · intro l l' lt c hc hc'
    rw [mem_referenceConflicts] at hc hc'
    exact absurd (hc.2.2.2.symm.trans hc'.2.2.2) lt.ne

/-- A represented index and its reference report the same conflicts. -/
lemma Represents.mem_iff {idx ref} (rep : Represents idx ref) {q excludeSlot c} :
    c ∈ idx.checkConflicts q excludeSlot ↔ c ∈ referenceScan ref.live q excludeSlot := by
  have hcount : idx.count ≤ maxLeases := rep.count ▸ rep.next_le
  rw [mem_checkConflicts, referenceScan]
  simp only [List.mem_flatMap, mem_referenceConflicts]
  constructor
  · rintro ⟨hw, hmask, hid⟩
    by_cases hl : ∃ l ∈ ref.live, l.slot = c.slotIndex
    · obtain ⟨l, hl, e⟩ := hl
      obtain ⟨lane, hlid⟩ := rep.live l hl
      rw [e] at lane hlid
      obtain ⟨hex, _, hcol⟩ := (mask_lane hcount hw lane c.type).mp hmask
      exact ⟨l, hl, e ▸ hex, hcol, hid.trans hlid, e.symm⟩
    · have lane := rep.free c.slotIndex fun l hl' e => hl ⟨l, hl', e⟩
      obtain ⟨_, hact, _⟩ := (mask_lane hcount hw lane c.type).mp hmask
      exact absurd hact (by decide)
  · rintro ⟨l, hl, hex, hcol, hid, e⟩
    obtain ⟨lane, hlid⟩ := rep.live l hl
    have hlt := rep.slot_lt l hl
    have hw : c.slotIndex / 64 < (idx.count + 63) / 64 := by
      rw [e, rep.count]
      omega
    rw [← e] at lane hlid hex
    exact ⟨hw, (mask_lane hcount hw lane c.type).mpr ⟨hex, rfl, hcol⟩, hid.trans hlid.symm⟩

/-- The bit-plane index refines the linear scan: after any sequence of `Insert` and `Remove` calls,
    `CheckConflicts` reports, without repetition, the conflicts of the reference scan over the live
    leases. -/
theorem checkConflicts_refines (calls : List IndexCall) (q : Attributes) (excludeSlot : Int) :
    let idx := calls.foldl LeaseIndex.step newLeaseIndex
    let ref := calls.foldl Reference.step { live := [], next := 0 }
    (idx.checkConflicts q excludeSlot).Nodup ∧
      (idx.checkConflicts q excludeSlot).Perm (referenceScan ref.live q excludeSlot) := by
  intro idx ref
  have rep : Represents idx ref := Represents.run calls
  refine ⟨nodup_checkConflicts idx q excludeSlot, ?_⟩
  rw [List.perm_ext_iff_of_nodup (nodup_checkConflicts idx q excludeSlot)
    (nodup_referenceScan rep.sorted q excludeSlot)]
  intro c
  exact rep.mem_iff

end Otap.Bitweave
