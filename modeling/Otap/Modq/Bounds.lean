import Otap.Lib.Footprint
import Otap.Modq.Protocol

/-!
# Which bytes the ring touches

`open` trusts the length of a PCIe resource file, and `slot_ptr` checks the first byte of a payload only. The calls on
a handle, in any order and with any answers of the device, stay inside of the mapping and of the slots they address if
and only if no slot lies across the end of the file and the stride is not zero (`ring_safe_iff`).
-/

namespace Otap.Modq

open Otap.Lib Memory Prog

/-! ## Slots of a region -/

/-- The bytes of slot `i` in a region. -/
def slotCells (size stride i : Nat) : Set Nat :=
  {a | slotBase stride i ≤ a ∧ a < slotBase stride i + stride ∧ a < size}

/-- The bytes of the doorbell register in a region. -/
def doorbellCells (size : Nat) : Set Nat :=
  {a | regs.doorbell ≤ a ∧ a < regs.doorbell + 4 ∧ a < size}

/-- The handles that calls lead to, whatever they read. -/
inductive ModqQueue.Reaches (q : ModqQueue) : ModqQueue → Prop
  | refl : q.Reaches q
  | submit {q' q'' : ModqQueue} {payload : Bytes} {result : Except RingError UInt32}
      (reached : q.Reaches q') (returned : Returns (q'.submit payload) (q'', result)) : q.Reaches q''
  | poll {q' q'' : ModqQueue} {result : Option Completion}
      (reached : q.Reaches q') (returned : Returns q'.poll (q'', result)) : q.Reaches q''

/-- The calls on the handle stay inside of a region of `size` bytes and inside of the slots of `config`. -/
structure ModqQueue.MemorySafe (q : ModqQueue) (config : ModqConfig) (size : Nat) : Prop where
  submit : ∀ q', q.Reaches q' → ∀ payload, (q'.submit payload).Within
    (slotCells size config.slotStride.toNat (q'.tx.tail.toNat % config.ringDepth.toNat) ∪ doorbellCells size)
  poll : ∀ q', q.Reaches q' → q'.poll.Within
    (slotCells size config.slotStride.toNat (q'.completions.head.toNat % config.ringDepth.toNat))
  disjoint : ∀ i j, i ≠ j → ∀ a ∈ slotCells size config.slotStride.toNat i,
    a ∉ slotCells size config.slotStride.toNat j
  strides : ∀ q', q.Reaches q' →
    q'.tx.slotStride = config.slotStride ∧ q'.completions.slotStride = config.slotStride

/-- The length of the region that `open` maps. -/
def ModqConfig.regionSize (config : ModqConfig) (os : Os) : Nat :=
  match config.transport with
  | .pciBar resourcePath =>
    match os.openFile resourcePath with
    | .ok size => size
    | .error _ => 0
  | .loopback _ => config.totalSize

/-- The bytes of a header and a payload, in blocks of 64 and with 32 bits. -/
def ModqConfig.slotLength (config : ModqConfig) : Nat :=
  (config.slotSize.toNat + 79) % 2 ^ 32 / 64 * 64

/-- The file ends before the first status word, or the slots are not empty and its end cuts the payload of none of
    them. A shared memory object is made for the ring. -/
def ModqConfig.Contained (config : ModqConfig) (os : Os) : Prop :=
  match config.transport with
  | .pciBar _ =>
    config.regionSize os < regs.ringBase + 4 ∨
      config.slotLength ≠ 0 ∧ ∀ i, i < config.ringDepth.toNat →
        config.regionSize os ≤ slotBase config.slotLength i + slotPayloadOffset ∨
          slotBase config.slotLength i + config.slotLength ≤ config.regionSize os
  | .loopback _ => True

lemma ModqConfig.slotStride_eq {config : ModqConfig} : config.slotStride.toNat = config.slotLength :=
  toNat_slotStride

lemma ModqConfig.le_slotLength {config : ModqConfig} (ne : config.slotLength ≠ 0) : 64 ≤ config.slotLength := by
  unfold slotLength at ne ⊢
  omega

lemma disjoint_slotCells {size stride i j : Nat} (ne : i ≠ j) {a : Nat} (mem : a ∈ slotCells size stride i) :
    a ∉ slotCells size stride j := by
  rintro ⟨lo', hi', -⟩
  obtain ⟨lo, hi, -⟩ := mem
  rcases @slotBase_disjoint stride i j ne with le | le
  · omega
  · omega

/-! ## Accesses -/

section

variable {bar : BarMapping} {offset : Nat} {A : Set Nat}

lemma within_read32 (inside : offset + 4 ≤ bar.size → ∀ a, offset ≤ a → a < offset + 4 → a ∈ A) :
    (bar.read32 offset).Within A := by
  unfold BarMapping.read32
  split
  case isTrue le =>
    refine ⟨fun _ _ _ => rfl, fun m m' agree => ⟨agree, ?_⟩, fun _ => trivial⟩
    have same : AgreeOn offset (offset + 4) m m' := fun a lo hi => (agree a (inside le a lo hi)).symm
    exact congrArg Prog.ret (same.word32 le_rfl le_rfl).symm
  case isFalse => exact trivial

lemma within_store {α : Type} {bytes : Bytes} {p : Prog Memory α}
    (inside : ∀ a, offset ≤ a → a < offset + bytes.length → a ∈ A) (rest : p.Within A) :
    (Prog.step (fun m : Memory => m.store offset bytes) fun _ => p).Within A := by
  refine ⟨fun m a out => ?_, fun m m' agree => ⟨fun a mem => ?_, rfl⟩, fun _ => rest⟩
  · apply store_apply_of_outside
    by_contra within
    exact out (inside a (by omega) (by omega))
  · show (if _ then List.getD bytes _ (m a) else m a) = if _ then List.getD bytes _ (m' a) else m' a
    rw [agree a mem]

lemma within_write32 {value : UInt32}
    (inside : offset + 4 ≤ bar.size → ∀ a, offset ≤ a → a < offset + 4 → a ∈ A) :
    (bar.write32 offset value).Within A := by
  unfold BarMapping.write32
  split
  case isTrue le =>
    refine within_store ?_ (p := .ret ()) trivial
    rw [List.length_reverse, length_toBE]
    exact inside le
  case isFalse => exact trivial

lemma within_slotPtr : (bar.slotPtr offset).Within A := by
  unfold BarMapping.slotPtr
  split
  case isTrue => exact trivial
  case isFalse => exact trivial

lemma within_copyNonoverlapping {bytes : Bytes}
    (inside : ∀ a, offset ≤ a → a < offset + bytes.length → a ∈ A) :
    (copyNonoverlapping bytes offset).Within A := by
  induction bytes generalizing offset with
  | nil => exact trivial
  | cons b bytes ih =>
    rw [List.length_cons] at inside
    apply within_store
    · intro a lo hi
      exact inside a lo (lt_of_lt_of_le hi (by rw [List.length_singleton]; omega))
    · exact ih fun a lo hi => inside a (by omega) (by omega)

/-- A copy that stays within `A` has its whole target there. -/
lemma mem_of_within_copy {α : Type} {bytes : Bytes} {g : Unit → Prog Memory α}
    (within : (copyNonoverlapping bytes offset >>= g).Within A) {i : Nat} (lt : i < bytes.length) :
    offset + i ∈ A := by
  induction bytes generalizing offset i with
  | nil => exact absurd lt (Nat.not_lt_zero i)
  | cons b bytes ih =>
    cases i with
    | zero =>
      by_contra out
      -- a memory with another byte at the target shows the write
      have kept := within.1 (fun _ => b + 1) offset out
      have wrote : Memory.store (fun _ => b + 1) offset [b] offset = b := by
        rw [Memory.store, if_pos le_rfl, Nat.sub_self]
        rfl
      have eq : b = b + 1 := wrote.symm.trans kept
      revert eq
      simp
    | succ i =>
      have mem := ih (within.2.2 fun _ => 0) (Nat.lt_of_succ_lt_succ lt)
      rwa [Nat.add_right_comm] at mem

lemma within_waitFree {tx : TxRing} {base left : Nat}
    (inside : base + 4 ≤ tx.bar.size → ∀ a, base ≤ a → a < base + 4 → a ∈ A) :
    (tx.waitFree base left).Within A := by
  induction left with
  | zero =>
    refine Within.bind (within_read32 inside) fun status _ => ?_
    split
    case isTrue => exact trivial
    case isFalse => exact trivial
  | succ left ih =>
    refine Within.bind (within_read32 inside) fun status _ => ?_
    split
    case isTrue => exact trivial
    case isFalse => exact ih

lemma returns_write32 {value : UInt32} :
    Returns (bar.write32 offset value) () ↔ offset + 4 ≤ bar.size := by
  unfold BarMapping.write32
  split
  case isTrue le => exact ⟨fun _ => le, fun _ => .step (fun _ => 0) .ret⟩
  case isFalse lt => exact ⟨fun h => absurd h not_returns_abort, fun le => absurd le lt⟩

lemma returns_slotPtr {ptr : Nat} : Returns (bar.slotPtr offset) ptr ↔ offset < bar.size ∧ ptr = offset := by
  unfold BarMapping.slotPtr
  split
  case isTrue lt =>
    rw [returns_ret]
    exact ⟨fun eq => ⟨lt, eq.symm⟩, fun h => h.2.symm⟩
  case isFalse le => exact ⟨fun h => absurd h not_returns_abort, fun h => absurd h.1 le⟩

lemma returns_copyNonoverlapping {bytes : Bytes} : Returns (copyNonoverlapping bytes offset) () := by
  induction bytes generalizing offset with
  | nil => exact .ret
  | cons b bytes ih => exact .step (fun _ => 0) ih

lemma returns_waitFree {tx : TxRing} {base left : Nat} (le : base + 4 ≤ tx.bar.size) :
    Returns (tx.waitFree base left) true := by
  have read : Returns (tx.bar.read32 (base + slotHdrStatus)) slotFree := by
    unfold BarMapping.read32
    rw [if_pos (show base + slotHdrStatus + 4 ≤ tx.bar.size from le)]
    exact .step (fun _ => 0) .ret
  cases left with
  | zero => exact returns_bind.mpr ⟨slotFree, read, .ret⟩
  | succ left => exact returns_bind.mpr ⟨slotFree, read, .ret⟩

end

/-! ## Calls -/

section

variable {tx tx' : TxRing} {ring ring' : CompletionRing} {payload : Bytes}

def TxRing.index (tx : TxRing) : Nat :=
  tx.tail.toNat % tx.depth.toNat

def TxRing.base (tx : TxRing) : Nat :=
  slotBase tx.slotStride.toNat tx.index

/-- What `submit` does with a slot that is free. -/
def TxRing.fill (tx : TxRing) (payload : Bytes) : Prog Memory (TxRing × Except RingError UInt32) := do
  let payloadPtr ← tx.bar.slotPtr (tx.base + slotPayloadOffset)
  copyNonoverlapping payload payloadPtr
  tx.bar.write32 (tx.base + slotHdrLength) (UInt32.ofNat payload.length)
  tx.bar.write32 (tx.base + slotHdrSid) tx.nextSid
  tx.bar.write32 (tx.base + slotHdrStatus) slotReady
  tx.bar.write32 regs.doorbell (tx.tail + 1).toUInt32
  return ({ tx with tail := tx.tail + 1, nextSid := tx.nextSid + 1 }, .ok tx.nextSid)

lemma TxRing.submit_eq : tx.submit payload =
    if payload.length > (tx.slotStride.toUInt64 - 0x10).toNat then
      return (tx, .error (.payloadTooLarge payload.length (tx.slotStride.toUInt64 - 0x10).toNat))
    else tx.waitFree tx.base maxSpins >>= fun free =>
      if free then tx.fill payload else return (tx, .error (.timeout tx.index)) := by
  have index : (tx.tail % tx.depth.toUInt64).toNat = tx.index := by
    rw [UInt64.toNat_mod, UInt32.toNat_toUInt64, TxRing.index]
  unfold submit
  simp only [index]
  rfl

lemma TxRing.returns_fill (lt : tx.base + slotPayloadOffset < tx.bar.size) :
    Returns (tx.fill payload)
      ({ tx with tail := tx.tail + 1, nextSid := tx.nextSid + 1 }, .ok tx.nextSid) := by
  have base : regs.ringBase ≤ tx.base := Nat.le_add_right _ _
  unfold slotPayloadOffset at lt
  unfold regs.ringBase at base
  refine returns_bind.mpr ⟨_, returns_slotPtr.mpr ⟨lt, rfl⟩, ?_⟩
  refine returns_bind.mpr ⟨(), returns_copyNonoverlapping, ?_⟩
  refine returns_bind.mpr ⟨(), returns_write32.mpr ?_, ?_⟩
  · unfold slotHdrLength
    omega
  refine returns_bind.mpr ⟨(), returns_write32.mpr ?_, ?_⟩
  · unfold slotHdrSid
    omega
  refine returns_bind.mpr ⟨(), returns_write32.mpr ?_, ?_⟩
  · unfold slotHdrStatus
    omega
  refine returns_bind.mpr ⟨(), returns_write32.mpr ?_, .ret⟩
  unfold regs.doorbell
  omega

lemma TxRing.returns_submit (small : payload.length ≤ (tx.slotStride.toUInt64 - 0x10).toNat)
    (lt : tx.base + slotPayloadOffset < tx.bar.size) :
    Returns (tx.submit payload)
      ({ tx with tail := tx.tail + 1, nextSid := tx.nextSid + 1 }, .ok tx.nextSid) := by
  rw [submit_eq, if_neg (Nat.not_lt.mpr small)]
  refine returns_bind.mpr ⟨true, returns_waitFree ?_, returns_fill lt⟩
  unfold slotPayloadOffset at lt
  omega

/-- `submit` moves nothing but the indices. -/
lemma TxRing.submit_cases {result : Except RingError UInt32} (h : Returns (tx.submit payload) (tx', result)) :
    tx' = tx ∨ tx' = { tx with tail := tx.tail + 1, nextSid := tx.nextSid + 1 } := by
  rw [submit_eq] at h
  split at h
  case isTrue => exact .inl (congrArg Prod.fst (returns_ret.mp h)).symm
  case isFalse =>
    obtain ⟨free, -, h⟩ := returns_bind.mp h
    split at h
    case isTrue =>
      obtain ⟨_, -, h⟩ := returns_bind.mp h
      obtain ⟨_, -, h⟩ := returns_bind.mp h
      obtain ⟨_, -, h⟩ := returns_bind.mp h
      obtain ⟨_, -, h⟩ := returns_bind.mp h
      obtain ⟨_, -, h⟩ := returns_bind.mp h
      obtain ⟨_, -, h⟩ := returns_bind.mp h
      exact .inr (congrArg Prod.fst (returns_ret.mp h)).symm
    case isFalse => exact .inl (congrArg Prod.fst (returns_ret.mp h)).symm

def CompletionRing.index (ring : CompletionRing) : Nat :=
  ring.head.toNat % ring.depth.toNat

def CompletionRing.base (ring : CompletionRing) : Nat :=
  slotBase ring.slotStride.toNat ring.index

lemma CompletionRing.poll_eq : ring.poll =
    (ring.bar.read32 (ring.base + slotHdrStatus) >>= fun status =>
      if status = slotDone then do
        let sid ← ring.bar.read32 (ring.base + slotHdrSid)
        ring.bar.write32 (ring.base + slotHdrStatus) slotFree
        return ({ ring with head := ring.head + 1 }, some ⟨sid, ring.index⟩)
      else return (ring, none)) := by
  have index : (ring.head % ring.depth.toUInt64).toNat = ring.index := by
    rw [UInt64.toNat_mod, UInt32.toNat_toUInt64, CompletionRing.index]
  unfold poll
  simp only [index]
  rfl

lemma CompletionRing.poll_cases {result : Option Completion} (h : Returns ring.poll (ring', result)) :
    ring' = ring ∨ ring' = { ring with head := ring.head + 1 } := by
  rw [poll_eq] at h
  obtain ⟨status, -, h⟩ := returns_bind.mp h
  split at h
  case isTrue =>
    obtain ⟨_, -, h⟩ := returns_bind.mp h
    obtain ⟨_, -, h⟩ := returns_bind.mp h
    exact .inr (congrArg Prod.fst (returns_ret.mp h)).symm
  case isFalse => exact .inl (congrArg Prod.fst (returns_ret.mp h)).symm

/-- A slot at `base` that starts in the region is there as a whole, or its payload starts behind the end. -/
def Whole (size stride base : Nat) : Prop :=
  base + 4 ≤ size → 64 ≤ stride ∧ (size ≤ base + slotPayloadOffset ∨ base + stride ≤ size)

lemma Whole.field {size stride i field : Nat} (whole : Whole size stride (slotBase stride i)) (le : field + 4 ≤ 64)
    (bound : slotBase stride i + field + 4 ≤ size) (a : Nat) (lo : slotBase stride i + field ≤ a)
    (hi : a < slotBase stride i + field + 4) : a ∈ slotCells size stride i := by
  have stride := (whole (by omega)).1
  exact ⟨by omega, by omega, by omega⟩

lemma TxRing.within_submit (whole : Whole tx.bar.size tx.slotStride.toNat tx.base) :
    (tx.submit payload).Within
      (slotCells tx.bar.size tx.slotStride.toNat tx.index ∪ doorbellCells tx.bar.size) := by
  have field {k : Nat} (le : k + 4 ≤ 64) (bound : tx.base + k + 4 ≤ tx.bar.size) (a : Nat)
      (lo : tx.base + k ≤ a) (hi : a < tx.base + k + 4) :
      a ∈ slotCells tx.bar.size tx.slotStride.toNat tx.index ∪ doorbellCells tx.bar.size :=
    .inl (Whole.field whole le bound a lo hi)
  rw [submit_eq]
  split
  case isTrue => exact trivial
  case isFalse small =>
    refine Within.bind (within_waitFree (field (k := 0) (by decide))) fun free _ => ?_
    split
    case isFalse => exact trivial
    case isTrue =>
      refine Within.bind within_slotPtr fun ptr got => ?_
      obtain ⟨lt, rfl⟩ := returns_slotPtr.mp got
      refine Within.bind (within_copyNonoverlapping ?_) fun _ _ => ?_
      · intro a lo hi
        unfold slotPayloadOffset at lt lo hi
        obtain ⟨header, inside⟩ := whole (by omega)
        rw [toNat_maxPayload (by omega)] at small
        have inside := inside.resolve_left (Nat.not_le.mpr lt)
        have lo' : tx.base ≤ a := by omega
        have hi' : a < tx.base + tx.slotStride.toNat := by omega
        exact .inl ⟨lo', hi', hi'.trans_le inside⟩
      refine Within.bind (within_write32 (field (by decide))) fun _ _ => ?_
      refine Within.bind (within_write32 (field (by decide))) fun _ _ => ?_
      refine Within.bind (within_write32 (field (by decide))) fun _ _ => ?_
      refine Within.bind (within_write32 ?_) fun _ _ => trivial
      exact fun bound a lo hi => .inr ⟨lo, hi, hi.trans_le bound⟩

lemma CompletionRing.within_poll (whole : Whole ring.bar.size ring.slotStride.toNat ring.base) :
    ring.poll.Within (slotCells ring.bar.size ring.slotStride.toNat ring.index) := by
  rw [poll_eq]
  refine Within.bind (within_read32 (Whole.field whole (by decide))) fun status _ => ?_
  split
  case isFalse => exact trivial
  case isTrue =>
    refine Within.bind (within_read32 (Whole.field whole (by decide))) fun sid _ => ?_
    exact Within.bind (within_write32 (Whole.field whole (by decide))) fun _ _ => trivial

end

/-! ## Handles -/

section

variable {os : Os} {config : ModqConfig} {q q' : ModqQueue} {size : Nat}

/-- A handle of the rings that `open` makes opened a region. -/
structure ModqQueue.Opened (q : ModqQueue) (config : ModqConfig) (size : Nat) : Prop where
  txSize : q.tx.bar.size = size
  txDepth : q.tx.depth = config.ringDepth
  txStride : q.tx.slotStride = config.slotStride
  size : q.completions.bar.size = size
  depth : q.completions.depth = config.ringDepth
  stride : q.completions.slotStride = config.slotStride

lemma ModqConfig.opened_handle : (config.handle ⟨size⟩).Opened config size :=
  ⟨rfl, rfl, config.slotStride_tx, rfl, rfl, rfl⟩

lemma ModqQueue.Opened.submit {payload : Bytes} {result : Except RingError UInt32} (opened : q.Opened config size)
    (returned : Returns (q.submit payload) (q', result)) : q'.Opened config size := by
  obtain ⟨⟨tx, _⟩, sent, h⟩ := returns_bind.mp returned
  cases h
  rcases TxRing.submit_cases sent with rfl | rfl
  · exact opened
  · exact ⟨opened.txSize, opened.txDepth, opened.txStride, opened.size, opened.depth, opened.stride⟩

lemma ModqQueue.Opened.poll {result : Option Completion} (opened : q.Opened config size)
    (returned : Returns q.poll (q', result)) : q'.Opened config size := by
  obtain ⟨⟨ring, _⟩, polled, h⟩ := returns_bind.mp returned
  cases h
  rcases CompletionRing.poll_cases polled with rfl | rfl
  · exact opened
  · exact ⟨opened.txSize, opened.txDepth, opened.txStride, opened.size, opened.depth, opened.stride⟩

lemma ModqQueue.Opened.reaches (opened : q.Opened config size) (reached : q.Reaches q') : q'.Opened config size := by
  induction reached with
  | refl => exact opened
  | submit _ returned ih => exact ih.submit returned
  | poll _ returned ih => exact ih.poll returned

lemma le_size_of_returns_setUp {bar : BarMapping} {stride : Nat} (pos : 0 < config.ringDepth.toNat)
    (h : Returns (bar.setUp config stride) ()) : regs.ringBase + 4 ≤ bar.size := by
  obtain ⟨_, -, h⟩ := returns_bind.mp h
  obtain ⟨_, -, h⟩ := returns_bind.mp h
  obtain ⟨_, -, h⟩ := returns_bind.mp h
  obtain ⟨_, -, h⟩ := returns_bind.mp h
  obtain ⟨n, depth⟩ := Nat.exists_eq_succ_of_ne_zero pos.ne'
  rw [depth, List.range_succ_eq_map] at h
  obtain ⟨_, first, -⟩ := returns_bind.mp h
  have le : regs.ringBase + 0 * stride + 4 ≤ bar.size := returns_write32.mp first
  rwa [Nat.zero_mul] at le

/-- A handle is that of the mapped region, and the region of a shared memory object has a slot. -/
lemma ModqQueue.returns_open (accepted : Returns (ModqQueue.open os config) (.ok q)) :
    0 < config.ringDepth.toNat ∧ q = config.handle ⟨config.regionSize os⟩ ∧
      ∀ name, config.transport = .loopback name → config.slotLength ≠ 0 := by
  unfold ModqQueue.open at accepted
  split at accepted
  case isTrue => cases returns_ret.mp accepted
  case isFalse power =>
    have pos : 0 < config.ringDepth.toNat := pos_of_isPowerOfTwo (by simpa using power)
    refine ⟨pos, ?_⟩
    unfold ModqConfig.regionSize
    split at accepted
    case h_1 resourcePath transport =>
      split at accepted
      case h_1 => cases returns_ret.mp accepted
      case h_2 bar mapped =>
        cases returns_ret.mp accepted
        simp only [transport, BarMapping.open_ok mapped]
        exact ⟨trivial, fun _ absurd => by cases absurd⟩
    case h_2 shmName transport =>
      split at accepted
      case h_1 => cases returns_ret.mp accepted
      case h_2 bar mapped =>
        obtain ⟨_, initialized, h⟩ := returns_bind.mp accepted
        cases returns_ret.mp h
        have size := BarMapping.openShm_ok mapped
        simp only [transport, ← size]
        refine ⟨trivial, fun _ _ zero => ?_⟩
        have le := le_size_of_returns_setUp pos initialized
        rw [size, ModqConfig.totalSize, ModqConfig.slotStride_eq, zero] at le
        omega

/-! ## The condition -/

lemma ModqConfig.Contained.whole (contained : config.Contained os)
    (slots : ∀ name, config.transport = .loopback name → config.slotLength ≠ 0) {i : Nat}
    (lt : i < config.ringDepth.toNat) :
    Whole (config.regionSize os) config.slotStride.toNat (slotBase config.slotStride.toNat i) := by
  rw [slotStride_eq]
  intro starts
  unfold Contained at contained
  split at contained
  case h_1 =>
    rcases contained with short | ⟨ne, ends⟩
    · unfold slotBase at starts
      omega
    · exact ⟨le_slotLength ne, ends i lt⟩
  case h_2 name transport =>
    refine ⟨le_slotLength (slots name transport), .inr ?_⟩
    have le := Nat.mul_le_mul_left config.slotLength (Nat.succ_le_of_lt lt)
    rw [Nat.mul_succ, Nat.mul_comm _ i] at le
    unfold regionSize totalSize slotBase
    simp only [transport, slotStride_eq]
    omega

/-- The calls on an opened handle stay in the slots if no slot lies across the end of the region. -/
lemma ModqQueue.Opened.memorySafe (opened : q.Opened config size) (pos : 0 < config.ringDepth.toNat)
    (whole : ∀ i, i < config.ringDepth.toNat →
      Whole size config.slotStride.toNat (slotBase config.slotStride.toNat i)) :
    q.MemorySafe config size := by
  constructor
  case submit =>
    intro q' reached payload
    have opened := opened.reaches reached
    have index : q'.tx.index = q'.tx.tail.toNat % config.ringDepth.toNat := by
      rw [TxRing.index, opened.txDepth]
    have slot : Whole q'.tx.bar.size q'.tx.slotStride.toNat q'.tx.base := by
      rw [TxRing.base, index, opened.txSize, opened.txStride]
      exact whole _ (Nat.mod_lt _ pos)
    have within := @TxRing.within_submit _ payload slot
    rw [index, opened.txSize, opened.txStride] at within
    exact within.bind fun _ _ => trivial
  case poll =>
    intro q' reached
    have opened := opened.reaches reached
    have index : q'.completions.index = q'.completions.head.toNat % config.ringDepth.toNat := by
      rw [CompletionRing.index, opened.depth]
    have slot : Whole q'.completions.bar.size q'.completions.slotStride.toNat q'.completions.base := by
      rw [CompletionRing.base, index, opened.size, opened.stride]
      exact whole _ (Nat.mod_lt _ pos)
    have within := CompletionRing.within_poll slot
    rw [index, opened.size, opened.stride] at within
    exact within.bind fun _ _ => trivial
  case disjoint => exact fun i j ne a mem => disjoint_slotCells ne mem
  case strides =>
    intro q' reached
    have opened := opened.reaches reached
    exact ⟨opened.txStride, opened.stride⟩

/-- A call of `poll` that reads the status of its slot reads it in `A`. -/
lemma CompletionRing.nonempty_of_within_poll {α : Type} {ring : CompletionRing} {A : Set Nat}
    {f : CompletionRing × Option Completion → α} (within : (ring.poll >>= fun x => .ret (f x)).Within A)
    (le : ring.base + slotHdrStatus + 4 ≤ ring.bar.size) : A.Nonempty := by
  rw [poll_eq, bind_bind, BarMapping.read32, if_pos le] at within
  by_contra empty
  have agree (m m' : Memory) : ∀ a ∈ A, m a = m' a := fun a mem => absurd ⟨a, mem⟩ empty
  let free : Memory := fun _ => 0
  let done : Memory := free.storeWord32 (ring.base + slotHdrStatus) slotDone
  have same := (within.2.1 free done (agree free done)).2
  have status : done.word32 (ring.base + slotHdrStatus) = slotDone := word32_storeWord32
  -- `poll` ends if the slot is free, and has another access if it is done
  change Prog.ret (f (ring, none)) =
    (if done.word32 (ring.base + slotHdrStatus) = slotDone then _ else _) >>= _ at same
  rw [if_pos status, BarMapping.read32] at same
  split at same
  case isTrue => cases same
  case isFalse => cases same

lemma TxRing.mem_of_within_submit {α : Type} {tx : TxRing} {payload : Bytes} {A : Set Nat}
    {g : TxRing × Except RingError UInt32 → Prog Memory α} (within : (tx.submit payload >>= g).Within A)
    (small : payload.length ≤ (tx.slotStride.toUInt64 - 0x10).toNat)
    (lt : tx.base + slotPayloadOffset < tx.bar.size) {i : Nat} (lt' : i < payload.length) :
    tx.base + slotPayloadOffset + i ∈ A := by
  rw [submit_eq, if_neg (Nat.not_lt.mpr small), bind_bind] at within
  have free : Returns (tx.waitFree tx.base maxSpins) true := by
    apply returns_waitFree
    unfold slotPayloadOffset at lt
    omega
  have filled := within.of_bind free
  rw [if_pos rfl, fill, bind_bind] at filled
  have copied := filled.of_bind (returns_slotPtr.mpr ⟨lt, rfl⟩)
  rw [bind_bind] at copied
  exact mem_of_within_copy copied lt'

lemma ModqQueue.Opened.base_tx (opened : q.Opened config size) {i : Nat} (tail : q.tx.tail.toNat = i)
    (lt : i < config.ringDepth.toNat) : q.tx.base = slotBase config.slotStride.toNat i := by
  rw [TxRing.base, TxRing.index, tail, opened.txDepth, opened.txStride, Nat.mod_eq_of_lt lt]

/-- Empty payloads move the tail to every slot whose payload starts inside of the region. -/
lemma ModqQueue.Opened.reaches_tail (opened : q.Opened config size) (fresh : q.tx.tail = 0) {i : Nat}
    (lt : i < config.ringDepth.toNat)
    (starts : slotBase config.slotStride.toNat i + slotPayloadOffset < size) {n : Nat} (le : n ≤ i) :
    ∃ q', q.Reaches q' ∧ q'.tx.tail.toNat = n := by
  induction n with
  | zero => exact ⟨q, .refl, by rw [fresh]; rfl⟩
  | succ n ih =>
    obtain ⟨q', reached, tail⟩ := ih (by omega)
    have opened := opened.reaches reached
    have base : q'.tx.base = slotBase config.slotStride.toNat n := opened.base_tx tail (by omega)
    have inside : q'.tx.base + slotPayloadOffset < q'.tx.bar.size := by
      have mono := Nat.mul_le_mul_right config.slotStride.toNat (Nat.le_of_succ_le le)
      rw [base, opened.txSize]
      unfold slotBase at starts ⊢
      omega
    have sent := @TxRing.returns_submit _ [] (Nat.zero_le _) inside
    refine ⟨_, reached.submit (returns_bind.mpr ⟨_, sent, .ret⟩), ?_⟩
    show (q'.tx.tail + 1).toNat = n + 1
    have small := config.ringDepth.toNat_lt
    rw [UInt64.toNat_add, tail, show (1 : UInt64).toNat = 1 from rfl]
    exact Nat.mod_eq_of_lt (by omega)

lemma ModqQueue.MemorySafe.ends (safe : q.MemorySafe config size) (opened : q.Opened config size)
    (fresh : q.tx.tail = 0) (header : 64 ≤ config.slotStride.toNat) {i : Nat} (lt : i < config.ringDepth.toNat) :
    size ≤ slotBase config.slotStride.toNat i + slotPayloadOffset ∨
      slotBase config.slotStride.toNat i + config.slotStride.toNat ≤ size := by
  by_contra gap
  rw [not_or, Nat.not_le, Nat.not_le] at gap
  obtain ⟨starts, stops⟩ := gap
  obtain ⟨q', reached, tail⟩ := opened.reaches_tail fresh lt starts le_rfl
  have opened := opened.reaches reached
  have base : q'.tx.base = slotBase config.slotStride.toNat i := opened.base_tx tail lt
  -- the largest payload that the slot has room for goes on behind the end of the region
  have within := safe.submit q' reached (List.replicate (config.slotStride.toNat - 16) 0)
  have mem := TxRing.mem_of_within_submit within (i := size - (q'.tx.base + slotPayloadOffset))
    (by rw [opened.txStride, toNat_maxPayload (by omega), List.length_replicate])
    (by rwa [base, opened.txSize])
    (by
      rw [base, List.length_replicate]
      unfold slotPayloadOffset at starts ⊢
      omega)
  rw [base, Nat.add_sub_cancel' starts.le] at mem
  rcases mem with ⟨-, -, out⟩ | ⟨-, -, out⟩
  · exact out.false
  · exact out.false

lemma ModqQueue.MemorySafe.header (safe : q.MemorySafe config size) (opened : q.Opened config size)
    (le : regs.ringBase + 4 ≤ size) :
    config.slotLength ≠ 0 := by
  intro zero
  have base : q.completions.base = regs.ringBase := by
    rw [CompletionRing.base, slotBase, opened.stride, ModqConfig.slotStride_eq, zero]
    rfl
  obtain ⟨a, lo, hi, -⟩ := CompletionRing.nonempty_of_within_poll
    (f := fun x => ({ q with completions := x.1 }, x.2)) (safe.poll q .refl) (by
    rw [base, opened.size]
    exact le)
  rw [ModqConfig.slotStride_eq, zero] at lo hi
  omega

/-- The calls on a queue that `open` returns stay inside of the mapping and of the slots they address: always over a
    shared memory object, and over a file if and only if its end cuts no slot and the slots are not empty. -/
theorem ring_safe_iff {os : Os} {config : ModqConfig} {q : ModqQueue}
    (accepted : Returns (ModqQueue.open os config) (.ok q)) :
    q.MemorySafe config (config.regionSize os) ↔ config.Contained os := by
  obtain ⟨pos, rfl, slots⟩ := ModqQueue.returns_open accepted
  have opened : (config.handle ⟨config.regionSize os⟩).Opened config (config.regionSize os) := config.opened_handle
  constructor
  · intro safe
    unfold ModqConfig.Contained
    split
    case h_1 =>
      by_cases short : config.regionSize os < regs.ringBase + 4
      case pos => exact .inl short
      case neg =>
        have ne := safe.header opened (Nat.not_lt.mp short)
        refine .inr ⟨ne, fun i lt => ?_⟩
        rw [← ModqConfig.slotStride_eq]
        apply safe.ends opened rfl _ lt
        rw [ModqConfig.slotStride_eq]
        exact config.le_slotLength ne
    case h_2 => exact trivial
  · intro contained
    exact opened.memorySafe pos fun i lt => contained.whole slots lt

end

/-- One slot with room for 48 bytes. -/
def oneSlotConfig : ModqConfig :=
  { transport := .pciBar "resource2", ringDepth := 1, slotSize := 48 }

theorem ring_safe_whole_slot :
    Returns (ModqQueue.open (plainOs 0x1040) oneSlotConfig) (.ok (oneSlotConfig.handle ⟨0x1040⟩)) ∧
      (oneSlotConfig.handle ⟨0x1040⟩).MemorySafe oneSlotConfig 0x1040 := by
  refine ⟨.ret, (@ring_safe_iff (plainOs 0x1040) oneSlotConfig _ .ret).mpr (.inr ⟨by decide, ?_⟩)⟩
  decide

/-- A payload of 48 bytes is copied across the end of a file that ends in the slot. -/
theorem not_ring_safe :
    Returns (ModqQueue.open (plainOs 0x1020) oneSlotConfig) (.ok (oneSlotConfig.handle ⟨0x1020⟩)) ∧
      ¬ (oneSlotConfig.handle ⟨0x1020⟩).MemorySafe oneSlotConfig 0x1020 := by
  refine ⟨.ret, fun safe => ?_⟩
  have ends := safe.ends ModqConfig.opened_handle rfl (by decide) (i := 0) (by decide)
  revert ends
  decide

end Otap.Modq
