import Otap.Lib.Memory
import Otap.Lib.Interference

/-!
# The host side of the MODQ ring

`crates/otap-modq`: the register accesses of `bar.rs`, the two rings of `ring.rs` and the queue of `lib.rs`. A
call is a `Prog` over the mapped memory, with one action for every volatile access and for every byte of the
payload copy, so that the device may act between any two of them. The private indices are part of the handle that
a call returns. The bound checks of `BarMapping` panic, which is `Prog.abort`.

Integers of 32 and 64 bits are `UInt32` and `UInt64`, which wrap as in a release build. Offsets are `Nat`: an
index is below 2^32 and a stride is, so `usize` holds every offset that is computed.
-/

namespace Otap.Modq

open Otap.Lib

/-! ## Mapped registers -/

namespace regs

def head : Nat := 0x0000
def tail : Nat := 0x0008
def depth : Nat := 0x0010
def slotSize : Nat := 0x0018
def doorbell : Nat := 0x0040
def ringBase : Nat := 0x1000

end regs

/-- Handle of a mapped region. -/
structure BarMapping where
  size : Nat
deriving DecidableEq, Repr

/-- `BarMapping::read32`, a volatile load. -/
def BarMapping.read32 (bar : BarMapping) (offset : Nat) : Prog Memory UInt32 :=
  if offset + 4 ≤ bar.size then .step id fun m => .ret (m.word32 offset) else .abort

/-- `BarMapping::write32`, a volatile store. -/
def BarMapping.write32 (bar : BarMapping) (offset : Nat) (value : UInt32) : Prog Memory Unit :=
  if offset + 4 ≤ bar.size then .step (·.storeWord32 offset value) fun _ => .ret () else .abort

/-- `BarMapping::write64`, least significant byte first. -/
def BarMapping.write64 (bar : BarMapping) (offset : Nat) (value : UInt64) : Prog Memory Unit :=
  if offset + 8 ≤ bar.size then
    .step (·.store offset (toBE 8 value.toNat).reverse) fun _ => .ret ()
  else .abort

/-- `BarMapping::slot_ptr`, which checks the first byte of the slot only. -/
def BarMapping.slotPtr (bar : BarMapping) (offset : Nat) : Prog Memory Nat :=
  if offset < bar.size then .ret offset else .abort

/-- The copy is no atomic action: each byte is one. -/
def copyNonoverlapping : Bytes → Nat → Prog Memory Unit
  | [], _ => .ret ()
  | b :: bytes, dst => .step (·.store dst [b]) fun _ => copyNonoverlapping bytes (dst + 1)

/-! ## The rings -/

/-- The states of a slot: the host may write it, -/
def slotFree : UInt32 := 0
/-- the device may read it, -/
def slotReady : UInt32 := 1
/-- the device has read it. -/
def slotDone : UInt32 := 2

/-- The offsets in a slot: of its state, -/
def slotHdrStatus : Nat := 0x00
/-- of the length of the payload, -/
def slotHdrLength : Nat := 0x04
/-- of the sequence ID -/
def slotHdrSid : Nat := 0x08
/-- and of the payload. -/
def slotPayloadOffset : Nat := 0x10

/-- `RingError`. -/
inductive RingError
  | payloadTooLarge (got max : Nat)
  | timeout (slot : Nat)
deriving DecidableEq, Repr

/-- `TxRing`, the side that submits. Its tail counts all submissions. -/
structure TxRing where
  bar : BarMapping
  depth : UInt32
  slotStride : UInt32
  tail : UInt64
  nextSid : UInt32
deriving DecidableEq, Repr

/-- `CompletionRing`, the side that polls. Its head counts all completions. -/
structure CompletionRing where
  bar : BarMapping
  depth : UInt32
  slotStride : UInt32
  head : UInt64
deriving DecidableEq, Repr

/-- A completed submission. -/
structure Completion where
  sequenceId : UInt32
  slotIndex : Nat
deriving DecidableEq, Repr

/-- `TxRing::with_params`: slots are aligned to 64 bytes. -/
def TxRing.withParams (bar : BarMapping) (depth slotSize : UInt32) : TxRing :=
  let rawStride := (16 : UInt32) + slotSize
  { bar, depth, slotStride := (rawStride + 63) &&& ~~~63, tail := 0, nextSid := 0 }

/-- The loop of `submit`, with the spins that are left before it gives up: whether the slot is free. -/
def TxRing.waitFree (tx : TxRing) (slotBase : Nat) : Nat → Prog Memory Bool
  | 0 => do
    let status ← tx.bar.read32 (slotBase + slotHdrStatus)
    if status = slotFree then return true else return false
  | left + 1 => do
    let status ← tx.bar.read32 (slotBase + slotHdrStatus)
    if status = slotFree then return true else tx.waitFree slotBase left

/-- The spins of `submit`. -/
def maxSpins : Nat := 1_000_000_000

/-- `TxRing::submit`. The state of the slot is written last, before the doorbell. -/
def TxRing.submit (tx : TxRing) (payload : Bytes) :
    Prog Memory (TxRing × Except RingError UInt32) :=
  let maxPayload := (tx.slotStride.toUInt64 - 0x10).toNat
  if payload.length > maxPayload then
    return (tx, .error (.payloadTooLarge payload.length maxPayload))
  else do
    let index := (tx.tail % tx.depth.toUInt64).toNat
    let slotBase := regs.ringBase + index * tx.slotStride.toNat
    if ← tx.waitFree slotBase maxSpins then
      let payloadPtr ← tx.bar.slotPtr (slotBase + slotPayloadOffset)
      copyNonoverlapping payload payloadPtr
      let sid := tx.nextSid
      tx.bar.write32 (slotBase + slotHdrLength) (UInt32.ofNat payload.length)
      tx.bar.write32 (slotBase + slotHdrSid) sid
      tx.bar.write32 (slotBase + slotHdrStatus) slotReady
      let tail := tx.tail + 1
      tx.bar.write32 regs.doorbell tail.toUInt32
      return ({ tx with tail, nextSid := tx.nextSid + 1 }, .ok sid)
    else
      return (tx, .error (.timeout index))

/-- `CompletionRing::poll`: takes a completed slot back. -/
def CompletionRing.poll (ring : CompletionRing) :
    Prog Memory (CompletionRing × Option Completion) := do
  let index := (ring.head % ring.depth.toUInt64).toNat
  let slotBase := regs.ringBase + index * ring.slotStride.toNat
  let status ← ring.bar.read32 (slotBase + slotHdrStatus)
  if status = slotDone then
    let sid ← ring.bar.read32 (slotBase + slotHdrSid)
    ring.bar.write32 (slotBase + slotHdrStatus) slotFree
    return ({ ring with head := ring.head + 1 }, some ⟨sid, index⟩)
  else
    return (ring, none)

/-! ## The queue -/

/-- Over a PCIe resource or a shared memory object. -/
inductive TransportMode
  | pciBar (resourcePath : String)
  | loopback (shmName : String)
deriving DecidableEq, Repr

/-- `ModqConfig`. -/
structure ModqConfig where
  transport : TransportMode
  ringDepth : UInt32
  slotSize : UInt32
deriving DecidableEq, Repr

/-- A queue: both rings over one mapping. -/
structure ModqQueue where
  bar : BarMapping
  tx : TxRing
  completions : CompletionRing
  config : ModqConfig
deriving DecidableEq, Repr

/-- The errors of opening a queue, an I/O error as its number. -/
inductive ModqError
  | barOpen (path : String) (source : Int)
  | barEmpty (path : String)
  | mmapFailed (path : String)
  | invalidRingDepth (depth : UInt32)
  | invalidShmName (name : String)
  | shmOpenFailed (name : String)
  | shmTruncateFailed (name : String)
deriving DecidableEq, Repr

/-- What the operating system answers. -/
structure Os where
  /-- The length of the file opened for reading and writing. -/
  openFile : String → Except Int Nat
  shmOpen : String → Bool
  ftruncate : String → Nat → Bool
  mmap : String → Nat → Bool

/-- `BarMapping::open`. -/
def BarMapping.open (os : Os) (resourcePath : String) : Except ModqError BarMapping :=
  match os.openFile resourcePath with
  | .error source => .error (.barOpen resourcePath source)
  | .ok size =>
    if size = 0 then .error (.barEmpty resourcePath)
    else if os.mmap resourcePath size then .ok ⟨size⟩
    else .error (.mmapFailed resourcePath)

/-- `BarMapping::open_shm`. -/
def BarMapping.openShm (os : Os) (name : String) (size : Nat) : Except ModqError BarMapping :=
  -- `CString::new` refuses a name with a NUL in it
  if name.toList.contains (Char.ofNat 0) then .error (.invalidShmName name)
  else if !os.shmOpen name then .error (.shmOpenFailed name)
  else if !os.ftruncate name size then .error (.shmTruncateFailed name)
  else if os.mmap name size then .ok ⟨size⟩
  else .error (.mmapFailed ("shm:" ++ name))

/-- `u32::is_power_of_two`. -/
def isPowerOfTwo (x : UInt32) : Bool :=
  (List.range 32).any fun k => x.toNat == 2 ^ k

/-- `CompletionRing::new`. -/
def CompletionRing.new (bar : BarMapping) (depth slotStride : UInt32) : CompletionRing :=
  { bar, depth, slotStride, head := 0 }

/-- What `open` writes to a shared memory object. A PCIe region is left as it is. -/
def BarMapping.setUp (bar : BarMapping) (config : ModqConfig) (slotStride : Nat) :
    Prog Memory Unit := do
  bar.write32 regs.depth config.ringDepth
  bar.write32 regs.slotSize config.slotSize
  bar.write64 regs.head 0
  bar.write64 regs.tail 0
  (List.range config.ringDepth.toNat).forM fun i =>
    bar.write32 (regs.ringBase + i * slotStride) slotFree

/-- The stride that `open` computes, as `TxRing::with_params` does. -/
def ModqConfig.slotStride (config : ModqConfig) : UInt32 :=
  (config.slotSize + 16 + 63) &&& ~~~63

/-- The size of the shared memory object. -/
def ModqConfig.totalSize (config : ModqConfig) : Nat :=
  regs.ringBase + config.slotStride.toNat * config.ringDepth.toNat

/-- The handle of a queue over a mapped region. -/
def ModqConfig.handle (config : ModqConfig) (bar : BarMapping) : ModqQueue where
  bar
  tx := .withParams bar config.ringDepth config.slotSize
  completions := .new bar config.ringDepth config.slotStride
  config

/-- `ModqQueue::open`. -/
def ModqQueue.open (os : Os) (config : ModqConfig) : Prog Memory (Except ModqError ModqQueue) :=
  if !isPowerOfTwo config.ringDepth then
    return .error (.invalidRingDepth config.ringDepth)
  else
    match config.transport with
    | .pciBar resourcePath =>
      match BarMapping.open os resourcePath with
      | .error e => return .error e
      | .ok bar => return .ok (config.handle bar)
    | .loopback shmName =>
      match BarMapping.openShm os shmName config.totalSize with
      | .error e => return .error e
      | .ok bar => do
        bar.setUp config config.slotStride.toNat
        return .ok (config.handle bar)

/-- `ModqQueue::submit`. -/
def ModqQueue.submit (q : ModqQueue) (payload : Bytes) :
    Prog Memory (ModqQueue × Except RingError UInt32) := do
  let (tx, result) ← q.tx.submit payload
  return ({ q with tx }, result)

/-- `ModqQueue::poll`. -/
def ModqQueue.poll (q : ModqQueue) : Prog Memory (ModqQueue × Option Completion) := do
  let (completions, result) ← q.completions.poll
  return ({ q with completions }, result)

end Otap.Modq
