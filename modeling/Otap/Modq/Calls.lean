import Otap.Modq.Slots

/-!
# The calls of the host under interference

What `submit` and `poll` do to the outstanding submissions while the device acts between any two of their accesses.
`submit` leaves every slot alone that is not free (`Spares`), and `poll` every body (`KeepsBodies`).

The assertions carry a second memory, on which only the device acts: a call that fails ends with the two equal.
-/

namespace Otap.Modq

open Otap.Lib Memory Prog

section

variable {R : Memory × Memory → Memory × Memory → Prop} {G : Memory → Memory → Prop} {α : Type}
  {Q : α → Memory × Memory → Prop} {P : Memory × Memory → Prop} {x : Memory × Memory}
  {bar : BarMapping} {offset : Nat}

/-! ## The accesses -/

lemma wp_read32 {g : UInt32 → Prog Memory α} (le : offset + 4 ≤ bar.size) (refl : ∀ m, G m m)
    (stable : Stable R P) (h : P x)
    (next : ∀ m t, P (m, t) → (g (m.word32 offset)).wp R G Q (m, t)) :
    (bar.read32 offset >>= g).wp R G Q x := by
  unfold BarMapping.read32
  rw [if_pos le]
  exact wp_step stable h fun m t h => ⟨refl m, next m t h⟩

lemma wp_write32 {value : UInt32} {g : Unit → Prog Memory α} (le : offset + 4 ≤ bar.size)
    (stable : Stable R P) (h : P x)
    (next : ∀ m t, P (m, t) → G m (m.storeWord32 offset value) ∧
      (g ()).wp R G Q (m.storeWord32 offset value, t)) :
    (bar.write32 offset value >>= g).wp R G Q x := by
  unfold BarMapping.write32
  rw [if_pos le]
  exact wp_step stable h next

lemma wp_slotPtr {g : Nat → Prog Memory α} (lt : offset < bar.size)
    (next : (g offset).wp R G Q x) : (bar.slotPtr offset >>= g).wp R G Q x := by
  unfold BarMapping.slotPtr
  rw [if_pos lt]
  exact next

/-- The copy, with the assertion after each number of bytes. -/
lemma wp_copyNonoverlapping {bytes : Bytes} {dst : Nat} {P : Nat → Memory × Memory → Prop}
    {g : Unit → Prog Memory α} (stable : ∀ k, Stable R (P k))
    (write : ∀ k b m t, bytes[k]? = some b → P k (m, t) →
      G m (m.store (dst + k) [b]) ∧ P (k + 1) (m.store (dst + k) [b], t)) (h : P 0 x)
    (next : ∀ m t, P bytes.length (m, t) → (g ()).wp R G Q (m, t)) :
    (copyNonoverlapping bytes dst >>= g).wp R G Q x := by
  induction bytes generalizing dst P x with
  | nil => exact next x.1 x.2 h
  | cons b bytes ih =>
    refine wp_step (stable 0) h ?_
    intro m t h
    obtain ⟨moved, h⟩ := write 0 b m t rfl h
    refine ⟨moved, ih (P := fun k => P (k + 1)) (fun k => stable (k + 1)) ?_ h next⟩
    intro k b' m t got h
    have addr : dst + 1 + k = dst + (k + 1) := by omega
    rw [addr]
    exact write (k + 1) b' m t got h

lemma wp_waitFree {tx : TxRing} {base left : Nat} {Q : Bool → Memory × Memory → Prop}
    (le : base + slotHdrStatus + 4 ≤ tx.bar.size) (refl : ∀ m, G m m) (stable : Stable R P)
    (stable' : ∀ b, Stable R (Q b)) (h : P x)
    (free : ∀ m t, P (m, t) → m.word32 (base + slotHdrStatus) = slotFree → Q true (m, t))
    (busy : ∀ m t, P (m, t) → Q false (m, t)) : (tx.waitFree base left).wp R G Q x := by
  induction left generalizing x with
  | zero =>
    apply wp_read32 le refl stable h
    intro m t h
    split
    case isTrue eq => exact wp_ret (stable' true) (free m t h eq)
    case isFalse => exact wp_ret (stable' false) (busy m t h)
  | succ left ih =>
    apply wp_read32 le refl stable h
    intro m t h
    split
    case isTrue eq => exact wp_ret (stable' true) (free m t h eq)
    case isFalse => exact ih h

end

/-! ## The device -/

variable {depth stride : Nat} {m m' : Memory} {subs : List Submission} {n i : Nat} {payload : Bytes} {x : Memory × Memory}

/-- The device acts on the two memories. -/
def Acts (depth stride : Nat) (x x' : Memory × Memory) : Prop :=
  ∃ slot, x' = (device depth stride slot x.1, device depth stride slot x.2)

lemma stable_of_moves {P : Memory → Prop} (le : 16 ≤ stride)
    (h : ∀ m m', P m → Moves stride m m' → P m') :
    Stable (Acts depth stride) fun x => P x.1 := by
  intro x x' acts holds
  obtain ⟨slot, rfl⟩ := acts
  exact h _ _ holds (moves_device le)

/-- No slot that is ready or done is touched. -/
def Spares (depth stride : Nat) (m m' : Memory) : Prop :=
  ∀ i, i < depth → status stride m i ≠ slotFree → SameSlot stride i m m'

/-- Nothing but status words and bytes outside of the ring is touched. -/
def KeepsBodies (stride : Nat) (m m' : Memory) : Prop :=
  ∀ i, SameBody stride i m m'

/-- The region has room for the ring, and the ring for a header and a whole number of rounds of the indices. -/
structure Fits (bar : BarMapping) (depth stride : Nat) : Prop where
  pos : 0 < depth
  dvd : depth ∣ 2 ^ 64
  header : 64 ≤ stride
  size : regs.ringBase + depth * stride ≤ bar.size

lemma Fits.slot {bar : BarMapping} (fits : Fits bar depth stride) (lt : i < depth) :
    slotBase stride i + stride ≤ bar.size := by
  have size := fits.size
  have le := Nat.mul_le_mul_right stride (Nat.succ_le_of_lt lt)
  rw [Nat.succ_mul] at le
  unfold slotBase
  omega

lemma Fits.le_stride {bar : BarMapping} (fits : Fits bar depth stride) : 16 ≤ stride :=
  le_trans (by decide) fits.header

/-! ## Submitting -/

/-- The slot of the next submission is free and may be filled. -/
structure Filling (depth stride : Nat) (subs : List Submission) (n : Nat) (m : Memory) : Prop where
  out : Outstanding depth stride subs n m
  free : status stride m (subs.length % depth) = slotFree

lemma Filling.moves (fill : Filling depth stride subs n m) (moves : Moves stride m m') :
    Filling depth stride subs n m' :=
  ⟨fill.out.moves moves, moves.status_eq (by decide) fill.free⟩

/-- A write to the slot that is being filled. -/
lemma Filling.spares {addr : Nat} {bytes : Bytes} (fill : Filling depth stride subs n m)
    (le : slotBase stride (subs.length % depth) ≤ addr)
    (le' : addr + bytes.length ≤ slotBase stride (subs.length % depth) + stride) :
    Spares depth stride m (m.store addr bytes) := by
  intro i _ busy
  have ne : i ≠ subs.length % depth := by
    intro eq
    subst eq
    exact busy fill.free
  exact sameSlot_store ne le le'

lemma Filling.store {addr : Nat} {bytes : Bytes} (fill : Filling depth stride subs n m)
    (le : slotBase stride (subs.length % depth) + slotHdrLength ≤ addr)
    (le' : addr + bytes.length ≤ slotBase stride (subs.length % depth) + stride)
    (header : 16 ≤ stride) : Filling depth stride subs n (m.store addr bytes) := by
  have free : status stride (m.store addr bytes) (subs.length % depth) = slotFree := by
    have same : AgreeOn (slotBase stride (subs.length % depth))
        (slotBase stride (subs.length % depth) + 4) m (m.store addr bytes) :=
      agreeOn_store (.inl le)
    exact (same.word32 le_rfl le_rfl).trans fill.free
  refine ⟨fill.out.scribble header fill.free free ?_, free⟩
  intro j ne
  exact sameSlot_store ne ((Nat.le_add_right ..).trans le) le'

/-- What is said of the body of slot `i` only. -/
def OfBody (stride i : Nat) (F : Memory → Prop) : Prop :=
  ∀ m m', SameBody stride i m m' → F m → F m'

lemma stable_filling {F : Memory → Prop} (le : 16 ≤ stride)
    (body : OfBody stride (subs.length % depth) F) :
    Stable (Acts depth stride) fun x => Filling depth stride subs n x.1 ∧ F x.1 :=
  stable_of_moves (P := fun m => Filling depth stride subs n m ∧ F m) le
    fun _ _ h moves => ⟨h.1.moves moves, body _ _ (moves.body _) h.2⟩

/-- One word of the header after the status. -/
lemma wp_writeHeader {bar : BarMapping} {α : Type} {Q : α → Memory × Memory → Prop}
    {g : Unit → Prog Memory α} {F H : Memory → Prop} {x : Memory × Memory} {offset : Nat}
    {value : UInt32} (fits : Fits bar depth stride)
    (body : OfBody stride (subs.length % depth) F) (le : slotHdrLength ≤ offset)
    (le' : offset + 4 ≤ slotPayloadOffset)
    (write : ∀ m, F m →
      H (m.storeWord32 (slotBase stride (subs.length % depth) + offset) value))
    (fill : Filling depth stride subs n x.1) (h : F x.1)
    (next : ∀ m t, Filling depth stride subs n m → H m →
      (g ()).wp (Acts depth stride) (Spares depth stride) Q (m, t)) :
    (bar.write32 (slotBase stride (subs.length % depth) + offset) value >>= g).wp
      (Acts depth stride) (Spares depth stride) Q x := by
  have header := fits.header
  have slot := fits.slot (Nat.mod_lt subs.length fits.pos)
  unfold slotPayloadOffset at le'
  have inside : slotBase stride (subs.length % depth) + offset
      + (toBE 4 value.toNat).reverse.length ≤ slotBase stride (subs.length % depth) + stride := by
    rw [List.length_reverse, length_toBE]
    omega
  apply wp_write32 (by omega) (stable_filling (by omega) body) ⟨fill, h⟩
  intro m t h
  have fill' := h.1.store (Nat.add_le_add_left le _) inside (by omega)
  exact ⟨h.1.spares (Nat.le_add_right ..) inside, next _ t fill' (write m h.2)⟩

/-- The first `k` bytes of the payload have been copied. -/
def Copied (stride i : Nat) (payload : Bytes) (k : Nat) (m : Memory) : Prop :=
  m.load (slotBase stride i + slotPayloadOffset) k = payload.take k

lemma Copied.agree {k : Nat} (copied : Copied stride i payload k m)
    (agree : AgreeOn (slotBase stride i + slotPayloadOffset) (slotBase stride i + stride) m m')
    (le : slotPayloadOffset + k ≤ stride) : Copied stride i payload k m' := by
  unfold Copied at copied ⊢
  rw [← copied]
  exact agree.load le_rfl (by omega)

lemma ofBody_copied {k : Nat} (le : slotPayloadOffset + k ≤ stride) :
    OfBody stride i (Copied stride i payload k) := by
  intro m m' same copied
  apply copied.agree _ le
  apply same.mono _ le_rfl
  unfold slotPayloadOffset slotHdrLength
  omega

lemma Copied.store {i k : Nat} {payload : Bytes} {b : UInt8} (copied : Copied stride i payload k m)
    (got : payload[k]? = some b) :
    Copied stride i payload (k + 1) (m.store (slotBase stride i + slotPayloadOffset + k) [b]) := by
  have before : AgreeOn (slotBase stride i + slotPayloadOffset)
      (slotBase stride i + slotPayloadOffset + k) m
      (m.store (slotBase stride i + slotPayloadOffset + k) [b]) :=
    agreeOn_store (.inl le_rfl)
  have last : m.store (slotBase stride i + slotPayloadOffset + k) [b]
      (slotBase stride i + slotPayloadOffset + k) = b := by
    unfold Memory.store
    rw [if_pos le_rfl, Nat.sub_self, List.getD_cons_zero]
  unfold Copied at copied ⊢
  rw [load_succ, before.load le_rfl le_rfl, copied, last, List.take_add_one, got,
    Option.toList_some]

/-- The payload is copied to a free slot. -/
lemma wp_copyPayload {α : Type} {Q : α → Memory × Memory → Prop} {g : Unit → Prog Memory α}
    {x : Memory × Memory} {payload : Bytes} (header : 64 ≤ stride)
    (room : slotPayloadOffset + payload.length ≤ stride)
    (fill : Filling depth stride subs n x.1)
    (next : ∀ m t, Filling depth stride subs n m →
      Copied stride (subs.length % depth) payload payload.length m →
      (g ()).wp (Acts depth stride) (Spares depth stride) Q (m, t)) :
    (copyNonoverlapping payload
      (slotBase stride (subs.length % depth) + slotPayloadOffset) >>= g).wp
      (Acts depth stride) (Spares depth stride) Q x := by
  have header' : 16 ≤ stride := by omega
  refine wp_copyNonoverlapping (P := fun k x => Filling depth stride subs n x.1 ∧
    (k ≤ payload.length → Copied stride (subs.length % depth) payload k x.1)) ?_ ?_
    ⟨fill, fun _ => rfl⟩ (fun m t h => next m t h.1 (h.2 le_rfl))
  · intro k
    refine stable_filling (F := fun m => k ≤ payload.length →
      Copied stride (subs.length % depth) payload k m) header' ?_
    intro m m' same copied le
    exact ofBody_copied (by omega) m m' same (copied le)
  · intro k b m t got h
    have lt : k < payload.length := (List.getElem?_eq_some_iff.mp got).1
    have inside : slotBase stride (subs.length % depth) + slotPayloadOffset + k + 1
        ≤ slotBase stride (subs.length % depth) + stride := by omega
    refine ⟨h.1.spares ?_ inside, h.1.store ?_ inside header', fun _ => (h.2 lt.le).store got⟩
    · unfold slotPayloadOffset
      omega
    · unfold slotPayloadOffset slotHdrLength
      omega

/-- The payload and its length. -/
def Sized (stride i : Nat) (payload : Bytes) (m : Memory) : Prop :=
  Copied stride i payload payload.length m ∧
    (m.word32 (slotBase stride i + slotHdrLength)).toNat = payload.length

lemma ofBody_sized (room : slotPayloadOffset + payload.length ≤ stride) :
    OfBody stride i (Sized stride i payload) := by
  intro m m' same sized
  refine ⟨ofBody_copied room m m' same sized.1, ?_⟩
  rw [same.word32 le_rfl (by unfold slotHdrLength; unfold slotPayloadOffset at room; omega)]
  exact sized.2

lemma Copied.storeLength (copied : Copied stride i payload payload.length m)
    (room : slotPayloadOffset + payload.length ≤ stride) (lt : payload.length < 2 ^ 32) :
    Sized stride i payload
      (m.storeWord32 (slotBase stride i + slotHdrLength) (UInt32.ofNat payload.length)) := by
  constructor
  · apply copied.agree (agreeOn_storeWord32 (.inr _)) room
    unfold slotHdrLength slotPayloadOffset
    omega
  · rw [word32_storeWord32, UInt32.toNat_ofNat', Nat.mod_eq_of_lt lt]

lemma Sized.storeSid {sid : UInt32} (sized : Sized stride i payload m)
    (room : slotPayloadOffset + payload.length ≤ stride) :
    (⟨payload, sid⟩ : Submission).In stride (m.storeWord32 (slotBase stride i + slotHdrSid) sid) i := by
  constructor
  case fits => exact room
  case length =>
    have same : AgreeOn (slotBase stride i + slotHdrLength) (slotBase stride i + slotHdrSid) m
        (m.storeWord32 (slotBase stride i + slotHdrSid) sid) :=
      agreeOn_storeWord32 (.inl le_rfl)
    rw [same.word32 le_rfl le_rfl]
    exact sized.2
  case sid => exact word32_storeWord32
  case payload =>
    have same : AgreeOn (slotBase stride i + slotPayloadOffset) (slotBase stride i + stride) m
        (m.storeWord32 (slotBase stride i + slotHdrSid) sid) := by
      apply agreeOn_storeWord32
      unfold slotHdrSid slotPayloadOffset
      omega
    exact (sized.1.agree same room).trans List.take_length

/-- The indices of a ring that has made `n` submissions. -/
structure TxRing.Sent (tx : TxRing) (n : Nat) : Prop where
  tail : tx.tail = UInt64.ofNat n
  nextSid : tx.nextSid = UInt32.ofNat n

lemma toNat_index {depth : UInt32} (dvd : depth.toNat ∣ 2 ^ 64) (n : Nat) :
    (UInt64.ofNat n % depth.toUInt64).toNat = n % depth.toNat := by
  rw [UInt64.toNat_mod, UInt64.toNat_ofNat', UInt32.toNat_toUInt64, Nat.mod_mod_of_dvd _ dvd]

lemma toNat_maxPayload {stride : UInt32} (le : 16 ≤ stride.toNat) :
    (stride.toUInt64 - 0x10).toNat = stride.toNat - 16 := by
  rw [UInt64.toNat_sub_of_le, UInt32.toNat_toUInt64]
  · rfl
  · rw [UInt64.le_iff_toNat_le, UInt32.toNat_toUInt64]
    exact le

/-- What a call of `submit` ends with. -/
def TxRing.Submitted (tx : TxRing) (payload : Bytes) (subs : List Submission) (n : Nat) :
    TxRing × Except RingError UInt32 → Memory × Memory → Prop
  | (tx', .ok sid), x =>
    tx' = { tx with tail := tx.tail + 1, nextSid := tx.nextSid + 1 } ∧ sid = tx.nextSid ∧
      Outstanding tx.depth.toNat tx.slotStride.toNat (subs ++ [⟨payload, sid⟩]) n x.1
  | (tx', .error _), x =>
    tx' = tx ∧ x.1 = x.2 ∧ Outstanding tx.depth.toNat tx.slotStride.toNat subs n x.1

lemma stable_equal {P : Memory → Prop} (stable : Stable (Acts depth stride) fun x => P x.1) :
    Stable (Acts depth stride) fun x => x.1 = x.2 ∧ P x.1 := by
  intro x x' acts holds
  refine ⟨?_, stable x x' acts holds.2⟩
  obtain ⟨slot, rfl⟩ := acts
  exact congrArg (device depth stride slot) holds.1

lemma stable_outstanding (le : 16 ≤ stride) :
    Stable (Acts depth stride) fun x => Outstanding depth stride subs n x.1 :=
  stable_of_moves le fun _ _ out moves => out.moves moves

lemma TxRing.stable_submitted {tx : TxRing} (le : 16 ≤ tx.slotStride.toNat) :
    ∀ r, Stable (Acts tx.depth.toNat tx.slotStride.toNat) (tx.Submitted payload subs n r) := by
  rintro ⟨tx', result⟩ x x' acts holds
  cases result with
  | ok sid => exact ⟨holds.1, holds.2.1, stable_outstanding le x x' acts holds.2.2⟩
  | error e => exact ⟨holds.1, stable_equal (stable_outstanding le) x x' acts holds.2⟩

/-- The slot holds the whole submission, and its status is written. -/
lemma TxRing.wp_publish {tx : TxRing} (fits : Fits tx.bar tx.depth.toNat tx.slotStride.toNat)
    (fill : Filling tx.depth.toNat tx.slotStride.toNat subs n x.1)
    (held : (⟨payload, tx.nextSid⟩ : Submission).In tx.slotStride.toNat x.1
      (subs.length % tx.depth.toNat)) :
    (do
      tx.bar.write32 (slotBase tx.slotStride.toNat (subs.length % tx.depth.toNat) + slotHdrStatus)
        slotReady
      tx.bar.write32 regs.doorbell (tx.tail + 1).toUInt32
      return ({ tx with tail := tx.tail + 1, nextSid := tx.nextSid + 1 }, .ok tx.nextSid) :
        Prog Memory (TxRing × Except RingError UInt32)).wp
      (Acts tx.depth.toNat tx.slotStride.toNat) (Spares tx.depth.toNat tx.slotStride.toNat)
      (tx.Submitted payload subs n) x := by
  have header := fits.le_stride
  have slot := fits.slot (Nat.mod_lt subs.length fits.pos)
  have body : OfBody tx.slotStride.toNat (subs.length % tx.depth.toNat) fun m =>
      (⟨payload, tx.nextSid⟩ : Submission).In tx.slotStride.toNat m (subs.length % tx.depth.toNat) :=
    fun _ _ same held => held.same same
  refine wp_write32 ?_ (stable_filling header body) ⟨fill, held⟩ ?_
  · unfold slotHdrStatus
    omega
  intro m t h
  refine ⟨h.1.spares (Nat.le_add_right ..) ?_, ?_⟩
  · rw [List.length_reverse, length_toBE]
    unfold slotHdrStatus
    omega
  refine wp_write32 ?_ (stable_outstanding header)
    (h.1.out.submit fits.pos header h.1.free h.2) ?_
  · have size := fits.size
    unfold regs.ringBase at size
    unfold regs.doorbell
    omega
  intro m t out
  -- the doorbell lies below the ring
  have same : ∀ i, SameSlot tx.slotStride.toNat i m
      (m.storeWord32 regs.doorbell (tx.tail + 1).toUInt32) := by
    intro i
    apply agreeOn_storeWord32
    unfold slotBase regs.doorbell regs.ringBase
    omega
  exact ⟨fun i _ _ => same i,
    wp_ret (stable_submitted header _) ⟨rfl, rfl, out.congr (fun i => (same i).status header)
      fun _ _ _ => (same _).sameBody⟩⟩

/-- `submit` publishes the payload in the next slot, or fails and leaves everything as it is. -/
lemma TxRing.wp_submit {tx : TxRing} {payload : Bytes} {x : Memory × Memory}
    (fits : Fits tx.bar tx.depth.toNat tx.slotStride.toNat) (sent : tx.Sent subs.length)
    (out : Outstanding tx.depth.toNat tx.slotStride.toNat subs n x.1) (start : x.1 = x.2) :
    (tx.submit payload).wp (Acts tx.depth.toNat tx.slotStride.toNat)
      (Spares tx.depth.toNat tx.slotStride.toNat) (tx.Submitted payload subs n) x := by
  have header := fits.le_stride
  have slot := fits.slot (Nat.mod_lt subs.length fits.pos)
  have index : (tx.tail % tx.depth.toUInt64).toNat = subs.length % tx.depth.toNat := by
    rw [sent.tail, toNat_index fits.dvd]
  unfold TxRing.submit
  simp only [index, toNat_maxPayload header]
  split
  case isTrue => exact wp_ret (stable_submitted header _) ⟨rfl, start, out⟩
  case isFalse small =>
    have room : slotPayloadOffset + payload.length ≤ tx.slotStride.toNat := by
      unfold slotPayloadOffset
      omega
    have lt : payload.length < 2 ^ 32 := by
      have := tx.slotStride.toNat_lt
      omega
    refine wp_bind (wp_waitFree ?_ (fun _ _ _ _ => AgreeOn.refl)
      (stable_equal (stable_outstanding header)) (fun _ => stable_wp) ⟨start, out⟩ ?_ ?_)
    · exact le_trans (Nat.add_le_add_left (by decide) _) (le_trans (Nat.add_le_add_left header _) slot)
    · intro m t h free
      refine wp_slotPtr ?_ (wp_copyPayload fits.header room ⟨h.2, free⟩ ?_)
      · exact lt_of_lt_of_le (Nat.add_lt_add_left (lt_of_lt_of_le (by decide) fits.header) _) slot
      intro m t fill copied
      refine wp_writeHeader fits (ofBody_copied room) le_rfl (by decide)
        (fun m copied => copied.storeLength room lt) fill copied ?_
      intro m t fill sized
      refine wp_writeHeader (H := fun m => (⟨payload, tx.nextSid⟩ : Submission).In
        tx.slotStride.toNat m (subs.length % tx.depth.toNat)) fits (ofBody_sized room) (by decide)
        (by decide) (fun m sized => sized.storeSid room) fill sized ?_
      intro m t fill held
      exact wp_publish fits fill held
    · intro m t h
      exact wp_ret (stable_submitted header _) ⟨rfl, h⟩

/-! ## Polling -/

/-- What a call of `poll` ends with. -/
def CompletionRing.Polled (ring : CompletionRing) (subs : List Submission) (n : Nat) :
    CompletionRing × Option Completion → Memory × Memory → Prop
  | (ring', some c), x =>
    ring' = { ring with head := ring.head + 1 } ∧
      (∃ sub, subs[n]? = some sub ∧ c = ⟨sub.sid, n % ring.depth.toNat⟩) ∧
      Outstanding ring.depth.toNat ring.slotStride.toNat subs (n + 1) x.1
  | (ring', none), x =>
    ring' = ring ∧ Outstanding ring.depth.toNat ring.slotStride.toNat subs n x.1

lemma CompletionRing.stable_polled {ring : CompletionRing} (le : 16 ≤ ring.slotStride.toNat) :
    ∀ r, Stable (Acts ring.depth.toNat ring.slotStride.toNat) (ring.Polled subs n r) := by
  rintro ⟨ring', result⟩ x x' acts holds
  cases result with
  | some c => exact ⟨holds.1, holds.2.1, stable_outstanding le x x' acts holds.2.2⟩
  | none => exact ⟨holds.1, stable_outstanding le x x' acts holds.2⟩

lemma stable_done {i : Nat} (le : 16 ≤ stride) :
    Stable (Acts depth stride) fun x =>
      Outstanding depth stride subs n x.1 ∧ status stride x.1 i = slotDone :=
  stable_of_moves (P := fun m => Outstanding depth stride subs n m ∧ status stride m i = slotDone) le
    fun _ _ h moves => ⟨h.1.moves moves, moves.status_eq (by decide) h.2⟩

/-- `poll` takes the oldest submission if its slot is done, or leaves everything as it is. -/
lemma CompletionRing.wp_poll {ring : CompletionRing} {x : Memory × Memory}
    (fits : Fits ring.bar ring.depth.toNat ring.slotStride.toNat)
    (head : ring.head = UInt64.ofNat n)
    (out : Outstanding ring.depth.toNat ring.slotStride.toNat subs n x.1) :
    ring.poll.wp (Acts ring.depth.toNat ring.slotStride.toNat) (KeepsBodies ring.slotStride.toNat)
      (ring.Polled subs n) x := by
  have header := fits.le_stride
  have slot := le_trans (Nat.add_le_add_left header _) (fits.slot (Nat.mod_lt n fits.pos))
  have index : (ring.head % ring.depth.toUInt64).toNat = n % ring.depth.toNat := by
    rw [head, toNat_index fits.dvd]
  have inStatus := le_trans (Nat.add_le_add_left (show slotHdrStatus + 4 ≤ 16 by decide) _) slot
  have inSid := le_trans (Nat.add_le_add_left (show slotHdrSid + 4 ≤ 16 by decide) _) slot
  unfold CompletionRing.poll
  simp only [index]
  apply wp_read32 inStatus (fun _ _ => AgreeOn.refl) (stable_outstanding header) out
  intro m t out
  split
  case isTrue done =>
    apply wp_read32 inSid (fun _ _ => AgreeOn.refl) (stable_done header) ⟨out, done⟩
    intro m t h
    obtain ⟨sub, got⟩ : ∃ sub, subs[n]? = some sub :=
      ⟨_, List.getElem?_eq_getElem (h.1.lt_of_done fits.pos h.2)⟩
    have sid : m.word32 (slotBase ring.slotStride.toNat (n % ring.depth.toNat) + slotHdrSid)
        = sub.sid := (h.1.held n sub le_rfl got).sid
    apply wp_write32 inStatus (stable_done header) h
    intro m' t' h'
    refine ⟨fun _ => sameBody_setStatus header, wp_ret (stable_polled header _) ⟨rfl, ?_, ?_⟩⟩
    · exact ⟨sub, got, congrArg (Completion.mk · _) sid⟩
    · exact h'.1.poll fits.pos header h'.2
  case isFalse => exact wp_ret (stable_polled header _) ⟨rfl, out⟩

end Otap.Modq
