import Otap.Lib.Ring
import Otap.Lib.Run
import Otap.Modq.Ring

/-!
# The slots of the ring in memory

The host and the device share nothing but the status words of the slots. `Outstanding depth stride subs n m` says
what the memory `m` holds when `subs` were submitted and the first `n` of them polled: submission `k` lies in
slot `k % depth` from `n` on, and every slot that none of these submissions uses is free. It is preserved by the
device (`Outstanding.moves`), by writes to a free slot (`Outstanding.scribble`) and by the two status writes of the
host (`Outstanding.submit`, `Outstanding.poll`).
-/

namespace Otap.Modq

open Otap.Lib Memory

variable {depth stride i j : Nat} {m m' : Memory}

def slotBase (stride i : Nat) : Nat :=
  regs.ringBase + i * stride

def status (stride : Nat) (m : Memory) (i : Nat) : UInt32 :=
  m.word32 (slotBase stride i + slotHdrStatus)

/-- The memories agree on slot `i`, its status word apart. -/
def SameBody (stride i : Nat) (m m' : Memory) : Prop :=
  AgreeOn (slotBase stride i + slotHdrLength) (slotBase stride i + stride) m m'

/-- The memories agree on slot `i`. -/
def SameSlot (stride i : Nat) (m m' : Memory) : Prop :=
  AgreeOn (slotBase stride i) (slotBase stride i + stride) m m'

/-- The memory with the status word of slot `i` replaced. -/
def setStatus (stride i : Nat) (value : UInt32) (m : Memory) : Memory :=
  m.storeWord32 (slotBase stride i + slotHdrStatus) value

/-- A device that turns slot `slot` from ready into done, if it is ready. -/
def device (depth stride slot : Nat) (m : Memory) : Memory :=
  if slot < depth ∧ status stride m slot = slotReady then setStatus stride slot slotDone m else m

/-- A payload with the sequence ID that `submit` returned for it. -/
structure Submission where
  payload : Bytes
  sid : UInt32
deriving DecidableEq, Repr

/-- The slot holds the payload, the length and the sequence ID of the submission. -/
structure Submission.In (sub : Submission) (stride : Nat) (m : Memory) (i : Nat) : Prop where
  fits : slotPayloadOffset + sub.payload.length ≤ stride
  length : (m.word32 (slotBase stride i + slotHdrLength)).toNat = sub.payload.length
  sid : m.word32 (slotBase stride i + slotHdrSid) = sub.sid
  payload : m.load (slotBase stride i + slotPayloadOffset) sub.payload.length = sub.payload

/-- The memory after the submissions `subs`, the first `n` of which have been polled. -/
structure Outstanding (depth stride : Nat) (subs : List Submission) (n : Nat) (m : Memory) : Prop where
  le : n ≤ subs.length
  room : subs.length ≤ n + depth
  busy : ∀ k, n ≤ k → k < subs.length →
    status stride m (k % depth) = slotReady ∨ status stride m (k % depth) = slotDone
  held : ∀ k sub, n ≤ k → subs[k]? = some sub → sub.In stride m (k % depth)
  free : ∀ i, i < depth → (∀ k, n ≤ k → k < subs.length → k % depth ≠ i) →
    status stride m i = slotFree

/-! ## Slots do not overlap -/

lemma slotBase_disjoint (ne : i ≠ j) :
    slotBase stride i + stride ≤ slotBase stride j ∨
      slotBase stride j + stride ≤ slotBase stride i := by
  unfold slotBase
  rcases Nat.lt_or_gt_of_ne ne with lt | lt
  · left
    have le := Nat.mul_le_mul_right stride (Nat.succ_le_of_lt lt)
    rw [Nat.succ_mul] at le
    omega
  · right
    have le := Nat.mul_le_mul_right stride (Nat.succ_le_of_lt lt)
    rw [Nat.succ_mul] at le
    omega

lemma sameSlot_store {addr : Nat} {bytes : Bytes} (ne : j ≠ i) (le : slotBase stride i ≤ addr)
    (le' : addr + bytes.length ≤ slotBase stride i + stride) :
    SameSlot stride j m (m.store addr bytes) := by
  apply agreeOn_store
  have disjoint := @slotBase_disjoint stride j i ne
  omega

lemma sameSlot_storeWord32 {addr : Nat} {value : UInt32} (ne : j ≠ i)
    (le : slotBase stride i ≤ addr) (le' : addr + 4 ≤ slotBase stride i + stride) :
    SameSlot stride j m (m.storeWord32 addr value) :=
  sameSlot_store ne le (by rwa [List.length_reverse, length_toBE])

lemma SameSlot.sameBody (same : SameSlot stride i m m') : SameBody stride i m m' :=
  same.mono (Nat.le_add_right ..) le_rfl

lemma SameSlot.status (same : SameSlot stride i m m') (le : 16 ≤ stride) :
    Modq.status stride m' i = Modq.status stride m i :=
  same.word32 (Nat.le_add_right ..) (by unfold slotHdrStatus; omega)

lemma Submission.In.same {sub : Submission} (held : sub.In stride m i)
    (same : SameBody stride i m m') : sub.In stride m' i := by
  have fits := held.fits
  unfold slotPayloadOffset at fits
  unfold SameBody slotHdrLength at same
  constructor
  case fits => exact held.fits
  case length =>
    rw [same.word32 (by unfold slotHdrLength; omega) (by unfold slotHdrLength; omega)]
    exact held.length
  case sid =>
    rw [same.word32 (by unfold slotHdrSid; omega) (by unfold slotHdrSid; omega)]
    exact held.sid
  case payload =>
    rw [same.load (by unfold slotPayloadOffset; omega) (by unfold slotPayloadOffset; omega)]
    exact held.payload

/-! ## The status word -/

lemma status_setStatus {value : UInt32} : status stride (setStatus stride i value m) i = value :=
  word32_storeWord32

lemma sameBody_setStatus {value : UInt32} (le : 16 ≤ stride) :
    SameBody stride j m (setStatus stride i value m) := by
  by_cases eq : j = i
  case pos =>
    rw [eq]
    exact agreeOn_storeWord32 (.inr le_rfl)
  case neg =>
    exact (sameSlot_storeWord32 eq (Nat.le_add_right ..) (by unfold slotHdrStatus; omega)).sameBody

lemma status_setStatus_ne {value : UInt32} (le : 16 ≤ stride) (ne : j ≠ i) :
    status stride (setStatus stride i value m) j = status stride m j :=
  (sameSlot_storeWord32 ne (Nat.le_add_right ..) (by unfold slotHdrStatus; omega)).status le

/-! ## What the device can do -/

/-- No body changes, and a status changes from ready to done only. -/
structure Moves (stride : Nat) (m m' : Memory) : Prop where
  body : ∀ i, SameBody stride i m m'
  status : ∀ i, status stride m' i = status stride m i ∨
    status stride m i = slotReady ∧ status stride m' i = slotDone

lemma moves_device {slot : Nat} (le : 16 ≤ stride) : Moves stride m (device depth stride slot m) := by
  unfold device
  split
  case isTrue ready =>
    constructor
    case body => exact fun i => sameBody_setStatus le
    case status =>
      intro i
      by_cases eq : i = slot
      case pos =>
        subst eq
        exact .inr ⟨ready.2, status_setStatus⟩
      case neg => exact .inl (status_setStatus_ne le eq)
  case isFalse => exact ⟨fun _ => AgreeOn.refl, fun _ => .inl rfl⟩

lemma Moves.status_eq {value : UInt32} (moves : Moves stride m m') (ne : value ≠ slotReady)
    (h : Modq.status stride m i = value) : Modq.status stride m' i = value := by
  cases moves.status i with
  | inl same => exact same.trans h
  | inr ready => exact absurd (h.symm.trans ready.1) ne

/-! ## Outstanding submissions -/

variable {subs : List Submission} {n : Nat}

lemma Outstanding.moves (out : Outstanding depth stride subs n m) (moves : Moves stride m m') :
    Outstanding depth stride subs n m' where
  le := out.le
  room := out.room
  busy k le lt := by
    cases moves.status (k % depth) with
    | inl same =>
      rw [same]
      exact out.busy k le lt
    | inr ready => exact .inr ready.2
  held k sub le got := (out.held k sub le got).same (moves.body _)
  free i lt unused := moves.status_eq (by decide) (out.free i lt unused)

/-- No outstanding submission uses a free slot. -/
lemma Outstanding.unused (out : Outstanding depth stride subs n m)
    (free : status stride m i = slotFree) :
    ∀ k, n ≤ k → k < subs.length → k % depth ≠ i := by
  intro k le lt eq
  subst eq
  cases out.busy k le lt with
  | inl ready => exact absurd (free.symm.trans ready) (by decide)
  | inr done => exact absurd (free.symm.trans done) (by decide)

/-- Nothing is said of the bytes outside of the statuses and the bodies that are in use. -/
lemma Outstanding.congr (out : Outstanding depth stride subs n m)
    (statuses : ∀ j, status stride m' j = status stride m j)
    (bodies : ∀ k, n ≤ k → k < subs.length → SameBody stride (k % depth) m m') :
    Outstanding depth stride subs n m' where
  le := out.le
  room := out.room
  busy k le lt := by
    rw [statuses]
    exact out.busy k le lt
  held k sub le got := by
    have lt : k < subs.length := (List.getElem?_eq_some_iff.mp got).1
    exact (out.held k sub le got).same (bodies k le lt)
  free j lt unused := by
    rw [statuses]
    exact out.free j lt unused

/-- Whatever is written to a free slot, its status apart. -/
lemma Outstanding.scribble (out : Outstanding depth stride subs n m) (le : 16 ≤ stride)
    (free : status stride m i = slotFree) (free' : status stride m' i = slotFree)
    (same : ∀ j, j ≠ i → SameSlot stride j m m') : Outstanding depth stride subs n m' := by
  apply out.congr
  · intro j
    by_cases eq : j = i
    case pos => rw [eq, free, free']
    case neg => exact (same j eq).status le
  · intro k le' lt
    exact (same _ (out.unused free k le' lt)).sameBody

/-- The slot of the next submission is free only if there is room for one. -/
lemma Outstanding.lt_of_free (out : Outstanding depth stride subs n m) (pos : 0 < depth)
    (free : status stride m (subs.length % depth) = slotFree) : subs.length < n + depth := by
  rcases Nat.lt_or_eq_of_le out.room with lt | eq
  · exact lt
  · have same : n % depth = subs.length % depth := by rw [eq, Nat.add_mod_right]
    exact absurd same (out.unused free n le_rfl (by omega))

/-- The submission is published. -/
lemma Outstanding.submit {sub : Submission} (out : Outstanding depth stride subs n m)
    (pos : 0 < depth) (le : 16 ≤ stride)
    (free : status stride m (subs.length % depth) = slotFree)
    (held : sub.In stride m (subs.length % depth)) :
    Outstanding depth stride (subs ++ [sub]) n
      (setStatus stride (subs.length % depth) slotReady m) where
  le := by
    rw [List.length_append]
    exact out.le.trans (Nat.le_add_right ..)
  room := by
    rw [List.length_append]
    exact out.lt_of_free pos free
  busy k le' lt := by
    rw [List.length_append, List.length_singleton, Nat.lt_succ_iff_lt_or_eq] at lt
    cases lt with
    | inl lt =>
      rw [status_setStatus_ne le (out.unused free k le' lt)]
      exact out.busy k le' lt
    | inr eq =>
      rw [eq]
      exact .inl status_setStatus
  held k sub' le' got := by
    refine forall_getElem?_concat (P := fun k sub => n ≤ k →
      sub.In stride (setStatus stride (subs.length % depth) slotReady m) (k % depth)) ?_ ?_ k sub' got le'
    · exact fun k sub got le' => (out.held k sub le' got).same (sameBody_setStatus le)
    · exact fun _ => held.same (sameBody_setStatus le)
  free i lt unused := by
    have ne : i ≠ subs.length % depth := fun eq =>
      unused subs.length out.le (by rw [List.length_append]; exact Nat.lt_succ_self _) eq.symm
    rw [status_setStatus_ne le ne]
    apply out.free i lt
    intro k le' lt'
    exact unused k le' (by rw [List.length_append]; exact Nat.lt_add_right _ lt')

/-- What the oldest slot can be done with is outstanding. -/
lemma Outstanding.lt_of_done (out : Outstanding depth stride subs n m) (pos : 0 < depth)
    (done : status stride m (n % depth) = slotDone) : n < subs.length := by
  by_contra le
  have free := out.free (n % depth) (Nat.mod_lt n pos) (fun k le' lt => absurd lt (by omega))
  exact absurd (done.symm.trans free) (by decide)

/-- The oldest submission is polled. -/
lemma Outstanding.poll (out : Outstanding depth stride subs n m) (pos : 0 < depth)
    (le : 16 ≤ stride) (done : status stride m (n % depth) = slotDone) :
    Outstanding depth stride subs (n + 1) (setStatus stride (n % depth) slotFree m) := by
  have lt := out.lt_of_done pos done
  have room := out.room
  -- the slots of the other outstanding submissions
  have other : ∀ k, n + 1 ≤ k → k < subs.length → k % depth ≠ n % depth := by
    intro k le' lt' eq
    have : k = n := ring_slot_inj lt' lt (by omega) (by omega) eq
    omega
  constructor
  case le => exact lt
  case room => omega
  case busy =>
    intro k le' lt'
    rw [status_setStatus_ne le (other k le' lt')]
    exact out.busy k (by omega) lt'
  case held =>
    intro k sub le' got
    exact (out.held k sub (by omega) got).same (sameBody_setStatus le)
  case free =>
    intro i lt' unused
    by_cases eq : i = n % depth
    case pos =>
      rw [eq]
      exact status_setStatus
    case neg =>
      rw [status_setStatus_ne le eq]
      apply out.free i lt'
      intro k le' ltk
      rcases Nat.lt_or_eq_of_le le' with gt | same
      · exact unused k gt ltk
      · rw [← same]
        exact fun e => eq e.symm

end Otap.Modq
