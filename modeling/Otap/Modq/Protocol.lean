import Otap.Lib.Run
import Otap.Modq.Calls

/-!
# The ring protocol

A `System` is a queue with its memory, the call that is in progress and the calls that have returned. The events of
a run are the start of a call, the next access of the call in progress, and an action of the device on any slot, in
any order: what `&mut self` forbids, a call during a call, does nothing.

`System.Safe` is what the protocol promises in every state of a run. `ring_protocol_safety` derives it from the
invariant `System.Inv`, whose part about the memory is the assertion of the call in progress.
-/

namespace Otap.Modq

open Otap.Lib Memory Prog

/-! ## The system -/

inductive Call
  | submit (payload : Bytes)
  | poll
deriving DecidableEq, Repr

/-- A call that has returned, with what it returned. -/
inductive Return
  | submitted (payload : Bytes) (result : Except RingError UInt32)
  | polled (result : Option Completion)

def ModqQueue.call (q : ModqQueue) : Call → Prog Memory (ModqQueue × Return)
  | .submit payload => do
    let (q, result) ← q.submit payload
    return (q, .submitted payload result)
  | .poll => do
    let (q, result) ← q.poll
    return (q, .polled result)

/-- The payloads submitted with success, in order. -/
def submissions (returns : List Return) : List Submission :=
  returns.filterMap fun
    | .submitted payload (.ok sid) => some ⟨payload, sid⟩
    | _ => none

/-- What the polls returned, in order. -/
def completions (returns : List Return) : List Completion :=
  returns.filterMap fun
    | .polled result => result
    | _ => none

/-- The host and the memory it shares with the device. `quiet` is the memory as it would be if the host had not
    written since the last call began. -/
structure System where
  queue : ModqQueue
  memory : Memory
  quiet : Memory
  running : Option (Call × Prog Memory (ModqQueue × Return))
  returns : List Return

def System.start (queue : ModqQueue) (memory : Memory) : System where
  queue
  memory
  quiet := memory
  running := none
  returns := []

def System.depth (s : System) : Nat :=
  s.queue.config.ringDepth.toNat

def System.stride (s : System) : Nat :=
  s.queue.config.slotStride.toNat

inductive Event
  | call (c : Call)
  | host
  | device (slot : Nat)
deriving DecidableEq, Repr

/-- A call with nothing left to do returns. -/
def System.settle (s : System) : System :=
  match s.running with
  | some (_, .ret (queue, r)) => { s with queue, running := none, returns := s.returns ++ [r] }
  | _ => s

def System.step (s : System) : Event → System
  | .call c =>
    match s.running with
    | none => { s with quiet := s.memory, running := some (c, s.queue.call c) }.settle
    | some _ => s
  | .host =>
    match s.running with
    | none => s
    | some (c, p) =>
      { s with memory := (p.next s.memory).2, running := some (c, (p.next s.memory).1) }.settle
  | .device slot =>
    { s with
      memory := Modq.device s.depth s.stride slot s.memory
      quiet := Modq.device s.depth s.stride slot s.quiet }

/-! ## What the protocol promises -/

/-- Submission `k`, among those not polled yet, has slot `i`. -/
def System.Uses (s : System) (k i : Nat) : Prop :=
  (completions s.returns).length ≤ k ∧ k < (submissions s.returns).length ∧ k % s.depth = i

/-- The promises of the protocol. `tail`, `head` and `next_sid` are the numbers of submissions and completions in
    their machine types, so that the promises about submission `k` are about the index `k` also after 2^64
    submissions. -/
structure System.Safe (s : System) : Prop where
  tail : s.queue.tx.tail = UInt64.ofNat (submissions s.returns).length
  nextSid : s.queue.tx.nextSid = UInt32.ofNat (submissions s.returns).length
  head : s.queue.completions.head = UInt64.ofNat (completions s.returns).length
  order : (completions s.returns).length ≤ (submissions s.returns).length
  room : (submissions s.returns).length - (completions s.returns).length ≤ s.depth
  busy : s.running = none → ∀ k i, s.Uses k i →
    status s.stride s.memory i = slotReady ∨ status s.stride s.memory i = slotDone
  free : s.running = none → ∀ i, i < s.depth → (∀ k, ¬ s.Uses k i) →
    status s.stride s.memory i = slotFree
  /-- No access of `submit` changes a byte of a slot that is not free. -/
  spares : ∀ payload p, s.running = some (.submit payload, p) → ∀ i, i < s.depth →
    status s.stride s.memory i ≠ slotFree → SameSlot s.stride i s.memory (s.step .host).memory
  /-- A submission stays in its slot until it is polled. -/
  kept : ∀ k i sub, s.Uses k i → (submissions s.returns)[k]? = some sub →
    sub.In s.stride s.memory i
  sids : ∀ k sub, (submissions s.returns)[k]? = some sub → sub.sid = UInt32.ofNat k
  /-- The polls return the submissions in order, each once. -/
  polls : ∀ k (c : Completion), (completions s.returns)[k]? = some c → c = ⟨UInt32.ofNat k, k % s.depth⟩
  /-- A `submit` that fails has written nothing. -/
  fails : ∀ e payload error,
    (s.step e).returns = s.returns ++ [.submitted payload (.error error)] →
    (s.step e).memory = (s.step e).quiet ∧ (s.step e).queue = s.queue

/-! ## The handle and the calls that returned -/

variable {q : ModqQueue} {rs : List Return} {payload : Bytes}

lemma submissions_submitted {sid : UInt32} :
    submissions (rs ++ [.submitted payload (.ok sid)]) = submissions rs ++ [⟨payload, sid⟩] :=
  List.filterMap_append

lemma submissions_failed {error : RingError} :
    submissions (rs ++ [.submitted payload (.error error)]) = submissions rs :=
  List.filterMap_append.trans (List.append_nil _)

lemma submissions_polled {result : Option Completion} :
    submissions (rs ++ [.polled result]) = submissions rs :=
  List.filterMap_append.trans (List.append_nil _)

lemma completions_submitted {result : Except RingError UInt32} :
    completions (rs ++ [.submitted payload result]) = completions rs :=
  List.filterMap_append.trans (List.append_nil _)

lemma completions_polled {c : Completion} :
    completions (rs ++ [.polled (some c)]) = completions rs ++ [c] :=
  List.filterMap_append

lemma completions_idle : completions (rs ++ [.polled none]) = completions rs :=
  List.filterMap_append.trans (List.append_nil _)

/-- The parts of the handle agree, and the region has room for the ring. -/
structure ModqQueue.Wf (q : ModqQueue) : Prop where
  fits : Fits q.bar q.config.ringDepth.toNat q.config.slotStride.toNat
  txBar : q.tx.bar = q.bar
  txDepth : q.tx.depth = q.config.ringDepth
  txStride : q.tx.slotStride = q.config.slotStride
  completionsBar : q.completions.bar = q.bar
  completionsDepth : q.completions.depth = q.config.ringDepth
  completionsStride : q.completions.slotStride = q.config.slotStride

/-- The indices of the handle and the calls that returned. -/
structure Ledger (q : ModqQueue) (rs : List Return) : Prop where
  wf : q.Wf
  tail : q.tx.tail = UInt64.ofNat (submissions rs).length
  nextSid : q.tx.nextSid = UInt32.ofNat (submissions rs).length
  head : q.completions.head = UInt64.ofNat (completions rs).length
  sids : ∀ k sub, (submissions rs)[k]? = some sub → sub.sid = UInt32.ofNat k
  polls : ∀ k (c : Completion), (completions rs)[k]? = some c →
    c = ⟨UInt32.ofNat k, k % q.config.ringDepth.toNat⟩

lemma Ledger.submitted (h : Ledger q rs) :
    Ledger { q with tx := { q.tx with tail := q.tx.tail + 1, nextSid := q.tx.nextSid + 1 } }
      (rs ++ [.submitted payload (.ok q.tx.nextSid)]) := by
  constructor
  case wf => exact { h.wf with }
  case tail =>
    rw [submissions_submitted, List.length_append, List.length_singleton, UInt64.ofNat_add, ← h.tail]
    rfl
  case nextSid =>
    rw [submissions_submitted, List.length_append, List.length_singleton, UInt32.ofNat_add, ← h.nextSid]
    rfl
  case head => rw [completions_submitted, h.head]
  case sids =>
    rw [submissions_submitted]
    exact forall_getElem?_concat h.sids h.nextSid
  case polls =>
    rw [completions_submitted]
    exact h.polls

lemma Ledger.polled {c : Completion} (h : Ledger q rs)
    (next : c = ⟨UInt32.ofNat (completions rs).length,
      (completions rs).length % q.config.ringDepth.toNat⟩) :
    Ledger { q with completions := { q.completions with head := q.completions.head + 1 } }
      (rs ++ [.polled (some c)]) := by
  constructor
  case wf => exact { h.wf with }
  case tail => rw [submissions_polled, h.tail]
  case nextSid => rw [submissions_polled, h.nextSid]
  case head =>
    rw [completions_polled, List.length_append, List.length_singleton, UInt64.ofNat_add, ← h.head]
    rfl
  case sids =>
    rw [submissions_polled]
    exact h.sids
  case polls =>
    rw [completions_polled]
    exact forall_getElem?_concat h.polls next

/-- A call that returns nothing new. -/
lemma Ledger.idle {r : Return} (h : Ledger q rs) (subs : submissions (rs ++ [r]) = submissions rs)
    (comps : completions (rs ++ [r]) = completions rs) : Ledger q (rs ++ [r]) where
  wf := h.wf
  tail := by rw [subs, h.tail]
  nextSid := by rw [subs, h.nextSid]
  head := by rw [comps, h.head]
  sids := by
    rw [subs]
    exact h.sids
  polls := by
    rw [comps]
    exact h.polls

/-! ## A call in progress -/

/-- What the accesses of a call leave alone. -/
def Call.Leaves (depth stride : Nat) : Call → Memory → Memory → Prop
  | .submit _ => Spares depth stride
  | .poll => KeepsBodies stride

/-- What a call ends with. -/
def ModqQueue.Returned (q : ModqQueue) (subs : List Submission) (n : Nat) :
    Call → ModqQueue × Return → Memory × Memory → Prop
  | .submit payload, (q', r), x => ∃ tx result, q' = { q with tx } ∧
      r = .submitted payload result ∧ q.tx.Submitted payload subs n (tx, result) x
  | .poll, (q', r), x => ∃ completions result, q' = { q with completions } ∧
      r = .polled result ∧ q.completions.Polled subs n (completions, result) x

lemma ModqQueue.stable_returned {subs : List Submission} {n : Nat} (wf : q.Wf) :
    ∀ c r, Stable (Acts q.config.ringDepth.toNat q.config.slotStride.toNat)
      (q.Returned subs n c r) := by
  have header := wf.fits.le_stride
  rintro c ⟨q', r⟩ x x' acts holds
  cases c with
  | submit payload =>
    obtain ⟨tx, result, e, e', h⟩ := holds
    rw [← wf.txDepth, ← wf.txStride] at acts
    exact ⟨tx, result, e, e', TxRing.stable_submitted (wf.txStride ▸ header) _ x x' acts h⟩
  | poll =>
    obtain ⟨ring, result, e, e', h⟩ := holds
    rw [← wf.completionsDepth, ← wf.completionsStride] at acts
    exact ⟨ring, result, e, e',
      CompletionRing.stable_polled (wf.completionsStride ▸ header) _ x x' acts h⟩

lemma ModqQueue.wp_call {c : Call} {x : Memory × Memory} (ledger : Ledger q rs)
    (out : Outstanding q.config.ringDepth.toNat q.config.slotStride.toNat (submissions rs)
      (Modq.completions rs).length x.1) (start : x.1 = x.2) :
    (q.call c).wp (Acts q.config.ringDepth.toNat q.config.slotStride.toNat)
      (c.Leaves q.config.ringDepth.toNat q.config.slotStride.toNat)
      (q.Returned (submissions rs) (Modq.completions rs).length c) x := by
  have wf := ledger.wf
  cases c with
  | submit payload =>
    have fits := wf.fits
    rw [← wf.txBar, ← wf.txDepth, ← wf.txStride] at fits
    rw [← wf.txDepth, ← wf.txStride] at out
    have submit : (q.tx.submit payload).wp _ _ _ x :=
      TxRing.wp_submit fits ⟨ledger.tail, ledger.nextSid⟩ out start
    rw [wf.txDepth, wf.txStride] at submit
    refine wp_bind (wp_bind (submit.mono ?_))
    rintro ⟨tx, result⟩ x h
    exact wp_ret stable_wp (wp_ret (stable_returned wf _ _) ⟨tx, result, rfl, rfl, h⟩)
  | poll =>
    have fits := wf.fits
    rw [← wf.completionsBar, ← wf.completionsDepth, ← wf.completionsStride] at fits
    rw [← wf.completionsDepth, ← wf.completionsStride] at out
    have poll := CompletionRing.wp_poll fits ledger.head out
    rw [wf.completionsDepth, wf.completionsStride] at poll
    refine wp_bind (wp_bind (poll.mono ?_))
    rintro ⟨ring, result⟩ x h
    exact wp_ret stable_wp (wp_ret (stable_returned wf _ _) ⟨ring, result, rfl, rfl, h⟩)

/-! ## The invariant -/

structure System.Inv (s : System) : Prop where
  ledger : Ledger s.queue s.returns
  order : (completions s.returns).length ≤ (submissions s.returns).length
  room : (submissions s.returns).length ≤ (completions s.returns).length + s.depth
  kept : ∀ k sub, (completions s.returns).length ≤ k → (submissions s.returns)[k]? = some sub →
    sub.In s.stride s.memory (k % s.depth)
  idle : s.running = none →
    Outstanding s.depth s.stride (submissions s.returns) (completions s.returns).length s.memory
  /-- No outstanding slot is free while a payload is submitted. -/
  busy : ∀ payload p, s.running = some (.submit payload, p) → ∀ k,
    (completions s.returns).length ≤ k → k < (submissions s.returns).length →
    status s.stride s.memory (k % s.depth) ≠ slotFree
  running : ∀ c p, s.running = some (c, p) →
    p.wp (Acts s.depth s.stride) (c.Leaves s.depth s.stride)
      (s.queue.Returned (submissions s.returns) (completions s.returns).length c)
      (s.memory, s.quiet)

variable {s : System}

/-- The invariant between two calls. -/
lemma System.Inv.of_outstanding (ledger : Ledger s.queue s.returns)
    (idle : s.running = none) (out : Outstanding s.depth s.stride (submissions s.returns)
      (completions s.returns).length s.memory) : s.Inv where
  ledger := ledger
  order := out.le
  room := out.room
  kept := out.held
  idle _ := out
  busy payload p h := by
    rw [idle] at h
    cases h
  running c p h := by
    rw [idle] at h
    cases h

lemma Outstanding.not_free {depth stride n k : Nat} {subs : List Submission} {m : Memory}
    (out : Outstanding depth stride subs n m) (le : n ≤ k) (lt : k < subs.length) :
    status stride m (k % depth) ≠ slotFree := by
  intro free
  exact out.unused free k le lt rfl

lemma System.Inv.device (inv : s.Inv) (slot : Nat) : (s.step (.device slot)).Inv := by
  have header : 16 ≤ s.stride := inv.ledger.wf.fits.le_stride
  have moves : Moves s.stride s.memory (Modq.device s.depth s.stride slot s.memory) :=
    moves_device header
  constructor
  case ledger => exact inv.ledger
  case order => exact inv.order
  case room => exact inv.room
  case kept => exact fun k sub le got => (inv.kept k sub le got).same (moves.body _)
  case idle => exact fun idle => (inv.idle idle).moves moves
  case busy =>
    intro payload p h k le lt
    cases moves.status (k % s.depth) with
    | inl same => exact fun free => inv.busy payload p h k le lt (same.symm.trans free)
    | inr done => exact fun free => absurd (free.symm.trans done.2) (by decide)
  case running => exact fun c p h => (inv.running c p h).rely ⟨slot, rfl⟩

lemma System.settle_cases (s : System) :
    s.settle = s ∨ ∃ c queue r, s.running = some (c, .ret (queue, r)) ∧
      s.settle = { s with queue, running := none, returns := s.returns ++ [r] } := by
  unfold settle
  split
  case h_1 c queue r running => exact .inr ⟨c, queue, r, running, rfl⟩
  case h_2 => exact .inl rfl

lemma System.Inv.settle (inv : s.Inv) : s.settle.Inv := by
  obtain same | ⟨c, queue, r, running, returned⟩ := s.settle_cases
  · rw [same]
    exact inv
  have wf := inv.ledger.wf
  have ends := (inv.running c _ running).post
  rw [returned]
  cases c with
  | submit payload =>
    obtain ⟨tx, result, rfl, rfl, h⟩ := ends
    cases result with
    | ok sid =>
      obtain ⟨rfl, rfl, out⟩ := h
      rw [wf.txDepth, wf.txStride] at out
      refine .of_outstanding inv.ledger.submitted rfl ?_
      rw [submissions_submitted, completions_submitted]
      exact out
    | error e =>
      obtain ⟨rfl, _, out⟩ := h
      rw [wf.txDepth, wf.txStride] at out
      refine .of_outstanding (inv.ledger.idle submissions_failed completions_submitted) rfl ?_
      rw [submissions_failed, completions_submitted]
      exact out
  | poll =>
    obtain ⟨ring, result, rfl, rfl, h⟩ := ends
    cases result with
    | some c =>
      obtain ⟨rfl, ⟨sub, got, eq⟩, out⟩ := h
      rw [wf.completionsDepth] at eq
      rw [wf.completionsDepth, wf.completionsStride] at out
      rw [inv.ledger.sids _ sub got] at eq
      refine .of_outstanding (inv.ledger.polled eq) rfl ?_
      rw [submissions_polled, completions_polled, List.length_append]
      exact out
    | none =>
      obtain ⟨rfl, out⟩ := h
      rw [wf.completionsDepth, wf.completionsStride] at out
      refine .of_outstanding (inv.ledger.idle submissions_polled completions_idle) rfl ?_
      rw [submissions_polled, completions_idle]
      exact out

/-- A call begins. -/
lemma System.Inv.begin (inv : s.Inv) (idle : s.running = none) (c : Call) :
    ({ s with quiet := s.memory, running := some (c, s.queue.call c) } : System).Inv where
  ledger := inv.ledger
  order := inv.order
  room := inv.room
  kept := inv.kept
  idle h := by cases h
  busy _ _ _ _ le lt := (inv.idle idle).not_free le lt
  running c p h := by
    cases h
    exact ModqQueue.wp_call inv.ledger (inv.idle idle) rfl

/-- The next access of the call in progress. -/
lemma System.Inv.access (inv : s.Inv) {c : Call}
    {p : Prog Memory (ModqQueue × Return)} (running : s.running = some (c, p)) :
    ({ s with
      memory := (p.next s.memory).2
      running := some (c, (p.next s.memory).1) } : System).Inv := by
  have header : 16 ≤ s.stride := inv.ledger.wf.fits.le_stride
  have wp := inv.running c p running
  have leaves := wp.guar
  constructor
  case ledger => exact inv.ledger
  case order => exact inv.order
  case room => exact inv.room
  case idle =>
    intro h
    cases h
  case running =>
    intro c p h
    cases h
    exact wp.next
  case kept =>
    intro k sub le got
    have held := inv.kept k sub le got
    have lt : k < (submissions s.returns).length := (List.getElem?_eq_some_iff.mp got).1
    cases leaves with
    | inl same =>
      rw [show (p.next s.memory).2 = s.memory from same]
      exact held
    | inr leaves =>
      cases c with
      | submit payload =>
        have used : k % s.depth < s.depth := Nat.mod_lt k inv.ledger.wf.fits.pos
        exact held.same (leaves _ used (inv.busy payload p running k le lt)).sameBody
      | poll => exact held.same (leaves _)
  case busy =>
    intro payload p' h k le lt
    cases h
    have used : k % s.depth < s.depth := Nat.mod_lt k inv.ledger.wf.fits.pos
    have busy := inv.busy payload p running k le lt
    cases leaves with
    | inl same =>
      rw [show (p.next s.memory).2 = s.memory from same]
      exact busy
    | inr leaves =>
      exact fun free => busy (((leaves _ used busy).status header).symm.trans free)

/-- What a step can do: nothing, an action of the device, or an access after which a call may return. -/
lemma System.Inv.step_cases (inv : s.Inv) (e : Event) :
    s.step e = s ∨ (∃ slot, e = .device slot) ∨
      ∃ s' : System, s'.Inv ∧ s'.queue = s.queue ∧ s'.returns = s.returns ∧ s.step e = s'.settle := by
  cases e with
  | call c =>
    simp only [System.step]
    split
    case h_1 idle => exact .inr (.inr ⟨_, inv.begin idle c, rfl, rfl, rfl⟩)
    case h_2 => exact .inl rfl
  | host =>
    simp only [System.step]
    split
    case h_1 => exact .inl rfl
    case h_2 c p running => exact .inr (.inr ⟨_, inv.access running, rfl, rfl, rfl⟩)
  | device slot => exact .inr (.inl ⟨slot, rfl⟩)

lemma System.Inv.step (inv : s.Inv) (e : Event) : (s.step e).Inv := by
  obtain same | ⟨slot, rfl⟩ | ⟨s', inv', _, _, settles⟩ := inv.step_cases e
  · rw [same]
    exact inv
  · exact inv.device slot
  · rw [settles]
    exact inv'.settle

/-! ## The promises -/

lemma System.memory_settle : s.settle.memory = s.memory := by
  obtain same | ⟨_, _, _, _, returned⟩ := s.settle_cases
  · rw [same]
  · rw [returned]

lemma System.Inv.settle_fails (inv : s.Inv) {error : RingError}
    (returned : s.settle.returns = s.returns ++ [.submitted payload (.error error)]) :
    s.settle.memory = s.settle.quiet ∧ s.settle.queue = s.queue := by
  obtain same | ⟨c, queue, r, running, settles⟩ := s.settle_cases
  · rw [same] at returned
    exact absurd (List.self_eq_append_right.mp returned) (List.cons_ne_nil _ _)
  have ends := (inv.running c _ running).post
  rw [settles] at returned ⊢
  have eq : r = .submitted payload (.error error) :=
    List.singleton_inj.mp (List.append_cancel_left returned)
  subst eq
  cases c with
  | submit payload' =>
    obtain ⟨tx, result, rfl, e, h⟩ := ends
    cases e
    obtain ⟨rfl, equal, _⟩ := h
    exact ⟨equal, rfl⟩
  | poll =>
    obtain ⟨_, _, _, e, _⟩ := ends
    cases e

lemma System.Inv.fails (inv : s.Inv) {e : Event} {error : RingError}
    (returned : (s.step e).returns = s.returns ++ [.submitted payload (.error error)]) :
    (s.step e).memory = (s.step e).quiet ∧ (s.step e).queue = s.queue := by
  have longer : s.returns ≠ s.returns ++ [.submitted payload (.error error)] :=
    fun same => absurd (List.self_eq_append_right.mp same) (List.cons_ne_nil _ _)
  obtain same | ⟨slot, rfl⟩ | ⟨s', inv', queue, returns, settles⟩ := inv.step_cases e
  · rw [same] at returned
    exact absurd returned longer
  · exact absurd returned longer
  · rw [settles] at returned ⊢
    rw [← queue]
    rw [← returns] at returned
    exact inv'.settle_fails returned

lemma System.Inv.spares (inv : s.Inv)
    {p : Prog Memory (ModqQueue × Return)} (running : s.running = some (.submit payload, p))
    {i : Nat} (lt : i < s.depth) (busy : status s.stride s.memory i ≠ slotFree) :
    SameSlot s.stride i s.memory (s.step .host).memory := by
  simp only [System.step, running, memory_settle]
  cases (inv.running _ p running).guar with
  | inl same =>
    rw [show (p.next s.memory).2 = s.memory from same]
    exact AgreeOn.refl
  | inr spares => exact spares i lt busy

lemma System.Inv.safe (inv : s.Inv) : s.Safe := by
  constructor
  case tail => exact inv.ledger.tail
  case nextSid => exact inv.ledger.nextSid
  case head => exact inv.ledger.head
  case order => exact inv.order
  case room => exact Nat.sub_le_of_le_add (Nat.add_comm .. ▸ inv.room)
  case busy =>
    rintro idle k i ⟨le, lt, rfl⟩
    exact (inv.idle idle).busy k le lt
  case free =>
    intro idle i lt unused
    apply (inv.idle idle).free i lt
    intro k le lt' eq
    exact unused k ⟨le, lt', eq⟩
  case spares => exact fun payload p running i lt busy => inv.spares running lt busy
  case kept =>
    rintro k i sub ⟨le, _, rfl⟩ got
    exact inv.kept k sub le got
  case sids => exact inv.ledger.sids
  case polls => exact inv.ledger.polls
  case fails => exact fun e payload error returned => inv.fails returned

/-! ## Opening -/

variable {config : ModqConfig} {bar : BarMapping}

lemma ModqConfig.toNat_slotStride :
    config.slotStride.toNat = (config.slotSize.toNat + 79) % 2 ^ 32 / 64 * 64 := by
  have sum : (config.slotSize + 16 + 63).toNat = (config.slotSize.toNat + 79) % 2 ^ 32 := by
    rw [UInt32.toNat_add, UInt32.toNat_add, Nat.mod_add_mod]
    rfl
  have align : config.slotStride.toNat = (config.slotSize + 16 + 63).toNat / 2 ^ 6 * 2 ^ 6 :=
    toNat_and_not_two_pow_sub_one (config.slotSize + 16 + 63).toBitVec 6
  rw [align, sum]
  rfl

lemma ModqConfig.le_slotStride (lt : config.slotSize.toNat + 79 < 2 ^ 32) :
    64 ≤ config.slotStride.toNat := by
  rw [toNat_slotStride, Nat.mod_eq_of_lt lt]
  omega

/-- The two sums of the header and the payload are one. -/
lemma ModqConfig.slotStride_tx :
    (config.handle bar).tx.slotStride = config.slotStride := by
  show (16 + config.slotSize + 63) &&& ~~~63 = (config.slotSize + 16 + 63) &&& ~~~63
  rw [UInt32.add_comm 16]

lemma exists_of_isPowerOfTwo {x : UInt32} (h : isPowerOfTwo x = true) :
    ∃ k, k < 32 ∧ x.toNat = 2 ^ k := by
  obtain ⟨k, mem, eq⟩ := List.any_eq_true.mp h
  exact ⟨k, List.mem_range.mp mem, beq_iff_eq.mp eq⟩

lemma pos_of_isPowerOfTwo {x : UInt32} (h : isPowerOfTwo x = true) : 0 < x.toNat := by
  obtain ⟨k, -, eq⟩ := exists_of_isPowerOfTwo h
  rw [eq]
  exact Nat.two_pow_pos k

/-- A region that the host does not initialize has room for the ring, with every slot free. -/
def ModqConfig.Prepared (config : ModqConfig) (os : Os) (m : Memory) : Prop :=
  match config.transport with
  | .pciBar resourcePath =>
    (∀ size, os.openFile resourcePath = .ok size → config.totalSize ≤ size) ∧
      ∀ i, i < config.ringDepth.toNat → status config.slotStride.toNat m i = slotFree
  | .loopback _ => True

lemma run_write32_ok {offset : Nat} {value : UInt32} {m m' : Memory} {u : Unit}
    (h : (bar.write32 offset value).run m = some (u, m')) : m' = m.storeWord32 offset value := by
  unfold BarMapping.write32 at h
  split at h
  case isTrue => exact (congrArg Prod.snd (Option.some.inj h)).symm
  case isFalse => cases h

/-- The loop of `open` frees the slots it goes over. -/
lemma run_free_ok {stride : Nat} (le : 16 ≤ stride) {slots : List Nat} {m m' : Memory} {u : Unit}
    (h : (slots.forM fun i => bar.write32 (regs.ringBase + i * stride) slotFree).run m
      = some (u, m')) :
    ∀ i, i ∈ slots ∨ status stride m i = slotFree → status stride m' i = slotFree := by
  induction slots generalizing m with
  | nil =>
    obtain rfl : m = m' := congrArg Prod.snd (Option.some.inj h)
    intro i free
    cases free with
    | inl mem => cases mem
    | inr free => exact free
  | cons j slots ih =>
    obtain ⟨_, m₁, wrote, rest⟩ := run_bind_ok h
    have set : m₁ = setStatus stride j slotFree m := run_write32_ok wrote
    intro i free
    apply ih rest i
    by_cases eq : i = j
    case pos =>
      subst eq
      rw [set]
      exact .inr status_setStatus
    case neg =>
      cases free with
      | inl mem => exact .inl ((List.mem_cons.mp mem).resolve_left eq)
      | inr free =>
        rw [set, status_setStatus_ne le eq]
        exact .inr free

lemma BarMapping.open_ok {os : Os} {resourcePath : String}
    (h : BarMapping.open os resourcePath = .ok bar) : os.openFile resourcePath = .ok bar.size := by
  unfold BarMapping.open at h
  split at h
  case h_1 => cases h
  case h_2 size got =>
    split at h
    case isTrue => cases h
    case isFalse =>
      split at h
      case isTrue =>
        cases h
        exact got
      case isFalse => cases h

lemma BarMapping.openShm_ok {os : Os} {name : String} {size : Nat}
    (h : BarMapping.openShm os name size = .ok bar) : bar.size = size := by
  unfold BarMapping.openShm at h
  split at h
  case isTrue => cases h
  case isFalse =>
    split at h
    case isTrue => cases h
    case isFalse =>
      split at h
      case isTrue => cases h
      case isFalse =>
        split at h
        case isTrue =>
          cases h
          rfl
        case isFalse => cases h

/-- A prepared region, or the region that the host has initialized, is that of an empty ring. -/
lemma ModqQueue.open_ok {os : Os} {queue : ModqQueue} {m₀ m : Memory}
    (opened : (ModqQueue.open os config).run m₀ = some (.ok queue, m))
    (header : 16 ≤ config.slotStride.toNat) (prepared : config.Prepared os m₀) :
    isPowerOfTwo config.ringDepth = true ∧ ∃ bar : BarMapping, queue = config.handle bar ∧
      config.totalSize ≤ bar.size ∧
      ∀ i, i < config.ringDepth.toNat → status config.slotStride.toNat m i = slotFree := by
  unfold ModqQueue.open at opened
  unfold ModqConfig.Prepared at prepared
  split at opened
  case isTrue => cases congrArg Prod.fst (Option.some.inj opened)
  case isFalse power =>
    refine ⟨by simpa using power, ?_⟩
    split at opened
    case h_1 resourcePath transport =>
      simp only [transport] at prepared
      split at opened
      case h_1 => cases congrArg Prod.fst (Option.some.inj opened)
      case h_2 bar mapped =>
        cases opened
        exact ⟨bar, rfl, prepared.1 _ (BarMapping.open_ok mapped), prepared.2⟩
    case h_2 shmName transport =>
      split at opened
      case h_1 => cases congrArg Prod.fst (Option.some.inj opened)
      case h_2 bar mapped =>
        obtain ⟨_, m₁, initialized, rest⟩ := run_bind_ok opened
        cases rest
        refine ⟨bar, rfl, (BarMapping.openShm_ok mapped).ge, ?_⟩
        obtain ⟨_, _, _, initialized⟩ := run_bind_ok initialized
        obtain ⟨_, _, _, initialized⟩ := run_bind_ok initialized
        obtain ⟨_, _, _, initialized⟩ := run_bind_ok initialized
        obtain ⟨_, _, _, initialized⟩ := run_bind_ok initialized
        intro i lt
        exact run_free_ok header initialized i (.inl (List.mem_range.mpr lt))

lemma ModqConfig.wf_handle
    (lt : config.slotSize.toNat + 79 < 2 ^ 32) (power : isPowerOfTwo config.ringDepth = true)
    (size : config.totalSize ≤ bar.size) : (config.handle bar).Wf := by
  obtain ⟨k, ltk, depth⟩ := exists_of_isPowerOfTwo power
  constructor
  case fits =>
    constructor
    case pos => exact pos_of_isPowerOfTwo power
    case dvd =>
      rw [show (config.handle bar).config.ringDepth = config.ringDepth from rfl, depth]
      exact Nat.pow_dvd_pow 2 (by omega)
    case header => exact config.le_slotStride lt
    case size =>
      rw [Nat.mul_comm]
      exact size
  case txStride => exact config.slotStride_tx
  all_goals rfl

lemma System.Inv.start {m : Memory} (wf : (config.handle bar).Wf)
    (free : ∀ i, i < config.ringDepth.toNat → status config.slotStride.toNat m i = slotFree) :
    (System.start (config.handle bar) m).Inv := by
  refine .of_outstanding ?_ rfl ?_
  · exact ⟨wf, rfl, rfl, rfl, fun k sub got => (by cases got), fun k c got => (by cases got)⟩
  · constructor
    case le => exact le_rfl
    case room => exact Nat.zero_le _
    case busy => exact fun k _ lt => absurd lt (Nat.not_lt_zero k)
    case held =>
      intro k sub _ got
      cases got
    case free => exact fun i lt _ => free i lt

/-- The ring protocol is safe: after every sequence of calls, accesses and device actions on a queue that was opened
    over a shared memory object, or over a PCIe region with room for the ring and every slot free. -/
theorem ring_protocol_safety {os : Os} {config : ModqConfig} {queue : ModqQueue} {m₀ m : Memory}
    (opened : (ModqQueue.open os config).run m₀ = some (.ok queue, m))
    (noOverflow : config.slotSize.toNat + 79 < 2 ^ 32) (prepared : config.Prepared os m₀)
    (events : List Event) : (events.foldl System.step (.start queue m)).Safe := by
  have header : 16 ≤ config.slotStride.toNat := le_trans (by decide) (config.le_slotStride noOverflow)
  obtain ⟨power, bar, rfl, size, free⟩ := ModqQueue.open_ok opened header prepared
  have start : (System.start (config.handle bar) m).Inv :=
    .start (config.wf_handle noOverflow power size) free
  have inv : (events.foldl System.step (.start (config.handle bar) m)).Inv :=
    run_inv (P := fun s : System => s.Inv) events start fun _ e inv => inv.step e
  exact inv.safe

/-- An operating system on which every call succeeds, with files of `size` bytes. -/
def plainOs (size : Nat) : Os where
  openFile _ := .ok size
  shmOpen _ := true
  ftruncate _ _ := true
  mmap _ _ := true

def loopbackConfig : ModqConfig :=
  { transport := .loopback "/ring", ringDepth := 2, slotSize := 16 }

/-- The memory of a loopback queue over an object with old contents. -/
def loopbackMemory : Memory :=
  (((ModqQueue.open (plainOs 0) loopbackConfig).run fun _ => 1).get rfl).2

/-- Two payloads are submitted, the device is done with the second one first, and both are polled. -/
def twoSubmissions : List Event :=
  [.call (.submit (ascii "ab"))] ++ List.replicate 7 .host ++ [.call (.submit (ascii "c"))] ++
    List.replicate 6 .host ++ [.device 1, .call .poll, .host, .device 0, .call .poll, .host, .host,
      .host, .call .poll, .host, .host, .host]

def twoCompletions : System :=
  twoSubmissions.foldl System.step
    (.start (loopbackConfig.handle ⟨loopbackConfig.totalSize⟩) loopbackMemory)

theorem ring_protocol_safety_twoSubmissions :
    (submissions twoCompletions.returns).length = 2 ∧
      (completions twoCompletions.returns).length = 2 ∧ twoCompletions.Safe :=
  ⟨by decide +kernel, by decide +kernel,
    @ring_protocol_safety (plainOs 0) loopbackConfig _ (fun _ => 1) _ rfl (by decide) trivial _⟩

def pciConfig : ModqConfig :=
  { transport := .pciBar "resource2", ringDepth := 1, slotSize := 16 }

/-- A region whose only slot is done, as an earlier process may leave it. -/
def usedRegion : Memory :=
  setStatus 64 0 slotDone fun _ => 0

/-- Without the condition on PCIe regions: the first poll returns a completion, and nothing was submitted. -/
theorem not_ring_protocol_safety :
    ¬ ∀ (os : Os) (config : ModqConfig) (queue : ModqQueue) (m₀ m : Memory),
      (ModqQueue.open os config).run m₀ = some (.ok queue, m) →
      config.slotSize.toNat + 79 < 2 ^ 32 → ∀ events : List Event,
      (events.foldl System.step (.start queue m)).Safe := by
  intro h
  have safe := h (plainOs 4160) pciConfig _ usedRegion _ rfl (by decide)
    [.call .poll, .host, .host, .host]
  have order := safe.order
  revert order
  decide +kernel

end Otap.Modq
