import Otap.Lib.Commuting

/-!
# Two programs over a byte stream

A program sends symbols, receives symbols and returns a result (`Proc`). Two of them are connected by a stream in each
direction (`Conn`): symbols wait on the wire and, once delivered, in the inbox of the receiver. A program that has
returned has closed its end; a receive from an empty stream whose other end is closed yields `none`.

One step moves one symbol: a program is polled, or the network delivers. Whatever pieces the network and the calls of
the operating system move at once, they move them one after the other, so a schedule of such steps covers every
fragmentation. `Conn.commuting` says that the steps commute; by the rules of `Otap.Lib.Commuting` every schedule then
has the same outcome. `Conn.exchange` and `Conn.hangUp` give the outcome of the two things that happen in a protocol of
messages of fixed sizes.
-/

namespace Otap.Lib

variable {σ α β : Type}

/-! ## Programs -/

inductive Proc (σ α : Type)
  | ret (result : α)
  | send (symbol : σ) (next : Proc σ α)
  | recv (next : Option σ → Proc σ α)

namespace Proc

def bind : Proc σ α → (α → Proc σ β) → Proc σ β
  | ret a, f => f a
  | send b next, f => send b (next.bind f)
  | recv next, f => recv fun b => (next b).bind f

instance : Monad (Proc σ) where
  pure := ret
  bind := bind

@[simp] lemma pure_eq (a : α) : (pure a : Proc σ α) = ret a := rfl

@[simp] lemma bind_eq (p : Proc σ α) (f : α → Proc σ β) : p >>= f = p.bind f := rfl

@[simp] lemma ret_bind (a : α) (f : α → Proc σ β) : (ret a).bind f = f a := rfl

@[simp] lemma send_bind (b : σ) (next : Proc σ α) (f : α → Proc σ β) :
    (send b next).bind f = send b (next.bind f) := rfl

@[simp] lemma recv_bind (next : Option σ → Proc σ α) (f : α → Proc σ β) :
    (recv next).bind f = recv fun b => (next b).bind f := rfl

lemma bind_assoc {γ : Type} (p : Proc σ α) (f : α → Proc σ β) (g : β → Proc σ γ) :
    (p.bind f).bind g = p.bind fun a => (f a).bind g := by
  induction p with
  | ret a => rfl
  | send b next ih => rw [send_bind, send_bind, send_bind, ih]
  | recv next ih =>
    rw [recv_bind, recv_bind, recv_bind]
    congr 1
    funext b
    exact ih b

lemma bind_congr (p : Proc σ α) {f g : α → Proc σ β} (same : ∀ a, f a = g a) : p.bind f = p.bind g := by
  rw [funext same]

/-- Sends all symbols. -/
def writeAll : List σ → Proc σ Unit
  | [] => ret ()
  | b :: rest => send b (writeAll rest)

/-- Fills a buffer of a size from the left; `none` if the stream ends before. -/
def readExact : (size : Nat) → Proc σ (Option (Vector σ size))
  | 0 => ret (some #v[])
  | size + 1 => (readExact size).bind fun
    | none => ret none
    | some buf => recv fun b => ret (b.map buf.push)

/-- A read of at least one symbol begins with a receive, and fails with it. -/
lemma readExact_recv {size : Nat} (pos : 0 < size) :
    ∃ next, readExact (σ := σ) size = recv next ∧ next none = ret none := by
  induction size with
  | zero => cases pos
  | succ size ih =>
    rcases Nat.eq_zero_or_pos size with rfl | pos
    · exact ⟨_, rfl, rfl⟩
    · obtain ⟨next, reads, none_⟩ := ih pos
      refine ⟨_, by rw [readExact, reads, recv_bind], ?_⟩
      rw [none_]
      rfl

/-- The result of a program that receives the symbols and then the end of the stream. -/
def result : Proc σ α → List σ → α
  | ret a, _ => a
  | send _ next, input => next.result input
  | recv next, [] => (next none).result []
  | recv next, b :: input => (next (some b)).result input

/-- A program in two parts ends as its second part does, on what the first one leaves. -/
lemma result_bind (p : Proc σ α) (f : α → Proc σ β) (input : List σ) :
    ∃ a rest, (p.bind f).result input = (f a).result rest := by
  induction p generalizing input with
  | ret a => exact ⟨a, input, rfl⟩
  | send b next ih => exact ih input
  | recv next ih =>
    cases input with
    | nil => exact ih none []
    | cons b input => exact ih (some b) input

end Proc

/-! ## Connections -/

inductive End
  | left
  | right
deriving DecidableEq

namespace End

def other : End → End
  | left => right
  | right => left

@[simp] lemma other_other (e : End) : e.other.other = e := by
  cases e <;> rfl

lemma other_ne (e : End) : e.other ≠ e := by
  cases e <;> decide

lemma ne_other (e : End) : e ≠ e.other :=
  e.other_ne.symm

lemma eq_other_of_ne {e f : End} (ne : e ≠ f) : f = e.other := by
  cases e <;> cases f <;> first | rfl | exact absurd rfl ne

end End

/-- The programs at the two ends, what each has sent that is still on the wire, and what has arrived at each. -/
@[ext] structure Conn (σ α : Type) where
  task : End → Proc σ α
  wire : End → List σ
  inbox : End → List σ

/-- What happens next: a program is polled, or the first symbol that an end has sent arrives. -/
inductive Move
  | poll (e : End)
  | deliver (sender : End)
deriving DecidableEq

namespace Conn

def connect (left right : Proc σ α) : Conn σ α where
  task
    | .left => left
    | .right => right
  wire _ := []
  inbox _ := []

/-- The program at the end has returned. -/
def closed (c : Conn σ α) (e : End) : Bool :=
  match c.task e with
  | .ret _ => true
  | _ => false

/-- Nothing more arrives at the end. -/
def ended (c : Conn σ α) (e : End) : Bool :=
  c.closed e.other && (c.wire e.other).isEmpty

def setTask (c : Conn σ α) (e : End) (p : Proc σ α) : Conn σ α :=
  { c with task := Function.update c.task e p }

def setWire (c : Conn σ α) (e : End) (bytes : List σ) : Conn σ α :=
  { c with wire := Function.update c.wire e bytes }

def setInbox (c : Conn σ α) (e : End) (bytes : List σ) : Conn σ α :=
  { c with inbox := Function.update c.inbox e bytes }

def step (c : Conn σ α) : Move → Option (Conn σ α)
  | .deliver e =>
    match c.wire e with
    | [] => none
    | b :: rest => some ((c.setWire e rest).setInbox e.other (c.inbox e.other ++ [b]))
  | .poll e =>
    match c.task e with
    | .ret _ => none
    | .send b next => some ((c.setTask e next).setWire e (c.wire e ++ [b]))
    | .recv next =>
      match c.inbox e with
      | b :: rest => some ((c.setTask e (next (some b))).setInbox e rest)
      | [] => if c.ended e then some (c.setTask e (next none)) else none

section Fields

variable (c : Conn σ α) (e f : End) (p : Proc σ α) (bytes : List σ)

@[simp] lemma task_setTask : (c.setTask e p).task f = if f = e then p else c.task f := by
  simp [setTask, Function.update_apply]

@[simp] lemma wire_setTask : (c.setTask e p).wire = c.wire := rfl
@[simp] lemma inbox_setTask : (c.setTask e p).inbox = c.inbox := rfl
@[simp] lemma task_setWire : (c.setWire e bytes).task = c.task := rfl

@[simp] lemma wire_setWire : (c.setWire e bytes).wire f = if f = e then bytes else c.wire f := by
  simp [setWire, Function.update_apply]

@[simp] lemma inbox_setWire : (c.setWire e bytes).inbox = c.inbox := rfl
@[simp] lemma task_setInbox : (c.setInbox e bytes).task = c.task := rfl
@[simp] lemma wire_setInbox : (c.setInbox e bytes).wire = c.wire := rfl

@[simp] lemma inbox_setInbox : (c.setInbox e bytes).inbox f = if f = e then bytes else c.inbox f := by
  simp [setInbox, Function.update_apply]

@[simp] lemma setTask_setTask (q : Proc σ α) : (c.setTask e p).setTask e q = c.setTask e q := by
  simp [setTask]

@[simp] lemma setWire_setWire (bytes' : List σ) : (c.setWire e bytes).setWire e bytes' = c.setWire e bytes' := by
  simp [setWire]

@[simp] lemma setInbox_setInbox (bytes' : List σ) : (c.setInbox e bytes).setInbox e bytes' = c.setInbox e bytes' := by
  simp [setInbox]

@[simp] lemma setTask_setWire : (c.setWire f bytes).setTask e p = (c.setTask e p).setWire f bytes := rfl
@[simp] lemma setTask_setInbox : (c.setInbox f bytes).setTask e p = (c.setTask e p).setInbox f bytes := rfl

@[simp] lemma setWire_setInbox (bytes' : List σ) :
    (c.setInbox f bytes).setWire e bytes' = (c.setWire e bytes').setInbox f bytes := rfl

end Fields

variable {c d : Conn σ α} {e : End} {m : Move}

lemma setTask_self {p : Proc σ α} (task : c.task e = p) : c.setTask e p = c := by
  subst task
  simp [setTask]

lemma setWire_self {bytes : List σ} (wire : c.wire e = bytes) : c.setWire e bytes = c := by
  subst wire
  simp [setWire]

lemma setInbox_self {bytes : List σ} (inbox : c.inbox e = bytes) :
    c.setInbox e bytes = c := by
  subst inbox
  simp [setInbox]

/-! ## What a step can do -/

/-- The possible steps. -/
inductive Stepped (c : Conn σ α) : Move → Conn σ α → Prop
  | deliver {e : End} {b : σ} {rest : List σ} : c.wire e = b :: rest →
    Stepped c (.deliver e) ((c.setWire e rest).setInbox e.other (c.inbox e.other ++ [b]))
  | send {e : End} {b : σ} {next : Proc σ α} : c.task e = .send b next →
    Stepped c (.poll e) ((c.setTask e next).setWire e (c.wire e ++ [b]))
  | recv {e : End} {next : Option σ → Proc σ α} {b : σ} {rest : List σ} :
    c.task e = .recv next → c.inbox e = b :: rest →
    Stepped c (.poll e) ((c.setTask e (next (some b))).setInbox e rest)
  | eof {e : End} {next : Option σ → Proc σ α} : c.task e = .recv next → c.inbox e = [] → c.ended e = true →
    Stepped c (.poll e) (c.setTask e (next none))

lemma step_eq_some_iff : c.step m = some d ↔ Stepped c m d := by
  constructor
  · intro fired
    cases m with
    | deliver e =>
      simp only [step] at fired
      split at fired
      case h_1 => cases fired
      case h_2 wire =>
        cases fired
        exact .deliver wire
    | poll e =>
      simp only [step] at fired
      split at fired
      case h_1 => cases fired
      case h_2 task =>
        cases fired
        exact .send task
      case h_3 task =>
        split at fired
        case h_1 inbox =>
          cases fired
          exact .recv task inbox
        case h_2 inbox =>
          split at fired
          case isTrue ended =>
            cases fired
            exact .eof task inbox ended
          case isFalse => cases fired
  · intro stepped
    cases stepped with
    | deliver wire => simp only [step, wire]
    | send task => simp only [step, task]
    | recv task inbox => simp only [step, task, inbox]
    | eof task inbox ended => simp only [step, task, inbox, ended, if_true]

/-! ## The steps commute -/

lemma closed_iff : c.closed e = true ↔ ∃ a, c.task e = .ret a := by
  unfold closed
  split
  case h_1 a task => simp [task]
  case h_2 open_ =>
    simp only [Bool.false_eq_true, false_iff, not_exists]
    exact open_

lemma ended_iff :
    c.ended e = true ↔ (∃ a, c.task e.other = .ret a) ∧ c.wire e.other = [] := by
  rw [ended, Bool.and_eq_true, closed_iff, List.isEmpty_iff]

/-- An end that still has something on the wire, or a program to poll, is not the one whose peer has gone. -/
lemma eq_of_ended {e f : End} (gone : c.ended e = true) (busy : c.wire f ≠ [] ∨ ∀ a, c.task f ≠ .ret a) : f = e := by
  obtain ⟨⟨r, closed⟩, drained⟩ := ended_iff.mp gone
  by_contra ne
  rw [← End.eq_other_of_ne (Ne.symm ne)] at closed drained
  exact busy.elim (fun wire => wire drained) fun task => task r closed

/-- The state that a step leads to, given field by field. -/
lemma Stepped.to {c d d' : Conn σ α} (stepped : Stepped c m d') (task : ∀ g, d'.task g = d.task g)
    (wire : ∀ g, d'.wire g = d.wire g) (inbox : ∀ g, d'.inbox g = d.inbox g) : Stepped c m d := by
  have same : d' = d := Conn.ext (funext task) (funext wire) (funext inbox)
  exact same ▸ stepped

lemma deliver_deliver {c a b : Conn σ α} (first : Stepped c (.deliver e) a)
    (second : Stepped c (.deliver e.other) b) : ∃ d, Stepped a (.deliver e.other) d ∧ Stepped b (.deliver e) d := by
  cases first with | @deliver _ x rest wire =>
  cases second with | @deliver _ y rest' wire' =>
  set a := (c.setWire e rest).setInbox e.other (c.inbox e.other ++ [x])
  set b := (c.setWire e.other rest').setInbox e.other.other (c.inbox e.other.other ++ [y])
  have waits' : a.wire e.other = y :: rest' := by simpa [a, e.other_ne] using wire'
  have waits : b.wire e = x :: rest := by simpa [b, e.ne_other] using wire
  refine ⟨_, .deliver waits', (Stepped.deliver waits).to ?_ ?_ ?_⟩
  · simp [a, b]
  · intro g
    cases e <;> cases g <;> simp [a, b, End.other]
  · intro g
    cases e <;> cases g <;> simp [a, b, End.other]

lemma deliver_poll {c a b : Conn σ α} {e f : End} (first : Stepped c (.deliver e) a) (second : Stepped c (.poll f) b) :
    ∃ d, Stepped a (.poll f) d ∧ Stepped b (.deliver e) d := by
  cases first with | @deliver _ x rest wire =>
  set a := (c.setWire e rest).setInbox e.other (c.inbox e.other ++ [x])
  cases second with
  | @send _ y next task =>
    set b := (c.setTask f next).setWire f (c.wire f ++ [y])
    have sends : a.task f = .send y next := by simpa [a] using task
    have waits : b.wire e = x :: if e = f then rest ++ [y] else rest := by
      by_cases same : e = f
      · subst same
        simp [b, wire]
      · simp [b, same, wire]
    refine ⟨_, .send sends, (Stepped.deliver waits).to ?_ ?_ ?_⟩
    · simp [a, b]
    · intro g
      cases e <;> cases f <;> cases g <;> simp [a, b]
    · intro g
      cases e <;> cases f <;> cases g <;> simp [a, b]
  | @recv _ next y rest' task inbox =>
    set b := (c.setTask f (next (some y))).setInbox f rest'
    have receives : a.task f = .recv next := by simpa [a] using task
    have arrived : a.inbox f = y :: if f = e.other then rest' ++ [x] else rest' := by
      by_cases same : f = e.other
      · subst same
        simp [a, inbox]
      · simp [a, same, inbox]
    have waits : b.wire e = x :: rest := by simpa [b] using wire
    refine ⟨_, .recv receives arrived, (Stepped.deliver waits).to ?_ ?_ ?_⟩
    · simp [a, b]
    · simp [a, b]
    · intro g
      cases e <;> cases f <;> cases g <;> simp [a, b, End.other]
  | @eof _ next task inbox ended =>
    obtain ⟨closed, drained⟩ := ended_iff.mp ended
    -- the stream to `f` is drained, so what is delivered comes from `f`
    obtain rfl : e = f := eq_of_ended ended (.inl (by simp [wire]))
    set b := c.setTask e (next none)
    have receives : a.task e = .recv next := by simpa [a] using task
    have empty : a.inbox e = [] := by simpa [a, e.ne_other] using inbox
    have finished : a.ended e = true := by
      rw [ended_iff]
      simpa [a, e.other_ne] using ⟨closed, drained⟩
    have waits : b.wire e = x :: rest := by simpa [b] using wire
    refine ⟨_, .eof receives empty finished, (Stepped.deliver waits).to ?_ ?_ ?_⟩
    · simp [a, b]
    · simp [a, b]
    · simp [a, b]

/-- A program that can still be polled has not closed its end. -/
lemma Stepped.open_end {c a : Conn σ α} (polled : Stepped c (.poll e.other) a) : c.ended e = false := by
  rw [Bool.eq_false_iff]
  intro gone
  apply e.other_ne
  apply eq_of_ended gone
  cases polled with
  | send task => exact .inr (by simp [task])
  | recv task _ => exact .inr (by simp [task])
  | eof task _ _ => exact .inr (by simp [task])

/-- The step of one end leaves the other as it is. -/
lemma Stepped.poll_frame {c a : Conn σ α} (polled : Stepped c (.poll e.other) a) :
    a.task e = c.task e ∧ a.wire e = c.wire e ∧ a.inbox e = c.inbox e := by
  cases polled with
  | send | recv | eof => simp [e.ne_other]

/-- One end as after its own step, the other as after its own. -/
def both (e : End) (a b : Conn σ α) : Conn σ α where
  task g := if g = e then a.task g else b.task g
  wire g := if g = e then a.wire g else b.wire g
  inbox g := if g = e then a.inbox g else b.inbox g

lemma both_other (e : End) (a b : Conn σ α) : both e.other b a = both e a b := by
  refine Conn.ext (funext fun g => ?_) (funext fun g => ?_) (funext fun g => ?_)
  all_goals cases e <;> cases g <;> rfl

lemma Stepped.poll_both {c a b : Conn σ α} (first : Stepped c (.poll e) a)
    (second : Stepped c (.poll e.other) b) : Stepped b (.poll e) (both e a b) := by
  obtain ⟨task, wire, inbox⟩ := second.poll_frame
  cases first with
  | send sends =>
    refine (Stepped.send (task.trans sends)).to ?_ ?_ ?_
    all_goals
      intro g
      by_cases here : g = e
      · simp [both, here, wire, inbox]
      · simp [both, here]
  | recv receives arrived =>
    refine (Stepped.recv (task.trans receives) (inbox.trans arrived)).to ?_ ?_ ?_
    all_goals
      intro g
      by_cases here : g = e
      · simp [both, here, wire]
      · simp [both, here]
  | eof _ _ ended => cases second.open_end.symm.trans ended

lemma poll_poll {c a b : Conn σ α} (first : Stepped c (.poll e) a) (second : Stepped c (.poll e.other) b) :
    ∃ d, Stepped a (.poll e.other) d ∧ Stepped b (.poll e) d := by
  refine ⟨both e a b, ?_, first.poll_both second⟩
  rw [← both_other]
  exact second.poll_both (e.other_other.symm ▸ first)

lemma commuting : Commuting (fun _ => True) (step : Conn σ α → Move → Option (Conn σ α)) := by
  refine ⟨fun _ _ => trivial, @fun c a b l m _ ne first second => ?_⟩
  rw [step_eq_some_iff] at first second
  simp only [step_eq_some_iff]
  cases l with
  | deliver e =>
    cases m with
    | deliver f =>
      obtain rfl : f = e.other := End.eq_other_of_ne fun same => ne (same ▸ rfl)
      exact deliver_deliver first second
    | poll f => exact deliver_poll first second
  | poll e =>
    cases m with
    | deliver f =>
      obtain ⟨d, left, right⟩ := deliver_poll second first
      exact ⟨d, right, left⟩
    | poll f =>
      obtain rfl : f = e.other := End.eq_other_of_ne fun same => ne (same ▸ rfl)
      exact poll_poll first second

/-! ## Messages of fixed sizes -/

/-- Nothing is under way between two programs, of which the first is at the end `e`. -/
def between (e : End) (p q : Proc σ α) : Conn σ α where
  task g := if g = e then p else q
  wire _ := []
  inbox _ := []

lemma connect_eq (p q : Proc σ α) : connect p q = between .left p q :=
  Conn.ext (funext fun g => by cases g <;> rfl) rfl rfl

lemma between_swap (e : End) (p q : Proc σ α) : between e p q = between e.other q p :=
  Conn.ext (funext fun g => by cases e <;> cases g <;> rfl) rfl rfl

lemma steps_writeAll {bytes : List σ} {f : Unit → Proc σ α} (task : c.task e = (Proc.writeAll bytes).bind f) :
    Steps step bytes.length c ((c.setTask e (f ())).setWire e (c.wire e ++ bytes)) := by
  induction bytes generalizing c with
  | nil =>
    have same : (c.setTask e (f ())).setWire e (c.wire e ++ []) = c := by
      rw [setTask_self (show c.task e = f () from task), setWire_self (List.append_nil _).symm]
    exact same.symm ▸ .refl c
  | cons b rest ih =>
    refine .cons (step_eq_some_iff.mpr (.send task)) ?_
    set d := (c.setTask e ((Proc.writeAll rest).bind f)).setWire e (c.wire e ++ [b])
    have steps := ih (show d.task e = (Proc.writeAll rest).bind f by simp [d])
    have same : (d.setTask e (f ())).setWire e (d.wire e ++ rest) =
        (c.setTask e (f ())).setWire e (c.wire e ++ b :: rest) := by
      simp [d]
    exact same ▸ steps

lemma steps_deliver {bytes : List σ} (wire : c.wire e = bytes) :
    Steps step bytes.length c ((c.setWire e []).setInbox e.other (c.inbox e.other ++ bytes)) := by
  induction bytes generalizing c with
  | nil =>
    have same : (c.setWire e []).setInbox e.other (c.inbox e.other ++ []) = c := by
      rw [setWire_self wire, setInbox_self (List.append_nil _).symm]
    exact same.symm ▸ .refl c
  | cons b rest ih =>
    refine .cons (step_eq_some_iff.mpr (.deliver wire)) ?_
    set d := (c.setWire e rest).setInbox e.other (c.inbox e.other ++ [b])
    have steps := ih (show d.wire e = rest by simp [d])
    have same : (d.setWire e []).setInbox e.other (d.inbox e.other ++ rest) =
        (c.setWire e []).setInbox e.other (c.inbox e.other ++ b :: rest) := by
      simp [d]
    exact same ▸ steps

lemma steps_readExact {size : Nat} {buf : Vector σ size} {rest : List σ}
    {f : Option (Vector σ size) → Proc σ α} (task : c.task e = (Proc.readExact size).bind f)
    (inbox : c.inbox e = buf.toList ++ rest) :
    Steps step size c ((c.setTask e (f (some buf))).setInbox e rest) := by
  induction size generalizing rest with
  | zero =>
    obtain rfl : buf = #v[] := Vector.eq_empty
    have same : (c.setTask e (f (some #v[]))).setInbox e rest = c := by
      rw [setTask_self (show c.task e = f (some #v[]) from task),
        setInbox_self (show c.inbox e = rest from inbox)]
    exact same.symm ▸ .refl c
  | succ size ih =>
    obtain ⟨front, b, rfl⟩ : ∃ front b, buf = Vector.push front b := ⟨buf.pop, buf.back, by simp⟩
    rw [Proc.readExact, Proc.bind_assoc] at task
    have fills : c.inbox e = front.toList ++ b :: rest := by simpa [Vector.toList_push] using inbox
    set d := (c.setTask e (.recv fun b => f (b.map front.push))).setInbox e (b :: rest)
    have steps : Steps step size c d := ih task fills
    have last := Stepped.recv (show d.task e = .recv fun b => f (b.map front.push) by simp [d])
      (show d.inbox e = b :: rest by simp [d])
    have same : (d.setTask e (f (some (front.push b)))).setInbox e rest =
        (c.setTask e (f (some (front.push b)))).setInbox e rest := by
      simp [d]
    exact steps.trans (same ▸ .single (step_eq_some_iff.mpr last))

/-- A message that one program writes and the other one reads. -/
lemma exchange {size : Nat} (buf : Vector σ size) (f : Unit → Proc σ α)
    (g : Option (Vector σ size) → Proc σ α) :
    Steps step (3 * size) (between e ((Proc.writeAll buf.toList).bind f) ((Proc.readExact size).bind g))
      (between e (f ()) (g (some buf))) := by
  set c := between e ((Proc.writeAll buf.toList).bind f) ((Proc.readExact size).bind g)
  have written := steps_writeAll (show c.task e = (Proc.writeAll buf.toList).bind f by simp [c, between])
  set c₁ := (c.setTask e (f ())).setWire e (c.wire e ++ buf.toList)
  have delivered := steps_deliver (show c₁.wire e = buf.toList by simp [c₁, c, between])
  set c₂ := (c₁.setWire e []).setInbox e.other (c₁.inbox e.other ++ buf.toList)
  have read : Steps step size c₂ _ :=
    steps_readExact (show c₂.task e.other = (Proc.readExact size).bind g by simp [c₂, c₁, c, between, e.other_ne])
      (show c₂.inbox e.other = buf.toList ++ [] by simp [c₂, c₁, c, between])
  have same : (c₂.setTask e.other (g (some buf))).setInbox e.other [] = between e (f ()) (g (some buf)) := by
    refine Conn.ext (funext fun h => ?_) (funext fun h => ?_) (funext fun h => ?_)
    · cases e <;> cases h <;> simp [c₂, c₁, c, between, End.other]
    · simp [c₂, c₁, c, between]
    · simp [c₂, c₁, c, between]
  rw [Vector.length_toList] at written delivered
  exact ((written.trans delivered).trans (same ▸ read)).append (.refl _) (by omega)

/-- The program at one end has returned where the other one still reads. -/
lemma hangUp {size : Nat} (a : α) (pos : 0 < size) (g : Option (Vector σ size) → Proc σ α) :
    Steps step 1 (between e (.ret a) ((Proc.readExact size).bind g)) (between e (.ret a) (g none)) := by
  obtain ⟨next, reads, none_⟩ := Proc.readExact_recv (σ := σ) pos
  set c := between e (.ret a) ((Proc.readExact size).bind g)
  have receives : c.task e.other = .recv fun b => (next b).bind g := by simp [c, between, e.other_ne, reads]
  have finished : c.ended e.other = true := by
    rw [ended_iff, End.other_other]
    exact ⟨⟨a, by simp [c, between]⟩, rfl⟩
  have stepped := Stepped.eof receives (show c.inbox e.other = [] from rfl) finished
  have same : c.setTask e.other ((next none).bind g) = between e (.ret a) (g none) := by
    rw [none_, Proc.ret_bind]
    refine Conn.ext (funext fun h => ?_) rfl rfl
    cases e <;> cases h <;> simp [c, between, End.other]
  exact same ▸ .single (step_eq_some_iff.mpr stepped)

lemma Stepped.returned {a : α} (stepped : Stepped c m d) (returned : c.task e = .ret a) : d.task e = .ret a := by
  -- only a poll changes a program, and a program that has returned is not polled
  have other {f : End} {p : Proc σ α} (task : c.task f = p) (running : p ≠ .ret a) : e ≠ f := by
    rintro rfl
    exact running (task.symm.trans returned)
  cases stepped with
  | deliver _ => exact returned
  | send task => simpa [other task nofun] using returned
  | recv task _ => simpa [other task nofun] using returned
  | eof task _ _ => simpa [other task nofun] using returned

/-- A result stays. -/
lemma task_of_returned {n : Nat} {a : α} (returned : c.task e = .ret a)
    (steps : Steps step n c d) : d.task e = .ret a := by
  induction steps with
  | refl => exact returned
  | cons fired _ ih => exact ih ((step_eq_some_iff.mp fired).returned returned)

/-- The end has returned, and the other one has sent something that it has not read or is about to. -/
structure Unheard (c : Conn σ α) (e : End) (a : α) : Prop where
  returned : c.task e = .ret a
  sent : (∃ b next, c.task e.other = .send b next) ∨ c.wire e.other ≠ [] ∨ c.inbox e ≠ []

lemma Unheard.step {a : α} (unheard : Unheard c e a) (stepped : Stepped c m d) :
    Unheard d e a := by
  refine ⟨stepped.returned unheard.returned, ?_⟩
  have sent := unheard.sent
  -- the program that is polled is the one that has not returned
  have polled {f : End} {p : Proc σ α} (task : c.task f = p) (running : p ≠ .ret a) : f = e.other := by
    apply End.eq_other_of_ne
    rintro rfl
    exact running (task.symm.trans unheard.returned)
  cases stepped with
  | @deliver f x rest wire =>
    by_cases here : e = f
    · subst here
      simpa [e.ne_other, e.other_ne] using sent
    · obtain rfl := End.eq_other_of_ne here
      exact .inr (.inr (by simp))
  | send task =>
    obtain rfl := polled task nofun
    exact .inr (.inl (by simp))
  | recv task _ =>
    obtain rfl := polled task nofun
    exact .inr (by simpa [e.ne_other, task] using sent)
  | eof task _ _ =>
    obtain rfl := polled task nofun
    exact .inr (by simpa [task] using sent)

/-- On the way to a state in which both have returned and nothing is left over, nobody sends to an end that has
    returned. -/
lemma heard {n : Nat} {e f : End} {a b : α} (steps : Steps step n c (between f (.ret a) (.ret b)))
    {x : σ} {next : Proc σ α} (sends : c.task e = .send x next) : c.closed e.other = false := by
  rw [Bool.eq_false_iff, ne_eq, closed_iff]
  rintro ⟨r, returned⟩
  have unheard : Unheard c e.other r := ⟨returned, .inl ⟨x, next, by rw [End.other_other, sends]⟩⟩
  clear sends returned
  generalize final : between f (.ret a) (.ret b) = d at steps
  induction steps with
  | refl d =>
    subst final
    obtain ⟨-, ⟨y, rest, sends⟩ | wire | inbox⟩ := unheard
    · have done : (between f (.ret a) (.ret b) : Conn σ α).closed e.other.other = true := by
        rw [closed_iff]
        by_cases here : e.other.other = f
        · exact ⟨a, by simp [between, here]⟩
        · exact ⟨b, if_neg here⟩
      obtain ⟨r, done⟩ := closed_iff.mp done
      cases done.symm.trans sends
    · exact wire rfl
    · exact inbox rfl
  | cons fired _ ih => exact ih (unheard.step (step_eq_some_iff.mp fired)) final

lemma stuck_of_returned (a b : α) : Stuck step (between e (.ret a) (.ret b) : Conn σ α) := by
  intro m
  cases m with
  | deliver f => rfl
  | poll f =>
    by_cases here : f = e
    · simp [step, between, here]
    · simp [step, between, here]

/-! ## What one program sees -/

/-- The program at the end is where `p` is after the symbols that it has received; once it has seen the end of the
    stream nothing more arrives. -/
def View (p : Proc σ α) (e : End) (c : Conn σ α) : Prop :=
  ∃ received, (∀ rest, p.result (received ++ rest) = (c.task e).result rest) ∨
    p.result received = (c.task e).result [] ∧ c.inbox e = [] ∧ c.ended e = true

/-- The end of the stream stays the end: no step of the other side follows it. -/
lemma Stepped.ended (stepped : Stepped c m d) (inbox : c.inbox e = [])
    (gone : c.ended e = true) : d.inbox e = [] ∧ d.ended e = true := by
  obtain ⟨⟨r, closed⟩, drained⟩ := ended_iff.mp gone
  rw [ended_iff]
  cases stepped with
  | @deliver f x rest wire =>
    obtain rfl : f = e := eq_of_ended gone (.inl (by simp [wire]))
    simp [f.ne_other, f.other_ne, inbox, closed, drained]
  | @send f x next task =>
    obtain rfl : f = e := eq_of_ended gone (.inr (by simp [task]))
    simp [f.other_ne, inbox, closed, drained]
  | @recv f next x rest task arrived =>
    obtain rfl : f = e := eq_of_ended gone (.inr (by simp [task]))
    rw [inbox] at arrived
    cases arrived
  | @eof f next task _ _ =>
    obtain rfl : f = e := eq_of_ended gone (.inr (by simp [task]))
    simp [f.other_ne, inbox, closed, drained]

lemma Stepped.view {p : Proc σ α} (stepped : Stepped c m d) (view : View p e c) : View p e d := by
  obtain ⟨received, view⟩ := view
  cases stepped with
  | deliver wire =>
    refine ⟨received, view.imp (fun view => ?_) fun ⟨result, inbox, gone⟩ => ⟨?_, (deliver wire).ended inbox gone⟩⟩
    · simpa using view
    · simpa using result
  | @send f x next task =>
    refine ⟨received, view.imp (fun view => ?_) fun ⟨result, inbox, gone⟩ => ⟨?_, (send task).ended inbox gone⟩⟩
    · by_cases here : e = f
      · subst here
        simpa [task, Proc.result] using view
      · simpa [here] using view
    · by_cases here : e = f
      · subst here
        simpa [task, Proc.result] using result
      · simpa [here] using result
  | @recv f next x rest task arrived =>
    by_cases here : e = f
    · subst here
      rcases view with view | ⟨-, inbox, -⟩
      · refine ⟨received ++ [x], .inl fun rest => ?_⟩
        rw [List.append_assoc, List.singleton_append, view, task]
        simp [Proc.result]
      · rw [inbox] at arrived
        cases arrived
    · refine ⟨received, view.imp (fun view => ?_) fun ⟨result, i, o⟩ => ⟨?_, (recv task arrived).ended i o⟩⟩
      · simpa [here] using view
      · simpa [here] using result
  | @eof f next task inbox gone =>
    by_cases here : e = f
    · subst here
      refine ⟨received, .inr ⟨?_, (eof task inbox gone).ended inbox gone⟩⟩
      have result : p.result received = (c.task e).result [] := by
        rcases view with view | ⟨result, -, -⟩
        · simpa using view []
        · exact result
      rw [result, task]
      simp [Proc.result]
    · refine ⟨received, view.imp (fun view => ?_) fun ⟨result, i, o⟩ => ⟨?_, (eof task inbox gone).ended i o⟩⟩
      · simpa [here] using view
      · simpa [here] using result

/-- Whatever the other program and the schedule, a result is the one for some symbols received. -/
lemma result_of_returned {schedule : List Move} {a : α}
    (returned : (runSchedule step c schedule).task e = .ret a) : ∃ received, (c.task e).result received = a := by
  have view : View (c.task e) e (runSchedule step c schedule) :=
    runSchedule_keeps (fun view fired => (step_eq_some_iff.mp fired).view view) ⟨[], .inl fun rest => rfl⟩ schedule
  obtain ⟨received, view | ⟨result, -, -⟩⟩ := view
  · refine ⟨received, ?_⟩
    rw [← List.append_nil received, view, returned, Proc.result]
  · exact ⟨received, by rw [result, returned, Proc.result]⟩

end Conn

-- a read of many symbols is a large term: programs are compared by the rules above
attribute [irreducible] Proc.writeAll Proc.readExact

end Otap.Lib
