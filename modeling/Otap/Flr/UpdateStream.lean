import Mathlib.Data.List.DropRight
import Otap.Lib.Run
import Otap.Lib.GoLib

/-!
# The update stream

Embeds `streamUpdates` of `flr/internal/federation/client.go`, with the channels that `StreamUpdates` makes for it. A
turn of the producer ends where others can come in between: a line is read and decoded, an update is offered to the
channel, the oldest one is taken out, the update is sent. The other turns are receptions from the two channels.

The history of what has been taken out of the channel is kept in `removed`. With the updates in the channel and the one
at hand it is all that has been decoded, in order (`Inv.fifo`), so the updates reach the consumer in order and the
latest one is never discarded. But the producer does not look again after it has found the channel full: what the
consumer receives before the oldest update is taken out leaves fewer than ten (`dropsOldest_iff`).
-/

namespace Otap.Flr

open Otap.Lib

variable {U : Type}

/-! ## The code -/

/-- The capacity of `updates`. -/
def updatesCapacity : Nat := 10

/-- The capacity of `errors`. -/
def errorsCapacity : Nat := 1

/-- The data of a line, which comes with its line feed; other lines have none. -/
def dataOf (line : Bytes) : Option Bytes :=
  let start := ascii "data: "
  if line.length > start.length ∧ line.take start.length = start then
    some ((line.drop start.length).rdropWhile fun b => b = 13 ∨ b = 10)
  else none

/-- Where the producer is: about to read a line, at the report of an error, at the two `select`s or at the last send.
    `since` is the number of updates that the consumer has received since the channel was found full. -/
inductive Pc (U : Type) where
  | reading
  | failing (err : Bytes)
  | offering (u : U)
  | full (u : U) (since : Nat)
  | sending (u : U)

/-- The update at hand. -/
def Pc.update : Pc U → Option U
  | reading => none
  | failing _ => none
  | offering u => some u
  | full u _ => some u
  | sending u => some u

def Pc.received : Pc U → Pc U
  | full u since => full u (since + 1)
  | pc => pc

/-- What has become of an update that was taken out of the channel. A discarded one has with it how many updates the
    channel held and how many had been decoded. -/
inductive Removal (U : Type) where
  | received (u : U)
  | discarded (u : U) (held decoded : Nat)
  deriving DecidableEq

def Removal.update : Removal U → U
  | received u => u
  | discarded u _ _ => u

def Removal.received? : Removal U → Option U
  | received u => some u
  | discarded _ _ _ => none

/-- The lines that are still to be read, the two channels, and the history. -/
structure UpdateStream (U : Type) where
  lines : List Bytes
  pc : Pc U
  updates : List U
  errors : List Bytes
  decoded : List U
  removed : List (Removal U)

inductive Turn where
  | producer
  | consumer
  | errorReader

namespace UpdateStream

def init (lines : List Bytes) : UpdateStream U where
  lines := lines
  pc := .reading
  updates := []
  errors := []
  decoded := []
  removed := []

/-- `updates <- &update`. -/
def send (s : UpdateStream U) (u : U) : UpdateStream U :=
  { s with updates := s.updates ++ [u], pc := .reading }

/-- A turn of the loop of `streamUpdates`. -/
def produce (decode : Bytes → Except Bytes U) (s : UpdateStream U) : UpdateStream U :=
  match s.pc with
  | .reading =>
    match s.lines with
    | [] => s
    | line :: lines =>
      match dataOf line with
      | none => { s with lines }
      | some data =>
        match decode data with
        | .error err => { s with lines, pc := .failing (ascii "decode stream update: " ++ err) }
        | .ok u => { s with lines, pc := .offering u, decoded := s.decoded ++ [u] }
  | .failing err =>
    if s.errors.length < errorsCapacity then { s with errors := s.errors ++ [err], pc := .reading } else s
  | .offering u => if s.updates.length < updatesCapacity then s.send u else { s with pc := .full u 0 }
  | .full u _ =>
    match s.updates with
    | [] => { s with pc := .sending u }
    | old :: updates =>
      { s with
        pc := .sending u
        updates
        removed := s.removed ++ [.discarded old s.updates.length s.decoded.length] }
  | .sending u => if s.updates.length < updatesCapacity then s.send u else s

/-- A reception by the consumer, who waits if there is nothing. -/
def consume (s : UpdateStream U) : UpdateStream U :=
  match s.updates with
  | [] => s
  | u :: updates => { s with pc := s.pc.received, updates, removed := s.removed ++ [.received u] }

def step (decode : Bytes → Except Bytes U) (s : UpdateStream U) : Turn → UpdateStream U
  | .producer => s.produce decode
  | .consumer => s.consume
  | .errorReader => { s with errors := s.errors.tail }

/-! ## What is to hold -/

/-- The updates that the consumer has received. -/
def received (s : UpdateStream U) : List U :=
  s.removed.filterMap Removal.received?

/-- The consumer has received a subsequence of the decoded updates, and what was discarded was not the latest of the
    updates decoded by then and was so at a moment when the channel held ten. The update that was taken out of the
    channel as number `i` is the one decoded as number `i`. -/
structure DropsOldest (s : UpdateStream U) : Prop where
  inOrder : s.received.Sublist s.decoded
  latest : ∀ i u held n, s.removed[i]? = some (.discarded u held n) → s.decoded[i]? = some u ∧ i + 1 < n
  full : ∀ u held n, .discarded u held n ∈ s.removed → held = updatesCapacity

/-- The producer does not go on to take the oldest update out after the consumer has received some but not all of the
    updates that it has found in the channel. -/
def Undisturbed (s : UpdateStream U) (turn : Turn) : Prop :=
  turn = .producer → ∀ u since, s.pc = .full u since → since = 0 ∨ since = updatesCapacity

/-! ## The invariant -/

structure Inv (s : UpdateStream U) : Prop where
  fifo : s.removed.map Removal.update ++ s.updates ++ s.pc.update.toList = s.decoded
  room : s.updates.length ≤ updatesCapacity
  since : ∀ u since, s.pc = .full u since → s.updates.length + since = updatesCapacity
  sending : ∀ u, s.pc = .sending u → s.updates.length < updatesCapacity
  latest : ∀ i r, s.removed[i]? = some r → ∀ u held n, r = .discarded u held n → i + 1 < n

lemma inv_init (lines : List Bytes) : (init lines : UpdateStream U).Inv where
  fifo := rfl
  room := Nat.zero_le _
  since u since full := by cases full
  sending u sending := by cases sending
  latest i r got := by cases got

variable {s : UpdateStream U}

/-- A turn that leaves the channel of the updates and the history alone, and has no update at hand before or after. -/
lemma Inv.apart (inv : s.Inv) {lines errors : List Bytes} {pc : Pc U} (before : s.pc.update = none)
    (after : pc.update = none) : Inv { s with lines, errors, pc } where
  fifo := by
    have fifo := inv.fifo
    rw [before] at fifo
    dsimp only
    rw [after, fifo]
  room := inv.room
  since u since full := by
    cases full
    cases after
  sending u sending := by
    cases sending
    cases after
  latest := inv.latest

/-- An update is decoded. -/
lemma Inv.decoded (inv : s.Inv) (reading : s.pc = .reading) (lines : List Bytes) (u : U) :
    Inv { s with lines, pc := .offering u, decoded := s.decoded ++ [u] } where
  fifo := by
    have fifo := inv.fifo
    rw [reading] at fifo
    rw [← fifo]
    exact congrArg (· ++ [u]) (List.append_nil _).symm
  room := inv.room
  since u' since full := by cases full
  sending u' sending := by cases sending
  latest := inv.latest

/-- The channel is found full. -/
lemma Inv.found (inv : s.Inv) {u : U} (offering : s.pc = .offering u) (full : ¬ s.updates.length < updatesCapacity) :
    Inv { s with pc := .full u 0 } where
  fifo := by
    have fifo := inv.fifo
    rwa [offering] at fifo
  room := inv.room
  since u' since eq := by
    cases eq
    exact le_antisymm inv.room (not_lt.mp full)
  sending u' sending := by cases sending
  latest := inv.latest

/-- A send to a channel with room. -/
lemma Inv.send (inv : s.Inv) {u : U} (at_hand : s.pc.update = some u) (room : s.updates.length < updatesCapacity) :
    (s.send u).Inv where
  fifo := by
    have fifo := inv.fifo
    rw [at_hand] at fifo
    refine Eq.trans ?_ fifo
    exact (List.append_nil _).trans (List.append_assoc _ _ _).symm
  room := by
    rw [UpdateStream.send, List.length_append, List.length_singleton]
    exact room
  since u' since full := by cases full
  sending u' sending := by cases sending
  latest := inv.latest

/-- There is nothing to take out. -/
lemma Inv.emptied (inv : s.Inv) {u : U} (at_hand : s.pc.update = some u) (none : s.updates = []) :
    Inv { s with pc := .sending u } where
  fifo := by
    have fifo := inv.fifo
    rwa [at_hand] at fifo
  room := inv.room
  since u' since full := by cases full
  sending u' _ := by
    dsimp only
    rw [none, List.length_nil]
    exact (by decide : 0 < updatesCapacity)
  latest := inv.latest

/-- The oldest update is taken out while another one is at hand. -/
lemma Inv.drop (inv : s.Inv) {u old : U} {updates : List U} (at_hand : s.pc.update = some u)
    (held : s.updates = old :: updates) :
    Inv { s with
      pc := .sending u
      updates
      removed := s.removed ++ [.discarded old s.updates.length s.decoded.length] } := by
  have fifo := inv.fifo
  have room := inv.room
  rw [at_hand, held] at fifo
  rw [held, List.length_cons] at room
  refine ⟨?_, Nat.le_of_succ_le room, ?_, fun _ _ => room, ?_⟩
  · dsimp only
    rw [← fifo, List.map_append, List.append_assoc _ _ updates]
    rfl
  · intro u' since full
    cases full
  · refine forall_getElem?_concat inv.latest ?_
    intro u' h n discarded
    cases discarded
    rw [← fifo, List.length_append, List.length_append, List.length_map, List.length_cons, Option.toList_some,
      List.length_singleton]
    omega

/-- The consumer receives an update. -/
lemma Inv.consume (inv : s.Inv) : s.consume.Inv := by
  rw [UpdateStream.consume]
  split
  case h_1 => exact inv
  case h_2 u updates held =>
    have fifo := inv.fifo
    have room := inv.room
    rw [held] at fifo
    rw [held, List.length_cons] at room
    have same : s.pc.received.update = s.pc.update := by
      cases s.pc with
      | reading => rfl
      | failing => rfl
      | offering => rfl
      | full => rfl
      | sending => rfl
    refine ⟨?_, Nat.le_of_succ_le room, fun u' since full => ?_, fun _ _ => room, ?_⟩
    · dsimp only
      rw [← fifo, same, List.map_append, List.append_assoc _ _ updates]
      rfl
    · cases pc : s.pc with
      | full u since' =>
        have before := inv.since u since' pc
        dsimp only at full
        rw [pc] at full
        cases full
        rw [held, List.length_cons] at before
        dsimp only
        omega
      | reading | failing | offering | sending =>
        dsimp only at full
        rw [pc] at full
        cases full
    · refine forall_getElem?_concat inv.latest fun u' h n discarded => ?_
      cases discarded

/-- What a turn of the producer does to the channel of the updates and the history. -/
inductive Produced (s : UpdateStream U) : UpdateStream U → Prop where
  | waits : Produced s s
  | apart {lines errors : List Bytes} {pc : Pc U} (before : s.pc.update = none) (after : pc.update = none) :
    Produced s { s with lines, errors, pc }
  | decodes (reading : s.pc = .reading) (lines : List Bytes) (u : U) :
    Produced s { s with lines, pc := .offering u, decoded := s.decoded ++ [u] }
  | finds {u : U} (offering : s.pc = .offering u) (full : ¬ s.updates.length < updatesCapacity) :
    Produced s { s with pc := .full u 0 }
  | sends {u : U} (at_hand : s.pc.update = some u) (room : s.updates.length < updatesCapacity) :
    Produced s (s.send u)
  | leaves {u : U} (at_hand : s.pc.update = some u) (none : s.updates = []) :
    Produced s { s with pc := .sending u }
  | drops {u old : U} {updates : List U} {since : Nat} (full : s.pc = .full u since)
    (held : s.updates = old :: updates) :
    Produced s
      { s with
        pc := .sending u
        updates
        removed := s.removed ++ [.discarded old s.updates.length s.decoded.length] }

lemma produced (decode : Bytes → Except Bytes U) (s : UpdateStream U) : Produced s (s.produce decode) := by
  rw [produce]
  split
  case h_1 reading =>
    have none : s.pc.update = none := congrArg Pc.update reading
    split
    case h_1 => exact .waits
    case h_2 line lines _ =>
      split
      case h_1 => exact .apart none none
      case h_2 data _ =>
        split
        case h_1 err _ => exact .apart none rfl
        case h_2 u _ => exact .decodes reading lines u
  case h_2 err failing =>
    split
    case isTrue => exact .apart (congrArg Pc.update failing) rfl
    case isFalse => exact .waits
  case h_3 u offering =>
    split
    case isTrue room => exact .sends (congrArg Pc.update offering) room
    case isFalse full => exact .finds offering full
  case h_4 u since full =>
    split
    case h_1 none => exact .leaves (congrArg Pc.update full) none
    case h_2 old updates held => exact .drops full held
  case h_5 u sending =>
    split
    case isTrue room => exact .sends (congrArg Pc.update sending) room
    case isFalse => exact .waits

lemma Inv.produce (inv : s.Inv) (decode : Bytes → Except Bytes U) : (s.produce decode).Inv := by
  have turn := produced decode s
  generalize s.produce decode = s' at turn ⊢
  cases turn with
  | waits => exact inv
  | apart before after => exact inv.apart before after
  | decodes reading lines u => exact inv.decoded reading lines u
  | finds offering full => exact inv.found offering full
  | sends at_hand room => exact inv.send at_hand room
  | leaves at_hand none => exact inv.emptied at_hand none
  | drops full held => exact inv.drop (congrArg Pc.update full) held

lemma Inv.step (inv : s.Inv) (decode : Bytes → Except Bytes U) (turn : Turn) : (s.step decode turn).Inv := by
  cases turn with
  | producer => exact inv.produce decode
  | consumer => exact inv.consume
  | errorReader => exact ⟨inv.fifo, inv.room, inv.since, inv.sending, inv.latest⟩

/-- The last send finds room: the producer never waits for the consumer. -/
lemma Inv.produce_sending (inv : s.Inv) {u : U} (sending : s.pc = .sending u) (decode : Bytes → Except Bytes U) :
    s.produce decode = s.send u := by
  rw [UpdateStream.produce, sending]
  exact if_pos (inv.sending u sending)

/-! ## Discarded updates -/

/-- The update that was taken out of the channel as number `i` is the one decoded as number `i`. -/
lemma Inv.decoded_of_removed (inv : s.Inv) {i : Nat} {r : Removal U} (got : s.removed[i]? = some r) :
    s.decoded[i]? = some r.update := by
  have taken : (s.removed.map Removal.update)[i]? = some r.update := by rw [List.getElem?_map, got, Option.map_some]
  have lt : i < (s.removed.map Removal.update).length := (List.getElem?_eq_some_iff.mp taken).1
  rw [← inv.fifo, List.append_assoc, List.getElem?_append_left lt, taken]

lemma Inv.inOrder (inv : s.Inv) : s.received.Sublist s.decoded := by
  have received (l : List (Removal U)) : (l.filterMap Removal.received?).Sublist (l.map Removal.update) := by
    induction l with
    | nil => exact .slnil
    | cons r l ih =>
      cases r with
      | received u => exact ih.cons_cons u
      | discarded u held n => exact ih.cons u
  rw [← inv.fifo, List.append_assoc]
  exact (received s.removed).trans (List.sublist_append_left _ _)

/-- Every discarded update was so at a moment when the channel held ten. -/
def FullWhenDropped (s : UpdateStream U) : Prop :=
  ∀ u held n, .discarded u held n ∈ s.removed → held = updatesCapacity

lemma Inv.dropsOldest (inv : s.Inv) : s.DropsOldest ↔ s.FullWhenDropped := by
  refine ⟨fun drops => drops.full, fun full => ⟨inv.inOrder, fun i u held n got => ?_, full⟩⟩
  exact ⟨inv.decoded_of_removed got, inv.latest i _ got u held n rfl⟩

/-- What a turn adds to the history. -/
lemma removed_step (decode : Bytes → Except Bytes U) (s : UpdateStream U) (turn : Turn) :
    (s.step decode turn).removed = s.removed ∨ (∃ u, (s.step decode turn).removed = s.removed ++ [.received u]) ∨
      ∃ u since old updates, turn = .producer ∧ s.pc = .full u since ∧ s.updates = old :: updates ∧
        (s.step decode turn).removed = s.removed ++ [.discarded old s.updates.length s.decoded.length] := by
  cases turn with
  | errorReader => exact .inl rfl
  | consumer =>
    rw [step, consume]
    split
    case h_1 => exact .inl rfl
    case h_2 u updates _ => exact .inr (.inl ⟨u, rfl⟩)
  | producer =>
    have turn := produced decode s
    rw [step]
    generalize s.produce decode = s' at turn ⊢
    cases turn with
    | waits | apart | decodes | finds | sends | leaves => exact .inl rfl
    | drops full held => exact .inr (.inr ⟨_, _, _, _, rfl, full, held, rfl⟩)

/-- Undisturbed turns discard an update only if the channel is still full. -/
lemma Inv.fullWhenDropped_step (inv : s.Inv) (full : s.FullWhenDropped) (decode : Bytes → Except Bytes U) {turn : Turn}
    (undisturbed : s.Undisturbed turn) : (s.step decode turn).FullWhenDropped := by
  intro u held n mem
  rcases removed_step decode s turn with same | ⟨u', received⟩ | ⟨u', since, old, updates, rfl, pc, here, discarded⟩
  · exact full u held n (same ▸ mem)
  · rw [received, List.mem_append, List.mem_singleton] at mem
    rcases mem with before | now
    · exact full u held n before
    · cases now
  · rw [discarded, List.mem_append, List.mem_singleton] at mem
    rcases mem with before | now
    · exact full u held n before
    · cases now
      have count := inv.since u' since pc
      rcases undisturbed rfl u' since pc with rfl | rfl
      · exact count
      · rw [here, List.length_cons] at count
        omega

/-- If a turn discards nothing or from a full channel, it was undisturbed. -/
lemma Inv.undisturbed_of_step (inv : s.Inv) {decode : Bytes → Except Bytes U} {turn : Turn}
    (full : (s.step decode turn).FullWhenDropped) : s.Undisturbed turn := by
  rintro rfl u since pc
  have count := inv.since u since pc
  cases held : s.updates with
  | nil =>
    rw [held, List.length_nil, Nat.zero_add] at count
    exact .inr count
  | cons old updates =>
    have discarded : (s.step decode .producer).removed =
        s.removed ++ [.discarded old s.updates.length s.decoded.length] := by
      rw [UpdateStream.step, UpdateStream.produce, pc]
      dsimp only
      rw [held]
    have ten := full old _ _ (discarded ▸ List.mem_append_right _ (List.mem_singleton_self _))
    exact .inl (by omega)

end UpdateStream

/-! ## Main result -/

open UpdateStream

/-- In every state of a run the updates have reached the consumer in order, and only the oldest of ten were discarded
    and never the latest, exactly if the consumer has always received none or all of the ten updates between the moment
    at which the producer found the channel full and the one at which it took the oldest update out. -/
theorem dropsOldest_iff (decode : Bytes → Except Bytes U) (lines : List Bytes) (turns : List Turn) :
    (∀ made, made <+: turns → (made.foldl (step decode) (init lines)).DropsOldest) ↔
      Along Undisturbed (step decode) (init lines) turns := by
  have start := @inv_init U lines
  constructor
  · intro drops
    generalize (init lines : UpdateStream U) = s at drops start
    induction turns generalizing s with
    | nil => trivial
    | cons turn turns ih =>
      have next := start.step decode turn
      have full := next.dropsOldest.mp (drops [turn] ⟨turns, rfl⟩)
      refine ⟨start.undisturbed_of_step full, ih _ (fun made done => ?_) next⟩
      exact drops (turn :: made) (List.cons_prefix_cons.mpr ⟨rfl, done⟩)
  · rintro run made ⟨rest, rfl⟩
    have reached : Inv (made.foldl (step decode) (init lines)) ∧
        FullWhenDropped (made.foldl (step decode) (init lines)) := by
      refine Along.inv (P := fun s => Inv s ∧ FullWhenDropped s) ⟨start, fun u held n mem => (by cases mem)⟩ ?_
        (Along.append.mp run).1
      rintro s turn ⟨inv, full⟩ undisturbed
      exact ⟨inv.step decode turn, inv.fullWhenDropped_step full decode undisturbed⟩
    exact reached.1.dropsOldest.mpr reached.2

/-- Eleven lines, with an update that is the length of its data. -/
def elevenLines : List Bytes :=
  List.replicate 11 (ascii "data: 1" ++ [10])

def lengthOf (data : Bytes) : Except Bytes Nat :=
  .ok data.length

/-- The producer fills the channel and finds it full; then the consumer receives an update, and the producer takes
    another one out. -/
def receivedInBetween : List Turn :=
  List.replicate 22 .producer ++ [.consumer, .producer]

/-- The update is discarded from a channel that held nine. -/
theorem not_dropsOldest :
    (receivedInBetween.foldl (step lengthOf) (init elevenLines)).removed = [.received 1, .discarded 1 9 11] ∧
      ¬ (receivedInBetween.foldl (step lengthOf) (init elevenLines)).DropsOldest := by
  have removed : (receivedInBetween.foldl (step lengthOf) (init elevenLines)).removed =
      [.received 1, .discarded 1 9 11] := by decide +kernel
  refine ⟨removed, fun drops => ?_⟩
  have ten := drops.full 1 9 11 (removed ▸ List.mem_cons_of_mem _ List.mem_cons_self)
  exact absurd ten (by decide)

end Otap.Flr
