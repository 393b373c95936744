import Otap.Lib.Run
import Otap.Flr.BadgerStore

/-!
# Membership of the federation

Embeds `RegisterOperator` and `RemoveOperator` of `flr/internal/federation/manager.go` over the Badger store, and
compares the map of the manager with the operators that the store returns. A registration writes both and a removal only
the map, so they agree throughout a run if and only if the run removes no operator. From a removal on the operator is in
the store and not in the map, and it cannot be registered again.
-/

namespace Otap.Flr

open Otap.Lib

/-! ## The code -/

/-- The part of a `federation.Manager` that membership is kept in; its registry may have no store. -/
structure Roster where
  operatorID : Bytes
  operators : KV Operator
  store : Option Badger

/-- A call, with the clock readings of `JoinedAt` and `LastSeen`. -/
inductive RosterCall where
  | register (joinedAt lastSeen : Time) (op : Option Operator)
  | remove (operatorID : Bytes)

/-- The operator as it is registered. -/
def Operator.joined (op : Operator) (joinedAt lastSeen : Time) : Operator :=
  { op with status := .active, joinedAt := joinedAt, lastSeen := lastSeen }

/-- The record can be written, and what was written can be read. -/
def Readable {α : Type} (json : Codec α) (v : α) : Prop :=
  ∃ data, json.marshal v = .ok data ∧ (json.unmarshal data).isOk = true

/-- The operator of a registration can be written and read. -/
def RosterCall.Readable (json : Codecs) : RosterCall → Prop
  | register joinedAt lastSeen op => ∀ o ∈ op, Flr.Readable json.operator (o.joined joinedAt lastSeen)
  | remove _ => True

namespace Roster

/-- The manager of `operatorID` with an empty store. -/
def init (operatorID : Bytes) : Roster where
  operatorID := operatorID
  operators := .empty
  store := some .empty

variable (json : Codecs) (m : Roster)

def persist (op : Operator) : Result (Option Badger) :=
  match m.store with
  | none => .ok none
  | some db => (BadgerStore.createOperator json db (some op)).map some

/-- `Manager.RegisterOperator`. -/
def registerOperator (joinedAt lastSeen : Time) (op : Option Operator) : Result Unit × Roster :=
  match op with
  | none => (.error (ascii "operator is nil"), m)
  | some op =>
    if op.id = [] then (.error (ascii "operator ID is required"), m)
    else if op.endpoint = [] then (.error (ascii "operator endpoint is required"), m)
    else
      match m.operators.get op.id with
      | some _ => (.error (ascii "operator " ++ op.id ++ ascii " already registered"), m)
      | none =>
        let op := op.joined joinedAt lastSeen
        match m.persist json op with
        | .error err => (.error (ascii "persist operator " ++ op.id ++ ascii ": " ++ err), m)
        | .ok store => (.ok (), { m with operators := m.operators.set op.id op, store := store })

/-- `Manager.RemoveOperator`. -/
def removeOperator (operatorID : Bytes) : Result Unit × Roster :=
  if operatorID = m.operatorID then (.error (ascii "cannot remove self"), m)
  else
    match m.operators.get operatorID with
    | none => (.error (ascii "operator " ++ operatorID ++ ascii " not found"), m)
    | some _ => (.ok (), { m with operators := m.operators.delete operatorID })

def call : RosterCall → Result Unit × Roster
  | .register joinedAt lastSeen op => m.registerOperator json joinedAt lastSeen op
  | .remove operatorID => m.removeOperator operatorID

def step (c : RosterCall) : Roster :=
  (m.call json c).2

/-! ## What is to hold -/

/-- The store returns an operator with the ID. -/
def inStore (id : Bytes) : Bool :=
  match m.store with
  | none => false
  | some db => (BadgerStore.getOperator json db id).isOk

/-- The map and the store agree, and what is not in the map, but can be written, can be registered. -/
structure Consistent : Prop where
  agree : ∀ id, (m.operators.get id).isSome = m.inStore json id
  admits : ∀ joinedAt lastSeen op, op.id ≠ [] → op.endpoint ≠ [] → m.operators.get op.id = none →
    Readable json.operator (op.joined joinedAt lastSeen) →
    (m.registerOperator json joinedAt lastSeen (some op)).1 = .ok ()

/-- The call does not remove an operator: it is no removal, or one of the manager itself or of an operator that is not
    registered. -/
def Spares (c : RosterCall) : Prop :=
  ∀ id, c = .remove id → id = m.operatorID ∨ m.operators.get id = none

end Roster

/-! ## The invariant -/

namespace Roster

variable {json : Codecs} {m : Roster} {db : Badger}

/-- Map and store have the same IDs, of which none is empty. -/
structure Inv (json : Codecs) (m : Roster) (db : Badger) : Prop where
  store : m.store = some db
  same : ∀ id, (m.operators.get id).isSome = (db.get (prefixOperator ++ id)).isSome
  named : m.operators.get [] = none
  readable : ∀ id data, db.get (prefixOperator ++ id) = some data → (json.operator.unmarshal data).isOk = true

lemma inv_init (json : Codecs) (operatorID : Bytes) : Inv json (init operatorID) .empty where
  store := rfl
  same _ := rfl
  named := rfl
  readable _ _ got := by cases got

/-- The store returns what has an entry, which is what is in the map. -/
lemma Inv.inStore (inv : Inv json m db) (id : Bytes) : m.inStore json id = (m.operators.get id).isSome := by
  rw [Roster.inStore, inv.store]
  unfold BadgerStore.getOperator getRecord
  dsimp only
  split
  case isTrue empty => rw [empty, inv.named]; rfl
  case isFalse =>
    rw [inv.same]
    split
    case h_1 absent => rw [show db.get (prefixOperator ++ id) = none from absent]; rfl
    case h_2 data got =>
      rw [show db.get (prefixOperator ++ id) = some data from got, inv.readable id data got]
      rfl

lemma createOperator_new (op : Operator) {data : Bytes} (named : op.id ≠ [])
    (absent : db.get (prefixOperator ++ op.id) = none) (written : json.operator.marshal op = .ok data) :
    BadgerStore.createOperator json db (some op) = .ok (db.set (prefixOperator ++ op.id) data) := by
  have absent : db.get (operatorRecord.start ++ operatorRecord.id op) = none := absent
  have named : operatorRecord.id op ≠ [] := named
  rw [BadgerStore.createOperator, createRecord, if_neg named]
  dsimp only
  rw [absent, written]
  rfl

/-- A registration that passes the checks writes the operator to the store and to the map. -/
lemma Inv.register (inv : Inv json m db) {op : Operator} (named : op.id ≠ []) (reachable : op.endpoint ≠ [])
    (new : m.operators.get op.id = none) {joinedAt lastSeen : Time}
    (readable : Readable json.operator (op.joined joinedAt lastSeen)) :
    ∃ m' db', m.registerOperator json joinedAt lastSeen (some op) = (.ok (), m') ∧ Inv json m' db' := by
  obtain ⟨data, written, read⟩ := readable
  have absent : db.get (prefixOperator ++ op.id) = none := by
    rw [← Option.not_isSome_iff_eq_none, ← inv.same, new]
    decide
  refine ⟨{ m with
      operators := m.operators.set op.id (op.joined joinedAt lastSeen)
      store := some (db.set (prefixOperator ++ op.id) data) }, db.set (prefixOperator ++ op.id) data, ?_, ?_⟩
  · rw [registerOperator]
    dsimp only
    rw [if_neg named, if_neg reachable, new]
    dsimp only
    rw [persist, inv.store]
    dsimp only
    rw [createOperator_new (op.joined joinedAt lastSeen) named absent written]
    rfl
  · refine ⟨rfl, fun id => ?_, ?_, fun id data' got => ?_⟩
    · rw [KV.get_set, KV.get_set]
      simp only [List.append_cancel_left_eq]
      split
      case isTrue => rfl
      case isFalse => exact inv.same id
    · exact (KV.get_set_ne _ _ named.symm).trans inv.named
    · rw [KV.get_set] at got
      split at got
      case isTrue => exact Option.some.inj got ▸ read
      case isFalse => exact inv.readable id data' got

/-- Otherwise it changes nothing. -/
lemma registerOperator_refused {op : Option Operator}
    (refused : ∀ o, op = some o → o.id = [] ∨ o.endpoint = [] ∨ (m.operators.get o.id).isSome)
    (joinedAt lastSeen : Time) : (m.registerOperator json joinedAt lastSeen op).2 = m := by
  unfold registerOperator
  split
  case h_1 => rfl
  case h_2 o =>
    split
    case isTrue => rfl
    case isFalse named =>
      split
      case isTrue => rfl
      case isFalse reachable =>
        obtain ⟨o', got⟩ := Option.isSome_iff_exists.mp (((refused o rfl).resolve_left named).resolve_left reachable)
        rw [got]

lemma removeOperator_spared {id : Bytes} (spared : id = m.operatorID ∨ m.operators.get id = none) :
    (m.removeOperator id).2 = m := by
  unfold removeOperator
  split
  case isTrue => rfl
  case isFalse other => rw [spared.resolve_left other]

lemma removeOperator_removes {id : Bytes} (other : id ≠ m.operatorID) {op : Operator}
    (registered : m.operators.get id = some op) :
    (m.removeOperator id).2 = { m with operators := m.operators.delete id } := by
  rw [removeOperator, if_neg other, registered]

/-- A call that removes no operator keeps the invariant. -/
lemma Inv.step (inv : Inv json m db) {c : RosterCall} (spares : m.Spares c) (readable : c.Readable json) :
    ∃ db', Inv json (m.step json c) db' := by
  cases c with
  | register joinedAt lastSeen op =>
    by_cases refused : ∀ o, op = some o → o.id = [] ∨ o.endpoint = [] ∨ (m.operators.get o.id).isSome
    · refine ⟨db, ?_⟩
      rw [Roster.step, call, registerOperator_refused refused]
      exact inv
    · push Not at refused
      obtain ⟨o, rfl, named, reachable, new⟩ := refused
      obtain ⟨m', db', registered, inv'⟩ :=
        inv.register named reachable (Option.not_isSome_iff_eq_none.mp new) (readable o rfl)
      refine ⟨db', ?_⟩
      rw [Roster.step, call, registered]
      exact inv'
  | remove id =>
    refine ⟨db, ?_⟩
    rw [Roster.step, call, removeOperator_spared (spares id rfl)]
    exact inv

lemma Inv.consistent (inv : Inv json m db) : m.Consistent json where
  agree id := (inv.inStore id).symm
  admits joinedAt lastSeen op named reachable new readable := by
    obtain ⟨m', db', registered, -⟩ := inv.register named reachable new readable
    rw [registered]

/-- A removal leaves the operator in the store. -/
lemma Consistent.spares {c : RosterCall} (before : m.Consistent json) (after : (m.step json c).Consistent json) :
    m.Spares c := by
  rintro id rfl
  by_contra removes
  obtain ⟨other, registered⟩ := not_or.mp removes
  obtain ⟨op, registered⟩ := Option.ne_none_iff_exists'.mp registered
  have stays := before.agree id
  have gone := after.agree id
  rw [step, call, removeOperator_removes other registered, KV.get_delete, if_pos rfl] at gone
  rw [registered] at stays
  exact Bool.false_ne_true (gone.trans stays.symm)

end Roster

/-! ## Main result -/

/-- In a run from an empty map and an empty store, whose operators JSON can write and read, the two agree and
    registrations succeed after every call if and only if no call removes an operator. -/
theorem roster_consistent_iff (json : Codecs) (operatorID : Bytes) (calls : List RosterCall)
    (readable : ∀ c ∈ calls, c.Readable json) :
    (∀ made, made <+: calls → (made.foldl (Roster.step json) (.init operatorID)).Consistent json) ↔
      Along Roster.Spares (Roster.step json) (.init operatorID) calls := by
  constructor
  · clear readable
    intro consistent
    generalize Roster.init operatorID = m at consistent
    induction calls generalizing m with
    | nil => trivial
    | cons c calls ih =>
      refine ⟨(consistent [] List.nil_prefix).spares (consistent [c] ⟨calls, rfl⟩), ih _ fun made done => ?_⟩
      exact consistent (c :: made) (List.cons_prefix_cons.mpr ⟨rfl, done⟩)
  · rintro run made ⟨rest, rfl⟩
    have inv : ∃ db, Roster.Inv json (made.foldl (Roster.step json) (.init operatorID)) db := by
      refine Along.inv (P := fun m => ∃ db, Roster.Inv json m db) ⟨_, Roster.inv_init json operatorID⟩ ?_
        ((Along.append.mp run).1.and_forall fun c mem => readable c (List.mem_append_left _ mem))
      rintro m c ⟨db, inv⟩ ⟨spares, readable⟩
      exact inv.step spares readable
    obtain ⟨db, inv⟩ := inv
    exact inv.consistent

def operatorB : Operator where
  id := ascii "op-b"
  name := ascii "Operator B"
  publicKey := [1]
  endpoint := ascii "https://op-b.example.com"
  status := .unspecified
  joinedAt := 0
  lastSeen := 0

/-- JSON to run with: it writes the given operators. -/
def operatorCodecs (operators : List Operator) : Codecs where
  lease := .ofList []
  endpoint := .ofList []
  operator := .ofList operators
  commitment := .ofList []
  schema := ⟨fun _ => .error [], fun _ => .error []⟩

/-- JSON for the operator, registered at time 1 or 2. -/
def codecsB : Codecs :=
  operatorCodecs [operatorB.joined 1 1, operatorB.joined 2 2]

lemma codecsB_readable : Readable codecsB.operator (operatorB.joined 1 1) :=
  ⟨[], by decide +kernel, by decide +kernel⟩

/-- A registration, and a removal of the manager itself, which is refused. -/
def sparingCalls : List RosterCall :=
  [.register 1 1 (some operatorB), .remove (ascii "op-a")]

theorem roster_consistent_registered :
    (sparingCalls.foldl (Roster.step codecsB) (.init (ascii "op-a"))).Consistent codecsB := by
  refine (roster_consistent_iff codecsB (ascii "op-a") sparingCalls ?_).mpr ?_ _ List.prefix_rfl
  · intro c mem
    rcases List.mem_cons.mp mem with rfl | mem
    · intro o isB
      cases isB
      exact codecsB_readable
    · cases List.mem_singleton.mp mem
      trivial
  · refine ⟨fun id removes => ?_, fun id removes => ?_, trivial⟩
    · cases removes
    · cases removes
      exact .inl rfl

/-- The manager after an operator has been registered and removed. -/
def removedRoster : Roster :=
  [RosterCall.register 1 1 (some operatorB), .remove (ascii "op-b")].foldl (Roster.step codecsB) (.init (ascii "op-a"))

/-- The store still returns the operator, and the manager cannot register it again. -/
theorem not_roster_consistent :
    removedRoster.operators.get (ascii "op-b") = none ∧ removedRoster.inStore codecsB (ascii "op-b") = true ∧
      (removedRoster.registerOperator codecsB 2 2 (some operatorB)).1 =
        .error (ascii "persist operator op-b: operator already exists: op-b") ∧
      ¬ removedRoster.Consistent codecsB := by
  refine ⟨by decide +kernel, by decide +kernel, rfl, fun consistent => ?_⟩
  have agree : (removedRoster.operators.get (ascii "op-b")).isSome = removedRoster.inStore codecsB (ascii "op-b") :=
    consistent.agree _
  exact absurd agree (by decide +kernel)

end Otap.Flr
