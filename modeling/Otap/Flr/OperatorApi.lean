import Otap.Flr.Membership

/-!
# Registering operators through the API

Embeds `RegisterOperator` of `flr/internal/api/server.go`. The server registers an operator twice: with the registry
engine, which creates it in the store, and with the federation manager, which creates it in the store and adds it to its
map. Both have one store (`cmd/flrd/main.go` makes the manager over the registry engine), so the second creation finds
what the first has written. No registration through the API succeeds (`registerOperator_error`): one that passes the
checks leaves the operator in the store only, from where on it is refused as a duplicate.
-/

namespace Otap.Flr

open Otap.Lib

/-! ## The code -/

/-- The status codes of the handlers. -/
inductive Code where
  | invalidArgument
  | internal
  deriving DecidableEq

/-- The error of a handler. -/
structure Status where
  code : Code
  message : Bytes
  deriving DecidableEq

structure RegisterOperatorRequest where
  id : Bytes
  name : Bytes
  publicKey : Bytes
  endpoint : Bytes

/-- The clock readings of a registration: those of the server and those of the manager. -/
structure RegistrationClock where
  joinedAt : Time
  lastSeen : Time
  managerJoinedAt : Time
  managerLastSeen : Time

/-- What a server keeps of operators: the database of its store and the map of its federation manager, which is the
    manager of `operatorID`. -/
structure OperatorServer where
  operatorID : Bytes
  operators : KV Operator
  db : Badger

namespace OperatorServer

/-- The federation manager. -/
def federation (s : OperatorServer) : Roster where
  operatorID := s.operatorID
  operators := s.operators
  store := some s.db

/-- The operator of a request. -/
def requested (clock : RegistrationClock) (req : RegisterOperatorRequest) : Operator where
  id := req.id
  name := req.name
  publicKey := req.publicKey
  endpoint := req.endpoint
  status := .active
  joinedAt := clock.joinedAt
  lastSeen := clock.lastSeen

/-- `RegisterOperator`. The manager gets a pointer to the operator and sets its times before it is returned. -/
def registerOperator (json : Codecs) (s : OperatorServer) (clock : RegistrationClock) (req : RegisterOperatorRequest) :
    Except Status Operator × OperatorServer :=
  if req.id = [] then (.error ⟨.invalidArgument, ascii "operator id is required"⟩, s)
  else if req.name = [] then (.error ⟨.invalidArgument, ascii "operator name is required"⟩, s)
  else
    let op := requested clock req
    match BadgerStore.createOperator json s.db (some op) with
    | .error err => (.error ⟨.internal, ascii "failed to register operator: " ++ err⟩, s)
    | .ok db =>
      let s := { s with db }
      match s.federation.registerOperator json clock.managerJoinedAt clock.managerLastSeen (some op) with
      | (.error err, m) =>
        (.error ⟨.internal, ascii "failed to register in federation: " ++ err⟩,
          { s with operators := m.operators, db := m.store.getD s.db })
      | (.ok (), m) =>
        (.ok (op.joined clock.managerJoinedAt clock.managerLastSeen),
          { s with operators := m.operators, db := m.store.getD s.db })

/-! ## What is to hold -/

/-- The store has an operator with the ID. -/
def Stored (s : OperatorServer) (id : Bytes) : Prop :=
  (s.db.get (prefixOperator ++ id)).isSome

/-- A request for an operator that is neither in the store nor in the map, with an ID, a name and an endpoint, succeeds
    and puts the operator in both; a request that fails changes nothing. -/
structure AllOrNothing (json : Codecs) (s : OperatorServer) (clock : RegistrationClock)
    (req : RegisterOperatorRequest) : Prop where
  works : req.id ≠ [] → req.name ≠ [] → req.endpoint ≠ [] → ¬ s.Stored req.id → s.operators.get req.id = none →
    ∃ op s', s.registerOperator json clock req = (.ok op, s') ∧ s'.Stored req.id ∧ s'.operators.get req.id = some op
  restores : ∀ err, (s.registerOperator json clock req).1 = .error err → (s.registerOperator json clock req).2 = s

/-! ## What the handler does -/

variable {json : Codecs} {s : OperatorServer} {clock : RegistrationClock} {req : RegisterOperatorRequest}

lemma createOperator_stored {op : Operator} (named : op.id ≠ []) (stored : s.Stored op.id) :
    BadgerStore.createOperator json s.db (some op) = .error (ascii "operator already exists: " ++ op.id) := by
  obtain ⟨val, found⟩ := Option.isSome_iff_exists.mp stored
  have found : s.db.get (operatorRecord.start ++ operatorRecord.id op) = some val := found
  have named : operatorRecord.id op ≠ [] := named
  rw [BadgerStore.createOperator, createRecord, if_neg named]
  dsimp only
  rw [found]
  rfl

/-- The manager does not register an operator that is in the store. -/
lemma federation_registerOperator {op : Operator} (stored : s.Stored op.id) (joinedAt lastSeen : Time) :
    ∃ err, s.federation.registerOperator json joinedAt lastSeen (some op) = (.error err, s.federation) := by
  rw [Roster.registerOperator]
  dsimp only
  split
  case isTrue => exact ⟨_, rfl⟩
  case isFalse named =>
    split
    case isTrue => exact ⟨_, rfl⟩
    case isFalse =>
      split
      case h_1 => exact ⟨_, rfl⟩
      case h_2 =>
        have exists' := @createOperator_stored json s (op.joined joinedAt lastSeen) named stored
        rw [Roster.persist, federation]
        dsimp only
        rw [exists']
        exact ⟨_, rfl⟩

/-- The checks of the handler and the one of the registry engine refuse a request before anything is written. -/
lemma registerOperator_refused (refused : req.id = [] ∨ req.name = [] ∨ s.Stored req.id) :
    ∃ err, s.registerOperator json clock req = (.error err, s) := by
  rw [registerOperator]
  split
  case isTrue => exact ⟨_, rfl⟩
  case isFalse named =>
    split
    case isTrue => exact ⟨_, rfl⟩
    case isFalse titled =>
      have stored : s.Stored req.id := (refused.resolve_left named).resolve_left titled
      have exists' := @createOperator_stored json s (requested clock req) named stored
      dsimp only
      rw [exists']
      exact ⟨_, rfl⟩

/-- The server after the registry engine has created the operator of a request. -/
def created (s : OperatorServer) (id data : Bytes) : OperatorServer :=
  { s with db := s.db.set (prefixOperator ++ id) data }

lemma stored_created (id data : Bytes) : (s.created id data).Stored id := by
  rw [Stored, created, KV.get_set_self]
  rfl

/-- Otherwise the registry engine creates the operator, the manager finds it in the store, and it stays there. -/
lemma registerOperator_new (named : req.id ≠ []) (titled : req.name ≠ []) (new : ¬ s.Stored req.id) {data : Bytes}
    (written : json.operator.marshal (requested clock req) = .ok data) :
    ∃ err, s.registerOperator json clock req =
      (.error ⟨.internal, ascii "failed to register in federation: " ++ err⟩, s.created req.id data) := by
  have absent : s.db.get (prefixOperator ++ (requested clock req).id) = none := Option.not_isSome_iff_eq_none.mp new
  obtain ⟨err, failed⟩ := @federation_registerOperator json (s.created req.id data) (requested clock req)
    (stored_created _ _) clock.managerJoinedAt clock.managerLastSeen
  refine ⟨err, ?_⟩
  rw [registerOperator, if_neg named, if_neg titled]
  dsimp only
  rw [Roster.createOperator_new (requested clock req) named absent written]
  dsimp only
  rw [show (requested clock req).id = req.id from rfl, ← created, failed]
  rfl

/-! ## Runs -/

/-- The server after a request. -/
def step (json : Codecs) (s : OperatorServer) (call : RegistrationClock × RegisterOperatorRequest) : OperatorServer :=
  (s.registerOperator json call.1 call.2).2

/-- A request fails. It does not touch the map, keeps what is in the store and, if it has an ID and a name, leaves an
    operator with the ID there. -/
lemma registerOperator_error (s : OperatorServer) (clock : RegistrationClock) (req : RegisterOperatorRequest)
    (readable : Readable json.operator (requested clock req)) :
    ∃ err s', s.registerOperator json clock req = (.error err, s') ∧ s'.operators = s.operators ∧
      (∀ id, s.Stored id → s'.Stored id) ∧ (req.id ≠ [] → req.name ≠ [] → s'.Stored req.id) := by
  by_cases refused : req.id = [] ∨ req.name = [] ∨ s.Stored req.id
  case pos =>
    obtain ⟨err, failed⟩ := @registerOperator_refused json s clock req refused
    refine ⟨err, s, failed, rfl, fun _ stored => stored, fun named titled => ?_⟩
    exact (refused.resolve_left named).resolve_left titled
  case neg =>
    obtain ⟨named, titled, new⟩ := not_or.mp refused |>.imp_right not_or.mp
    obtain ⟨data, written, _⟩ := readable
    obtain ⟨err, failed⟩ := registerOperator_new named titled new written
    refine ⟨_, _, failed, rfl, fun id stored => ?_, fun _ _ => stored_created _ _⟩
    rw [Stored, created, KV.get_set]
    split
    case isTrue => rfl
    case isFalse => exact stored

/-- Along any requests the map of the manager stays as it is, while the operators of all requests with an ID and a name
    gather in the store. -/
theorem run_operators (s : OperatorServer) (calls : List (RegistrationClock × RegisterOperatorRequest))
    (readable : ∀ call ∈ calls, Readable json.operator (requested call.1 call.2)) :
    (calls.foldl (step json) s).operators = s.operators ∧
      (∀ id, s.Stored id → (calls.foldl (step json) s).Stored id) ∧
      ∀ call ∈ calls, call.2.id ≠ [] → call.2.name ≠ [] → (calls.foldl (step json) s).Stored call.2.id := by
  induction calls generalizing s with
  | nil => exact ⟨rfl, fun _ stored => stored, fun _ mem => by cases mem⟩
  | cons call calls ih =>
    obtain ⟨first, rest⟩ := List.forall_mem_cons.mp readable
    obtain ⟨err, s', failed, operators, keeps, stored⟩ := registerOperator_error s call.1 call.2 first
    have stepped : step json s call = s' := congrArg Prod.snd failed
    obtain ⟨same, kept, all⟩ := ih s' rest
    rw [List.foldl_cons, stepped]
    refine ⟨same.trans operators, fun id here => kept id (keeps id here), fun c mem named titled => ?_⟩
    rcases List.mem_cons.mp mem with rfl | later
    · exact kept _ (stored named titled)
    · exact all c later named titled

end OperatorServer

/-! ## Main result -/

/-- A registration through the API is all-or-nothing and works exactly if the request is to be refused: it has no ID or
    no name, or an operator with its ID is in the store. -/
theorem registerOperator_allOrNothing_iff (json : Codecs) (s : OperatorServer) (clock : RegistrationClock)
    (req : RegisterOperatorRequest) (readable : Readable json.operator (OperatorServer.requested clock req)) :
    s.AllOrNothing json clock req ↔ req.id = [] ∨ req.name = [] ∨ s.Stored req.id := by
  constructor
  · intro atomic
    by_contra admitted
    obtain ⟨named, titled, new⟩ := not_or.mp admitted |>.imp_right not_or.mp
    obtain ⟨data, written, _⟩ := readable
    obtain ⟨err, failed⟩ := OperatorServer.registerOperator_new named titled new written
    have same := atomic.restores _ (congrArg Prod.fst failed)
    rw [failed] at same
    exact new (same ▸ OperatorServer.stored_created req.id data)
  · intro refused
    obtain ⟨err, failed⟩ := @OperatorServer.registerOperator_refused json s clock req refused
    refine ⟨fun named titled _ new _ => ?_, fun _ _ => by rw [failed]⟩
    exact absurd ((refused.resolve_left named).resolve_left titled) new

def emptyServer : OperatorServer where
  operatorID := ascii "op-a"
  operators := .empty
  db := .empty

def requestB : RegisterOperatorRequest where
  id := ascii "op-b"
  name := ascii "Operator B"
  publicKey := [1]
  endpoint := ascii "https://op-b.example.com"

/-- The clock of a request. -/
def clockB : RegistrationClock :=
  ⟨1, 1, 2, 2⟩

/-- JSON for the operator of the request. -/
def requestCodecs : Codecs :=
  operatorCodecs [OperatorServer.requested clockB requestB]

lemma requestCodecs_readable : Readable requestCodecs.operator (OperatorServer.requested clockB requestB) :=
  ⟨[], by decide +kernel, by decide +kernel⟩

/-- The first request for an operator is not all-or-nothing; the second one, which finds it in the store, is. -/
theorem registerOperator_allOrNothing_retried :
    ¬ emptyServer.AllOrNothing requestCodecs clockB requestB ∧
      (emptyServer.registerOperator requestCodecs clockB requestB).2.AllOrNothing requestCodecs clockB requestB := by
  have iff (s : OperatorServer) :=
    registerOperator_allOrNothing_iff requestCodecs s clockB requestB requestCodecs_readable
  refine ⟨fun atomic => ?_, (iff _).mpr (.inr (.inr rfl))⟩
  obtain absent | unnamed | stored := (iff _).mp atomic
  · cases absent
  · cases unnamed
  · cases stored

/-- The first registration with an empty server fails, and the operator is in the store and not in the map. -/
theorem not_registerOperator_allOrNothing :
    (emptyServer.registerOperator requestCodecs clockB requestB).1 = .error ⟨.internal,
        ascii "failed to register in federation: persist operator op-b: operator already exists: op-b"⟩ ∧
      (emptyServer.registerOperator requestCodecs clockB requestB).2.Stored (ascii "op-b") ∧
      (emptyServer.registerOperator requestCodecs clockB requestB).2.operators.get (ascii "op-b") = none ∧
      ¬ emptyServer.AllOrNothing requestCodecs clockB requestB := by
  refine ⟨rfl, rfl, rfl, fun atomic => ?_⟩
  obtain ⟨op, s', succeeded, -⟩ := atomic.works (by decide) (by decide) (by decide) Bool.false_ne_true rfl
  cases congrArg Prod.fst succeeded

end Otap.Flr
