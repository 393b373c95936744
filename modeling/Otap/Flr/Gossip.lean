import Otap.Flr.ConflictDetection
import Otap.Lib.Commuting

/-!
# Gossip rounds

Embeds `gossipRound` of `flr/internal/federation/gossip.go` with `PushCommitmentToAll` of `manager.go`. A round starts
a goroutine for every ACTIVE operator, each of which runs `SyncWithOperator`; they share the map of operators and the
store. `Federation.resume` is one section of a call, from one access of what is shared up to the next one, and a
schedule says which goroutine continues.
-/

namespace Otap.Flr

open Otap.Lib

variable {P : Platform}

/-! ## The code -/

/-- What a goroutine of a round gets from its surroundings. -/
structure SyncCall where
  env : Env
  clock : ConflictClock
  commitmentReply : Reply
  leasesReply : Reply

/-- How far a call of `SyncWithOperator` has come. -/
inductive SyncPhase where
  | called
  | fetched (endpoint : Bytes) (commitment : MerkleCommitment)
  | leases (peerLeases : List (Option Lease))
  | compared
  | returned (result : Result Unit)

/-- How many sections are left at most. -/
def SyncPhase.rank : SyncPhase → Nat
  | called => 4
  | fetched _ _ => 3
  | leases _ => 2
  | compared => 1
  | returned _ => 0

namespace Federation

/-- The call of a goroutine, without the others. -/
def sync (m : Federation P) (dec : Decoder) (call : SyncCall) (operatorID : Bytes) : Result Unit × Federation P :=
  m.syncWithOperator dec call.env call.clock call.commitmentReply call.leasesReply operatorID

/-- The next section of `SyncWithOperator`: the lookup and the request for the commitment, the save and the request for
    the leases, the list of the local leases and the comparison, the update of `LastSeen`. `none` is a panic. -/
def resume (m : Federation P) (dec : Decoder) (call : SyncCall) (operatorID : Bytes) :
    SyncPhase → Option (SyncPhase × Federation P)
  | .called =>
    match m.operators.get operatorID with
    | none => some (.returned (.error (ascii "operator " ++ operatorID ++ ascii " not found")), m)
    | some op =>
      match getCommitment dec op.endpoint call.commitmentReply with
      | .error err => some (.returned (.error (ascii "fetch commitment from " ++ operatorID ++ ascii ": " ++ err)), m)
      | .ok commitment => some (.fetched op.endpoint commitment, m)
  | .fetched endpoint commitment =>
    match m.saveCommitment (call.env.fails 0) commitment with
    | .error err => some (.returned (.error (ascii "save commitment from " ++ operatorID ++ ascii ": " ++ err)), m)
    | .ok m =>
      match getLeases dec endpoint call.leasesReply with
      | .error err => some (.returned (.error (ascii "fetch leases from " ++ operatorID ++ ascii ": " ++ err)), m)
      | .ok peerLeases => some (.leases peerLeases, m)
  | .leases peerLeases =>
    match m.registry with
    | none => none
    | some registry =>
      if call.env.fails 1 then some (.returned (.error (ascii "list local leases: " ++ dbError)), m)
      else
        let localLeases := registry.store.listLeases { operatorID := m.operatorID, status := .active }
        match findConflicts call.clock (localLeases.map some) peerLeases with
        | none => none
        | some _ => some (.compared, m)
  | .compared => some (.returned (.ok ()), m.seen operatorID (call.env.now 0))
  | .returned result => some (.returned result, m)

end Federation

/-- The goroutines of a round; a panic in one of them ends the program. -/
structure Round (P : Platform) where
  manager : Federation P
  tasks : Bytes → Option SyncPhase
  crashed : Bool

namespace Round

/-- A goroutine for each of the operators. -/
def start (m : Federation P) (ops : List Bytes) : Round P where
  manager := m
  tasks operatorID := if ops.contains operatorID then some .called else none
  crashed := false

/-- The goroutine for an operator continues. -/
def step (dec : Decoder) (calls : Bytes → SyncCall) (s : Round P) (operatorID : Bytes) : Option (Round P) :=
  if s.crashed then none
  else
    match s.tasks operatorID with
    | none => none
    | some phase =>
      if phase.rank = 0 then none
      else
        match s.manager.resume dec (calls operatorID) operatorID phase with
        | none => some { s with crashed := true }
        | some (next, m) => some { s with manager := m, tasks := Function.update s.tasks operatorID (some next) }

/-- What the goroutine for an operator has sent to `syncResults`. -/
def result (s : Round P) (operatorID : Bytes) : Option (Result Unit) :=
  match s.tasks operatorID with
  | some (.returned result) => some result
  | _ => none

end Round

namespace Federation

/-- The snapshot of the ACTIVE operators. -/
def activeIDs (m : Federation P) : List Bytes :=
  (m.operators.entries.filter fun e => e.2.status == .active).map Prod.fst

/-- One call after the other. -/
def syncAll (m : Federation P) (dec : Decoder) (calls : Bytes → SyncCall) (order : List Bytes) : Federation P :=
  order.foldl (fun m id => (m.sync dec (calls id) id).2) m

/-- The goroutines of a round after a schedule. -/
def synced (m : Federation P) (dec : Decoder) (calls : Bytes → SyncCall) (schedule : List Bytes) : Round P :=
  runSchedule (Round.step dec calls) (.start m m.activeIDs) schedule

end Federation

end Otap.Flr
