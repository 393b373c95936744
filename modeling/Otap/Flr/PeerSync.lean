import Otap.Flr.Commitment
import Otap.Flr.Federation

/-!
# Peer synchronization

Embeds `Manager.SyncWithOperator` of `flr/internal/federation/manager.go` with the requests of `client.go` and the
conflict scan of `conflict.go`, and proves what it can do to the stored commitments. The response of the peer names
the operator and the height under which `SaveCommitment` files it; neither is compared with the peer, and no
signature is verified. So `sync_confined_iff`: a call stays within the entries of the peer exactly when the
commitment it fetched is one that the peer signed, or was stored already.
-/

namespace Otap.Flr

open Otap.Lib

variable {P : Platform}

/-! ## Requests to a peer -/

/-- What the HTTP client returns for a request: `http.NewRequest` fails, `Do` fails, or there is a response. -/
inductive Reply where
  | notCreated (err : Bytes)
  | notSent (err : Bytes)
  | response (status : Nat) (body : Bytes)

/-- The decoding of a body by `encoding/json`. Elements of a list of leases may be nil. -/
structure Decoder where
  commitment : Bytes → Result MerkleCommitment
  leases : Bytes → Result (List (Option Lease))

def statusOK : Nat := 200

/-- A request of `federation.Client` for `noun`. -/
def fetch {α : Type} (noun : String) (decode : Bytes → Result α) (peerEndpoint : Bytes) (reply : Reply) : Result α :=
  match reply with
  | .notCreated err => .error (ascii "create " ++ ascii noun ++ ascii " request: " ++ err)
  | .notSent err => .error (ascii "fetch " ++ ascii noun ++ ascii " from " ++ peerEndpoint ++ ascii ": " ++ err)
  | .response status body =>
    if status ≠ statusOK then
      .error (ascii noun ++ ascii " request failed: " ++ body ++ ascii " (status " ++ decimal status ++ ascii ")")
    else
      match decode body with
      | .error err => .error (ascii "decode " ++ ascii noun ++ ascii ": " ++ err)
      | .ok value => .ok value

/-- `Client.GetCommitment`. -/
def getCommitment (dec : Decoder) (peerEndpoint : Bytes) (reply : Reply) : Result MerkleCommitment :=
  fetch "commitment" dec.commitment peerEndpoint reply

/-- `Client.GetLeases`. -/
def getLeases (dec : Decoder) (peerEndpoint : Bytes) (reply : Reply) : Result (List (Option Lease)) :=
  fetch "leases" dec.leases peerEndpoint reply

/-! ## Conflicts -/

structure ConflictPair where
  localLease : Option Lease
  remote : Option Lease
  type : InvalidityType

/-- The clock readings of `findConflicts`: its own one, and those of the checks it calls for the leases at given
    positions. -/
structure ConflictClock where
  now : Time
  localExpiry : Nat → Time
  remoteExpiry : Nat → Time
  overlap : Nat → Nat → Time

/-- A lease that the double-allocation loop of `findConflicts` does not skip. -/
def scanned (now : Time) (lease : Lease) : Bool :=
  lease.wavelength.isSome && lease.status == .active && !decide (lease.endTime < now)

/-- `findConflicts`; `none` where the source dereferences a nil lease. -/
def findConflicts (clock : ConflictClock) (locals remotes : List (Option Lease)) : Option (List ConflictPair) := do
  let expiredLocals := locals.zipIdx.filter fun (l, i) => checkExpiredLease (clock.localExpiry i) l
  let expiredRemotes := remotes.zipIdx.filter fun (r, j) => checkExpiredLease (clock.remoteExpiry j) r
  let doubles ← locals.zipIdx.mapM fun (l, i) => do
    if !scanned clock.now (← l) then return []
    let found ← remotes.zipIdx.mapM fun (r, j) => do
      if scanned clock.now (← r) && checkDoubleAllocation (clock.overlap i j) l r then
        return [ConflictPair.mk l r invalidityDoubleAllocation]
      return []
    return found.flatten
  return expiredLocals.map (fun (l, _) => ⟨l, none, invalidityExpiredLease⟩) ++
    expiredRemotes.map (fun (r, _) => ⟨none, r, invalidityExpiredLease⟩) ++ doubles.flatten

/-! ## The manager -/

/-- A `federation.Manager`; the registry may be nil. -/
structure Federation (P : Platform) where
  registry : Option (Engine P)
  operators : KV Operator
  operatorID : Bytes

namespace Federation

/-- The part of the manager that the handler of proofs reads. -/
def manager (m : Federation P) : Manager where
  operatorID := m.operatorID
  hasStore := m.registry.isSome

/-- Persists a commitment, if there is a registry. -/
def saveCommitment (m : Federation P) (fails : Bool) (commitment : MerkleCommitment) : Result (Federation P) :=
  match m.registry with
  | none => .ok m
  | some registry =>
    match registry.store.saveCommitment fails commitment with
    | .error err => .error err
    | .ok store => .ok { m with registry := some { registry with store } }

/-- Sets the `LastSeen` of an operator. -/
def seen (m : Federation P) (operatorID : Bytes) (now : Time) : Federation P :=
  match m.operators.get operatorID with
  | none => m
  | some op => { m with operators := m.operators.set operatorID { op with lastSeen := now } }

/-- The text of a nil dereference; the source panics there. -/
def nilDereference : Bytes :=
  ascii "invalid memory address or nil pointer dereference"

/-- `Manager.SyncWithOperator`. Store accesses: the save, the list of the local leases; clock reading: the
    `LastSeen`. The conflicts that it finds are dropped. -/
def syncWithOperator (m : Federation P) (dec : Decoder) (env : Env) (clock : ConflictClock)
    (commitmentReply leasesReply : Reply) (operatorID : Bytes) : Result Unit × Federation P :=
  match m.operators.get operatorID with
  | none => (.error (ascii "operator " ++ operatorID ++ ascii " not found"), m)
  | some op =>
    match getCommitment dec op.endpoint commitmentReply with
    | .error err => (.error (ascii "fetch commitment from " ++ operatorID ++ ascii ": " ++ err), m)
    | .ok commitment =>
      match m.saveCommitment (env.fails 0) commitment with
      | .error err => (.error (ascii "save commitment from " ++ operatorID ++ ascii ": " ++ err), m)
      | .ok m =>
        match getLeases dec op.endpoint leasesReply with
        | .error err => (.error (ascii "fetch leases from " ++ operatorID ++ ascii ": " ++ err), m)
        | .ok peerLeases =>
          match m.registry with
          | none => (.error nilDereference, m)
          | some registry =>
            if env.fails 1 then (.error (ascii "list local leases: " ++ dbError), m)
            else
              let localLeases := registry.store.listLeases { operatorID := m.operatorID, status := .active }
              match findConflicts clock (localLeases.map some) peerLeases with
              | none => (.error nilDereference, m)
              | some _ => (.ok (), m.seen operatorID (env.now 0))

end Federation

/-! ## Entries of the commitment store -/

/-- Where `SaveCommitment` files a commitment of an operator. -/
inductive Entry where
  | height (blockHeight : Int64)
  | latest
  deriving DecidableEq

/-- What follows the operator and a colon in the key of an entry. -/
def Entry.suffix : Entry → Bytes
  | .height blockHeight => decimalInt blockHeight.toInt
  | .latest => ascii "latest"

lemma Entry.noColon (e : Entry) : (58 : UInt8) ∉ e.suffix := by
  cases e with
  | height blockHeight => exact colon_notMem_decimalInt _
  | latest => decide

lemma Entry.suffix_inj {e e' : Entry} (same : e.suffix = e'.suffix) : e = e' := by
  cases e with
  | height h =>
    cases e' with
    | height h' => rw [Int64.toInt_inj.mp (decimalInt_inj same)]
    | latest => exact absurd same (decimalInt_ne_latest _)
  | latest =>
    cases e' with
    | height h' => exact absurd same.symm (decimalInt_ne_latest _)
    | latest => rfl

def entryKey (operatorID : Bytes) (e : Entry) : Bytes :=
  operatorID ++ 58 :: e.suffix

/-- A key determines the operator and the entry, since nothing after its last colon is part of the operator. -/
lemma entryKey_inj {op op' : Bytes} {e e' : Entry} : entryKey op e = entryKey op' e' ↔ op = op' ∧ e = e' := by
  constructor
  · intro same
    obtain ⟨operator, suffix⟩ := separated_inj e.noColon e'.noColon same
    exact ⟨operator, Entry.suffix_inj suffix⟩
  · rintro ⟨rfl, rfl⟩
    rfl

lemma entryKey_height (operatorID : Bytes) (h : Int64) : entryKey operatorID (.height h) = heightKey operatorID h := by
  rw [heightKey, List.append_assoc]
  rfl

lemma entryKey_latest (operatorID : Bytes) : entryKey operatorID .latest = latestKey operatorID := rfl

/-- What the store returns for an entry. -/
def Store.entry (s : Store) (operatorID : Bytes) : Entry → Result MerkleCommitment
  | .height blockHeight => s.getCommitment operatorID blockHeight
  | .latest => s.getLatestCommitment operatorID

/-- The commitment at an entry of the manager's store. -/
def Federation.entry (m : Federation P) (operatorID : Bytes) (e : Entry) : Option MerkleCommitment :=
  m.registry.bind fun registry => (registry.store.entry operatorID e).toOption

lemma Store.toOption_entry (s : Store) (operatorID : Bytes) (e : Entry) :
    (s.entry operatorID e).toOption =
      if operatorID = [] then none else s.commitments.get (entryKey operatorID e) := by
  cases e with
  | height h =>
    rw [entry, getCommitment, entryKey_height]
    split
    case isTrue => rfl
    case isFalse => cases s.commitments.get (heightKey operatorID h) <;> rfl
  | latest =>
    rw [entry, getLatestCommitment, entryKey_latest]
    split
    case isTrue => rfl
    case isFalse => cases s.commitments.get (latestKey operatorID) <;> rfl

/-- `SaveCommitment` writes the entry of the height and the latest one of the operator that the commitment names,
    and no others. -/
lemma Store.entry_saveCommitment {s s' : Store} {c : MerkleCommitment} (saved : s.saveCommitment false c = .ok s')
    (operatorID : Bytes) (e : Entry) :
    (s'.entry operatorID e).toOption =
      if operatorID = c.operatorID ∧ (e = .height c.blockHeight ∨ e = .latest) then some c
      else (s.entry operatorID e).toOption := by
  obtain ⟨ne, rfl⟩ := saveCommitment_eq saved
  rw [toOption_entry, toOption_entry, ← entryKey_height, ← entryKey_latest, KV.get_set, KV.get_set]
  simp only [entryKey_inj]
  by_cases named : operatorID = c.operatorID
  case pos =>
    subst named
    simp only [true_and, if_neg ne]
    grind
  case neg => simp only [named, false_and, if_false]

/-! ## What a call does to the entries -/

/-- The call saves commitment `c`: the reply decodes to it, and the store takes it. -/
def Federation.Saves (m : Federation P) (dec : Decoder) (env : Env) (reply : Reply) (c : MerkleCommitment) : Prop :=
  (∃ body, reply = .response statusOK body ∧ dec.commitment body = .ok c) ∧
    m.registry.isSome ∧ c.operatorID ≠ [] ∧ env.fails 0 = false

lemma getCommitment_ok {dec : Decoder} {peerEndpoint : Bytes} {reply : Reply} {c : MerkleCommitment} :
    getCommitment dec peerEndpoint reply = .ok c ↔
      ∃ body, reply = .response statusOK body ∧ dec.commitment body = .ok c := by
  unfold getCommitment fetch
  constructor
  · intro fetched
    split at fetched
    case h_1 => cases fetched
    case h_2 => cases fetched
    case h_3 status body =>
      split at fetched
      case isTrue => cases fetched
      case isFalse ok =>
        split at fetched
        case h_1 => cases fetched
        case h_2 value decoded =>
          cases fetched
          rw [not_not.mp ok]
          exact ⟨body, rfl, decoded⟩
  · rintro ⟨body, rfl, decoded⟩
    dsimp only
    rw [if_neg (not_not.mpr rfl), decoded]

namespace Federation

variable {m m' : Federation P} {dec : Decoder} {env : Env} {clock : ConflictClock} {reply leasesReply : Reply}
  {operatorID : Bytes} {op : Operator} {c : MerkleCommitment}

lemma registry_seen (m : Federation P) (operatorID : Bytes) (now : Time) :
    (m.seen operatorID now).registry = m.registry := by
  unfold seen
  split <;> rfl

/-- What saving a commitment does: nothing without a registry, and a `SaveCommitment` otherwise. -/
lemma saveCommitment_ok {fails : Bool} (saved : m.saveCommitment fails c = .ok m') :
    m.registry = none ∧ m' = m ∨
      ∃ reg store, m.registry = some reg ∧ fails = false ∧ reg.store.saveCommitment false c = .ok store ∧
        m' = { m with registry := some { reg with store } } := by
  unfold saveCommitment at saved
  split at saved
  case h_1 registry =>
    cases saved
    exact .inl ⟨registry, rfl⟩
  case h_2 reg registry =>
    split at saved
    case h_1 => cases saved
    case h_2 store stored =>
      cases saved
      cases fails with
      | false => exact .inr ⟨reg, store, registry, rfl, stored, rfl⟩
      | true =>
        unfold Store.saveCommitment at stored
        split at stored
        case isTrue => cases stored
        case isFalse =>
          rw [if_pos rfl] at stored
          cases stored

/-- The registry after a call: the one before it if the fetch or the save fails, and otherwise the one that the save
    leaves. -/
lemma registry_sync (registered : m.operators.get operatorID = some op) :
    (m.syncWithOperator dec env clock reply leasesReply operatorID).2.registry = m.registry ∧
      (∀ c m', getCommitment dec op.endpoint reply = .ok c → m.saveCommitment (env.fails 0) c ≠ .ok m') ∨
    ∃ c m', getCommitment dec op.endpoint reply = .ok c ∧ m.saveCommitment (env.fails 0) c = .ok m' ∧
      (m.syncWithOperator dec env clock reply leasesReply operatorID).2.registry = m'.registry := by
  unfold syncWithOperator
  rw [registered]
  dsimp only
  cases fetched : getCommitment dec op.endpoint reply with
  | error err => exact .inl ⟨rfl, fun _ _ ok => nomatch ok⟩
  | ok c =>
    dsimp only
    cases saved : m.saveCommitment (env.fails 0) c with
    | error err =>
      refine .inl ⟨rfl, fun c' m' ok saved' => ?_⟩
      cases ok
      cases saved.symm.trans saved'
    | ok m' =>
      refine .inr ⟨c, m', rfl, saved, ?_⟩
      dsimp only
      cases getLeases dec op.endpoint leasesReply with
      | error err => rfl
      | ok peerLeases =>
        dsimp only
        split
        case h_1 => rfl
        case h_2 =>
          split
          case isTrue => rfl
          case isFalse =>
            split
            case h_1 => rfl
            case h_2 => exact registry_seen m' operatorID (env.now 0)

/-- A call that saves `c` writes it to the two entries that `c` names. -/
lemma entry_sync_of_saves (registered : m.operators.get operatorID = some op) (saves : m.Saves dec env reply c)
    (o : Bytes) (e : Entry) :
    (m.syncWithOperator dec env clock reply leasesReply operatorID).2.entry o e =
      if o = c.operatorID ∧ (e = .height c.blockHeight ∨ e = .latest) then some c else m.entry o e := by
  obtain ⟨decoded, hasStore, ne, works⟩ := saves
  have fetched := @getCommitment_ok dec op.endpoint reply c |>.mpr decoded
  obtain ⟨reg, registry⟩ := Option.isSome_iff_exists.mp hasStore
  rcases @registry_sync _ m dec env clock reply leasesReply _ _ registered with
    ⟨-, failed⟩ | ⟨c', m', fetched', saved, after⟩
  · obtain ⟨store, stored⟩ : ∃ s, reg.store.saveCommitment false c = .ok s := by
      rw [Store.saveCommitment, if_neg ne, if_neg Bool.false_ne_true]
      exact ⟨_, rfl⟩
    refine absurd ?_ (failed c { m with registry := some { reg with store } } fetched)
    rw [saveCommitment, registry, works]
    dsimp only
    rw [stored]
  · cases fetched.symm.trans fetched'
    rcases saveCommitment_ok saved with ⟨none, -⟩ | ⟨reg', store, registry', -, stored, rfl⟩
    · cases registry.symm.trans none
    · cases registry.symm.trans registry'
      rw [entry, after, entry, registry]
      exact Store.entry_saveCommitment stored o e

/-- A call that saves nothing changes no entry. -/
lemma entry_sync_of_not_saves (registered : m.operators.get operatorID = some op)
    (none : ∀ c, ¬ m.Saves dec env reply c) (o : Bytes) (e : Entry) :
    (m.syncWithOperator dec env clock reply leasesReply operatorID).2.entry o e = m.entry o e := by
  rcases @registry_sync _ m dec env clock reply leasesReply _ _ registered with
    ⟨after, -⟩ | ⟨c, m', fetched, saved, after⟩
  · rw [entry, after, entry]
  · rcases saveCommitment_ok saved with ⟨-, rfl⟩ | ⟨reg, store, registry, works, stored, -⟩
    · rw [entry, after, entry]
    · have some : m.registry.isSome := by rw [registry]; rfl
      exact absurd ⟨getCommitment_ok.mp fetched, some, (Store.saveCommitment_eq stored).1, works⟩ (none c)

end Federation

/-! ## Main result -/

/-- Between two states of the manager: no entry of an operator other than `p` has changed, and what is new in an
    entry of `p` verifies under `key`. -/
structure Confined (P : Platform) (before after : Federation P) (p key : Bytes) : Prop where
  others : ∀ o, o ≠ p → ∀ e, after.entry o e = before.entry o e
  signed : ∀ e c, after.entry p e = some c → before.entry p e ≠ some c → verifyMerkleCommitment P c key = .ok ()

/-- A call for a registered peer is confined to it if and only if the commitment that it saves, if any, is one of
    the peer and verifies under its registered key, or already stands in both of the entries that it names. -/
theorem sync_confined_iff (m : Federation P) (dec : Decoder) (env : Env) (clock : ConflictClock)
    (reply leasesReply : Reply) {p : Bytes} {op : Operator} (registered : m.operators.get p = some op) :
    Confined P m (m.syncWithOperator dec env clock reply leasesReply p).2 p op.publicKey ↔
      ∀ c, m.Saves dec env reply c →
        c.operatorID = p ∧ verifyMerkleCommitment P c op.publicKey = .ok () ∨
        m.entry c.operatorID (.height c.blockHeight) = some c ∧ m.entry c.operatorID .latest = some c := by
  constructor
  case mp =>
    intro confined c saves
    have after := @Federation.entry_sync_of_saves _ _ _ _ clock _ leasesReply _ _ _ registered saves
    have atHeight := after c.operatorID (.height c.blockHeight)
    have atLatest := after c.operatorID .latest
    rw [if_pos ⟨rfl, .inl rfl⟩] at atHeight
    rw [if_pos ⟨rfl, .inr rfl⟩] at atLatest
    by_cases named : c.operatorID = p
    case neg =>
      exact .inr ⟨(confined.others _ named _).symm.trans atHeight, (confined.others _ named _).symm.trans atLatest⟩
    case pos =>
      by_cases verifies : verifyMerkleCommitment P c op.publicKey = .ok ()
      case pos => exact .inl ⟨named, verifies⟩
      case neg =>
        rw [named] at atHeight atLatest ⊢
        exact .inr ⟨not_not.mp fun new => verifies (confined.signed _ c atHeight new),
          not_not.mp fun new => verifies (confined.signed _ c atLatest new)⟩
  case mpr =>
    intro harmless
    by_cases saves : ∃ c, m.Saves dec env reply c
    case neg =>
      have same := @Federation.entry_sync_of_not_saves _ _ _ _ clock _ leasesReply _ _ registered (not_exists.mp saves)
      exact ⟨fun o _ e => same o e, fun e c entry new => absurd ((same p e).symm.trans entry) new⟩
    case pos =>
      obtain ⟨c, saves⟩ := saves
      have after := @Federation.entry_sync_of_saves _ _ _ _ clock _ leasesReply _ _ _ registered saves
      rcases harmless c saves with ⟨named, verifies⟩ | ⟨height, latest⟩
      · refine ⟨fun o other e => ?_, fun e c' entry new => ?_⟩
        · rw [after, if_neg fun h => other (h.1.trans named)]
        · rw [after] at entry
          split at entry
          case isTrue =>
            cases entry
            exact verifies
          case isFalse => exact absurd entry new
      · have same : ∀ o e, (m.syncWithOperator dec env clock reply leasesReply p).2.entry o e = m.entry o e := by
          intro o e
          rw [after]
          split
          case isTrue written =>
            obtain ⟨rfl, rfl | rfl⟩ := written
            · exact height.symm
            · exact latest.symm
          case isFalse => rfl
        exact ⟨fun o _ e => same o e, fun e c entry new => absurd ((same p e).symm.trans entry) new⟩

/-- A commitment of operator `op`, without a signature. -/
def ownCommitment : MerkleCommitment where
  operatorID := ascii "op"
  rootHash := [1]
  timestamp := 0
  signature := []
  leaseCount := 0
  blockHeight := 1

/-- The manager of operator `op`, whose store holds that commitment, with one registered peer. -/
def peeredFederation : Federation .plain where
  registry := some { plainEngine with
    store := { Store.empty with commitments :=
      (KV.empty.set (heightKey (ascii "op") 1) ownCommitment).set (latestKey (ascii "op")) ownCommitment } }
  operators := KV.empty.set (ascii "peer") ⟨ascii "peer", ascii "Peer", [1], ascii "http://peer", .active, 0, 0⟩
  operatorID := ascii "op"

/-- A peer whose bodies decode to commitment `c` and to no leases. -/
def serving (c : MerkleCommitment) : Decoder where
  commitment _ := .ok c
  leases _ := .ok []

/-- The manager after a call that receives commitment `c` from the peer. -/
def syncedWith (c : MerkleCommitment) : Federation .plain :=
  (peeredFederation.syncWithOperator (serving c) (plainEnv 7 []) ⟨7, fun _ => 7, fun _ => 7, fun _ _ => 7⟩
    (.response statusOK []) (.response statusOK []) (ascii "peer")).2

/-- A commitment that the peer signed. -/
def peerCommitment : MerkleCommitment :=
  let c := { ownCommitment with operatorID := ascii "peer" }
  { c with signature := marshalSignature (ofBE (Platform.plain.sha3.sum (c.message .plain))) 0 }

theorem sync_confined_signed : Confined .plain peeredFederation (syncedWith peerCommitment) (ascii "peer") [1] := by
  refine (@sync_confined_iff _ peeredFederation (serving peerCommitment) (plainEnv 7 []) _ _ _ (ascii "peer")
    ⟨ascii "peer", ascii "Peer", [1], ascii "http://peer", .active, 0, 0⟩ rfl).mpr ?_
  rintro c ⟨⟨body, -, decoded⟩, -⟩
  cases decoded
  exact .inl ⟨rfl, by decide +kernel⟩

/-- The peer answers with a commitment that names operator `op`, which replaces the latest one of `op` itself. -/
theorem not_sync_confined :
    peeredFederation.entry (ascii "op") .latest = some ownCommitment ∧
    (syncedWith { ownCommitment with rootHash := [2] }).entry (ascii "op") .latest =
      some { ownCommitment with rootHash := [2] } ∧
    ¬ Confined .plain peeredFederation (syncedWith { ownCommitment with rootHash := [2] }) (ascii "peer") [1] := by
  have before : peeredFederation.entry (ascii "op") .latest = some ownCommitment := by decide +kernel
  have after : (syncedWith { ownCommitment with rootHash := [2] }).entry (ascii "op") .latest =
      some { ownCommitment with rootHash := [2] } := by decide +kernel
  refine ⟨before, after, fun confined => ?_⟩
  have same := confined.others (ascii "op") (by decide) .latest
  rw [before, after] at same
  exact absurd same (by decide)

end Otap.Flr
