import Otap.Lib.KV
import Otap.Flr.Crypto

/-!
# The registry engine

Embeds the lease and commitment operations of `flr/internal/registry/badger_store.go` and the registry
engine of `engine.go` over them. Every call holds the engine's lock, so a call is one step; it returns its
result and the engine after it.

The store keeps leases and commitments in maps of their own, keyed by what follows the prefixes `lease:`
and `commitment:`; values come back from JSON as they were written. A store access that fails, in the
database or while encoding, is a choice of `Env.fails` and changes nothing. The audit log is left out: the
engine drops the errors of `appendAuditLog` and reads nothing from the log.
-/

namespace Otap.Flr

open Otap.Lib

variable {P : Platform}

/-! ## The store -/

structure LeaseFilter where
  operatorID : Bytes := []
  endpointID : Bytes := []
  status : LeaseStatus := .unspecified

/-- The filters of `ListLeases`; an empty one admits every lease. -/
def LeaseFilter.admits (filter : LeaseFilter) (lease : Lease) : Bool :=
  (filter.operatorID == [] || lease.operatorID == filter.operatorID) &&
  (filter.endpointID == [] || lease.endpointID == filter.endpointID) &&
  (filter.status == .unspecified || lease.status == filter.status)

structure Store where
  leases : KV Lease
  commitments : KV MerkleCommitment

def Store.empty : Store where
  leases := .empty
  commitments := .empty

def dbError : Bytes :=
  ascii "database error"

/-- `BadgerStore.CreateLease`. -/
def Store.createLease (s : Store) (fails : Bool) (lease : Lease) : Result Store :=
  if lease.id = [] then .error (ascii "lease ID cannot be empty")
  else if fails then .error dbError
  else
    match s.leases.get lease.id with
    | some _ => .error (ascii "lease already exists: " ++ lease.id)
    | none => .ok { s with leases := s.leases.set lease.id lease }

/-- `BadgerStore.GetLease`. -/
def Store.getLease (s : Store) (fails : Bool) (id : Bytes) : Result Lease :=
  if id = [] then .error (ascii "lease ID cannot be empty")
  else if fails then .error dbError
  else
    match s.leases.get id with
    | none => .error (ascii "lease not found: " ++ id)
    | some lease => .ok lease

/-- `BadgerStore.UpdateLease`: the store, and the lease with the `UpdatedAt` that the call sets. -/
def Store.updateLease (s : Store) (fails : Bool) (now : Time) (lease : Lease) :
    Result (Store × Lease) :=
  if lease.id = [] then .error (ascii "lease ID cannot be empty")
  else if fails then .error dbError
  else
    match s.leases.get lease.id with
    | none => .error (ascii "lease not found: " ++ lease.id)
    | some _ =>
      let lease := { lease with updatedAt := now }
      .ok ({ s with leases := s.leases.set lease.id lease }, lease)

/-- `BadgerStore.ListLeases`. -/
def Store.listLeases (s : Store) (filter : LeaseFilter) : List Lease :=
  s.leases.values.filter filter.admits

def heightKey (operatorID : Bytes) (blockHeight : Int64) : Bytes :=
  operatorID ++ ascii ":" ++ decimalInt blockHeight.toInt

def latestKey (operatorID : Bytes) : Bytes :=
  operatorID ++ ascii ":latest"

/-- `BadgerStore.SaveCommitment`: at its height, and as the latest one. -/
def Store.saveCommitment (s : Store) (fails : Bool) (c : MerkleCommitment) : Result Store :=
  if c.operatorID = [] then .error (ascii "operator ID cannot be empty")
  else if fails then .error dbError
  else
    let commitments := s.commitments.set (heightKey c.operatorID c.blockHeight) c
    .ok { s with commitments := commitments.set (latestKey c.operatorID) c }

/-- `BadgerStore.GetCommitment`. -/
def Store.getCommitment (s : Store) (operatorID : Bytes) (blockHeight : Int64) :
    Result MerkleCommitment :=
  if operatorID = [] then .error (ascii "operator ID cannot be empty")
  else
    match s.commitments.get (heightKey operatorID blockHeight) with
    | none =>
      .error (ascii "commitment not found for operator " ++ operatorID ++ ascii " at height " ++
        decimalInt blockHeight.toInt)
    | some c => .ok c

/-- `BadgerStore.GetLatestCommitment`. -/
def Store.getLatestCommitment (s : Store) (operatorID : Bytes) : Result MerkleCommitment :=
  if operatorID = [] then .error (ascii "operator ID cannot be empty")
  else
    match s.commitments.get (latestKey operatorID) with
    | none => .error (ascii "no commitment found for operator " ++ operatorID)
    | some c => .ok c

/-! ## The engine -/

/-- `registry.Engine` with its store. -/
structure Engine (P : Platform) where
  store : Store
  crypto : CryptoEngine P
  operatorID : Bytes
  blockHeight : Int64

/-- `NewEngine`. -/
def newEngine (store : Store) (crypto : CryptoEngine P) (operatorID : Bytes) : Engine P where
  store := store
  crypto := crypto
  operatorID := operatorID
  blockHeight := 0

/-- The active leases of the engine's operator. -/
def Engine.activeLeases (e : Engine P) : List Lease :=
  e.store.listLeases { operatorID := e.operatorID, status := .active }

/-- The string that `hashToken` hashes: `"%s:%s:%s:%s:%d:%s:%s"`. -/
def tokenString (enc : Encoding) (token : LeaseToken) (w : Wavelength) : Bytes :=
  token.leaseID ++ ascii ":" ++ token.operatorID ++ ascii ":" ++ token.endpointID ++ ascii ":" ++
    w.toKey ++ ascii ":" ++ decimalInt token.version.toInt ++ ascii ":" ++
    enc.rfc3339Nano token.startTime ++ ascii ":" ++ enc.rfc3339Nano token.endTime

/-- `hashToken`; without a wavelength the source dereferences a nil pointer. -/
def hashToken (P : Platform) (token : LeaseToken) : Option Bytes :=
  token.wavelength.map fun w => P.sha3.sum (tokenString P.enc token w)

/-- `Engine.checkConflictLocked`. A store that fails to list reports no conflict. -/
def Engine.checkConflictLocked (e : Engine P) (fails : Bool) (now : Time)
    (wavelength : Option Wavelength) (excludeLeaseID : Bytes) : Option Lease :=
  match wavelength with
  | none => none
  | some w =>
    if fails then none
    else
      e.activeLeases.find? fun lease =>
        lease.id != excludeLeaseID && lease.wavelength.map Wavelength.toKey == some w.toKey &&
          decide (now < lease.endTime)

/-- `Engine.AllocateLease`. Clock readings: the start, the conflict check, the token; store accesses: the
    list, the creation. -/
def Engine.allocateLease (e : Engine P) (env : Env) (wavelength : Option Wavelength)
    (endpointID : Bytes) (duration : Int) : Result (Lease × LeaseToken) × Engine P :=
  match wavelength with
  | none => (.error (ascii "wavelength cannot be nil"), e)
  | some w =>
    if endpointID = [] then (.error (ascii "endpoint ID cannot be empty"), e)
    else if duration ≤ 0 then (.error (ascii "duration must be positive"), e)
    else
      match e.checkConflictLocked (env.fails 0) (env.now 1) (some w) [] with
      | some conflict =>
        (.error (ascii "wavelength conflict detected with lease " ++ conflict.id), e)
      | none =>
        let lease : Lease :=
          { id := env.uuid
            wavelength := some w
            endpointID := endpointID
            operatorID := e.operatorID
            status := .active
            startTime := env.now 0
            endTime := env.now 0 + duration
            createdAt := env.now 0
            updatedAt := env.now 0
            tokenHash := [] }
        match e.crypto.generateLeaseToken env (env.now 2) lease with
        | (.error err, crypto) =>
          (.error (ascii "failed to generate lease token: " ++ err), { e with crypto })
        | (.ok token, crypto) =>
          let lease := { lease with tokenHash := (hashToken P token).getD [] }
          match e.store.createLease (env.fails 1) lease with
          | .error err => (.error (ascii "failed to store lease: " ++ err), { e with crypto })
          | .ok store => (.ok (lease, token), { e with crypto, store })

/-- `Engine.RenewLease`. Clock readings: `UpdatedAt`, the token, the update; store accesses: the lookup,
    the update. -/
def Engine.renewLease (e : Engine P) (env : Env) (leaseID : Bytes) (extension : Int) :
    Result (Lease × LeaseToken) × Engine P :=
  if leaseID = [] then (.error (ascii "lease ID cannot be empty"), e)
  else if extension ≤ 0 then (.error (ascii "extension must be positive"), e)
  else
    match e.store.getLease (env.fails 0) leaseID with
    | .error err => (.error (ascii "failed to get lease: " ++ err), e)
    | .ok lease =>
      if lease.status ≠ .active then
        (.error (ascii "cannot renew lease with status " ++ ascii lease.status.string), e)
      else
        let lease := { lease with endTime := lease.endTime + extension, updatedAt := env.now 0 }
        match e.crypto.generateLeaseToken env (env.now 1) lease with
        | (.error err, crypto) =>
          (.error (ascii "failed to generate lease token: " ++ err), { e with crypto })
        | (.ok token, crypto) =>
          let lease := { lease with tokenHash := (hashToken P token).getD [] }
          match e.store.updateLease (env.fails 1) (env.now 2) lease with
          | .error err => (.error (ascii "failed to update lease: " ++ err), { e with crypto })
          | .ok (store, lease) => (.ok (lease, token), { e with crypto, store })

/-- `Engine.RevokeLease`. -/
def Engine.revokeLease (e : Engine P) (env : Env) (leaseID : Bytes) : Result Unit × Engine P :=
  if leaseID = [] then (.error (ascii "lease ID cannot be empty"), e)
  else
    match e.store.getLease (env.fails 0) leaseID with
    | .error err => (.error (ascii "failed to get lease: " ++ err), e)
    | .ok lease =>
      if lease.status = .revoked then (.error (ascii "lease is already revoked"), e)
      else
        let lease := { lease with status := .revoked, updatedAt := env.now 0 }
        match e.store.updateLease (env.fails 1) (env.now 1) lease with
        | .error err => (.error (ascii "failed to update lease: " ++ err), e)
        | .ok (store, _) => (.ok (), { e with store })

/-- The lease as `Engine.ExpireLeases` marks it. -/
def Lease.marked (lease : Lease) (now : Time) : Lease :=
  { lease with status := .expired, updatedAt := now }

/-- The loop of `Engine.ExpireLeases`: the `i`-th update is store access `i`, with clock reading `i`. It returns the
    count and, if an update fails, the error. -/
def expireLoop (env : Env) (now : Time) : List Lease → Nat → Store → Nat → (Nat × Option Bytes) × Store
  | [], _, store, expiredCount => ((expiredCount, none), store)
  | lease :: leases, i, store, expiredCount =>
    if now > lease.endTime then
      let lease := lease.marked now
      match store.updateLease (env.fails i) (env.now i) lease with
      | .error err =>
        ((expiredCount, some (ascii "failed to mark lease " ++ lease.id ++ ascii " as expired: " ++ err)), store)
      | .ok (store, _) => expireLoop env now leases (i + 1) store (expiredCount + 1)
    else expireLoop env now leases i store expiredCount

/-- `Engine.ExpireLeases`: both of its return values, and the engine after it. -/
def Engine.expireLeases (e : Engine P) (env : Env) : (Nat × Option Bytes) × Engine P :=
  if env.fails 0 then ((0, some (ascii "failed to list active leases: " ++ dbError)), e)
  else
    let (returned, store) := expireLoop env (env.now 0) e.activeLeases 1 e.store 0
    (returned, { e with store })

/-- `Engine.CommitMerkleTree`. The height moves on before the signature is made. -/
def Engine.commitMerkleTree (e : Engine P) (env : Env) : Result MerkleCommitment × Engine P :=
  if env.fails 0 then (.error (ascii "failed to list active leases: " ++ dbError), e)
  else
    let leases := e.activeLeases
    match buildMerkleTree P.sha3 P.enc P.byID leases with
    | none => (.error (ascii "failed to build Merkle tree"), e)
    | some tree =>
      let e := { e with blockHeight := e.blockHeight + 1 }
      match e.crypto.signMerkleCommitment env tree.hash e.blockHeight with
      | (.error err, crypto) => (.error (ascii "failed to sign commitment: " ++ err), { e with crypto })
      | (.ok commitment, crypto) =>
        let commitment := { commitment with leaseCount := Int32.ofNat leases.length }
        match e.store.saveCommitment (env.fails 1) commitment with
        | .error err => (.error (ascii "failed to save commitment: " ++ err), { e with crypto })
        | .ok store => (.ok commitment, { e with crypto, store })

/-- `Engine.VerifyLease`. Clock readings: the stored lease's expiry, the token's expiry. -/
def Engine.verifyLease (e : Engine P) (env : Env) (token : Option LeaseToken) : Result Unit :=
  match token with
  | none => .error (ascii "token cannot be nil")
  | some token =>
    match e.store.getLease (env.fails 0) token.leaseID with
    | .error err => .error (ascii "lease not found in registry: " ++ err)
    | .ok lease =>
      if lease.status ≠ .active then
        .error (ascii "lease is not active, status: " ++ ascii lease.status.string)
      else if env.now 0 > lease.endTime then .error (ascii "lease has expired")
      else
        match validateLeaseToken P (env.now 1) token e.crypto.getPublicKey with
        | .error err => .error (ascii "token validation failed: " ++ err)
        | .ok () =>
          match hashToken P token with
          | none => .error (ascii "invalid memory address or nil pointer dereference")
          | some computedHash =>
            if computedHash ≠ lease.tokenHash then .error (ascii "token hash mismatch") else .ok ()

/-- What `VerifyLease` checks of a token against the lease that is stored under its ID. -/
structure Engine.Vouches (e : Engine P) (env : Env) (token : LeaseToken) (lease : Lease) : Prop where
  stored : e.store.getLease (env.fails 0) token.leaseID = .ok lease
  active : lease.status = .active
  running : env.now 0 ≤ lease.endTime
  current : env.now 1 ≤ token.endTime
  signed : token.SignedBy P (P.ecdsa.publicKey e.crypto.privateKey)
  hashed : hashToken P token = some lease.tokenHash

/-- `VerifyLease` accepts what it vouches for. -/
lemma Engine.verifyLease_ok_iff {e : Engine P} {env : Env} {token : LeaseToken} :
    e.verifyLease env (some token) = .ok () ↔ ∃ lease, e.Vouches env token lease := by
  have valid : validateLeaseToken P (env.now 1) token e.crypto.getPublicKey = .ok () ↔
      env.now 1 ≤ token.endTime ∧ token.SignedBy P (P.ecdsa.publicKey e.crypto.privateKey) :=
    validateLeaseToken_ok_iff
  constructor
  · intro accepted
    unfold verifyLease at accepted
    dsimp only at accepted
    split at accepted
    case h_1 => cases accepted
    case h_2 lease stored =>
      obtain ⟨active, accepted⟩ := ok_of_guard accepted
      obtain ⟨running, accepted⟩ := ok_of_guard accepted
      split at accepted
      case h_1 => cases accepted
      case h_2 validated =>
        obtain ⟨current, signed⟩ := valid.mp validated
        split at accepted
        case h_1 => cases accepted
        case h_2 hash hashed =>
          obtain ⟨same, -⟩ := ok_of_guard accepted
          exact ⟨lease, stored, not_not.mp active, not_lt.mp running, current, signed,
            hashed.trans (congrArg some (not_not.mp same))⟩
  · rintro ⟨lease, stored, active, running, current, signed, hashed⟩
    rw [verifyLease, stored]
    dsimp only
    rw [if_neg (not_not.mpr active), if_neg (not_lt.mpr running), valid.mpr ⟨current, signed⟩, hashed]
    exact if_neg (not_not.mpr rfl)

/-- The engine of operator `op` over an empty store. -/
def plainEngine : Engine .plain where
  store := .empty
  crypto := { operatorID := ascii "op", privateKey := (), signed := [], tokens := [] }
  operatorID := ascii "op"
  blockHeight := 0

/-- Surroundings in which nothing fails and the clock stands at `now`. -/
def plainEnv (now : Time) (uuid : Bytes) : Env where
  now _ := now
  nonce := some []
  random := []
  uuid := uuid
  fails _ := false

end Otap.Flr
