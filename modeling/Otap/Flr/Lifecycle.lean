import Otap.Lib.Run
import Otap.Flr.Registry

/-!
# Runs of the registry

What each call of the registry engine can do, and runs of calls under a clock that does not go back.

For every call one lemma says all that it can do: what a call has checked and changed when it succeeds, and what
may have been signed when it fails, with the store as it was. `Registry` adds to the engine what a run has shown so
far: the last clock reading, the tokens that were returned and the UUIDs that were drawn. A call's clock
readings are the last reading plus the waits of its input, so they never decrease.
-/

namespace Otap.Flr

open Otap.Lib

variable {P : Platform} {token : LeaseToken} {id leaseID : Bytes} {lease : Lease}

/-! ## Tokens -/

/-- The token is one that an engine of the operator makes for the lease. -/
structure LeaseToken.Grants (operatorID : Bytes) (lease : Lease) (token : LeaseToken) : Prop where
  version : token.version = 1
  leaseID : token.leaseID = lease.id
  operatorID : token.operatorID = operatorID
  wavelength : token.wavelength = lease.wavelength
  endpointID : token.endpointID = lease.endpointID
  startTime : token.startTime = lease.startTime
  endTime : token.endTime = lease.endTime

/-- The token as it is signed. -/
def LeaseToken.unsigned (token : LeaseToken) : LeaseToken :=
  { token with signature := [] }

/-- The engine has signed the token and nothing else. -/
def CryptoEngine.Signs (e : CryptoEngine P) (token : LeaseToken) (e' : CryptoEngine P) : Prop :=
  ∃ m, token.message P.enc = some m ∧
    e' = { e with signed := m :: e.signed, tokens := token.unsigned :: e.tokens }

lemma CryptoEngine.signDigest_error {e e' : CryptoEngine P} {random data err : Bytes}
    (h : e.signDigest random data = (.error err, e')) : e' = e := by
  unfold signDigest at h
  split at h
  case h_1 => exact (Prod.mk.inj h).2.symm
  case h_2 => cases (Prod.mk.inj h).1

lemma CryptoEngine.signToken_error {e e' : CryptoEngine P} {random err : Bytes}
    (h : e.signToken random token = (.error err, e')) : e' = e := by
  unfold signToken at h
  split at h
  case h_1 => exact (Prod.mk.inj h).2.symm
  case h_2 =>
    split at h
    case h_1 failed =>
      rw [← (Prod.mk.inj h).2]
      exact signDigest_error failed
    case h_2 => cases (Prod.mk.inj h).1

lemma CryptoEngine.signToken_ok {e e' : CryptoEngine P} {random sig : Bytes}
    (h : e.signToken random token = (.ok sig, e')) :
    ∃ m, token.message P.enc = some m ∧
      e' = { e with signed := m :: e.signed, tokens := token :: e.tokens } := by
  unfold signToken at h
  split at h
  case h_1 => cases (Prod.mk.inj h).1
  case h_2 m message =>
    split at h
    case h_1 => cases (Prod.mk.inj h).1
    case h_2 signed =>
      have eq := (signDigest_ok signed).2
      exact ⟨m, message, by rw [← (Prod.mk.inj h).2, eq]⟩

lemma CryptoEngine.generateLeaseToken_error {e e' : CryptoEngine P} {env : Env} {t : Time}
    {err : Bytes} (h : e.generateLeaseToken env t lease = (.error err, e')) :
    e' = e := by
  unfold generateLeaseToken at h
  split at h
  case h_1 => exact (Prod.mk.inj h).2.symm
  case h_2 =>
    simp only at h
    split at h
    case h_1 signed =>
      rw [← (Prod.mk.inj h).2]
      exact signToken_error signed
    case h_2 => cases (Prod.mk.inj h).1

lemma CryptoEngine.generateLeaseToken_ok {e e' : CryptoEngine P} {env : Env} {t : Time}
    (h : e.generateLeaseToken env t lease = (.ok token, e')) :
    token.Grants e.operatorID lease ∧ e.Signs token e' := by
  unfold generateLeaseToken at h
  split at h
  case h_1 => cases (Prod.mk.inj h).1
  case h_2 =>
    simp only at h
    split at h
    case h_1 => cases (Prod.mk.inj h).1
    case h_2 sig e'' signed =>
      obtain ⟨token_eq, e_eq⟩ := Prod.mk.inj h
      obtain ⟨m, message, e_signed⟩ := signToken_ok signed
      rw [← Except.ok.inj token_eq, ← e_eq]
      exact ⟨⟨rfl, rfl, rfl, rfl, rfl, rfl, rfl⟩, m, message, e_signed⟩

/-! ## Store accesses -/

lemma Store.createLease_ok {s s' : Store} {fails : Bool} (h : s.createLease fails lease = .ok s') :
    lease.id ≠ [] ∧ s.leases.get lease.id = none ∧
      s' = { s with leases := s.leases.set lease.id lease } := by
  unfold createLease at h
  obtain ⟨ne, h⟩ := ok_of_guard h
  obtain ⟨-, h⟩ := ok_of_guard h
  split at h
  case h_1 => cases h
  case h_2 free => exact ⟨ne, free, (Except.ok.inj h).symm⟩

lemma Store.getLease_ok {s : Store} {fails : Bool}
    (h : s.getLease fails id = .ok lease) : s.leases.get id = some lease := by
  unfold getLease at h
  obtain ⟨-, h⟩ := ok_of_guard h
  obtain ⟨-, h⟩ := ok_of_guard h
  split at h
  case h_1 => cases h
  case h_2 found => rw [found, Except.ok.inj h]

lemma Store.updateLease_ok {s s' : Store} {fails : Bool} {now : Time} {lease lease' : Lease}
    (h : s.updateLease fails now lease = .ok (s', lease')) :
    lease' = { lease with updatedAt := now } ∧
      s' = { s with leases := s.leases.set lease.id lease' } := by
  unfold updateLease at h
  obtain ⟨-, h⟩ := ok_of_guard h
  obtain ⟨-, h⟩ := ok_of_guard h
  split at h
  case h_1 => cases h
  case h_2 =>
    obtain ⟨s_eq, lease_eq⟩ := Prod.mk.inj (Except.ok.inj h)
    exact ⟨lease_eq.symm, by rw [← s_eq, ← lease_eq]⟩

/-! ## Calls of the engine -/

section Calls

variable {e e' : Engine P} {env : Env}

def Store.setLease (s : Store) (lease : Lease) : Store :=
  { s with leases := s.leases.set lease.id lease }

/-- A successful `AllocateLease`. -/
structure Engine.Allocated (e : Engine P) (env : Env) (w : Wavelength) (lease : Lease)
    (token : LeaseToken) (e' : Engine P) : Prop where
  noConflict : e.checkConflictLocked (env.fails 0) (env.now 1) (some w) [] = none
  id : lease.id = env.uuid
  wavelength : lease.wavelength = some w
  operatorID : lease.operatorID = e.operatorID
  status : lease.status = .active
  id_ne : lease.id ≠ []
  free : e.store.leases.get lease.id = none
  tokenHash : lease.tokenHash = (hashToken P token).getD []
  grants : token.Grants e.crypto.operatorID lease
  engine : ∃ crypto, e.crypto.Signs token crypto ∧
    e' = { e with crypto, store := e.store.setLease lease }

/-- What `AllocateLease` can do: fail with the engine as it was, fail with a token signed for the new ID, or
    succeed. -/
lemma Engine.allocateLease_cases {wavelength : Option Wavelength}
    {endpointID : Bytes} {duration : Int} {result : Result (Lease × LeaseToken)}
    (h : e.allocateLease env wavelength endpointID duration = (result, e')) :
    (∃ err, result = .error err ∧ e' = e) ∨
    (∃ err token crypto, result = .error err ∧ token.leaseID = env.uuid ∧
      e.crypto.Signs token crypto ∧ e' = { e with crypto }) ∨
    ∃ w lease token, result = .ok (lease, token) ∧ wavelength = some w ∧
      e.Allocated env w lease token e' := by
  unfold allocateLease at h
  split at h
  case h_1 =>
    cases h
    exact .inl ⟨_, rfl, rfl⟩
  case h_2 w =>
    split at h
    case isTrue =>
      cases h
      exact .inl ⟨_, rfl, rfl⟩
    case isFalse =>
      split at h
      case isTrue =>
        cases h
        exact .inl ⟨_, rfl, rfl⟩
      case isFalse =>
        split at h
        case h_1 =>
          cases h
          exact .inl ⟨_, rfl, rfl⟩
        case h_2 noConflict =>
          simp only at h
          split at h
          case h_1 generated =>
            cases h
            rw [CryptoEngine.generateLeaseToken_error generated]
            exact .inl ⟨_, rfl, rfl⟩
          case h_2 token crypto generated =>
            obtain ⟨grants, signs⟩ := CryptoEngine.generateLeaseToken_ok generated
            split at h
            case h_1 =>
              cases h
              exact .inr (.inl ⟨_, token, crypto, rfl, grants.leaseID, signs, rfl⟩)
            case h_2 store created =>
              obtain ⟨ne, free, rfl⟩ := Store.createLease_ok created
              cases h
              exact .inr (.inr ⟨w, _, token, rfl, rfl, noConflict, rfl, rfl, rfl, rfl, ne, free, rfl,
                { grants with }, crypto, signs, rfl⟩)

/-- The lease that `RenewLease` makes from `old` and a token. -/
def Lease.renewed (old : Lease) (extension : Int) (updatedAt : Time) (tokenHash : Bytes) : Lease :=
  { old with endTime := old.endTime + extension, updatedAt, tokenHash }

/-- `RenewLease` has found the lease active and signed a token for its later end. -/
structure Engine.Regranted (e : Engine P) (leaseID : Bytes) (extension : Int) (old : Lease)
    (token : LeaseToken) (crypto : CryptoEngine P) : Prop where
  found : e.store.leases.get leaseID = some old
  status : old.status = .active
  positive : 0 < extension
  grants : token.Grants e.crypto.operatorID (old.renewed extension 0 [])
  signs : e.crypto.Signs token crypto

/-- What `RenewLease` can do: fail with the engine as it was, fail with a token signed for a later end, or
    succeed. -/
lemma Engine.renewLease_cases {extension : Int}
    {result : Result (Lease × LeaseToken)} (h : e.renewLease env leaseID extension = (result, e')) :
    (∃ err, result = .error err ∧ e' = e) ∨
    ∃ old token crypto, e.Regranted leaseID extension old token crypto ∧
      ((∃ err, result = .error err ∧ e' = { e with crypto }) ∨
      ∃ lease, result = .ok (lease, token) ∧
        lease = old.renewed extension (env.now 2) ((hashToken P token).getD []) ∧
        e' = { e with crypto, store := e.store.setLease lease }) := by
  unfold renewLease at h
  split at h
  case isTrue =>
    cases h
    exact .inl ⟨_, rfl, rfl⟩
  case isFalse =>
    split at h
    case isTrue =>
      cases h
      exact .inl ⟨_, rfl, rfl⟩
    case isFalse positive =>
      split at h
      case h_1 =>
        cases h
        exact .inl ⟨_, rfl, rfl⟩
      case h_2 old got =>
        split at h
        case isTrue =>
          cases h
          exact .inl ⟨_, rfl, rfl⟩
        case isFalse active =>
          simp only at h
          split at h
          case h_1 generated =>
            cases h
            rw [CryptoEngine.generateLeaseToken_error generated]
            exact .inl ⟨_, rfl, rfl⟩
          case h_2 token crypto generated =>
            obtain ⟨grants, signs⟩ := CryptoEngine.generateLeaseToken_ok generated
            refine .inr ⟨old, token, crypto, ⟨Store.getLease_ok got, not_not.mp active,
              not_le.mp positive, { grants with }, signs⟩, ?_⟩
            split at h
            case h_1 =>
              cases h
              exact .inl ⟨_, rfl, rfl⟩
            case h_2 store lease updated =>
              obtain ⟨rfl, rfl⟩ := Store.updateLease_ok updated
              cases h
              exact .inr ⟨_, rfl, rfl, rfl⟩

/-- Leases of the store have been replaced by leases that are not active. -/
inductive Store.Retires : Store → Store → Prop where
  | refl {s} : Retires s s
  | step {s s'} (lease) : lease.status ≠ .active → Retires (s.setLease lease) s' → Retires s s'

/-- What `RevokeLease` can do: fail with the engine as it was, or revoke a lease that is not revoked. -/
lemma Engine.revokeLease_cases {result : Result Unit} (h : e.revokeLease env leaseID = (result, e')) :
    e' = e ∨ ∃ old, e.store.leases.get leaseID = some old ∧ old.status ≠ .revoked ∧
      e' = { e with store :=
        e.store.setLease { old with status := .revoked, updatedAt := env.now 1 } } := by
  unfold revokeLease at h
  split at h
  case isTrue => exact .inl (Prod.mk.inj h).2.symm
  case isFalse =>
    split at h
    case h_1 => exact .inl (Prod.mk.inj h).2.symm
    case h_2 old got =>
      split at h
      case isTrue => exact .inl (Prod.mk.inj h).2.symm
      case isFalse revoked =>
        simp only at h
        split at h
        case h_1 => exact .inl (Prod.mk.inj h).2.symm
        case h_2 store lease updated =>
          obtain ⟨lease_eq, store_eq⟩ := Store.updateLease_ok updated
          refine .inr ⟨old, Store.getLease_ok got, revoked, ?_⟩
          rw [← (Prod.mk.inj h).2, store_eq, lease_eq]
          rfl

lemma Engine.revokeLease_retires {result : Result Unit} (h : e.revokeLease env leaseID = (result, e')) :
    ∃ store, e.store.Retires store ∧ e' = { e with store } := by
  obtain rfl | ⟨old, _, _, rfl⟩ := revokeLease_cases h
  · exact ⟨e'.store, .refl, rfl⟩
  · exact ⟨_, .step _ (fun revoked => by cases revoked) .refl, rfl⟩

lemma expireLoop_retires {now : Time} (leases : List Lease) (i : Nat) (s : Store)
    (count : Nat) : s.Retires (expireLoop env now leases i s count).2 := by
  induction leases generalizing i s count with
  | nil => exact .refl
  | cons lease leases ih =>
    unfold expireLoop
    split
    case isTrue =>
      simp only
      split
      case h_1 => exact .refl
      case h_2 store lease' updated =>
        obtain ⟨lease_eq, store_eq⟩ := Store.updateLease_ok updated
        rw [store_eq, lease_eq]
        exact .step (lease.marked (env.now i)) (fun expired => by cases expired) (ih ..)
    case isFalse => exact ih ..

lemma Engine.expireLeases_retires {result : Nat × Option Bytes} (h : e.expireLeases env = (result, e')) :
    ∃ store, e.store.Retires store ∧ e' = { e with store } := by
  unfold expireLeases at h
  split at h
  case isTrue => exact ⟨e.store, .refl, (Prod.mk.inj h).2.symm⟩
  case isFalse =>
    exact ⟨_, expireLoop_retires e.activeLeases 1 e.store 0, (Prod.mk.inj h).2.symm⟩

end Calls

/-! ## Runs -/

inductive Call where
  | allocateLease (wavelength : Option Wavelength) (endpointID : Bytes) (duration : Int)
  | renewLease (leaseID : Bytes) (extension : Int)
  | revokeLease (leaseID : Bytes)
  | expireLeases
  | commitMerkleTree
  | signSchema (schema : ApplicationSchema)
  | signSchemaCommitment (commitment : MerkleCommitment)

/-- A call and its surroundings: the nanoseconds that pass before each of its clock readings, and what
    else it reads. -/
structure Input where
  call : Call
  wait : Nat → Nat
  nonce : Option Bytes
  random : Bytes
  uuid : Bytes
  fails : Nat → Bool

/-- The clock readings of a call that starts when the clock stands at `start`. -/
def readings (start : Time) (wait : Nat → Nat) : Nat → Time
  | 0 => start + wait 0
  | i + 1 => readings start wait i + wait (i + 1)

lemma readings_mono (start : Time) (wait : Nat → Nat) {i j : Nat} (le : i ≤ j) :
    readings start wait i ≤ readings start wait j := by
  induction le with
  | refl => exact le_refl _
  | step _ ih => exact ih.trans (Int.le_add_of_nonneg_right (Int.natCast_nonneg _))

lemma le_readings (start : Time) (wait : Nat → Nat) (i : Nat) : start ≤ readings start wait i :=
  le_trans (Int.le_add_of_nonneg_right (Int.natCast_nonneg _))
    (readings_mono start wait (Nat.zero_le i))

/-- The engine in a run: with the last clock reading, the tokens returned so far, the latest first, and
    the UUIDs drawn so far. -/
structure Registry (P : Platform) where
  engine : Engine P
  clock : Time
  issued : List LeaseToken
  drawn : List Bytes

/-- The start of a run: an engine over an empty store that has not signed anything. -/
def Registry.start (P : Platform) (key : P.ecdsa.PrivateKey) (operatorID : Bytes) (clock : Time) :
    Registry P where
  engine :=
    { store := .empty
      crypto := { operatorID, privateKey := key, signed := [], tokens := [] }
      operatorID
      blockHeight := 0 }
  clock
  issued := []
  drawn := []

def Registry.env (r : Registry P) (i : Input) : Env where
  now := readings r.clock i.wait
  nonce := i.nonce
  random := i.random
  uuid := i.uuid
  fails := i.fails

/-- A reading after all readings of the call: a sweep reads the clock once for every lease. -/
def Registry.clockAfter (r : Registry P) (i : Input) : Time :=
  (r.env i).now (max 2 r.engine.activeLeases.length)

/-- The engine after the call, and the token the call returned. -/
def Registry.run (r : Registry P) (i : Input) : Option LeaseToken × Engine P :=
  match i.call with
  | .allocateLease wavelength endpointID duration =>
    let (result, engine) := r.engine.allocateLease (r.env i) wavelength endpointID duration
    (result.toOption.map Prod.snd, engine)
  | .renewLease leaseID extension =>
    let (result, engine) := r.engine.renewLease (r.env i) leaseID extension
    (result.toOption.map Prod.snd, engine)
  | .revokeLease leaseID => (none, (r.engine.revokeLease (r.env i) leaseID).2)
  | .expireLeases => (none, (r.engine.expireLeases (r.env i)).2)
  | .commitMerkleTree => (none, (r.engine.commitMerkleTree (r.env i)).2)
  | .signSchema schema =>
    (none, { r.engine with crypto := (r.engine.crypto.signSchema i.random schema).2 })
  | .signSchemaCommitment commitment =>
    let (_, crypto) := r.engine.crypto.signBytes i.random (commitmentSignableBytes commitment)
    (none, { r.engine with crypto })

/-- An allocation draws a UUID. -/
def Input.draws (i : Input) : List Bytes :=
  match i.call with
  | .allocateLease _ _ _ => [i.uuid]
  | _ => []

def Registry.step (r : Registry P) (i : Input) : Registry P where
  engine := (r.run i).2
  clock := r.clockAfter i
  issued := (r.run i).1.toList ++ r.issued
  drawn := i.draws ++ r.drawn

/-- The token returned by the last successful allocation or renewal of the lease. -/
def Registry.latestToken (r : Registry P) (leaseID : Bytes) : Option LeaseToken :=
  r.issued.find? fun token => token.leaseID == leaseID

/-- `VerifyLease` accepts the token at instant `t`. -/
def Registry.Accepts (r : Registry P) (t : Time) (token : LeaseToken) : Prop :=
  r.engine.verifyLease
    { now := fun _ => t, nonce := none, random := [], uuid := [], fails := fun _ => false }
    (some token) = .ok ()

instance (r : Registry P) (t : Time) (token : LeaseToken) : Decidable (r.Accepts t token) :=
  inferInstanceAs (Decidable (_ = _))

lemma Registry.clock_le_clockAfter (r : Registry P) (i : Input) : r.clock ≤ r.clockAfter i :=
  le_readings ..

lemma Registry.now_le_clockAfter (r : Registry P) (i : Input) {n : Nat} (le : n ≤ 2) :
    (r.env i).now n ≤ r.clockAfter i :=
  readings_mono _ _ (le.trans (le_max_left ..))

/-! ## What a step does -/

/-- The bytes are not what the signature of a lease token covers. -/
def Foreign (enc : Encoding) (m : Bytes) : Prop :=
  ∀ token : LeaseToken, token.message enc ≠ some m

lemma foreign_of_third {enc : Encoding} {m : Bytes} {x : UInt8} (third : m[2]? = some x)
    (ne : x ≠ 118) : Foreign enc m := by
  intro token message
  rw [token.message_third message] at third
  exact ne (Option.some.inj third).symm

lemma foreign_commitment (enc : Encoding) (c : MerkleCommitment) : Foreign enc (c.message enc) :=
  foreign_of_third (x := 111)
    (by simp [MerkleCommitment.message, jsonObject, jsonField, List.intercalate, ascii]) (by decide)

lemma foreign_schema {s : ApplicationSchema} {m : Bytes} (h : canonicalSchemaBytes P s = .ok m) :
    Foreign P.enc m := by
  unfold canonicalSchemaBytes at h
  split at h
  case h_1 => cases h
  case h_2 =>
    rw [← Except.ok.inj h]
    exact foreign_of_third (x := 105)
      (by simp [jsonObject, jsonField, List.intercalate, ascii]) (by decide)

lemma foreign_schemaCommitment (enc : Encoding) (c : MerkleCommitment) :
    Foreign enc (commitmentSignableBytes c) :=
  foreign_of_third (x := 65) (by simp [commitmentSignableBytes, ascii]) (by decide)

/-- The engine has signed nothing, or one message that is not a token's. -/
def CryptoEngine.SignsOther (e e' : CryptoEngine P) : Prop :=
  e' = e ∨ ∃ m, Foreign P.enc m ∧ e' = { e with signed := m :: e.signed }

lemma CryptoEngine.signDigest_other {e : CryptoEngine P} {random m : Bytes}
    (foreign : Foreign P.enc m) : e.SignsOther (e.signDigest random m).2 := by
  cases h : e.signDigest random m with
  | mk result e' =>
    cases result with
    | error err => exact .inl (signDigest_error h)
    | ok sig => exact .inr ⟨m, foreign, (signDigest_ok h).2⟩

lemma CryptoEngine.signMerkleCommitment_other (e : CryptoEngine P) (env : Env) (root : Bytes)
    (height : Int64) : e.SignsOther (e.signMerkleCommitment env root height).2 := by
  unfold signMerkleCommitment
  split
  case isTrue => exact .inl rfl
  case isFalse =>
    simp only
    have other : ∀ c : MerkleCommitment, e.SignsOther (e.sign env.random (c.message P.enc)).2 := by
      intro c
      unfold sign
      split
      case isTrue => exact .inl rfl
      case isFalse => exact signDigest_other (foreign_commitment P.enc c)
    split
    case h_1 err e' h => exact (congrArg Prod.snd h) ▸ other _
    case h_2 sig e' h => exact (congrArg Prod.snd h) ▸ other _

lemma CryptoEngine.signSchema_other (e : CryptoEngine P) (random : Bytes) (s : ApplicationSchema) :
    e.SignsOther (e.signSchema random s).2 := by
  unfold signSchema
  split
  case isTrue => exact .inl rfl
  case isFalse =>
    split
    case h_1 => exact .inl rfl
    case h_2 data canonical => exact signDigest_other (foreign_schema canonical)

/-- `CommitMerkleTree` leaves the leases as they are and signs nothing but the commitment. -/
lemma Engine.commitMerkleTree_other (e : Engine P) (env : Env) :
    (e.commitMerkleTree env).2.store.leases = e.store.leases ∧
      (e.commitMerkleTree env).2.operatorID = e.operatorID ∧
      e.crypto.SignsOther (e.commitMerkleTree env).2.crypto := by
  unfold commitMerkleTree
  split
  case isTrue => exact ⟨rfl, rfl, .inl rfl⟩
  case isFalse =>
    simp only
    split
    case h_1 => exact ⟨rfl, rfl, .inl rfl⟩
    case h_2 tree built =>
      have other := e.crypto.signMerkleCommitment_other env tree.hash (e.blockHeight + 1)
      split
      case h_1 err crypto h =>
        rw [h] at other
        exact ⟨rfl, rfl, other⟩
      case h_2 c crypto h =>
        rw [h] at other
        split
        case h_1 => exact ⟨rfl, rfl, other⟩
        case h_2 store saved =>
          refine ⟨?_, rfl, other⟩
          unfold Store.saveCommitment at saved
          split at saved
          case isTrue => cases saved
          case isFalse =>
            split at saved
            case isTrue => cases saved
            case isFalse => rw [← Except.ok.inj saved]

/-- What a step does to the engine, and the token it returns. -/
inductive Registry.Moved (r : Registry P) (i : Input) : Option LeaseToken → Engine P → Prop where
  | allocated {w endpointID duration lease token engine} :
      i.call = .allocateLease (some w) endpointID duration →
      r.engine.Allocated (r.env i) w lease token engine → Moved r i (some token) engine
  | notStored {wavelength endpointID duration token crypto} :
      i.call = .allocateLease wavelength endpointID duration → token.leaseID = i.uuid →
      r.engine.crypto.Signs token crypto → Moved r i none { r.engine with crypto }
  | renewed {leaseID extension old token crypto} :
      i.call = .renewLease leaseID extension →
      r.engine.Regranted leaseID extension old token crypto →
      Moved r i (some token)
        { r.engine with
          crypto
          store := r.engine.store.setLease
            (old.renewed extension ((r.env i).now 2) ((hashToken P token).getD [])) }
  | notRenewed {leaseID extension old token crypto} :
      r.engine.Regranted leaseID extension old token crypto →
      Moved r i none { r.engine with crypto }
  | retired {store} : r.engine.store.Retires store → Moved r i none { r.engine with store }
  | other {engine} : engine.store.leases = r.engine.store.leases →
      engine.operatorID = r.engine.operatorID → r.engine.crypto.SignsOther engine.crypto →
      Moved r i none engine

/-- Every step is one of these. -/
lemma Registry.run_moved (r : Registry P) (i : Input) : r.Moved i (r.run i).1 (r.run i).2 := by
  unfold run
  cases call : i.call with
  | allocateLease wavelength endpointID duration =>
    simp only
    cases h : r.engine.allocateLease (r.env i) wavelength endpointID duration with
    | mk result engine =>
      obtain ⟨err, rfl, rfl⟩ | ⟨err, token, crypto, rfl, id, signs, rfl⟩ |
        ⟨w, lease, token, rfl, rfl, allocated⟩ := Engine.allocateLease_cases h
      · exact .other rfl rfl (.inl rfl)
      · exact .notStored call id signs
      · exact .allocated call allocated
  | renewLease leaseID extension =>
    simp only
    cases h : r.engine.renewLease (r.env i) leaseID extension with
    | mk result engine =>
      obtain ⟨err, rfl, rfl⟩ | ⟨old, token, crypto, regranted, ⟨err, rfl, rfl⟩ | ⟨lease, rfl, rfl, rfl⟩⟩ :=
        Engine.renewLease_cases h
      · exact .other rfl rfl (.inl rfl)
      · exact .notRenewed regranted
      · exact .renewed call regranted
  | revokeLease leaseID =>
    simp only
    cases h : r.engine.revokeLease (r.env i) leaseID with
    | mk result engine =>
      obtain ⟨store, retires, rfl⟩ := Engine.revokeLease_retires h
      exact .retired retires
  | expireLeases =>
    simp only
    cases h : r.engine.expireLeases (r.env i) with
    | mk result engine =>
      obtain ⟨store, retires, rfl⟩ := Engine.expireLeases_retires h
      exact .retired retires
  | commitMerkleTree =>
    obtain ⟨leases, operator, other⟩ := r.engine.commitMerkleTree_other (r.env i)
    exact .other leases operator other
  | signSchema schema => exact .other rfl rfl (r.engine.crypto.signSchema_other i.random schema)
  | signSchemaCommitment commitment =>
    refine .other rfl rfl ?_
    simp only [CryptoEngine.signBytes]
    split
    case isTrue => exact .inl rfl
    case isFalse => exact CryptoEngine.signDigest_other (foreign_schemaCommitment P.enc commitment)

/-! ## Active leases -/

/-- The store holds the lease under the ID, and it is active. -/
def Store.Active (s : Store) (id : Bytes) (lease : Lease) : Prop :=
  s.leases.get id = some lease ∧ lease.status = .active

lemma Store.Active.unique {s : Store} {l l' : Lease} (h : s.Active id l) (h' : s.Active id l') : l = l' :=
  Option.some.inj (h.1.symm.trans h'.1)

lemma Engine.Regranted.active {e : Engine P} {extension : Int} {old : Lease} {crypto : CryptoEngine P}
    (h : e.Regranted leaseID extension old token crypto) : e.store.Active leaseID old :=
  ⟨h.found, h.status⟩

/-- Setting a lease leaves the other active leases. -/
lemma Store.Active.of_setLease {s : Store} {lease l : Lease} (h : (s.setLease lease).Active id l) :
    id = lease.id ∧ l = lease ∨ id ≠ lease.id ∧ s.Active id l := by
  obtain ⟨got, active⟩ := h
  rw [setLease, KV.get_set] at got
  split at got
  case isTrue eq => exact .inl ⟨eq, (Option.some.inj got).symm⟩
  case isFalse ne => exact .inr ⟨ne, got, active⟩

lemma Store.Retires.active {s s' : Store} {l : Lease} (retires : s.Retires s')
    (h : s'.Active id l) : s.Active id l := by
  induction retires with
  | refl => exact h
  | step lease inactive _ ih =>
    cases (ih h).of_setLease with
    | inl eq => exact absurd (eq.2 ▸ h.2) inactive
    | inr active => exact active.2

/-- Where an active lease of the state after a step comes from. -/
inductive Registry.ActiveAfter (r : Registry P) (i : Input) (id : Bytes) (l : Lease) : Prop where
  | kept : r.engine.store.Active id l → ActiveAfter r i id l
  | allocated {w endpointID duration token engine} :
      i.call = .allocateLease (some w) endpointID duration →
      r.engine.Allocated (r.env i) w l token engine → id = l.id → ActiveAfter r i id l
  | renewed {leaseID extension old token crypto} : i.call = .renewLease leaseID extension →
      r.engine.Regranted leaseID extension old token crypto →
      l = old.renewed extension ((r.env i).now 2) ((hashToken P token).getD []) → id = old.id →
      ActiveAfter r i id l

lemma Registry.activeAfter {r : Registry P} {i : Input} {l : Lease}
    (h : (r.step i).engine.store.Active id l) : r.ActiveAfter i id l := by
  have moved := r.run_moved i
  rw [step] at h
  generalize r.run i = result at moved h
  obtain ⟨token, engine⟩ := result
  cases moved with
  | allocated call allocated =>
    obtain ⟨crypto, _, rfl⟩ := allocated.engine
    cases h.of_setLease with
    | inl eq =>
      obtain ⟨id_eq, rfl⟩ := eq
      exact .allocated call allocated id_eq
    | inr active => exact .kept active.2
  | notStored => exact .kept h
  | renewed call regranted =>
    cases h.of_setLease with
    | inl eq => exact .renewed call regranted eq.2 eq.1
    | inr active => exact .kept active.2
  | notRenewed => exact .kept h
  | retired retires => exact .kept (retires.active h)
  | other leases => exact .kept ⟨leases ▸ h.1, h.2⟩

lemma Registry.operatorID_step (r : Registry P) (i : Input) :
    (r.step i).engine.operatorID = r.engine.operatorID := by
  have moved := r.run_moved i
  rw [step]
  generalize r.run i = result at moved
  obtain ⟨token, engine⟩ := result
  cases moved with
  | allocated call allocated =>
    obtain ⟨crypto, _, rfl⟩ := allocated.engine
    rfl
  | notStored => rfl
  | renewed => rfl
  | notRenewed => rfl
  | retired => rfl
  | other _ operator => exact operator

/-- Active leases stand under their own IDs and belong to the engine's operator. -/
structure Registry.Wf (r : Registry P) : Prop where
  keyed : ∀ {id l}, r.engine.store.Active id l → l.id = id
  id_ne : ∀ {id l}, r.engine.store.Active id l → l.id ≠ []
  operatorID : ∀ {id l}, r.engine.store.Active id l → l.operatorID = r.engine.operatorID

lemma Registry.Wf.start (key : P.ecdsa.PrivateKey) (operatorID : Bytes) (clock : Time) :
    (Registry.start P key operatorID clock).Wf where
  keyed h := by cases h.1
  id_ne h := by cases h.1
  operatorID h := by cases h.1

lemma Registry.Wf.step {r : Registry P} (wf : r.Wf) (i : Input) : (r.step i).Wf where
  keyed h := by
    cases activeAfter h with
    | kept active => exact wf.keyed active
    | allocated _ _ id => exact id.symm
    | renewed _ _ lease id => rw [lease, id]; rfl
  id_ne h := by
    cases activeAfter h with
    | kept active => exact wf.id_ne active
    | allocated _ allocated => exact allocated.id_ne
    | renewed _ regranted lease =>
      have ne := wf.id_ne regranted.active
      rw [lease]
      exact ne
  operatorID h := by
    rw [r.operatorID_step i]
    cases activeAfter h with
    | kept active => exact wf.operatorID active
    | allocated _ allocated => exact allocated.operatorID
    | renewed _ regranted lease =>
      have operator := wf.operatorID regranted.active
      rw [lease]
      exact operator

lemma Registry.Wf.mem_activeLeases {r : Registry P} (wf : r.Wf) {l : Lease}
    (h : r.engine.store.Active id l) : l ∈ r.engine.activeLeases := by
  refine List.mem_filter.mpr ⟨KV.mem_values.mpr ⟨id, h.1⟩, ?_⟩
  simp [LeaseFilter.admits, wf.operatorID h, h.2]

/-- What `VerifyLease` has checked when it accepts. -/
lemma Registry.Accepts.checked {r : Registry P} {t : Time}
    (h : r.Accepts t token) : ∃ l m sig w, r.engine.store.Active token.leaseID l ∧ t ≤ l.endTime ∧
      token.message P.enc = some m ∧ unmarshalSignature token.signature = some sig ∧
      P.ecdsa.verify (P.ecdsa.publicKey r.engine.crypto.privateKey) (P.sha3.sum m) sig.1 sig.2
        = true ∧
      token.wavelength = some w ∧ P.sha3.sum (tokenString P.enc token w) = l.tokenHash := by
  obtain ⟨l, vouches⟩ := Engine.verifyLease_ok_iff.mp h
  obtain ⟨m, sig, message, format, verified⟩ := vouches.signed
  obtain ⟨w, wavelength, hash⟩ := Option.map_eq_some_iff.mp vouches.hashed
  exact ⟨l, m, sig, w, ⟨Store.getLease_ok vouches.stored, vouches.active⟩, vouches.running, message, format, verified,
    wavelength, hash⟩

/-- What `VerifyLease` accepts is a token of an active lease that has not ended. -/
lemma Registry.Accepts.active {r : Registry P} {t : Time}
    (h : r.Accepts t token) : ∃ l, r.engine.store.Active token.leaseID l ∧ t ≤ l.endTime := by
  obtain ⟨l, _, _, _, active, notAfter, _⟩ := h.checked
  exact ⟨l, active, notAfter⟩

lemma Registry.leaseID_latestToken {r : Registry P} (h : r.latestToken id = some token) : token.leaseID = id :=
  eq_of_beq (List.find?_some (p := fun token : LeaseToken => token.leaseID == id) h)

/-- 1550.12 nm on channel 33. -/
def channel33 : Wavelength where
  lambdaNm := ⟨0x4098387ae147ae14⟩
  channelNum := 33
  band := bandCBand
  gridGHz := ⟨0x4049000000000000⟩

/-- A call whose first clock reading is `wait` nanoseconds after the last one. -/
def plainInput (wait : Nat) (uuid : Bytes) (call : Call) : Input where
  call
  wait n := if n = 0 then wait else 0
  nonce := some []
  random := []
  uuid
  fails _ := false

end Otap.Flr
