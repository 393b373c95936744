import Otap.Flr.SchemaEngine
import Otap.Flr.Lifecycle
import Otap.Flr.OperatorApi

/-!
# Verifying tokens through the API

Embeds `VerifyLease` and `leaseTokenFromProto` of `flr/internal/api/server.go`. The message of a token has all its
fields, but the conversion does not read `start_time`, `end_time` and `issued_at`, and a missing wavelength becomes the
zero wavelength. So the registry engine is asked about a token that ended at the zero time: the server answers no token
valid (`verifyLeaseApi_invalid`), whatever the engine says of the token itself.
-/

namespace Otap.Flr

open Otap.Lib

variable {P : Platform}

/-! ## The code -/

/-- The message `LeaseToken` of the API. -/
structure LeaseTokenMessage where
  version : Int32
  leaseID : Bytes
  operatorID : Bytes
  wavelength : Option Wavelength
  endpointID : Bytes
  startTime : Time
  endTime : Time
  nonce : Bytes
  signature : Bytes
  issuedAt : Time

/-- The message of a token. -/
def LeaseToken.toProto (t : LeaseToken) : LeaseTokenMessage where
  version := t.version
  leaseID := t.leaseID
  operatorID := t.operatorID
  wavelength := t.wavelength
  endpointID := t.endpointID
  startTime := t.startTime
  endTime := t.endTime
  nonce := t.nonce
  signature := t.signature
  issuedAt := t.issuedAt

/-- What the getters of a wavelength return if it is nil. -/
def zeroWavelength : Wavelength where
  lambdaNm := ⟨0⟩
  channelNum := 0
  band := 0
  gridGHz := ⟨0⟩

/-- `leaseTokenFromProto` of a message that is not nil; a field that it does not set is the zero time. -/
def leaseTokenFromProto (t : LeaseTokenMessage) : LeaseToken where
  version := t.version
  leaseID := t.leaseID
  operatorID := t.operatorID
  wavelength := some (t.wavelength.getD zeroWavelength)
  endpointID := t.endpointID
  startTime := zeroTime
  endTime := zeroTime
  nonce := t.nonce
  signature := t.signature
  issuedAt := zeroTime

structure VerificationResult where
  valid : Bool
  reason : Bytes
  deriving DecidableEq

/-- `Server.VerifyLease`. -/
def Engine.verifyLeaseApi (e : Engine P) (env : Env) (token : Option LeaseTokenMessage) :
    Except Status VerificationResult :=
  match token with
  | none => .error ⟨.invalidArgument, ascii "token is required"⟩
  | some token =>
    match e.verifyLease env (some (leaseTokenFromProto token)) with
    | .error err => .ok { valid := false, reason := err }
    | .ok () => .ok { valid := true, reason := [] }

/-! ## What is to hold -/

/-- The server answers that the message is valid. -/
def Engine.AnswersValid (e : Engine P) (env : Env) (token : LeaseTokenMessage) : Prop :=
  ∃ result, e.verifyLeaseApi env (some token) = .ok result ∧ result.valid = true

/-- Server and engine agree on the token: the server answers that its message is valid if and only if the engine accepts
    it. -/
def Engine.AgreesOn (e : Engine P) (env : Env) (token : LeaseToken) : Prop :=
  e.AnswersValid env token.toProto ↔ e.verifyLease env (some token) = .ok ()

/-! ## What the server answers -/

lemma Engine.answersValid_iff {e : Engine P} {env : Env} {token : LeaseTokenMessage} :
    e.AnswersValid env token ↔ ∃ lease, e.Vouches env (leaseTokenFromProto token) lease := by
  rw [← verifyLease_ok_iff, AnswersValid, verifyLeaseApi]
  cases e.verifyLease env (some (leaseTokenFromProto token)) with
  | error err =>
    refine ⟨?_, fun accepted => (by cases accepted)⟩
    rintro ⟨result, answer, valid⟩
    cases answer
    cases valid
  | ok => exact ⟨fun _ => rfl, fun _ => ⟨_, rfl, rfl⟩⟩

/-- After the zero time the server answers no message valid. -/
lemma Engine.verifyLeaseApi_invalid (e : Engine P) (env : Env) (token : LeaseTokenMessage)
    (after : zeroTime < env.now 1) : ¬ e.AnswersValid env token := by
  rw [answersValid_iff]
  rintro ⟨lease, vouches⟩
  exact absurd after (not_lt.mpr vouches.current)

/-- An active lease that has not ended is stored under the ID. -/
structure Engine.Running (e : Engine P) (env : Env) (leaseID : Bytes) (lease : Lease) : Prop where
  stored : e.store.getLease (env.fails 0) leaseID = .ok lease
  active : lease.status = .active
  running : env.now 0 ≤ lease.endTime

/-- The token is the one that was issued for the lease: it is signed, and has the hash of the lease. -/
structure Engine.Issued (e : Engine P) (token : LeaseToken) (lease : Lease) : Prop where
  signed : token.SignedBy P (P.ecdsa.publicKey e.crypto.privateKey)
  hashed : hashToken P token = some lease.tokenHash

lemma Engine.vouches_iff {e : Engine P} {env : Env} {token : LeaseToken} {lease : Lease} :
    e.Vouches env token lease ↔
      e.Running env token.leaseID lease ∧ env.now 1 ≤ token.endTime ∧ e.Issued token lease := by
  constructor
  · rintro ⟨stored, active, running, current, signed, hashed⟩
    exact ⟨⟨stored, active, running⟩, current, signed, hashed⟩
  · rintro ⟨⟨stored, active, running⟩, current, signed, hashed⟩
    exact ⟨stored, active, running, current, signed, hashed⟩

/-- At most one lease is stored under an ID. -/
lemma Engine.Running.unique {e : Engine P} {env : Env} {leaseID : Bytes} {lease lease' : Lease}
    (running : e.Running env leaseID lease) (running' : e.Running env leaseID lease') : lease = lease' :=
  Except.ok.inj (running.stored.symm.trans running'.stored)

/-- Server and engine agree exactly on the tokens that the engine does not vouch for. At a clock that is not after the
    zero time they agree exactly if no running lease tells the converted token from the token itself. -/
theorem verifyLease_agreesOn_iff (e : Engine P) (env : Env) (token : LeaseToken) :
    e.AgreesOn env token ↔
      (zeroTime < env.now 1 → ¬ ∃ lease, e.Vouches env token lease) ∧
      (env.now 1 ≤ zeroTime → ∀ lease, e.Running env token.leaseID lease →
        (e.Issued (leaseTokenFromProto token.toProto) lease ↔ env.now 1 ≤ token.endTime ∧ e.Issued token lease)) := by
  rw [Engine.AgreesOn, Engine.verifyLease_ok_iff]
  rcases lt_or_ge zeroTime (env.now 1) with after | before
  · have invalid := e.verifyLeaseApi_invalid env token.toProto after
    rw [iff_false_left invalid]
    exact ⟨fun refused => ⟨fun _ => refused, fun before => absurd after (not_lt.mpr before)⟩, fun h => h.1 after⟩
  · have unended : env.now 1 ≤ (leaseTokenFromProto token.toProto).endTime := before
    simp only [Engine.answersValid_iff, Engine.vouches_iff]
    constructor
    · intro same
      refine ⟨fun after => absurd after (not_lt.mpr before), fun _ lease running => ?_⟩
      refine ⟨fun issued => ?_, fun issued => ?_⟩
      · obtain ⟨lease', running', issued'⟩ := same.mp ⟨lease, running, unended, issued⟩
        rwa [running.unique running']
      · obtain ⟨lease', running', -, issued'⟩ := same.mpr ⟨lease, running, issued⟩
        rwa [running.unique running']
    · intro agree
      refine exists_congr fun lease => and_congr_right fun running => ?_
      exact (and_iff_right unended).trans (agree.2 before lease running)

/-- A registry that has allocated a wavelength for 10 ns. -/
def allocatedRegistry : Registry .plain :=
  [plainInput 0 (ascii "a") (.allocateLease (some channel33) (ascii "ep") 10)].foldl Registry.step
    (.start .plain () (ascii "op") 0)

/-- The token of the allocation. -/
def allocatedToken : LeaseToken :=
  (allocatedRegistry.latestToken (ascii "a")).get (by decide +kernel)

/-- The surroundings of a call at instant `t`. -/
def instant (t : Time) : Env where
  now _ := t
  nonce := none
  random := []
  uuid := []
  fails _ := false

/-- The engine accepts the token of an allocation, and the server answers that it has expired. -/
theorem not_verifyLease_agreesOn :
    allocatedRegistry.engine.verifyLease (instant 5) (some allocatedToken) = .ok () ∧
      allocatedRegistry.engine.verifyLeaseApi (instant 5) (some allocatedToken.toProto) =
        .ok { valid := false, reason := ascii "token validation failed: token has expired" } ∧
      ¬ allocatedRegistry.engine.AgreesOn (instant 5) allocatedToken := by
  have accepted : allocatedRegistry.engine.verifyLease (instant 5) (some allocatedToken) = .ok () := by
    decide +kernel
  refine ⟨accepted, by decide +kernel, fun agrees => ?_⟩
  exact Engine.verifyLeaseApi_invalid _ _ _ (by decide) (agrees.mpr accepted)

end Otap.Flr
