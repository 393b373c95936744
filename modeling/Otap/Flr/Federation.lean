import Otap.Flr.Models

/-!
# Proofs of invalidity

Embeds `HandleProofOfInvalidity` of `flr/internal/federation/manager.go` with the checks of `conflict.go` it makes.
What it leaves behind is an audit entry; the checks themselves read nothing but the proof and the clock.
-/

namespace Otap.Flr

open Otap.Lib

/-- The part of a `federation.Manager` that the handler reads: whose it is, and whether it has a registry with a
    store. -/
structure Manager where
  operatorID : Bytes
  hasStore : Bool
  deriving DecidableEq

/-- `checkDoubleAllocation` at the clock reading `now`. -/
def checkDoubleAllocation (now : Time) (a b : Option Lease) : Bool :=
  match a, b with
  | some a, some b =>
    match a.wavelength, b.wavelength with
    | some w, some v =>
      w.lambdaNm.equal v.lambdaNm && w.channelNum == v.channelNum && w.band == v.band &&
        (decide (a.startTime < now) && decide (b.startTime < now)) &&
        !(decide (a.endTime < now) || decide (b.endTime < now)) &&
        !(decide (a.endTime < b.startTime) || decide (b.endTime < a.startTime))
    | _, _ => false
  | _, _ => false

/-- `checkExpiredLease` at the clock reading `now`. -/
def checkExpiredLease (now : Time) (lease : Option Lease) : Bool :=
  match lease with
  | none => false
  | some lease => decide (lease.endTime < now) && lease.status == .active

/-- The switch of `HandleProofOfInvalidity`, with its clock reading `now`. -/
def checkProof (now : Time) (poi : ProofOfInvalidity) : Except Bytes Unit :=
  if poi.type = invalidityDoubleAllocation then
    if poi.leaseA.isNone ∨ poi.leaseB.isNone then
      .error (ascii "double allocation PoI requires both leases")
    else if checkDoubleAllocation now poi.leaseA poi.leaseB then .ok ()
    else .error (ascii "leases do not form a valid double-allocation")
  else if poi.type = invalidityExpiredLease then
    if poi.leaseA.isNone then .error (ascii "expired lease PoI requires a lease")
    else if checkExpiredLease now poi.leaseA then .ok ()
    else .error (ascii "lease is not actually expired")
  else if poi.type = invalidityInvalidSignature then
    if poi.commitment.isNone then .error (ascii "invalid signature PoI requires a commitment")
    else .ok ()
  else if poi.type = invalidityUnauthorizedOp then
    if poi.leaseA.isNone then .error (ascii "unauthorized operation PoI requires a lease")
    else .ok ()
  else .error (ascii "unknown invalidity type: " ++ invalidityTypeString poi.type)

/-- `Manager.HandleProofOfInvalidity`, with the clock readings of its check and of its audit entry: the entry that
    an accepted proof leaves for the audit log, if there is one. -/
def Manager.handleProofOfInvalidity (m : Manager) (checkedAt now : Time) (poi : Option ProofOfInvalidity) :
    Except Bytes (Option AuditLogEntry) :=
  match poi with
  | none => .error (ascii "proof of invalidity is nil")
  | some poi =>
    match checkProof checkedAt poi with
    | .error err => .error err
    | .ok () =>
      if m.hasStore then
        .ok (some
          { timestamp := now
            operation := ascii "PROOF_OF_INVALIDITY_" ++ invalidityTypeString poi.type
            operatorID := m.operatorID
            leaseID := (poi.leaseA.map Lease.id).getD []
            details := none
            hash := none
            prevHash := none })
      else .ok none

end Otap.Flr
