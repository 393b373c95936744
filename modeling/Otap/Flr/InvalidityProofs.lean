import Otap.Flr.PeerSync

/-!
# Soundness of proofs of invalidity

What `HandleProofOfInvalidity` accepts, against what a proof has to show. The handler reads the leases and the clock
only: it never asks the operator registry, verifies no signature and follows no Merkle proof, and for two of the four
types it looks at nothing but the presence of a field. `handle_sound_iff` says which facts are left to the sender.
-/

namespace Otap.Flr

open Otap.Lib

variable {P : Platform}

/-! ## What a proof has to show -/

/-- The leases have one wavelength by the fields that identify it. -/
def Lease.SameWavelength (a b : Lease) : Prop :=
  ∃ w v, a.wavelength = some w ∧ b.wavelength = some v ∧ w.lambdaNm.equal v.lambdaNm = true ∧
    w.channelNum = v.channelNum ∧ w.band = v.band

/-- The lease has started and has not ended. -/
def Lease.ActiveAt (now : Time) (lease : Lease) : Prop :=
  lease.startTime < now ∧ now ≤ lease.endTime

instance (now : Time) (lease : Lease) : Decidable (lease.ActiveAt now) :=
  inferInstanceAs (Decidable (lease.startTime < now ∧ now ≤ lease.endTime))

/-- The commitment of the proof verifies under the registered key of the operator of the lease, and the Merkle proof
    leads from the lease to its root. -/
def Committed (m : Federation P) (poi : ProofOfInvalidity) (lease : Lease) : Prop :=
  ∃ c op, poi.commitment = some c ∧ m.operators.get lease.operatorID = some op ∧
    verifyMerkleCommitment P c op.publicKey = .ok () ∧
    verifyMerkleProof P.sha3 (getLeaseHash P.sha3 P.enc (some lease)) c.rootHash poi.merkleProof = true

/-- The commitment is of a registered operator and does not verify under its key. -/
def Forged (m : Federation P) (c : MerkleCommitment) : Prop :=
  ∃ op, m.operators.get c.operatorID = some op ∧ verifyMerkleCommitment P c op.publicKey ≠ .ok ()

/-- The proof establishes its violation at the clock reading `now`. -/
inductive Established (m : Federation P) (now : Time) (poi : ProofOfInvalidity) : Prop
  | doubleAllocation {a b : Lease} (type : poi.type = invalidityDoubleAllocation)
      (leaseA : poi.leaseA = some a) (leaseB : poi.leaseB = some b) (ids : a.id ≠ b.id)
      (operators : a.operatorID ≠ b.operatorID) (wavelength : a.SameWavelength b)
      (active : a.ActiveAt now ∧ b.ActiveAt now) (overlap : b.startTime ≤ a.endTime ∧ a.startTime ≤ b.endTime)
      (committed : Committed m poi a)
  | expiredLease {a : Lease} (type : poi.type = invalidityExpiredLease) (leaseA : poi.leaseA = some a)
      (ended : a.endTime < now) (marked : a.status = .active) (committed : Committed m poi a)
  | invalidSignature {c : MerkleCommitment} (type : poi.type = invalidityInvalidSignature)
      (commitment : poi.commitment = some c) (forged : Forged m c)
  | unauthorizedOp {a : Lease} (type : poi.type = invalidityUnauthorizedOp) (leaseA : poi.leaseA = some a)
      (unregistered : m.operators.get a.operatorID = none)

/-! ## What the handler checks -/

lemma checkDoubleAllocation_iff {now : Time} {a b : Lease} :
    checkDoubleAllocation now (some a) (some b) = true ↔
      a.SameWavelength b ∧ (a.ActiveAt now ∧ b.ActiveAt now) ∧ b.startTime ≤ a.endTime ∧ a.startTime ≤ b.endTime := by
  unfold Lease.SameWavelength Lease.ActiveAt
  cases wa : a.wavelength with
  | none => simp [checkDoubleAllocation, wa]
  | some w =>
    cases wb : b.wavelength with
    | none => simp [checkDoubleAllocation, wa, wb]
    | some v =>
      simp only [checkDoubleAllocation, wa, wb, Bool.and_eq_true, Bool.not_eq_true', Bool.or_eq_false_iff,
        decide_eq_true_iff, decide_eq_false_iff_not, beq_iff_eq, not_lt, Option.some.injEq, exists_eq_left',
        exists_and_left]
      grind

lemma checkExpiredLease_iff {now : Time} {a : Lease} :
    checkExpiredLease now (some a) = true ↔ a.endTime < now ∧ a.status = .active := by
  rw [checkExpiredLease, Bool.and_eq_true, decide_eq_true_iff, beq_iff_eq]

/-- The proofs that the handler accepts. -/
inductive Checked (now : Time) (poi : ProofOfInvalidity) : Prop
  | doubleAllocation {a b : Lease} (type : poi.type = invalidityDoubleAllocation)
      (leaseA : poi.leaseA = some a) (leaseB : poi.leaseB = some b)
      (conflict : checkDoubleAllocation now (some a) (some b) = true)
  | expiredLease {a : Lease} (type : poi.type = invalidityExpiredLease) (leaseA : poi.leaseA = some a)
      (expired : checkExpiredLease now (some a) = true)
  | invalidSignature {c : MerkleCommitment} (type : poi.type = invalidityInvalidSignature)
      (commitment : poi.commitment = some c)
  | unauthorizedOp {a : Lease} (type : poi.type = invalidityUnauthorizedOp) (leaseA : poi.leaseA = some a)

lemma checkProof_iff {now : Time} {poi : ProofOfInvalidity} : checkProof now poi = .ok () ↔ Checked now poi := by
  have present {α : Type} {o : Option α} (h : ¬ o.isNone = true) : ∃ a, o = some a :=
    Option.ne_none_iff_exists'.mp fun none => h (none ▸ rfl)
  constructor
  · intro ok
    unfold checkProof at ok
    split at ok
    case isTrue type =>
      obtain ⟨both, ok⟩ := ok_of_guard ok
      obtain ⟨a, leaseA⟩ := present (not_or.mp both).1
      obtain ⟨b, leaseB⟩ := present (not_or.mp both).2
      rw [leaseA, leaseB] at ok
      split at ok
      case isTrue conflict => exact .doubleAllocation type leaseA leaseB conflict
      case isFalse => cases ok
    case isFalse =>
      split at ok
      case isTrue type =>
        obtain ⟨lease, ok⟩ := ok_of_guard ok
        obtain ⟨a, leaseA⟩ := present lease
        rw [leaseA] at ok
        split at ok
        case isTrue expired => exact .expiredLease type leaseA expired
        case isFalse => cases ok
      case isFalse =>
        split at ok
        case isTrue type =>
          obtain ⟨c, commitment⟩ := present (ok_of_guard ok).1
          exact .invalidSignature type commitment
        case isFalse =>
          split at ok
          case isTrue type =>
            obtain ⟨a, leaseA⟩ := present (ok_of_guard ok).1
            exact .unauthorizedOp type leaseA
          case isFalse => cases ok
  · intro checked
    cases checked with
    | doubleAllocation type leaseA leaseB conflict =>
      rw [checkProof, if_pos type, leaseA, leaseB, if_neg (by simp), if_pos conflict]
    | expiredLease type leaseA expired =>
      rw [checkProof, type, if_neg (by decide), if_pos rfl, leaseA, if_neg (by simp), if_pos expired]
    | invalidSignature type commitment =>
      rw [checkProof, type, if_neg (by decide), if_neg (by decide), if_pos rfl, commitment, if_neg (by simp)]
    | unauthorizedOp type leaseA =>
      rw [checkProof, type, if_neg (by decide), if_neg (by decide), if_neg (by decide), if_pos rfl, leaseA,
        if_neg (by simp)]

lemma handle_ok_iff {m : Manager} {checkedAt now : Time} {poi : ProofOfInvalidity} :
    (∃ entry, m.handleProofOfInvalidity checkedAt now (some poi) = .ok entry) ↔ Checked checkedAt poi := by
  rw [← checkProof_iff, Manager.handleProofOfInvalidity]
  cases checkProof checkedAt poi with
  | error err => simp
  | ok =>
    dsimp only
    split <;> simp

/-! ## Main result -/

/-- What the handler leaves to the sender holds. -/
structure Corroborated (m : Federation P) (now : Time) (poi : ProofOfInvalidity) : Prop where
  doubleAllocation : poi.type = invalidityDoubleAllocation → ∀ a b, poi.leaseA = some a → poi.leaseB = some b →
    checkDoubleAllocation now (some a) (some b) = true →
      a.id ≠ b.id ∧ a.operatorID ≠ b.operatorID ∧ Committed m poi a
  expiredLease : poi.type = invalidityExpiredLease → ∀ a, poi.leaseA = some a →
    checkExpiredLease now (some a) = true → Committed m poi a
  invalidSignature : poi.type = invalidityInvalidSignature → ∀ c, poi.commitment = some c → Forged m c
  unauthorizedOp : poi.type = invalidityUnauthorizedOp → ∀ a, poi.leaseA = some a →
    m.operators.get a.operatorID = none

/-- An accepted proof establishes its violation if and only if the facts hold that the handler does not check. -/
theorem handle_sound_iff (m : Federation P) (checkedAt now : Time) (poi : ProofOfInvalidity) :
    ((∃ entry, m.manager.handleProofOfInvalidity checkedAt now (some poi) = .ok entry) →
      Established m checkedAt poi) ↔ Corroborated m checkedAt poi := by
  rw [handle_ok_iff]
  constructor
  case mp =>
    intro sound
    refine ⟨fun type a b leaseA leaseB conflict => ?_, fun type a leaseA expired => ?_,
      fun type c commitment => ?_, fun type a leaseA => ?_⟩
    · cases sound (.doubleAllocation type leaseA leaseB conflict) with
      | doubleAllocation _ leaseA' leaseB' ids operators _ _ _ committed =>
        cases leaseA.symm.trans leaseA'
        cases leaseB.symm.trans leaseB'
        exact ⟨ids, operators, committed⟩
      | _ type' => cases type.symm.trans type'
    · cases sound (.expiredLease type leaseA expired) with
      | expiredLease _ leaseA' _ _ committed =>
        cases leaseA.symm.trans leaseA'
        exact committed
      | _ type' => cases type.symm.trans type'
    · cases sound (.invalidSignature type commitment) with
      | invalidSignature _ commitment' forged =>
        cases commitment.symm.trans commitment'
        exact forged
      | _ type' => cases type.symm.trans type'
    · cases sound (.unauthorizedOp type leaseA) with
      | unauthorizedOp _ leaseA' unregistered =>
        cases leaseA.symm.trans leaseA'
        exact unregistered
      | _ type' => cases type.symm.trans type'
  case mpr =>
    intro corroborated checked
    cases checked with
    | doubleAllocation type leaseA leaseB conflict =>
      obtain ⟨ids, operators, committed⟩ := corroborated.doubleAllocation type _ _ leaseA leaseB conflict
      obtain ⟨wavelength, active, overlap⟩ := checkDoubleAllocation_iff.mp conflict
      exact .doubleAllocation type leaseA leaseB ids operators wavelength active overlap committed
    | expiredLease type leaseA expired =>
      obtain ⟨ended, marked⟩ := checkExpiredLease_iff.mp expired
      exact .expiredLease type leaseA ended marked (corroborated.expiredLease type _ leaseA expired)
    | invalidSignature type commitment =>
      exact .invalidSignature type commitment (corroborated.invalidSignature type _ commitment)
    | unauthorizedOp type leaseA =>
      exact .unauthorizedOp type leaseA (corroborated.unauthorizedOp type _ leaseA)

/-- A proof that accuses a lease of a conflict with itself, without a commitment. -/
def selfConflict : ProofOfInvalidity where
  type := invalidityDoubleAllocation
  leaseA := some { leaseA with wavelength := some ⟨⟨0x4098387ae147ae14⟩, 33, bandCBand, ⟨0x4049000000000000⟩⟩ }
  leaseB := some { leaseA with wavelength := some ⟨⟨0x4098387ae147ae14⟩, 33, bandCBand, ⟨0x4049000000000000⟩⟩ }
  commitment := none
  merkleProof := []
  timestamp := 5

/-- A proof that accuses the peer of an invalid signature and shows one that verifies. -/
def falseAccusation : ProofOfInvalidity where
  type := invalidityInvalidSignature
  leaseA := none
  leaseB := none
  commitment := some peerCommitment
  merkleProof := []
  timestamp := 5

/-- Both proofs are accepted and establish nothing. -/
theorem not_handle_sound :
    ((peeredFederation.manager.handleProofOfInvalidity 5 5 (some selfConflict)).isOk = true ∧
      ¬ Established peeredFederation 5 selfConflict) ∧
    (peeredFederation.manager.handleProofOfInvalidity 5 5 (some falseAccusation)).isOk = true ∧
      ¬ Established peeredFederation 5 falseAccusation := by
  refine ⟨⟨by decide +kernel, fun established => ?_⟩, by decide +kernel, fun established => ?_⟩
  · cases established with
    | doubleAllocation _ leaseA leaseB ids =>
      cases leaseA
      cases leaseB
      exact ids rfl
    | _ type => cases type
  · cases established with
    | invalidSignature _ commitment forged =>
      cases commitment
      obtain ⟨op, registered, fails⟩ := forged
      have key : (peeredFederation.operators.get peerCommitment.operatorID).map Operator.publicKey = some [1] := rfl
      rw [registered] at key
      rw [Option.some.inj key] at fails
      exact fails (by decide +kernel)
    | _ type => cases type

end Otap.Flr
