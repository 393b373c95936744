import Otap.Flr.Registry

/-!
# Published commitments

Whether the commitment that `CommitMerkleTree` returns and stores verifies under the operator's key.
`SignMerkleCommitment` signs a commitment whose `LeaseCount` is still zero, and `CommitMerkleTree` sets
the count afterwards; `VerifyMerkleCommitment` serializes the count it finds. So `commitment_verifies_iff`:
a published commitment verifies exactly when the count is zero in 32 bits.
-/

namespace Otap.Flr

open Otap.Lib

variable {P : Platform} {env : Env} {c : MerkleCommitment}

/-- `Engine.GetLatestCommitment`. -/
def Engine.getLatestCommitment (e : Engine P) : Result MerkleCommitment :=
  e.store.getLatestCommitment e.operatorID

/-- `Engine.GetCommitment`. -/
def Engine.getCommitment (e : Engine P) (operatorID : Bytes) (blockHeight : Int64) :
    Result MerkleCommitment :=
  e.store.getCommitment operatorID blockHeight

/-! ## What is signed and stored -/

/-- A commitment that was signed: the signature is over a lease count of zero. -/
lemma CryptoEngine.signMerkleCommitment_ok {e e' : CryptoEngine P} {root : Bytes} {height : Int64}
    (h : e.signMerkleCommitment env root height = (.ok c, e')) :
    c.leaseCount = 0 ∧ c.operatorID = e.operatorID ∧ c.rootHash = root ∧ root.length ≠ 0 ∧
      c.blockHeight = height ∧ e'.privateKey = e.privateKey ∧
      ∃ r s, P.ecdsa.sign e.privateKey (P.sha3.sum (c.message P.enc)) env.random = some (r, s) ∧
        c.signature = marshalSignature r s := by
  unfold signMerkleCommitment at h
  split at h
  case isTrue => cases h
  case isFalse ne =>
    simp only at h
    split at h
    case h_1 => cases h
    case h_2 sig e'' signed =>
      cases h
      unfold sign at signed
      split at signed
      case isTrue => cases signed
      case isFalse =>
        obtain ⟨⟨r, s, made, sig_eq⟩, e_eq⟩ := signDigest_ok signed
        subst e_eq
        exact ⟨rfl, rfl, rfl, ne, rfl, rfl, r, s, made, sig_eq⟩

/-- The commitment before its lease count was set. -/
def MerkleCommitment.asSigned (c : MerkleCommitment) : MerkleCommitment :=
  { c with leaseCount := 0 }

/-- A successful `CommitMerkleTree`: what was signed, what was counted and what was stored. -/
lemma Engine.commitMerkleTree_ok {e e' : Engine P} (h : e.commitMerkleTree env = (.ok c, e')) :
    c.leaseCount = Int32.ofNat e.activeLeases.length ∧ c.operatorID = e.crypto.operatorID ∧
      c.rootHash.length ≠ 0 ∧ e'.operatorID = e.operatorID ∧ c.blockHeight = e.blockHeight + 1 ∧
      e.store.saveCommitment false c = .ok e'.store ∧
      ∃ r s, P.ecdsa.sign e.crypto.privateKey (P.sha3.sum (c.asSigned.message P.enc)) env.random
          = some (r, s) ∧ c.signature = marshalSignature r s := by
  unfold commitMerkleTree at h
  split at h
  case isTrue => cases h
  case isFalse =>
    simp only at h
    split at h
    case h_1 => cases h
    case h_2 tree built =>
      split at h
      case h_1 => cases h
      case h_2 c0 crypto signed =>
        obtain ⟨count, op, root, ne, height, _, r, s, made, sig⟩ :=
          CryptoEngine.signMerkleCommitment_ok signed
        split at h
        case h_1 => cases h
        case h_2 store saved =>
          cases h
          have asSigned : MerkleCommitment.asSigned { c0 with leaseCount := .ofNat e.activeLeases.length }
              = c0 := by
            rw [MerkleCommitment.asSigned, ← count]
          refine ⟨rfl, op, root ▸ ne, rfl, height, ?_, r, s, (by rw [asSigned]; exact made), sig⟩
          unfold Store.saveCommitment at saved ⊢
          obtain ⟨ne, saved⟩ := ok_of_guard saved
          rw [if_neg ne, if_neg Bool.false_ne_true, (ok_of_guard saved).2]

/-- A `CommitMerkleTree` that fails has stored nothing. -/
lemma Engine.commitMerkleTree_error {e e' : Engine P} {err : Bytes}
    (h : e.commitMerkleTree env = (.error err, e')) :
    e'.store = e.store ∧ e'.operatorID = e.operatorID := by
  unfold commitMerkleTree at h
  split at h
  case isTrue =>
    cases h
    exact ⟨rfl, rfl⟩
  case isFalse =>
    simp only at h
    split at h
    case h_1 =>
      cases h
      exact ⟨rfl, rfl⟩
    case h_2 =>
      split at h
      case h_1 =>
        cases h
        exact ⟨rfl, rfl⟩
      case h_2 =>
        split at h
        case h_1 =>
          cases h
          exact ⟨rfl, rfl⟩
        case h_2 => cases h

lemma decimalInt_ne_latest (n : Int) : decimalInt n ≠ ascii "latest" := by
  intro eq
  have letter := decimalInt_bytes (n := n) (x := 108) (eq ▸ by decide)
  exact absurd letter (by decide)

/-- A height is written in digits, so its key is not the one of the latest commitment. -/
lemma heightKey_ne_latestKey (operatorID : Bytes) (height : Int64) :
    heightKey operatorID height ≠ latestKey operatorID := by
  intro eq
  rw [heightKey, latestKey, List.append_assoc] at eq
  have tail : decimalInt height.toInt = ascii "latest" := by
    simpa [ascii] using List.append_cancel_left eq
  exact decimalInt_ne_latest _ tail

lemma heightKey_inj {operatorID : Bytes} {height height' : Int64}
    (e : heightKey operatorID height = heightKey operatorID height') : height = height' :=
  Int64.toInt_inj.mp (decimalInt_inj (List.append_cancel_left e))

/-- What `SaveCommitment` writes: an entry at the height, and the latest one. -/
lemma Store.saveCommitment_eq {s s' : Store} (h : s.saveCommitment false c = .ok s') :
    c.operatorID ≠ [] ∧ s' = { s with commitments :=
      (s.commitments.set (heightKey c.operatorID c.blockHeight) c).set (latestKey c.operatorID) c } := by
  unfold saveCommitment at h
  obtain ⟨ne, h⟩ := ok_of_guard h
  obtain ⟨-, h⟩ := ok_of_guard h
  exact ⟨ne, (Except.ok.inj h).symm⟩

/-- What `SaveCommitment` stores is read back, at its height and as the latest one. -/
lemma Store.saveCommitment_ok {s s' : Store} (h : s.saveCommitment false c = .ok s') :
    s'.getCommitment c.operatorID c.blockHeight = .ok c ∧
      s'.getLatestCommitment c.operatorID = .ok c := by
  obtain ⟨ne, rfl⟩ := saveCommitment_eq h
  refine ⟨?_, ?_⟩
  · rw [getCommitment, if_neg ne, KV.get_set_ne _ _ (heightKey_ne_latestKey _ _), KV.get_set_self]
  · rw [getLatestCommitment, if_neg ne, KV.get_set_self]

/-! ## Verification -/

lemma verifySignature_marshal (key : P.ecdsa.PublicKey) (data : Bytes) (r s : Fin (256 ^ 32)) :
    verifySignature P key data (marshalSignature r s) =
      if P.ecdsa.verify key (P.sha3.sum data) r s then .ok ()
      else .error (ascii "signature verification failed") := by
  rw [verifySignature, unmarshal_marshalSignature]

/-- A commitment with a signature of the key verifies if the signed digest is the one of its bytes; it
    verifies only then, if the signature fits the digest of its bytes only then. -/
lemma verifyMerkleCommitment_iff {key : P.ecdsa.PrivateKey}
    {digest random : Bytes} {r s : Fin (256 ^ 32)} (root : c.rootHash.length ≠ 0)
    (made : P.ecdsa.sign key digest random = some (r, s)) (sig : c.signature = marshalSignature r s)
    (binding : P.ecdsa.verify (P.ecdsa.publicKey key) (P.sha3.sum (c.message P.enc)) r s = true →
      P.sha3.sum (c.message P.enc) = digest) :
    verifyMerkleCommitment P c (P.ecdsa.pem (P.ecdsa.publicKey key)) = .ok () ↔
      P.sha3.sum (c.message P.enc) = digest := by
  have pem : (P.ecdsa.pem (P.ecdsa.publicKey key)).length ≠ 0 := fun len =>
    P.ecdsa.pem_ne_nil _ (List.length_eq_zero_iff.mp len)
  have data : (c.message P.enc).length ≠ 0 := by
    simp [MerkleCommitment.message, jsonObject, ascii]
  have sigLen : (marshalSignature r s).length ≠ 0 := by
    rw [marshalSignature, List.length_append, length_toBE, length_toBE]
    decide
  rw [verifyMerkleCommitment, if_neg pem, if_neg root, verify, if_neg pem, if_neg data, sig,
    if_neg sigLen, P.ecdsa.parse_pem]
  simp only [verifySignature_marshal]
  constructor
  · intro h
    split at h
    case isTrue ok => exact binding ok
    case isFalse => cases h
  · intro h
    rw [h, if_pos (P.ecdsa.verify_sign made)]

/-- Commitments that differ in the lease count only have different messages. -/
lemma leaseCount_of_message {enc : Encoding} (h : c.message enc = c.asSigned.message enc) : c.leaseCount = 0 := by
  simp [MerkleCommitment.message, MerkleCommitment.asSigned, jsonObject, jsonField,
    List.intercalate] at h
  exact Int32.toInt_inj.mp (decimalInt_inj h)

/-- Published commitments: after a successful `CommitMerkleTree` the returned commitment and the ones read
    back verify under the operator's key exactly if the number of active leases is zero in 32 bits.
    Assumed: the two engines are built for one operator, the signature fits the digest of the published bytes
    only if that is the digest it was made for, and the two serializations of the commitment do not collide. -/
theorem commitment_verifies_iff {e e' : Engine P} {env : Env} {c : MerkleCommitment}
    (operator : e.crypto.operatorID = e.operatorID)
    (binding : ∀ r s : Fin (256 ^ 32), c.signature = marshalSignature r s →
      P.ecdsa.verify (P.ecdsa.publicKey e.crypto.privateKey) (P.sha3.sum (c.message P.enc)) r s = true →
      P.sha3.sum (c.message P.enc) = P.sha3.sum (c.asSigned.message P.enc))
    (collisionFree : ¬ P.sha3.Collision (c.message P.enc) (c.asSigned.message P.enc))
    (committed : e.commitMerkleTree env = (.ok c, e')) :
    (verifyMerkleCommitment P c e.crypto.getPublicKey = .ok () ∧
      (∃ latest, e'.getLatestCommitment = .ok latest ∧
        verifyMerkleCommitment P latest e.crypto.getPublicKey = .ok ()) ∧
      (∃ stored, e'.getCommitment c.operatorID c.blockHeight = .ok stored ∧
        verifyMerkleCommitment P stored e.crypto.getPublicKey = .ok ())) ↔
    e.activeLeases.length % 2 ^ 32 = 0 := by
  obtain ⟨count, op, root, op', _, saved, r, s, made, sig⟩ := Engine.commitMerkleTree_ok committed
  obtain ⟨stored, latest⟩ := Store.saveCommitment_ok saved
  have verifies : verifyMerkleCommitment P c e.crypto.getPublicKey = .ok () ↔ c.leaseCount = 0 := by
    rw [CryptoEngine.getPublicKey, verifyMerkleCommitment_iff root made sig (binding r s sig)]
    constructor
    · intro digests
      by_contra ne
      exact collisionFree ⟨fun eq => ne (leaseCount_of_message eq), digests⟩
    · intro zero
      rw [MerkleCommitment.asSigned, ← zero]
  have zero : c.leaseCount = 0 ↔ e.activeLeases.length % 2 ^ 32 = 0 := by
    rw [count, ← Int32.toInt_inj, Int32.toInt_ofNat']
    simp [Int.bmod_def]
    omega
  rw [← zero, ← verifies]
  constructor
  · exact fun h => h.1
  · intro h
    refine ⟨h, ⟨c, ?_, h⟩, ⟨c, stored, h⟩⟩
    rw [Engine.getLatestCommitment, op', ← operator, ← op, latest]

/-- A signature of the plain scheme fits the digest it was made for only. -/
lemma plain_commitment_binding {e e' : Engine .plain}
    (committed : e.commitMerkleTree env = (.ok c, e')) (r s : Fin (256 ^ 32))
    (sig : c.signature = marshalSignature r s)
    (ok : Platform.plain.ecdsa.verify (Platform.plain.ecdsa.publicKey e.crypto.privateKey)
      (Platform.plain.sha3.sum (c.message Platform.plain.enc)) r s = true) :
    Platform.plain.sha3.sum (c.message Platform.plain.enc) =
      Platform.plain.sha3.sum (c.asSigned.message Platform.plain.enc) := by
  obtain ⟨_, _, _, _, _, _, r', s', made, sig'⟩ := Engine.commitMerkleTree_ok committed
  have same := unmarshal_marshalSignature r s
  rw [← sig, sig', unmarshal_marshalSignature] at same
  obtain ⟨rr, ss⟩ := Prod.mk.inj (Option.some.inj same)
  rw [← Fin.ext rr, ← Fin.ext ss] at ok
  exact Ecdsa.plain_binding made ok

/-- An engine with one active lease. -/
def oneLeaseEngine : Engine .plain :=
  { plainEngine with store := { leases := KV.empty.set leaseA.id leaseA, commitments := .empty } }

/-- The two serializations have different digests. -/
lemma oneLease_digests : (oneLeaseEngine.commitMerkleTree (plainEnv 7 [])).1.toOption.map
    (fun c => decide (Platform.plain.sha3.sum (c.message Platform.plain.enc) =
      Platform.plain.sha3.sum (c.asSigned.message Platform.plain.enc))) = some false := by
  decide +kernel

/-- With one active lease the published commitment does not verify. -/
theorem commitment_verifies_iff_oneLease :
    ∃ c e', oneLeaseEngine.commitMerkleTree (plainEnv 7 []) = (.ok c, e') ∧
      ¬ (verifyMerkleCommitment .plain c oneLeaseEngine.crypto.getPublicKey = .ok () ∧
        (∃ latest, e'.getLatestCommitment = .ok latest ∧
          verifyMerkleCommitment .plain latest oneLeaseEngine.crypto.getPublicKey = .ok ()) ∧
        (∃ stored, e'.getCommitment c.operatorID c.blockHeight = .ok stored ∧
          verifyMerkleCommitment .plain stored oneLeaseEngine.crypto.getPublicKey = .ok ())) := by
  have differ := oneLease_digests
  cases committed : oneLeaseEngine.commitMerkleTree (plainEnv 7 []) with
  | mk result e' =>
    rw [committed] at differ
    cases result with
    | error err => cases differ
    | ok c =>
      have digests := of_decide_eq_false (Option.some.inj differ)
      refine ⟨c, e', rfl, fun verifies => ?_⟩
      have zero := (commitment_verifies_iff rfl (plain_commitment_binding committed)
        (fun collision => digests collision.2) committed).mp verifies
      revert zero
      decide +kernel

/-- The commitment of one active lease is refused. -/
theorem not_commitment_verifies :
    ¬ ∀ (P : Platform) (e e' : Engine P) (env : Env) (c : MerkleCommitment),
      e.crypto.operatorID = e.operatorID → e.commitMerkleTree env = (.ok c, e') →
      verifyMerkleCommitment P c e.crypto.getPublicKey = .ok () := by
  intro h
  have fails : (oneLeaseEngine.commitMerkleTree (plainEnv 7 [])).1.toOption.map
      (fun c => decide (verifyMerkleCommitment .plain c oneLeaseEngine.crypto.getPublicKey = .ok ()))
        = some false := by
    decide +kernel
  cases committed : oneLeaseEngine.commitMerkleTree (plainEnv 7 []) with
  | mk result e' =>
    rw [committed] at fails
    cases result with
    | error err => cases fails
    | ok c =>
      have ok := h .plain oneLeaseEngine e' (plainEnv 7 []) c rfl committed
      simp [Except.toOption, ok] at fails

end Otap.Flr
