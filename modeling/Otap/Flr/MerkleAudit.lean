import Otap.Flr.Membership

/-!
# The audit of the commitments

Embeds `VerifyMerkleConsistency` of `flr/internal/audit/auditor.go` over the Badger store. Of the latest commitment of
an operator the audit looks at `LeaseCount` only, and compares it in 32 bits with the number of active leases; it does
not build the tree. So it passes over every change of the leases that keeps their number, a renewal for one:
`merkleAudit_sound_iff`.
-/

namespace Otap.Flr

open Otap.Lib

/-! ## The code -/

/-- The loop that counts the active leases. -/
def countActive (leases : List Lease) : Int32 :=
  leases.foldl (fun activeCount l => if l.status = .active then activeCount + 1 else activeCount) 0

section Audit

variable (json : Codecs) (db : Badger)

/-- What the audit reports of an operator. -/
def auditOperator (op : Operator) : Option Bytes :=
  match BadgerStore.getLatestCommitment json db op.id with
  | .error _ => none
  | .ok commitment =>
    match BadgerStore.listLeases json db { operatorID := op.id } with
    | .error err => some (ascii "failed to list leases for " ++ op.id ++ ascii ": " ++ err)
    | .ok leases =>
      if countActive leases ≠ commitment.leaseCount then
        some (ascii "operator " ++ op.id ++ ascii ": commitment lease count " ++
          decimalInt commitment.leaseCount.toInt ++ ascii " != actual " ++ decimalInt (countActive leases).toInt)
      else none

/-- The loop over the operators. -/
def auditLoop : List Operator → Bool → List Bytes → Bool × List Bytes
  | [], consistent, errors => (consistent, errors)
  | op :: operators, consistent, errors =>
    match auditOperator json db op with
    | none => auditLoop operators consistent errors
    | some err => auditLoop operators false (errors ++ [err])

/-- `VerifyMerkleConsistency`. -/
def verifyMerkleConsistency : Result (Bool × List Bytes) :=
  match BadgerStore.listOperators json db with
  | .error err => .error (ascii "failed to list operators: " ++ err)
  | .ok operators => .ok (auditLoop json db operators true [])

/-! ## What is to hold -/

/-- The operator is in the store and `c` is its latest commitment. -/
structure LatestCommitment (op : Operator) (c : MerkleCommitment) : Prop where
  listed : ∃ operators, BadgerStore.listOperators json db = .ok operators ∧ op ∈ operators
  latest : BadgerStore.getLatestCommitment json db op.id = .ok c

/-- The active leases of an operator. -/
def activeLeasesOf (op : Operator) : Result (List Lease) :=
  BadgerStore.listLeases json db { operatorID := op.id, status := .active }

/-- The commitment is one to the leases: it has the root of their tree and their number. -/
structure CommitsTo (P : Platform) (c : MerkleCommitment) (leases : List Lease) : Prop where
  root : (buildMerkleTree P.sha3 P.enc P.byID leases).map MerkleNode.hash = some c.rootHash
  count : c.leaseCount.toInt = leases.length

/-- An audit without an error shows that every latest commitment is one to the active leases of its operator. -/
def MerkleAuditSound (P : Platform) : Prop :=
  verifyMerkleConsistency json db = .ok (true, []) →
    ∀ op c, LatestCommitment json db op c → ∃ leases, activeLeasesOf json db op = .ok leases ∧ CommitsTo P c leases

end Audit

/-! ## What the audit compares -/

lemma countActive_eq (leases : List Lease) :
    countActive leases = Int32.ofNat (leases.filter fun l => l.status == .active).length := by
  have loop (n : Nat) :
      leases.foldl (fun activeCount l => if l.status = .active then activeCount + 1 else activeCount) (Int32.ofNat n) =
        Int32.ofNat (n + (leases.filter fun l => l.status == .active).length) := by
    induction leases generalizing n with
    | nil => rfl
    | cons l leases ih =>
      rw [List.foldl_cons, List.filter_cons]
      by_cases active : l.status = .active
      case pos =>
        have next : Int32.ofNat n + 1 = Int32.ofNat (n + 1) := (Int32.ofNat_add n 1).symm
        rw [if_pos active, if_pos (beq_iff_eq.mpr active), next, ih, List.length_cons, Nat.add_right_comm,
          Nat.add_assoc]
      case neg => rw [if_neg active, if_neg (mt beq_iff_eq.mp active), ih]
  rw [countActive, ← Nat.zero_add (List.length _)]
  exact loop 0

/-- A listing under a narrower filter. -/
lemma collect_and {α : Type} (kind : RecordKind α) (json : Codec α) (keep keep' : α → Bool) (data : List Bytes) :
    collect kind json (fun a => keep a && keep' a) data = (collect kind json keep data).map (List.filter keep') := by
  induction data with
  | nil => rfl
  | cons val rest ih =>
    rw [collect, collect, ih]
    cases json.unmarshal val with
    | error err => rfl
    | ok record =>
      cases collect kind json keep rest with
      | error err => rfl
      | ok records =>
        refine congrArg Except.ok ?_
        cases kept : keep record with
        | false => rfl
        | true => rw [if_pos rfl, List.filter_cons, Bool.true_and]

variable {json : Codecs} {db : Badger}

lemma activeLeasesOf_eq (op : Operator) :
    activeLeasesOf json db op = (BadgerStore.listLeases json db { operatorID := op.id }).map
      (List.filter fun l => l.status == .active) := by
  rw [activeLeasesOf, BadgerStore.listLeases, BadgerStore.listLeases, listRecords, listRecords, ← collect_and]
  congr 1
  funext l
  have other : (LeaseStatus.active == LeaseStatus.unspecified) = false := rfl
  simp [LeaseFilter.admits, other]

/-- The audit reports nothing of an operator exactly if the number of its active leases is, in 32 bits, the one of its
    latest commitment. -/
lemma auditOperator_none_iff {op : Operator} :
    auditOperator json db op = none ↔
      ∀ c, BadgerStore.getLatestCommitment json db op.id = .ok c →
        ∃ leases, activeLeasesOf json db op = .ok leases ∧ Int32.ofNat leases.length = c.leaseCount := by
  rw [auditOperator, activeLeasesOf_eq]
  cases BadgerStore.getLatestCommitment json db op.id with
  | error err => exact ⟨fun _ c got => (by cases got), fun _ => rfl⟩
  | ok commitment =>
    cases BadgerStore.listLeases json db { operatorID := op.id } with
    | error err =>
      refine ⟨fun reported => (by cases reported), fun counted => ?_⟩
      obtain ⟨leases, listed, _⟩ := counted commitment rfl
      cases listed
    | ok leases =>
      dsimp only
      rw [countActive_eq]
      split
      case isTrue differ =>
        refine ⟨fun reported => (by cases reported), fun counted => ?_⟩
        obtain ⟨active, listed, same⟩ := counted commitment rfl
        cases listed
        exact absurd same differ
      case isFalse same =>
        refine ⟨fun _ c got => ⟨_, rfl, ?_⟩, fun _ => rfl⟩
        cases got
        exact not_not.mp same

/-- The errors are those of the operators. -/
lemma auditLoop_eq (operators : List Operator) (consistent : Bool) (errors : List Bytes) :
    auditLoop json db operators consistent errors =
      (consistent && (operators.filterMap (auditOperator json db)).isEmpty,
        errors ++ operators.filterMap (auditOperator json db)) := by
  induction operators generalizing consistent errors with
  | nil => rw [auditLoop, List.filterMap_nil, List.isEmpty_nil, Bool.and_true, List.append_nil]
  | cons op operators ih =>
    rw [auditLoop, List.filterMap_cons]
    cases auditOperator json db op with
    | none => exact ih consistent errors
    | some err =>
      dsimp only
      rw [ih, List.isEmpty_cons, Bool.and_false, Bool.false_and, List.append_assoc, List.singleton_append]

/-- The audit passes exactly if it reports nothing of any operator. -/
lemma verifyMerkleConsistency_iff {operators : List Operator}
    (listed : BadgerStore.listOperators json db = .ok operators) :
    verifyMerkleConsistency json db = .ok (true, []) ↔ ∀ op ∈ operators, auditOperator json db op = none := by
  rw [verifyMerkleConsistency, listed, ← List.filterMap_eq_nil_iff]
  dsimp only
  rw [auditLoop_eq, List.nil_append, Bool.true_and]
  constructor
  · intro passed
    exact congrArg Prod.snd (Except.ok.inj passed)
  · intro nothing
    rw [nothing, List.isEmpty_nil]

/-- A number of leases is what a commitment says exactly if it is so in 32 bits and has no more than 31. -/
lemma toInt_eq_length_iff {count : Int32} {n : Nat} : count.toInt = n ↔ Int32.ofNat n = count ∧ n < 2 ^ 31 := by
  constructor
  · intro same
    have lt : count.toInt < 2 ^ 31 := count.toInt_lt
    refine ⟨?_, by omega⟩
    rw [← Int32.toInt_inj, Int32.toInt_ofNat_of_lt (by omega), same]
  · rintro ⟨rfl, lt⟩
    exact Int32.toInt_ofNat_of_lt lt

/-! ## Main result -/

/-- The audit is sound on a store exactly if there is a number of leases for it to report, or every latest commitment
    has the root of the active leases, of which there are fewer than `2 ^ 31`. -/
theorem merkleAudit_sound_iff (P : Platform) (json : Codecs) (db : Badger) :
    MerkleAuditSound json db P ↔
      (∃ op c, LatestCommitment json db op c ∧
        ∀ leases, activeLeasesOf json db op = .ok leases → Int32.ofNat leases.length ≠ c.leaseCount) ∨
      ∀ op c leases, LatestCommitment json db op c → activeLeasesOf json db op = .ok leases →
        (buildMerkleTree P.sha3 P.enc P.byID leases).map MerkleNode.hash = some c.rootHash ∧
          leases.length < 2 ^ 31 := by
  constructor
  · intro sound
    rw [or_iff_not_imp_left]
    intro unreported op c leases latest active
    push Not at unreported
    obtain ⟨operators, listed, _⟩ := latest.listed
    have passes : verifyMerkleConsistency json db = .ok (true, []) := by
      rw [verifyMerkleConsistency_iff listed]
      intro op' mem
      rw [auditOperator_none_iff]
      intro c' latest'
      exact unreported op' c' ⟨⟨operators, listed, mem⟩, latest'⟩
    obtain ⟨leases', active', commits⟩ := sound passes op c latest
    cases active.symm.trans active'
    exact ⟨commits.root, (toInt_eq_length_iff.mp commits.count).2⟩
  · intro kept passes op c latest
    obtain ⟨operators, listed, mem⟩ := latest.listed
    have counted {op' : Operator} {c' : MerkleCommitment} (latest' : LatestCommitment json db op' c') :
        ∃ leases, activeLeasesOf json db op' = .ok leases ∧ Int32.ofNat leases.length = c'.leaseCount := by
      obtain ⟨operators', listed', mem'⟩ := latest'.listed
      exact auditOperator_none_iff.mp ((verifyMerkleConsistency_iff listed').mp passes op' mem') c' latest'.latest
    rcases kept with ⟨op', c', latest', differ⟩ | rooted
    · obtain ⟨leases, active, same⟩ := counted latest'
      exact absurd same (differ leases active)
    · obtain ⟨leases, active, same⟩ := counted latest
      obtain ⟨root, few⟩ := rooted op c leases latest active
      exact ⟨leases, active, root, toInt_eq_length_iff.mpr ⟨same, few⟩⟩

/-- The lease after a renewal. -/
def renewedA : Lease :=
  { leaseA with endTime := 20, updatedAt := 5 }

/-- A commitment to `leaseA`. -/
def commitmentA : MerkleCommitment where
  operatorID := ascii "op"
  rootHash := getLeaseHash (.positional 32) .plain (some leaseA)
  timestamp := 1
  signature := []
  leaseCount := 1
  blockHeight := 1

/-- The operator of the lease. -/
def operatorOp : Operator :=
  { operatorB with id := ascii "op" }

def auditCodecs : Codecs :=
  { operatorCodecs [operatorOp] with
    lease := .ofList [leaseA, renewedA]
    commitment := .ofList [commitmentA] }

/-- A store with an operator, its lease and a commitment to it. -/
def committedStore : Result Badger := do
  let db ← BadgerStore.createOperator auditCodecs .empty (some operatorOp)
  let db ← BadgerStore.createLease auditCodecs db (some leaseA)
  BadgerStore.saveCommitment auditCodecs db (some commitmentA)

/-- The store after the renewal of the lease. -/
def renewedStore : Result Badger := do
  let db ← committedStore
  BadgerStore.updateLease auditCodecs db 5 (some { leaseA with endTime := 20 })

def renewedDb : Badger :=
  renewedStore.toOption.get (by decide +kernel)

/-- The renewal has made the commitment stale, and the audit passes. -/
theorem not_merkleAudit_sound :
    verifyMerkleConsistency auditCodecs renewedDb = .ok (true, []) ∧
      ¬ MerkleAuditSound auditCodecs renewedDb .plain := by
  have passes : verifyMerkleConsistency auditCodecs renewedDb = .ok (true, []) := by decide +kernel
  have latest : LatestCommitment auditCodecs renewedDb operatorOp commitmentA :=
    ⟨⟨[operatorOp], by decide +kernel, List.mem_singleton_self _⟩, by decide +kernel⟩
  have active : activeLeasesOf auditCodecs renewedDb operatorOp = .ok [renewedA] := by decide +kernel
  have stale : (buildMerkleTree (.positional 32) .plain sortByID [renewedA]).map MerkleNode.hash ≠
      some commitmentA.rootHash := by decide +kernel
  refine ⟨passes, fun sound => ?_⟩
  obtain ⟨leases, active', commits⟩ := sound passes operatorOp commitmentA latest
  cases active.symm.trans active'
  exact stale commits.root

end Otap.Flr
