import Otap.Lib.Merkle
import Otap.Flr.Models

/-!
# The lease Merkle tree

Embeds the Merkle part of `flr/internal/crypto/engine.go`: `GetLeaseHash`, `BuildMerkleTree`,
`buildMerkleTreeFromLeaves`, `VerifyMerkleProof` and `findMerkleProof`. The hash is any function with
digests of 32 bytes.

`MerkleNode.Shows` relates the nodes the code builds to the trees of `Otap.Lib.Merkle`, which keep the
data under the leaf hashes. Through it `merkle_completeness` is `Opening.climb` for the path the
depth-first search finds, and `merkle_soundness` is `extract_sound`.
-/

namespace Otap.Flr

open Otap.Lib Otap.Lib.Merkle

variable (H : Hash 32) (enc : Encoding)

/-! ## The code -/

/-- The JSON of `canonicalLeaseFields`. It has string fields only, so `json.Marshal` does not fail. -/
def canonicalLease (lease : Lease) : Bytes :=
  let wlKey := match lease.wavelength with
    | none => []
    | some w => w.toKey
  jsonObject
    [ jsonField "id" (enc.string lease.id),
      jsonField "wavelength_key" (enc.string wlKey),
      jsonField "endpoint_id" (enc.string lease.endpointID),
      jsonField "operator_id" (enc.string lease.operatorID),
      jsonField "start_time" (enc.string (enc.rfc3339Nano lease.startTime)),
      jsonField "end_time" (enc.string (enc.rfc3339Nano lease.endTime)) ]

/-- `make([]byte, 32)`. -/
def zeroHash : Bytes :=
  List.replicate 32 0

/-- `GetLeaseHash`. -/
def getLeaseHash : Option Lease → Bytes
  | none => zeroHash
  | some lease => H.sum (canonicalLease enc lease)

/-- The parent of two nodes in `buildMerkleTreeFromLeaves`. -/
def parentNode (left right : MerkleNode) : MerkleNode :=
  let combined :=
    if left.hash ≤ right.hash then left.hash ++ right.hash else right.hash ++ left.hash
  .node (H.sum combined) left right [] false

/-- `buildMerkleTreeFromLeaves`. The recursion has no more levels than nodes; an odd level, which the
    source answers with an index out of range, is `none`. -/
def buildMerkleTreeFromLeaves (nodes : List MerkleNode) : Option MerkleNode :=
  reduceLevels (parentNode H) nodes.length nodes

/-- The loop `for targetCount < len(leaves) { targetCount <<= 1 }`. -/
def targetCount (len : Nat) : Nat → Nat → Nat
  | 0, target => target
  | fuel + 1, target => if target < len then targetCount len fuel (target <<< 1) else target

/-- The comparison of `BuildMerkleTree`'s sort. -/
def lessID (a b : Lease) : Prop :=
  a.id < b.id

def leafNode (lease : Lease) : MerkleNode :=
  .node (getLeaseHash H enc (some lease)) .nil .nil lease.id true

def padNode : MerkleNode :=
  .node zeroHash .nil .nil [] true

/-- `BuildMerkleTree`. -/
def buildMerkleTree (byID : SortSlice lessID) (leases : List Lease) : Option MerkleNode :=
  if leases.length = 0 then some padNode
  else
    let leaves := (byID.sort leases).map (leafNode H enc)
    let target := targetCount leaves.length leaves.length 1
    buildMerkleTreeFromLeaves H (leaves ++ List.replicate (target - leaves.length) padNode)

/-- The loop of `VerifyMerkleProof`. -/
def verifyLoop : List Bytes → Bytes → Option Bytes
  | [], hash => some hash
  | sibling :: proof, hash =>
    if sibling.length = 0 then none
    else
      let combined := if hash < sibling then hash ++ sibling else sibling ++ hash
      verifyLoop proof (H.sum combined)

/-- `VerifyMerkleProof`. -/
def verifyMerkleProof (leafHash rootHash : Bytes) (proof : List Bytes) : Bool :=
  if leafHash.length = 0 ∨ rootHash.length = 0 then false
  else
    match verifyLoop H proof leafHash with
    | none => false
    | some hash => hash == rootHash

/-- The sibling's hash on a path of `findMerkleProof`. -/
def siblingHash : MerkleNode → Bytes
  | .nil => zeroHash
  | .node hash _ _ _ _ => hash

/-- `findMerkleProof`. The search of a nil child finds nothing, as the guards of the source do. -/
def findMerkleProof : MerkleNode → Bytes → Option (List Bytes)
  | .nil, _ => none
  | .node hash left right _ isLeaf, leafHash =>
    if isLeaf then
      if hash = leafHash then some [] else none
    else
      match findMerkleProof left leafHash with
      | some leftProof => some (leftProof ++ [siblingHash right])
      | none =>
        match findMerkleProof right leafHash with
        | some rightProof => some (rightProof ++ [siblingHash left])
        | none => none

/-! ## The tree that is built -/

/-- A node of the code and the tree it is the root of. -/
inductive MerkleNode.Shows : MerkleNode → HashTree → Prop where
  | leaf {lease} : Shows (leafNode H enc lease) (.data (canonicalLease enc lease))
  | pad : Shows padNode .pad
  | parent {left right l r} : Shows left l → Shows right r →
      Shows (parentNode H left right) (.node l r)

/-- The padded leaf nodes of `BuildMerkleTree`. -/
def leaseNodes (byID : SortSlice lessID) (leases : List Lease) : List MerkleNode :=
  (byID.sort leases).map (leafNode H enc) ++
    List.replicate (targetCount leases.length leases.length 1 - leases.length) padNode

/-- The leaves of the tree over `leases`: the sorted leases, padded to a power of two. -/
def leaseLeaves (byID : SortSlice lessID) (leases : List Lease) : List HashTree :=
  (byID.sort leases).map (fun lease => .data (canonicalLease enc lease)) ++
    List.replicate (targetCount leases.length leases.length 1 - leases.length) .pad

/-- The tree over `leases`. -/
def leaseTree (byID : SortSlice lessID) (leases : List Lease) : HashTree :=
  (reduceLevels .node (leaseLeaves enc byID leases).length (leaseLeaves enc byID leases)).getD .pad

lemma targetCount_pow (len fuel j : Nat) (enough : len ≤ 2 ^ (j + fuel)) :
    ∃ k, targetCount len fuel (2 ^ j) = 2 ^ k ∧ len ≤ 2 ^ k := by
  induction fuel generalizing j with
  | zero => exact ⟨j, rfl, enough⟩
  | succ fuel ih =>
    rw [targetCount]
    split
    case isTrue =>
      have double : 2 ^ j <<< 1 = 2 ^ (j + 1) := by rw [Nat.shiftLeft_eq, Nat.pow_one, Nat.pow_succ]
      rw [double]
      exact ih (j + 1) (by rwa [Nat.add_assoc, Nat.add_comm 1 fuel])
    case isFalse ge => exact ⟨j, rfl, Nat.le_of_not_lt ge⟩

/-- Leaves padded up to the target are a power of two. -/
lemma length_padded {α : Type} {l : List α} {len : Nat} (e : l.length = len) (pad : α) :
    ∃ k, (l ++ List.replicate (targetCount len len 1 - len) pad).length = 2 ^ k := by
  obtain ⟨k, target, le⟩ := targetCount_pow len len 0
    (by rw [Nat.zero_add]; exact Nat.lt_two_pow_self.le)
  refine ⟨k, ?_⟩
  rw [List.length_append, List.length_replicate, e, ← Nat.pow_zero 2, target, Nat.add_sub_cancel' le]

lemma length_leaseLeaves (byID : SortSlice lessID) (leases : List Lease) :
    ∃ k, (leaseLeaves enc byID leases).length = 2 ^ k := by
  rw [leaseLeaves]
  exact length_padded (byID.length_map_sort _ leases) _

variable {H enc} {node : MerkleNode} {t : HashTree} {h : Bytes} {proof : List Bytes}

lemma MerkleNode.Shows.hash (shows : node.Shows H enc t) :
    node.hash = t.root H := by
  induction shows with
  | leaf => rfl
  | pad => rfl
  | parent _ _ ihl ihr => rw [parentNode, MerkleNode.hash, ihl, ihr, HashTree.root, sortedPair]

lemma MerkleNode.Shows.siblingHash (shows : node.Shows H enc t) :
    siblingHash node = t.root H := by
  rw [← shows.hash]
  cases shows with
  | leaf => rfl
  | pad => rfl
  | parent => rfl

/-- The special case of an empty list builds what the general case would. -/
lemma buildMerkleTree_eq (byID : SortSlice lessID) (leases : List Lease) :
    buildMerkleTree H enc byID leases
      = buildMerkleTreeFromLeaves H (leaseNodes H enc byID leases) := by
  unfold buildMerkleTree
  split
  case isTrue empty =>
    obtain rfl := List.length_eq_zero_iff.mp empty
    have nil : byID.sort [] = [] := (byID.perm []).eq_nil
    rw [leaseNodes, nil]
    rfl
  case isFalse =>
    simp only [byID.length_map_sort, leaseNodes]

lemma leaseNodes_shows (H : Hash 32) (enc : Encoding) (byID : SortSlice lessID) (leases : List Lease) :
    List.Forall₂ (MerkleNode.Shows H enc) (leaseNodes H enc byID leases)
      (leaseLeaves enc byID leases) :=
  forall₂_padded (fun _ => .leaf) .pad _ _

/-- `BuildMerkleTree` always returns a tree, and it is the tree over the leases. -/
lemma buildMerkleTree_shows (H : Hash 32) (enc : Encoding) (byID : SortSlice lessID) (leases : List Lease) :
    ∃ root, buildMerkleTree H enc byID leases = some root ∧
      root.Shows H enc (leaseTree enc byID leases) := by
  obtain ⟨k, len⟩ := length_leaseLeaves enc byID leases
  obtain ⟨root, t, built, tree, shows⟩ :=
    reduceLevels_related (f := parentNode H) .parent (leaseNodes_shows H enc byID leases) len
  have et : leaseTree enc byID leases = t := by rw [leaseTree, tree, Option.getD_some]
  refine ⟨root, ?_, et ▸ shows⟩
  rw [buildMerkleTree_eq, buildMerkleTreeFromLeaves, built]

/-- The data in the tree are the canonical forms of the leases. -/
lemma leaves_leaseTree (byID : SortSlice lessID) (leases : List Lease) :
    (leaseTree enc byID leases).leaves = (byID.sort leases).map (canonicalLease enc) := by
  obtain ⟨k, len⟩ := length_leaseLeaves enc byID leases
  obtain ⟨t, tree⟩ := reduceLevels_pow (f := HashTree.node) len Nat.lt_two_pow_self
  have leaves : t.leaves = (leaseLeaves enc byID leases).flatMap HashTree.leaves :=
    flatMap_reduceLevels (fun _ _ => rfl) tree
  rw [leaseTree, len, tree, Option.getD_some, leaves, leaseLeaves, List.flatMap_append,
    List.flatMap_replicate, List.flatMap_map]
  simp [HashTree.leaves, List.map_eq_flatMap]

lemma mem_leaves_leaseTree {byID : SortSlice lessID} {leases : List Lease} {d : Bytes} :
    d ∈ (leaseTree enc byID leases).leaves ↔ ∃ lease ∈ leases, canonicalLease enc lease = d := by
  rw [leaves_leaseTree, List.mem_map]
  simp only [(byID.perm leases).mem_iff]

/-! ## Completeness -/

/-- The path that the search finds is a path of the tree. -/
lemma findMerkleProof_opening (shows : node.Shows H enc t)
    {path : List Bytes} (found : findMerkleProof node h = some path) : Opening H t h path := by
  induction shows generalizing path with
  | @leaf lease =>
    rw [leafNode, findMerkleProof, if_pos rfl] at found
    split at found
    case isTrue e =>
      cases found
      exact e ▸ .data
    case isFalse => cases found
  | pad =>
    rw [padNode, findMerkleProof, if_pos rfl] at found
    split at found
    case isTrue e =>
      cases found
      exact e ▸ .pad
    case isFalse => cases found
  | parent showsL showsR ihl ihr =>
    rw [parentNode, findMerkleProof, if_neg Bool.false_ne_true] at found
    split at found
    case h_1 leftProof el =>
      cases found
      rw [showsR.siblingHash]
      exact .left (ihl el)
    case h_2 =>
      split at found
      case h_1 rightProof er =>
        cases found
        rw [showsL.siblingHash]
        exact .right (ihr er)
      case h_2 => cases found

/-- The search finds a path for the hash of every leaf's data. -/
lemma findMerkleProof_isSome (shows : node.Shows H enc t) {d : Bytes}
    (mem : d ∈ t.leaves) : ∃ path, findMerkleProof node (H.sum d) = some path := by
  induction shows with
  | leaf =>
    cases List.mem_singleton.mp mem
    exact ⟨[], by rw [leafNode, findMerkleProof, if_pos rfl, getLeaseHash, if_pos rfl]⟩
  | pad => cases mem
  | @parent left right l r _ _ ihl ihr =>
    rw [parentNode, findMerkleProof, if_neg Bool.false_ne_true]
    cases el : findMerkleProof left (H.sum d) with
    | some leftProof => exact ⟨_, rfl⟩
    | none =>
      -- the data is not in the left tree, where the search would have found it
      cases List.mem_append.mp mem with
      | inl meml =>
        obtain ⟨path, found⟩ := ihl meml
        rw [el] at found
        cases found
      | inr memr =>
        obtain ⟨path, found⟩ := ihr memr
        exact ⟨_, by rw [found]⟩

lemma verifyLoop_eq {h h' : Bytes} (e : verifyLoop H proof h = some h') :
    h' = climb H h proof := by
  induction proof generalizing h with
  | nil =>
    cases e
    rfl
  | cons sibling proof ih =>
    rw [verifyLoop] at e
    split at e
    case isTrue => cases e
    case isFalse =>
      rw [ite_lt_eq_sortedPair] at e
      exact ih e

lemma verifyLoop_of_nonempty (ne : ∀ s ∈ proof, s.length ≠ 0) :
    verifyLoop H proof h = some (climb H h proof) := by
  induction proof generalizing h with
  | nil => rfl
  | cons sibling proof ih =>
    rw [verifyLoop, if_neg (ne sibling List.mem_cons_self), ite_lt_eq_sortedPair]
    exact ih fun s mem => ne s (List.mem_cons_of_mem _ mem)

/-- `VerifyMerkleProof` accepts nonempty siblings that lead to a nonempty root. -/
lemma verifyMerkleProof_of_climb {h root : Bytes} (hh : h.length ≠ 0)
    (hr : root.length ≠ 0) (ne : ∀ s ∈ proof, s.length ≠ 0) (e : climb H h proof = root) :
    verifyMerkleProof H h root proof = true := by
  rw [verifyMerkleProof, if_neg (not_or.mpr ⟨hh, hr⟩), verifyLoop_of_nonempty ne, e]
  exact beq_self_eq_true root

/-- `VerifyMerkleProof` accepts only siblings that lead to the root. -/
lemma climb_of_verifyMerkleProof {h root : Bytes}
    (ok : verifyMerkleProof H h root proof = true) : climb H h proof = root := by
  rw [verifyMerkleProof] at ok
  split at ok
  case isTrue => cases ok
  case isFalse =>
    split at ok
    case h_1 => cases ok
    case h_2 h' e => rw [← verifyLoop_eq e, eq_of_beq ok]

/-- Completeness: for every lease of the list the search finds a path, and the path verifies. -/
theorem merkle_completeness (H : Hash 32) (enc : Encoding) (byID : SortSlice lessID)
    {leases : List Lease} {lease : Lease} (mem : lease ∈ leases) :
    ∃ root path, buildMerkleTree H enc byID leases = some root ∧
      findMerkleProof root (getLeaseHash H enc (some lease)) = some path ∧
      verifyMerkleProof H (getLeaseHash H enc (some lease)) root.hash path = true := by
  obtain ⟨root, built, shows⟩ := buildMerkleTree_shows H enc byID leases
  have leaf : canonicalLease enc lease ∈ (leaseTree enc byID leases).leaves :=
    mem_leaves_leaseTree.mpr ⟨lease, mem, rfl⟩
  obtain ⟨path, found⟩ := findMerkleProof_isSome shows leaf
  have opening := findMerkleProof_opening shows found
  refine ⟨root, path, built, found, verifyMerkleProof_of_climb ?_ ?_ ?_ ?_⟩
  · rw [getLeaseHash, H.length_sum]
    exact Nat.succ_ne_zero 31
  · rw [shows.hash, HashTree.length_root]
    exact Nat.succ_ne_zero 31
  · intro s hs
    rw [opening.length_sibling s hs]
    exact Nat.succ_ne_zero 31
  · rw [shows.hash]
    exact opening.climb

def sortByID : SortSlice lessID :=
  .byBytes Lease.id fun _ _ => List.not_lt.mpr

def leaseA : Lease where
  id := ascii "a"
  wavelength := none
  endpointID := ascii "ep"
  operatorID := ascii "op"
  status := .active
  startTime := 0
  endTime := 10
  createdAt := 0
  updatedAt := 0
  tokenHash := []

def leaseB : Lease :=
  { leaseA with id := ascii "b" }

/-- Three leaves, one of them twice, need one padding leaf. -/
theorem merkle_completeness_threeLeases :
    ∃ root path, buildMerkleTree (.positional 32) .plain sortByID [leaseB, leaseA, leaseB]
        = some root ∧
      findMerkleProof root (getLeaseHash (.positional 32) .plain (some leaseB)) = some path ∧
      verifyMerkleProof (.positional 32) (getLeaseHash (.positional 32) .plain (some leaseB))
        root.hash path = true :=
  merkle_completeness _ _ _ (by decide)

/-! ## Soundness -/

/-- What a proof about `lease` that verifies against the tree over `leases` gives. -/
def merkleEvidence (H : Hash 32) (enc : Encoding) (byID : SortSlice lessID) (leases : List Lease)
    (lease : Lease) (proof : List Bytes) : Evidence :=
  extract H (canonicalLease enc lease) (leaseTree enc byID leases) proof.reverse

/-- The keys of the canonical form alone are longer than two digests. -/
lemma length_canonicalLease (enc : Encoding) (lease : Lease) :
    2 * 32 < (canonicalLease enc lease).length := by
  unfold canonicalLease jsonObject jsonField
  simp [List.intercalate, ascii]
  omega

/-- Soundness: if a proof about `lease` verifies against the root over `leases`, then a listed lease has
    the same canonical form, or `merkleEvidence` is a collision of the hash, an input that hashes to
    zero, or an input that hashes to the first or last 32 bytes of a listed lease's canonical form. -/
theorem merkle_soundness (H : Hash 32) (enc : Encoding) (byID : SortSlice lessID)
    {leases : List Lease} {lease : Lease} {proof : List Bytes} {root : MerkleNode}
    (built : buildMerkleTree H enc byID leases = some root)
    (ok : verifyMerkleProof H (getLeaseHash H enc (some lease)) root.hash proof = true) :
    (∃ l ∈ leases, canonicalLease enc l = canonicalLease enc lease) ∨
      (merkleEvidence H enc byID leases lease proof).Breaks H (leases.map (canonicalLease enc)) := by
  obtain ⟨root', built', shows⟩ := buildMerkleTree_shows H enc byID leases
  cases built.symm.trans built'
  have reached : H.sum (climbInput H (canonicalLease enc lease) proof.reverse)
      = (leaseTree enc byID leases).root H := by
    rw [sum_climbInput, List.reverse_reverse, ← shows.hash]
    exact climb_of_verifyMerkleProof ok
  have sub : (leaseTree enc byID leases).leaves ⊆ leases.map (canonicalLease enc) :=
    fun _ mem => List.mem_map.mpr (mem_leaves_leaseTree.mp mem)
  exact (extract_sound (length_canonicalLease enc lease) reached).imp mem_leaves_leaseTree.mp
    (.mono sub)

/-- The tree over two leases and the proof that is the hash of the second. -/
theorem merkle_soundness_twoLeases :
    (∃ l ∈ [leaseA, leaseB], canonicalLease .plain l = canonicalLease .plain leaseA) ∨
      (merkleEvidence (.positional 32) .plain sortByID [leaseA, leaseB] leaseA
        [getLeaseHash (.positional 32) .plain (some leaseB)]).Breaks (.positional 32)
          ([leaseA, leaseB].map (canonicalLease .plain)) :=
  merkle_soundness (.positional 32) .plain sortByID
    (Option.some_get (x := buildMerkleTree (.positional 32) .plain sortByID [leaseA, leaseB])
      (by decide +kernel)).symm
    (by decide +kernel)

end Otap.Flr
