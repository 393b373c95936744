import Otap.Flr.Crypto

/-!
# The schema Merkle tree

Embeds `GetSchemaHash` and `BuildSchemaMerkleTree` of `flr/internal/crypto/schema.go`. The builder sorts by
ID and pads as the one of the lease tree does, but it joins the two hashes under a node as they stand,
where `VerifyMerkleProof` joins them in lexicographic order.

`MerkleNode.ShowsSchema` relates the nodes that are built to a `HashTree`, and the path that
`findMerkleProof` finds to `HashTree.path`. So `schema_inclusion_iff` is `HashTree.InOrder.climb` and
`HashTree.inOrder_of_climb` for the tree over the schemas: a schema's path verifies where all pairs above
its leaf happen to be in order, and, short of a collision, nowhere else.
-/

namespace Otap.Flr

open Otap.Lib Otap.Lib.Merkle

variable (P : Platform)

/-! ## The code -/

/-- `GetSchemaHash`. -/
def getSchemaHash : Option ApplicationSchema → Bytes
  | none => zeroHash
  | some s =>
    match canonicalSchemaBytes P s with
    | .error _ => zeroHash
    | .ok data => P.sha3.sum data

/-- The comparison of `BuildSchemaMerkleTree`'s sort. -/
def lessSchemaID (a b : ApplicationSchema) : Prop :=
  a.id < b.id

def schemaLeafNode (s : ApplicationSchema) : MerkleNode :=
  .node (getSchemaHash P (some s)) .nil .nil [] true

/-- The parent of two nodes in `BuildSchemaMerkleTree`. -/
def schemaParentNode (left right : MerkleNode) : MerkleNode :=
  .node (P.sha3.sum (left.hash ++ right.hash)) left right [] false

/-- `BuildSchemaMerkleTree`. Its loop has no more levels than nodes; an odd level, which the source answers
    with an index out of range, is `none`. -/
def buildSchemaMerkleTree (byID : SortSlice lessSchemaID) (schemas : List ApplicationSchema) :
    Option MerkleNode :=
  if schemas.length = 0 then some padNode
  else
    let leaves := (byID.sort schemas).map (schemaLeafNode P)
    let n := targetCount leaves.length leaves.length 1
    let level := leaves ++ List.replicate (n - leaves.length) padNode
    reduceLevels (schemaParentNode P) level.length level

/-! ## The tree that is built -/

/-- The leaf of a schema. One without a layout has no canonical form, and its leaf is like padding. -/
def schemaLeaf (s : ApplicationSchema) : HashTree :=
  match canonicalSchemaBytes P s with
  | .error _ => .pad
  | .ok data => .data data

/-- The leaves of the tree over `schemas`: sorted by ID, and padded to a power of two. -/
def schemaLeaves (byID : SortSlice lessSchemaID) (schemas : List ApplicationSchema) : List HashTree :=
  (byID.sort schemas).map (schemaLeaf P) ++
    List.replicate (targetCount schemas.length schemas.length 1 - schemas.length) .pad

/-- The tree over `schemas`. -/
def schemaTree (byID : SortSlice lessSchemaID) (schemas : List ApplicationSchema) : HashTree :=
  (reduceLevels .node (schemaLeaves P byID schemas).length (schemaLeaves P byID schemas)).getD .pad

/-- A node of the code and the tree it is the root of. -/
inductive MerkleNode.ShowsSchema : MerkleNode → HashTree → Prop where
  | data {d} : ShowsSchema (.node (P.sha3.sum d) .nil .nil [] true) (.data d)
  | pad : ShowsSchema padNode .pad
  | parent {left right l r} : ShowsSchema left l → ShowsSchema right r →
      ShowsSchema (schemaParentNode P left right) (.node l r)

variable {P}

lemma MerkleNode.ShowsSchema.hash {node : MerkleNode} {t : HashTree} (shows : node.ShowsSchema P t) :
    node.hash = t.plainRoot P.sha3 := by
  induction shows with
  | data => rfl
  | pad => rfl
  | parent _ _ ihl ihr => rw [schemaParentNode, MerkleNode.hash, ihl, ihr, HashTree.plainRoot]

lemma MerkleNode.ShowsSchema.siblingHash {node : MerkleNode} {t : HashTree}
    (shows : node.ShowsSchema P t) : Flr.siblingHash node = t.plainRoot P.sha3 := by
  rw [← shows.hash]
  cases shows with
  | data => rfl
  | pad => rfl
  | parent => rfl

lemma schemaLeafNode_shows (s : ApplicationSchema) : (schemaLeafNode P s).ShowsSchema P (schemaLeaf P s) := by
  rw [schemaLeafNode, schemaLeaf, getSchemaHash]
  cases canonicalSchemaBytes P s with
  | error _ => exact .pad
  | ok data => exact .data

lemma getSchemaHash_mem (s : ApplicationSchema) :
    getSchemaHash P (some s) ∈ (schemaLeaf P s).digests P.sha3 := by
  rw [schemaLeaf, getSchemaHash]
  cases canonicalSchemaBytes P s with
  | error _ => exact List.mem_singleton_self zeroHash
  | ok data => exact List.mem_singleton_self (P.sha3.sum data)

/-- The padded leaf nodes of `BuildSchemaMerkleTree`. -/
def schemaNodes (P : Platform) (byID : SortSlice lessSchemaID) (schemas : List ApplicationSchema) :
    List MerkleNode :=
  (byID.sort schemas).map (schemaLeafNode P) ++
    List.replicate (targetCount schemas.length schemas.length 1 - schemas.length) padNode

/-- The special case of an empty list builds what the general case would. -/
lemma buildSchemaMerkleTree_eq (byID : SortSlice lessSchemaID) (schemas : List ApplicationSchema) :
    buildSchemaMerkleTree P byID schemas
      = reduceLevels (schemaParentNode P) (schemaNodes P byID schemas).length
          (schemaNodes P byID schemas) := by
  unfold buildSchemaMerkleTree
  split
  case isTrue empty =>
    obtain rfl := List.length_eq_zero_iff.mp empty
    have nil : byID.sort [] = [] := (byID.perm []).eq_nil
    rw [schemaNodes, nil]
    rfl
  case isFalse =>
    simp only [byID.length_map_sort, schemaNodes]

lemma schemaNodes_shows (P : Platform) (byID : SortSlice lessSchemaID) (schemas : List ApplicationSchema) :
    List.Forall₂ (MerkleNode.ShowsSchema P) (schemaNodes P byID schemas) (schemaLeaves P byID schemas) :=
  forall₂_padded schemaLeafNode_shows .pad _ _

/-- `BuildSchemaMerkleTree` always returns a tree, and it is the tree over the schemas. -/
lemma buildSchemaMerkleTree_shows (P : Platform) (byID : SortSlice lessSchemaID)
    (schemas : List ApplicationSchema) :
    ∃ root, buildSchemaMerkleTree P byID schemas = some root ∧
      root.ShowsSchema P (schemaTree P byID schemas) ∧
      (schemaTree P byID schemas).digests P.sha3
        = (schemaLeaves P byID schemas).flatMap (HashTree.digests P.sha3) := by
  have padded : ∃ k, (schemaLeaves P byID schemas).length = 2 ^ k := by
    rw [schemaLeaves]
    exact length_padded (byID.length_map_sort _ schemas) _
  obtain ⟨k, len⟩ := padded
  obtain ⟨root, t, built, tree, shows⟩ :=
    reduceLevels_related (f := schemaParentNode P) .parent (schemaNodes_shows P byID schemas) len
  have et : schemaTree P byID schemas = t := by rw [schemaTree, tree, Option.getD_some]
  refine ⟨root, ?_, et ▸ shows, et ▸ flatMap_reduceLevels (fun _ _ => rfl) tree⟩
  rw [buildSchemaMerkleTree_eq, built]

lemma getSchemaHash_mem_schemaTree {byID : SortSlice lessSchemaID} {schemas : List ApplicationSchema}
    {s : ApplicationSchema} (mem : s ∈ schemas) :
    getSchemaHash P (some s) ∈ (schemaTree P byID schemas).digests P.sha3 := by
  obtain ⟨_, -, -, digests⟩ := buildSchemaMerkleTree_shows P byID schemas
  rw [digests, List.mem_flatMap]
  have sorted : s ∈ byID.sort schemas := (byID.perm schemas).mem_iff.mpr mem
  exact ⟨schemaLeaf P s, List.mem_append_left _ (List.mem_map_of_mem sorted), getSchemaHash_mem s⟩

/-! ## Inclusion proofs -/

lemma findMerkleProof_leaf (hash h leaseID : Bytes) :
    findMerkleProof (.node hash .nil .nil leaseID true) h = if h ∈ [hash] then some [] else none := by
  rw [findMerkleProof, if_pos rfl]
  simp only [List.mem_singleton, eq_comm]

/-- The search finds the path of the first leaf with the hash. -/
lemma findMerkleProof_schema {node : MerkleNode} {t : HashTree} (shows : node.ShowsSchema P t) (h : Bytes) :
    findMerkleProof node h = if h ∈ t.digests P.sha3 then some (t.path P.sha3 h) else none := by
  induction shows with
  | data => exact findMerkleProof_leaf ..
  | pad => exact findMerkleProof_leaf ..
  | @parent left right l r showsL showsR ihl ihr =>
    rw [schemaParentNode, findMerkleProof, if_neg Bool.false_ne_true, ihl, ihr, showsL.siblingHash,
      showsR.siblingHash, HashTree.digests, HashTree.path]
    by_cases meml : h ∈ l.digests P.sha3
    · simp only [if_pos meml, if_pos (List.mem_append_left _ meml)]
    · by_cases memr : h ∈ r.digests P.sha3
      · simp only [if_neg meml, if_pos memr, if_pos (List.mem_append_right _ memr)]
      · have mem : h ∉ l.digests P.sha3 ++ r.digests P.sha3 :=
          fun mem => (List.mem_append.mp mem).elim meml memr
        simp only [if_neg meml, if_neg memr, if_neg mem]

/-- The path found for the hash of `s` verifies against the root. -/
def SchemaIncluded (P : Platform) (root : MerkleNode) (s : ApplicationSchema) : Prop :=
  ∃ path, findMerkleProof root (getSchemaHash P (some s)) = some path ∧
    verifyMerkleProof P.sha3 (getSchemaHash P (some s)) root.hash path = true

/-- For a leaf of the tree, inclusion is that its path leads to the root. -/
lemma schemaIncluded_iff {root : MerkleNode} {t : HashTree} (shows : root.ShowsSchema P t)
    {s : ApplicationSchema} (mem : getSchemaHash P (some s) ∈ t.digests P.sha3) :
    SchemaIncluded P root s ↔
      climb P.sha3 (getSchemaHash P (some s)) (t.path P.sha3 (getSchemaHash P (some s)))
        = t.plainRoot P.sha3 := by
  have found : findMerkleProof root (getSchemaHash P (some s))
      = some (t.path P.sha3 (getSchemaHash P (some s))) := by
    rw [findMerkleProof_schema shows, if_pos mem]
  constructor
  · rintro ⟨path, found', ok⟩
    cases found.symm.trans found'
    rw [← shows.hash]
    exact climb_of_verifyMerkleProof ok
  · intro reached
    refine ⟨_, found, verifyMerkleProof_of_climb ?_ ?_ ?_ ?_⟩
    · rw [HashTree.length_digest mem]
      exact Nat.succ_ne_zero 31
    · rw [shows.hash, HashTree.length_plainRoot]
      exact Nat.succ_ne_zero 31
    · intro sibling hs
      rw [HashTree.length_path sibling hs]
      exact Nat.succ_ne_zero 31
    · rw [shows.hash]
      exact reached

/-- A schema's path verifies if, from its leaf to the root, the two hashes under every node are in
    lexicographic order; and only then, as long as no two strings hashed at the nodes of the tree or on
    the way up collide. -/
theorem schema_inclusion_iff (P : Platform) (byID : SortSlice lessSchemaID)
    (schemas : List ApplicationSchema) :
    ∃ root, buildSchemaMerkleTree P byID schemas = some root ∧
      ∀ s ∈ schemas,
        ((schemaTree P byID schemas).InOrder P.sha3 (getSchemaHash P (some s)) →
          SchemaIncluded P root s) ∧
        (P.sha3.CollisionFree ((schemaTree P byID schemas).hashed P.sha3 (getSchemaHash P (some s))) →
          (SchemaIncluded P root s ↔
            (schemaTree P byID schemas).InOrder P.sha3 (getSchemaHash P (some s)))) := by
  obtain ⟨root, built, shows, -⟩ := buildSchemaMerkleTree_shows P byID schemas
  refine ⟨root, built, fun s listed => ?_⟩
  have mem : getSchemaHash P (some s) ∈ (schemaTree P byID schemas).digests P.sha3 :=
    getSchemaHash_mem_schemaTree listed
  rw [schemaIncluded_iff shows mem]
  exact ⟨HashTree.InOrder.climb mem, fun free =>
    ⟨HashTree.inOrder_of_climb mem free, HashTree.InOrder.climb mem⟩⟩

def sortBySchemaID : SortSlice lessSchemaID :=
  .byBytes ApplicationSchema.id fun _ _ => List.not_lt.mpr

def heartbeatSchema (id : Bytes) : ApplicationSchema where
  id := id
  oamMode := 3
  payloadBytes := 32
  name := ascii "Heartbeat"
  version := 1
  layout := some [⟨ascii "beat", 0, 32, 1⟩]
  operatorID := ascii "op"
  createdAt := 0

/-- Three schemas. The third is paired with a padding leaf, whose hash is below every other one. -/
theorem not_schema_inclusion :
    ∃ root path,
      buildSchemaMerkleTree .plain sortBySchemaID
          [heartbeatSchema (ascii "a"), heartbeatSchema (ascii "b"), heartbeatSchema (ascii "c")]
        = some root ∧
      findMerkleProof root (getSchemaHash .plain (some (heartbeatSchema (ascii "c")))) = some path ∧
      verifyMerkleProof Platform.plain.sha3 (getSchemaHash .plain (some (heartbeatSchema (ascii "c"))))
        root.hash path = false := by
  refine ⟨_, _, (Option.some_get (x := buildSchemaMerkleTree .plain sortBySchemaID
      [heartbeatSchema (ascii "a"), heartbeatSchema (ascii "b"), heartbeatSchema (ascii "c")])
      (by decide +kernel)).symm, (Option.some_get (x := findMerkleProof _ _) (by decide +kernel)).symm, ?_⟩
  decide +kernel

end Otap.Flr
