import Otap.Lib.GoSlice
import Otap.Flr.SchemaCanonical
import Otap.Flr.SchemaMerkle

/-!
# Merkle roots and the order of the input

`BuildMerkleTree` and `BuildSchemaMerkleTree` as they work on memory: the input is a slice, both sort a copy of it by
ID, and `canonicalSchemaBytes` sorts a copy of the fields of each layout. The pointers in the slices are never nil
here, and nothing is written through them.

`buildMerkleTreeIn_eq` and `buildSchemaMerkleTreeIn_eq` connect this to the builders on lists. The sorts are any that
`sort.Slice` may do; where IDs and offsets are distinct, they leave one order only, so that the roots do not depend on
the order of the input (`merkleRoots_order_independent`).
-/

namespace Otap.Flr

open Otap.Lib Otap.Lib.Merkle

/-! ## Leases -/

/-- `BuildMerkleTree` on a slice. -/
def buildMerkleTreeIn (H : Hash 32) (enc : Encoding) (byID : SortSlice lessID) (heap : Heap Lease) (leases : Slice) :
    Heap Lease × Option MerkleNode :=
  if leases.len = 0 then (heap, some padNode)
  else
    let (heap, sorted) := leases.clone heap
    let heap := sorted.sortIn byID.sort heap
    let leaves := (sorted.elements heap).map (leafNode H enc)
    let target := targetCount leaves.length leaves.length 1
    (heap, buildMerkleTreeFromLeaves H (leaves ++ List.replicate (target - leaves.length) padNode))

lemma length_sort {α : Type} {less : α → α → Prop} (s : SortSlice less) (l : List α) : (s.sort l).length = l.length :=
  (s.perm l).length_eq

/-- The tree is that of the leases in the slice, and memory has only grown. -/
lemma buildMerkleTreeIn_eq (H : Hash 32) (enc : Encoding) (byID : SortSlice lessID) {heap : Heap Lease}
    {leases : Slice} (valid : leases.InBounds heap) :
    ∃ arrays, buildMerkleTreeIn H enc byID heap leases =
      (heap ++ arrays, buildMerkleTree H enc byID (leases.elements heap)) := by
  have len := Slice.length_elements valid
  unfold buildMerkleTreeIn buildMerkleTree
  split
  case isTrue empty =>
    rw [if_pos (len.trans empty)]
    exact ⟨[], by rw [List.append_nil]⟩
  case isFalse some =>
    obtain ⟨sorted, shown⟩ := Slice.sortIn_clone valid (length_sort byID)
    rw [if_neg (by rwa [len])]
    simp only [sorted, shown]
    exact ⟨_, rfl⟩

/-- The sorted leases, whichever way they were listed. -/
lemma sort_leases_eq (byID byID' : SortSlice lessID) {leases leases' : List Lease} (perm : leases'.Perm leases)
    (distinct : (leases.map fun lease => lease.id).Nodup) : byID.sort leases = byID'.sort leases' := by
  have connex : ∀ x ∈ leases.map id, ∀ y ∈ leases.map id, ¬ lessID x y → ¬ lessID y x → x = y := by
    intro x hx y hy notLt notGt
    rw [List.map_id] at hx hy
    exact List.inj_on_of_nodup_map distinct hx hy (List.le_antisymm (List.not_lt.mp notGt) (List.not_lt.mp notLt))
  have sorted : (byID.sort leases).map id = byID'.sort leases' :=
    byID.map_sort byID' (fun _ _ lt => lt) (by rw [List.map_id']; exact perm.symm) connex
  rwa [List.map_id] at sorted

lemma buildMerkleTree_perm (H : Hash 32) (enc : Encoding) (byID byID' : SortSlice lessID)
    {leases leases' : List Lease} (perm : leases'.Perm leases)
    (distinct : (leases.map fun lease => lease.id).Nodup) :
    buildMerkleTree H enc byID leases = buildMerkleTree H enc byID' leases' := by
  rw [buildMerkleTree_eq, buildMerkleTree_eq, leaseNodes, leaseNodes, sort_leases_eq byID byID' perm distinct,
    perm.length_eq]

/-! ## Schemas -/

/-- The record that a pointer to a schema shows. -/
def ModelSchema.read (heap : Heap FieldDef) (s : ModelSchema Slice) : ModelSchema (List FieldDef) where
  id := s.id
  oamMode := s.oamMode
  payloadBytes := s.payloadBytes
  name := s.name
  version := s.version
  layout := s.layout.map (Slice.elements heap)
  operatorID := s.operatorID
  status := s.status
  createdAt := s.createdAt
  updatedAt := s.updatedAt
  signature := s.signature

/-- The arrays of schemas, and those of the fields of their layouts. -/
structure SchemaMemory where
  schemas : Heap (ModelSchema Slice)
  fields : Heap FieldDef

namespace SchemaMemory

/-- The schemas that a slice shows. -/
def read (mem : SchemaMemory) (schemas : Slice) : List (ModelSchema (List FieldDef)) :=
  (schemas.elements mem.schemas).map (ModelSchema.read mem.fields)

/-- The slice and the layouts of its schemas lie in memory. -/
structure InBounds (mem : SchemaMemory) (schemas : Slice) : Prop where
  slice : schemas.InBounds mem.schemas
  layouts : ∀ s ∈ schemas.elements mem.schemas, ∀ fields ∈ s.layout, fields.InBounds mem.fields

end SchemaMemory

/-- The comparison of `BuildSchemaMerkleTree`'s sort. -/
def lessModelID (a b : ModelSchema Slice) : Prop :=
  a.id < b.id

section Build

variable (P : Platform) (byID : SortSlice lessModelID) (byOffset : SortSlice lessFieldOffset)

/-- `canonicalSchemaBytes` of a schema that is not nil. -/
def canonicalSchemaBytesIn (heap : Heap FieldDef) (s : ModelSchema Slice) : Heap FieldDef × Result Bytes :=
  match s.layout with
  | none => (heap, .error (ascii "schema layout is nil"))
  | some fields =>
    let (heap, sorted) := fields.clone heap
    let heap := sorted.sortIn byOffset.sort heap
    (heap, .ok ((s.canonicalFields P (sorted.elements heap)).marshal P.enc))

/-- `GetSchemaHash` of a schema that is not nil. -/
def getSchemaHashIn (heap : Heap FieldDef) (s : ModelSchema Slice) : Heap FieldDef × Bytes :=
  match canonicalSchemaBytesIn P byOffset heap s with
  | (heap, .error _) => (heap, zeroHash)
  | (heap, .ok data) => (heap, P.sha3.sum data)

/-- The loop that makes the leaves. -/
def schemaLeavesIn : Heap FieldDef → List (ModelSchema Slice) → Heap FieldDef × List MerkleNode
  | heap, [] => (heap, [])
  | heap, s :: schemas =>
    let (heap, hash) := getSchemaHashIn P byOffset heap s
    let (heap, leaves) := schemaLeavesIn heap schemas
    (heap, .node hash .nil .nil [] true :: leaves)

/-- `BuildSchemaMerkleTree` on a slice. -/
def buildSchemaMerkleTreeIn (mem : SchemaMemory) (schemas : Slice) : SchemaMemory × Option MerkleNode :=
  if schemas.len = 0 then (mem, some padNode)
  else
    let (heap, sorted) := schemas.clone mem.schemas
    let heap := sorted.sortIn byID.sort heap
    let (fields, leaves) := schemaLeavesIn P byOffset mem.fields (sorted.elements heap)
    let n := targetCount leaves.length leaves.length 1
    let level := leaves ++ List.replicate (n - leaves.length) padNode
    (⟨heap, fields⟩, reduceLevels (schemaParentNode P) level.length level)

lemma ModelSchema.read_append {heap : Heap FieldDef} {s : ModelSchema Slice}
    (valid : ∀ fields ∈ s.layout, fields.InBounds heap) (arrays : Heap FieldDef) :
    s.read (heap ++ arrays) = s.read heap := by
  have layouts : s.layout.map (Slice.elements (heap ++ arrays)) = s.layout.map (Slice.elements heap) :=
    Option.map_congr fun fields mem => Slice.elements_append (valid fields mem) arrays
  rw [read, read, layouts]

lemma canonicalSchemaBytesIn_eq {heap : Heap FieldDef} {s : ModelSchema Slice}
    (valid : ∀ fields ∈ s.layout, fields.InBounds heap) :
    ∃ arrays, canonicalSchemaBytesIn P byOffset heap s =
      (heap ++ arrays, ModelSchema.canonicalSchemaBytes P byOffset (some (s.read heap))) := by
  rw [canonicalSchemaBytesIn, ModelSchema.canonicalSchemaBytes, ModelSchema.read]
  cases layout : s.layout with
  | none => exact ⟨[], by rw [List.append_nil]; rfl⟩
  | some fields =>
    obtain ⟨sorted, shown⟩ := Slice.sortIn_clone (valid fields layout) (length_sort byOffset)
    simp only [sorted, shown]
    exact ⟨_, rfl⟩

/-- The hash of a schema in memory is that of the signed part of its record. -/
lemma getSchemaHashIn_eq {heap : Heap FieldDef} {s : ModelSchema Slice}
    (valid : ∀ fields ∈ s.layout, fields.InBounds heap)
    (distinct : ∀ fields ∈ (s.read heap).layout, DistinctOffsets fields) :
    ∃ arrays, getSchemaHashIn P byOffset heap s =
      (heap ++ arrays, getSchemaHash P (some (s.read heap).toApplicationSchema)) := by
  obtain ⟨arrays, bytes⟩ := canonicalSchemaBytesIn_eq P byOffset valid
  rw [canonicalSchemaBytes_forget P byOffset _ distinct] at bytes
  refine ⟨arrays, ?_⟩
  rw [getSchemaHashIn, getSchemaHash, bytes]
  cases canonicalSchemaBytes P (s.read heap).toApplicationSchema with
  | error _ => rfl
  | ok _ => rfl

lemma schemaLeavesIn_eq {heap : Heap FieldDef} {schemas : List (ModelSchema Slice)}
    (valid : ∀ s ∈ schemas, ∀ fields ∈ s.layout, fields.InBounds heap)
    (distinct : ∀ s ∈ schemas, ∀ fields ∈ (s.read heap).layout, DistinctOffsets fields) :
    ∃ arrays, schemaLeavesIn P byOffset heap schemas =
      (heap ++ arrays, schemas.map fun s => schemaLeafNode P (s.read heap).toApplicationSchema) := by
  induction schemas generalizing heap with
  | nil => exact ⟨[], by rw [List.append_nil]; rfl⟩
  | cons s schemas ih =>
    obtain ⟨validS, validRest⟩ := List.forall_mem_cons.mp valid
    obtain ⟨distinctS, distinctRest⟩ := List.forall_mem_cons.mp distinct
    obtain ⟨arrays, first⟩ := getSchemaHashIn_eq P byOffset validS distinctS
    have kept (t : ModelSchema Slice) (mem : t ∈ schemas) : t.read (heap ++ arrays) = t.read heap :=
      t.read_append (validRest t mem) arrays
    -- the rest is read in the memory that the first copy has left
    obtain ⟨arrays', rest⟩ := @ih (heap ++ arrays)
      (fun t mem fields layout => (validRest t mem fields layout).append_heap arrays)
      (fun t mem => (kept t mem).symm ▸ distinctRest t mem)
    refine ⟨arrays ++ arrays', ?_⟩
    rw [schemaLeavesIn, first]
    have leaves : (schemas.map fun t => schemaLeafNode P (t.read (heap ++ arrays)).toApplicationSchema) =
        schemas.map fun t => schemaLeafNode P (t.read heap).toApplicationSchema :=
      List.map_congr_left fun t mem => by rw [kept t mem]
    simp only [rest, leaves, List.append_assoc, List.map_cons]
    rfl

/-- Schemas with different IDs are told apart by the comparison of IDs. -/
lemma schemaID_connex {schemas : List ApplicationSchema} (distinct : (schemas.map fun s => s.id).Nodup) :
    ∀ x ∈ schemas, ∀ y ∈ schemas, ¬ lessSchemaID x y → ¬ lessSchemaID y x → x = y := by
  intro x hx y hy notLt notGt
  exact List.inj_on_of_nodup_map distinct hx hy (List.le_antisymm (List.not_lt.mp notGt) (List.not_lt.mp notLt))

/-- The tree is that of the signed parts of the schemas in the slice, and memory has only grown. -/
lemma buildSchemaMerkleTreeIn_eq (onLists : SortSlice lessSchemaID) {mem : SchemaMemory} {schemas : Slice}
    (valid : mem.InBounds schemas) (ids : ((mem.read schemas).map fun s => s.id).Nodup)
    (offsets : ∀ s ∈ mem.read schemas, ∀ fields ∈ s.layout, DistinctOffsets fields) :
    ∃ arrays arrays', buildSchemaMerkleTreeIn P byID byOffset mem schemas =
      (⟨mem.schemas ++ arrays, mem.fields ++ arrays'⟩,
        buildSchemaMerkleTree P onLists ((mem.read schemas).map ModelSchema.toApplicationSchema)) := by
  have len : ((mem.read schemas).map ModelSchema.toApplicationSchema).length = schemas.len := by
    rw [List.length_map, SchemaMemory.read, List.length_map, Slice.length_elements valid.slice]
  unfold buildSchemaMerkleTreeIn buildSchemaMerkleTree
  rw [len]
  split
  case isTrue => exact ⟨[], [], by rw [List.append_nil, List.append_nil]⟩
  case isFalse =>
    have members {s : ModelSchema Slice} (mem' : s ∈ byID.sort (schemas.elements mem.schemas)) :
        s ∈ schemas.elements mem.schemas :=
      (byID.perm _).mem_iff.mp mem'
    obtain ⟨sorted, shown⟩ := Slice.sortIn_clone valid.slice (length_sort byID)
    obtain ⟨arrays, leaves⟩ := schemaLeavesIn_eq P byOffset
      (fun s mem' => valid.layouts s (members mem')) (fun s mem' => offsets _ (List.mem_map_of_mem (members mem')))
    have order : (byID.sort (schemas.elements mem.schemas)).map (fun s => (s.read mem.fields).toApplicationSchema) =
        onLists.sort ((mem.read schemas).map ModelSchema.toApplicationSchema) := by
      refine byID.map_sort onLists ?_ ?_ (schemaID_connex ?_)
      · exact fun _ _ lt => lt
      · rw [SchemaMemory.read, List.map_map]
        rfl
      · rw [SchemaMemory.read, List.map_map] at ids
        rwa [List.map_map]
    simp only [sorted, shown, leaves, ← order, List.map_map]
    exact ⟨_, _, rfl⟩

end Build

/-! ## The order of the input -/

/-- The same record with its fields listed in another order. -/
def ModelSchema.Reordered (s s' : ModelSchema (List FieldDef)) : Prop :=
  ∃ layout, Option.Rel List.Perm s.layout layout ∧ s' = { s with layout := layout }

/-- Some permutation of the schemas, in which the fields of each may be listed in another order. -/
def ReorderedSchemas (schemas schemas' : List (ModelSchema (List FieldDef))) : Prop :=
  ∃ between, List.Forall₂ ModelSchema.Reordered schemas between ∧ between.Perm schemas'

variable {P : Platform} {s s' : ModelSchema (List FieldDef)} {schemas schemas' : List (ModelSchema (List FieldDef))}

lemma ModelSchema.Reordered.canonicalSchemaBytes_eq {byOffset : SortSlice lessFieldOffset}
    (reordered : s.Reordered s') (distinct : ∀ fields ∈ s.layout, DistinctOffsets fields) :
    ModelSchema.canonicalSchemaBytes P byOffset (some s) = ModelSchema.canonicalSchemaBytes P byOffset (some s') := by
  obtain ⟨layout, perm, rfl⟩ := reordered
  cases s
  cases perm with
  | none => rfl
  | some perm =>
    simp only [ModelSchema.canonicalSchemaBytes, ModelSchema.canonicalFields]
    rw [sorted_fields_eq byOffset byOffset (distinct _ rfl) (perm.map _)]

lemma ModelSchema.Reordered.distinctOffsets (reordered : s.Reordered s')
    (distinct : ∀ fields ∈ s.layout, DistinctOffsets fields) : ∀ fields ∈ s'.layout, DistinctOffsets fields := by
  obtain ⟨layout, perm, rfl⟩ := reordered
  intro fields mem
  cases s
  cases perm with
  | none => cases mem
  | some perm =>
    cases mem
    exact (perm.map _).nodup_iff.mp (distinct _ rfl)

/-- The leaf of a schema does not depend on the order of its fields. -/
lemma ModelSchema.Reordered.leaf (reordered : s.Reordered s')
    (distinct : ∀ fields ∈ s.layout, DistinctOffsets fields) :
    schemaLeafNode P s.toApplicationSchema = schemaLeafNode P s'.toApplicationSchema := by
  have bytes : Flr.canonicalSchemaBytes P s.toApplicationSchema =
      Flr.canonicalSchemaBytes P s'.toApplicationSchema := by
    rw [← canonicalSchemaBytes_forget P sortByFieldOffset s distinct,
      ← canonicalSchemaBytes_forget P sortByFieldOffset s' (reordered.distinctOffsets distinct),
      reordered.canonicalSchemaBytes_eq distinct]
  rw [schemaLeafNode, schemaLeafNode, getSchemaHash, getSchemaHash, bytes]

lemma ModelSchema.Reordered.id_eq (reordered : s.Reordered s') : s.id = s'.id := by
  obtain ⟨layout, -, rfl⟩ := reordered
  rfl

/-- The leaves with their IDs, in whichever order the schemas are listed. -/
lemma ReorderedSchemas.leaves (reordered : ReorderedSchemas schemas schemas')
    (offsets : ∀ s ∈ schemas, ∀ fields ∈ s.layout, DistinctOffsets fields) :
    (schemas.map fun s => (s.id, schemaLeafNode P s.toApplicationSchema)).Perm
      (schemas'.map fun s => (s.id, schemaLeafNode P s.toApplicationSchema)) := by
  obtain ⟨between, each, perm⟩ := reordered
  have same : (schemas.map fun s => (s.id, schemaLeafNode P s.toApplicationSchema)) =
      between.map fun s => (s.id, schemaLeafNode P s.toApplicationSchema) := by
    clear perm
    induction each with
    | nil => rfl
    | cons first _ ih =>
      obtain ⟨here, rest⟩ := List.forall_mem_cons.mp offsets
      rw [List.map_cons, List.map_cons, ih rest, first.id_eq, first.leaf here]
  rw [same]
  exact perm.map _

lemma ReorderedSchemas.ids
    (reordered : ReorderedSchemas schemas schemas') (ids : (schemas.map fun s => s.id).Nodup) :
    (schemas'.map fun s => s.id).Nodup := by
  obtain ⟨between, each, perm⟩ := reordered
  have same : (schemas.map fun s => s.id) = between.map fun s => s.id := by
    clear perm ids
    induction each with
    | nil => rfl
    | cons first _ ih => rw [List.map_cons, List.map_cons, ih, first.id_eq]
  exact (perm.map _).nodup_iff.mp (same ▸ ids)

lemma ReorderedSchemas.offsets (reordered : ReorderedSchemas schemas schemas')
    (offsets : ∀ s ∈ schemas, ∀ fields ∈ s.layout, DistinctOffsets fields) :
    ∀ s ∈ schemas', ∀ fields ∈ s.layout, DistinctOffsets fields := by
  obtain ⟨between, each, perm⟩ := reordered
  have kept : ∀ s ∈ between, ∀ fields ∈ s.layout, DistinctOffsets fields := by
    clear perm
    induction each with
    | nil => exact fun s mem => absurd mem List.not_mem_nil
    | cons first _ ih =>
      obtain ⟨here, rest⟩ := List.forall_mem_cons.mp offsets
      exact List.forall_mem_cons.mpr ⟨first.distinctOffsets here, ih rest⟩
  exact fun s mem => kept s (perm.mem_iff.mpr mem)

lemma SchemaMemory.read_append {mem : SchemaMemory} {schemas : Slice} (valid : mem.InBounds schemas)
    (arrays : Heap (ModelSchema Slice)) (arrays' : Heap FieldDef) :
    SchemaMemory.read ⟨mem.schemas ++ arrays, mem.fields ++ arrays'⟩ schemas = mem.read schemas := by
  rw [read, Slice.elements_append valid.slice, read]
  exact List.map_congr_left fun s listed => s.read_append (valid.layouts s listed) arrays'

lemma buildSchemaMerkleTree_reordered (P : Platform) (byID : SortSlice lessSchemaID)
    (reordered : ReorderedSchemas schemas schemas') (ids : (schemas.map fun s => s.id).Nodup)
    (offsets : ∀ s ∈ schemas, ∀ fields ∈ s.layout, DistinctOffsets fields) :
    buildSchemaMerkleTree P byID (schemas.map ModelSchema.toApplicationSchema) =
      buildSchemaMerkleTree P byID (schemas'.map ModelSchema.toApplicationSchema) := by
  let leaf (s : ApplicationSchema) : Bytes × MerkleNode := (s.id, schemaLeafNode P s)
  have perm : ((schemas.map ModelSchema.toApplicationSchema).map leaf).Perm
      ((schemas'.map ModelSchema.toApplicationSchema).map leaf) := by
    rw [List.map_map, List.map_map]
    exact reordered.leaves offsets
  have connex : ∀ x ∈ (schemas.map ModelSchema.toApplicationSchema).map leaf,
      ∀ y ∈ (schemas.map ModelSchema.toApplicationSchema).map leaf, ¬ x.1 < y.1 → ¬ y.1 < x.1 → x = y := by
    intro x hx y hy notLt notGt
    obtain ⟨s, hs, rfl⟩ := List.mem_map.mp hx
    obtain ⟨t, ht, rfl⟩ := List.mem_map.mp hy
    rw [schemaID_connex (by rwa [List.map_map]) s hs t ht notLt notGt]
  have sorted := byID.map_sort_eq byID (fun x y => x.1 < y.1) (fun _ _ lt => lt) (fun _ _ lt => lt) perm connex
  have leaves := congrArg (List.map Prod.snd) sorted
  rw [List.map_map, List.map_map] at leaves
  have length : (schemas.map ModelSchema.toApplicationSchema).length =
      (schemas'.map ModelSchema.toApplicationSchema).length := by
    simpa only [List.length_map] using perm.length_eq
  rw [buildSchemaMerkleTree_eq, buildSchemaMerkleTree_eq, schemaNodes, schemaNodes, length]
  exact congrArg (fun l => reduceLevels _ (List.length (l ++ _)) (l ++ _)) leaves

/-- Merkle roots do not depend on the order of the input. For leases with distinct IDs in any two slices, one a
    permutation of the other, `BuildMerkleTree` returns roots with one hash, and the input shows what it showed before;
    so does `BuildSchemaMerkleTree` for schemas with distinct IDs, where also the fields of each may be listed in
    another order, as long as their offsets are distinct. -/
theorem merkleRoots_order_independent (P : Platform) :
    (∀ (byID byID' : SortSlice lessID) (heap heap' : Heap Lease) (leases leases' : Slice),
      leases.InBounds heap → leases'.InBounds heap' →
      ((leases.elements heap).map fun lease => lease.id).Nodup →
      (leases'.elements heap').Perm (leases.elements heap) →
      ∃ root root', (buildMerkleTreeIn P.sha3 P.enc byID heap leases).2 = some root ∧
        (buildMerkleTreeIn P.sha3 P.enc byID' heap' leases').2 = some root' ∧ root'.hash = root.hash ∧
        leases.elements (buildMerkleTreeIn P.sha3 P.enc byID heap leases).1 = leases.elements heap) ∧
    ∀ (byID byID' : SortSlice lessModelID) (byOffset byOffset' : SortSlice lessFieldOffset) (mem mem' : SchemaMemory)
      (schemas schemas' : Slice), mem.InBounds schemas → mem'.InBounds schemas' →
      ((mem.read schemas).map fun s => s.id).Nodup →
      (∀ s ∈ mem.read schemas, ∀ fields ∈ s.layout, DistinctOffsets fields) →
      ReorderedSchemas (mem.read schemas) (mem'.read schemas') →
      ∃ root root', (buildSchemaMerkleTreeIn P byID byOffset mem schemas).2 = some root ∧
        (buildSchemaMerkleTreeIn P byID' byOffset' mem' schemas').2 = some root' ∧ root'.hash = root.hash ∧
        (buildSchemaMerkleTreeIn P byID byOffset mem schemas).1.read schemas = mem.read schemas := by
  constructor
  · intro byID byID' heap heap' leases leases' valid valid' distinct perm
    obtain ⟨arrays, built⟩ := buildMerkleTreeIn_eq P.sha3 P.enc byID valid
    obtain ⟨arrays', built'⟩ := buildMerkleTreeIn_eq P.sha3 P.enc byID' valid'
    obtain ⟨root, tree, -⟩ := buildMerkleTree_shows P.sha3 P.enc byID (leases.elements heap)
    have same := buildMerkleTree_perm P.sha3 P.enc byID byID' perm distinct
    rw [built, built']
    exact ⟨root, root, tree, same.symm.trans tree, rfl, Slice.elements_append valid arrays⟩
  · intro byID byID' byOffset byOffset' mem mem' schemas schemas' valid valid' ids offsets reordered
    obtain ⟨arrays, fields, built⟩ :=
      buildSchemaMerkleTreeIn_eq P byID byOffset sortBySchemaID valid ids offsets
    obtain ⟨arrays', fields', built'⟩ := buildSchemaMerkleTreeIn_eq P byID' byOffset' sortBySchemaID valid'
      (reordered.ids ids) (reordered.offsets offsets)
    obtain ⟨root, tree, -⟩ := buildSchemaMerkleTree_shows P sortBySchemaID
      ((mem.read schemas).map ModelSchema.toApplicationSchema)
    have same := buildSchemaMerkleTree_reordered P sortBySchemaID reordered ids offsets
    rw [built, built']
    exact ⟨root, root, tree, same.symm.trans tree, rfl, SchemaMemory.read_append valid arrays fields⟩

def sortByModelID : SortSlice lessModelID :=
  .byBytes ModelSchema.id fun _ _ => List.not_lt.mpr

/-- A slice of all `n` cells of an array. -/
def wholeArray (array n : Nat) : Slice where
  array := array
  offset := 0
  len := n
  cap := n
  len_le := le_rfl

lemma inBounds_wholeArray {α : Type} {heap : Heap α} {array n : Nat} {a : List α} (listed : heap[array]? = some a)
    (length : a.length = n) : (wholeArray array n).InBounds heap :=
  .inr ⟨a, listed, by rw [wholeArray, Nat.zero_add, length]⟩

def heldSchema (id : Bytes) (fields : Slice) : ModelSchema Slice where
  id := id
  oamMode := 2
  payloadBytes := 12
  name := ascii "Price"
  version := 1
  layout := some fields
  operatorID := ascii "op"
  status := schemaStatusActive
  createdAt := 0
  updatedAt := 0
  signature := []

def schemaA : ModelSchema Slice := heldSchema (ascii "a") (wholeArray 0 2)
def schemaB : ModelSchema Slice := heldSchema (ascii "b") (wholeArray 1 1)

/-- Two schemas, with the two fields of schema `a`. -/
def twoSchemas (first second : ModelSchema Slice) (fields : List FieldDef) : SchemaMemory where
  schemas := [[first, second]]
  fields := [fields, [priceField]]

lemma inBounds_twoSchemas {first second : ModelSchema Slice} {fields : List FieldDef}
    (known : ∀ s ∈ [first, second], s = schemaA ∨ s = schemaB) (length : fields.length = 2) :
    (twoSchemas first second fields).InBounds (wholeArray 0 2) where
  slice := inBounds_wholeArray rfl rfl
  layouts := by
    intro s listed
    rcases known s listed with rfl | rfl
    · rintro _ ⟨⟩
      exact inBounds_wholeArray rfl length
    · rintro _ ⟨⟩
      exact inBounds_wholeArray rfl rfl

lemma reordered_twoSchemas :
    ReorderedSchemas ((twoSchemas schemaA schemaB [priceField, quantityField]).read (wholeArray 0 2))
      ((twoSchemas schemaB schemaA [quantityField, priceField]).read (wholeArray 0 2)) := by
  refine ⟨[schemaA, schemaB].map (ModelSchema.read [[quantityField, priceField], [priceField]]), ?_, .swap _ _ _⟩
  exact .cons ⟨some [quantityField, priceField], .some (.swap _ _ _), rfl⟩
    (.cons ⟨some [priceField], .some (.refl _), rfl⟩ .nil)

theorem merkleRoots_order_independent_reversed :
    (∃ root root',
      (buildMerkleTreeIn (.positional 32) .plain sortByID [[leaseA, leaseB]] (wholeArray 0 2)).2 = some root ∧
      (buildMerkleTreeIn (.positional 32) .plain sortByID [[leaseB, leaseA]] (wholeArray 0 2)).2 = some root' ∧
      root'.hash = root.hash) ∧
    ∃ root root',
      (buildSchemaMerkleTreeIn .plain sortByModelID sortByFieldOffset
        (twoSchemas schemaA schemaB [priceField, quantityField]) (wholeArray 0 2)).2 = some root ∧
      (buildSchemaMerkleTreeIn .plain sortByModelID sortByFieldOffset
        (twoSchemas schemaB schemaA [quantityField, priceField]) (wholeArray 0 2)).2 = some root' ∧
      root'.hash = root.hash := by
  obtain ⟨leases, schemas⟩ := merkleRoots_order_independent .plain
  constructor
  · obtain ⟨root, root', built, built', same, -⟩ := leases sortByID sortByID [[leaseA, leaseB]] [[leaseB, leaseA]]
      (wholeArray 0 2) (wholeArray 0 2) (inBounds_wholeArray rfl rfl) (inBounds_wholeArray rfl rfl) (by decide)
      (.swap _ _ _)
    exact ⟨root, root', built, built', same⟩
  · have offsets : ∀ s ∈ (twoSchemas schemaA schemaB [priceField, quantityField]).read (wholeArray 0 2),
        ∀ fields ∈ s.layout, DistinctOffsets fields := by
      refine List.forall_mem_cons.mpr ⟨?_, List.forall_mem_singleton.mpr ?_⟩
      · rintro _ ⟨⟩
        decide
      · rintro _ ⟨⟩
        decide
    obtain ⟨root, root', built, built', same, -⟩ := schemas sortByModelID sortByModelID sortByFieldOffset
      sortByFieldOffset _ _ _ _ (inBounds_twoSchemas (by simp) rfl) (inBounds_twoSchemas (by simp) rfl) (by decide)
      offsets reordered_twoSchemas
    exact ⟨root, root', built, built', same⟩

end Otap.Flr
