import Otap.Flr.SchemaStore
import Otap.Flr.SignedMessages

/-!
# The canonical form of a schema

`canonicalSchemaBytes` of `flr/internal/crypto/schema.go` on the whole record of `flr/internal/models/schema.go`, with
the description of every field, the status, the signature and the time of the last update. The code sorts a copy of the
fields by offset, and of each it keeps what is signed.

`canonicalSchemaBytes_forget`: on layouts whose offsets differ this is `canonicalSchemaBytes` of `Otap.Flr.Crypto`,
which never sees the rest of the record. `canonicalSchemaBytes_eq_iff` says when two records have the same bytes.
-/

namespace Otap.Flr

open Otap.Lib

/-! ## The record -/

/-- `FieldDef`. -/
structure FieldDef extends CanonicalFieldDef where
  description : Bytes
  deriving DecidableEq

/-- `models.ApplicationSchema`. A layout is a list of fields, or the slice that holds it. -/
structure ModelSchema (Layout : Type) where
  id : Bytes
  oamMode : Int32
  payloadBytes : Int32
  name : Bytes
  version : Int32
  layout : Option Layout
  operatorID : Bytes
  status : SchemaStatus
  createdAt : Time
  updatedAt : Time
  signature : Bytes

/-- The comparison of `canonicalSchemaBytes`'s sort. -/
def lessFieldOffset (a b : FieldDef) : Prop :=
  a.offset < b.offset

/-- The struct that `canonicalSchemaBytes` fills in, from the sorted copy of the fields. -/
def ModelSchema.canonicalFields {Layout : Type} (P : Platform) (s : ModelSchema Layout) (sorted : List FieldDef) :
    CanonicalSchemaFields where
  id := s.id
  oamMode := s.oamMode
  payloadBytes := s.payloadBytes
  name := s.name
  version := s.version
  fields := sorted.map FieldDef.toCanonicalFieldDef
  operatorID := s.operatorID
  createdAt := P.enc.rfc3339Nano s.createdAt

/-- `canonicalSchemaBytes`. -/
def ModelSchema.canonicalSchemaBytes (P : Platform) (byOffset : SortSlice lessFieldOffset) :
    Option (ModelSchema (List FieldDef)) → Result Bytes
  | none => .error (ascii "schema is nil")
  | some s =>
    match s.layout with
    | none => .error (ascii "schema layout is nil")
    | some fields => .ok ((s.canonicalFields P (byOffset.sort fields)).marshal P.enc)

/-- What the signature of a schema covers. -/
def ModelSchema.toApplicationSchema (s : ModelSchema (List FieldDef)) : ApplicationSchema where
  id := s.id
  oamMode := s.oamMode
  payloadBytes := s.payloadBytes
  name := s.name
  version := s.version
  layout := s.layout.map fun fields => fields.map FieldDef.toCanonicalFieldDef
  operatorID := s.operatorID
  createdAt := s.createdAt

/-- No two fields start at the same byte. -/
def DistinctOffsets (fields : List FieldDef) : Prop :=
  (fields.map fun f => f.offset).Nodup

instance (fields : List FieldDef) : Decidable (DistinctOffsets fields) :=
  inferInstanceAs (Decidable (List.Nodup _))

/-! ## One order of the fields -/

lemma offset_connex {a b : CanonicalFieldDef} (notLt : ¬ lessOffset a b) (notGt : ¬ lessOffset b a) :
    a.offset = b.offset :=
  Int32.le_antisymm (Int32.not_lt.mp notGt) (Int32.not_lt.mp notLt)

/-- Fields with different offsets are told apart by the comparison of offsets. -/
lemma DistinctOffsets.connex {fields : List FieldDef} (distinct : DistinctOffsets fields) :
    ∀ x ∈ fields.map FieldDef.toCanonicalFieldDef, ∀ y ∈ fields.map FieldDef.toCanonicalFieldDef,
      ¬ lessOffset x y → ¬ lessOffset y x → x = y := by
  intro x hx y hy notLt notGt
  obtain ⟨f, hf, rfl⟩ := List.mem_map.mp hx
  obtain ⟨g, hg, rfl⟩ := List.mem_map.mp hy
  rw [List.inj_on_of_nodup_map distinct hf hg (offset_connex notLt notGt)]

lemma DistinctOffsets.nodup {fields : List FieldDef} (distinct : DistinctOffsets fields) :
    (fields.map FieldDef.toCanonicalFieldDef).Nodup :=
  List.Nodup.of_map CanonicalFieldDef.offset (by rwa [List.map_map])

/-- The signed fields after two sorts, of the same fields with whatever descriptions and in whatever order. -/
lemma sorted_fields_eq (byOffset byOffset' : SortSlice lessFieldOffset) {fields fields' : List FieldDef}
    (distinct : DistinctOffsets fields)
    (perm : (fields.map FieldDef.toCanonicalFieldDef).Perm (fields'.map FieldDef.toCanonicalFieldDef)) :
    (byOffset.sort fields).map FieldDef.toCanonicalFieldDef =
      (byOffset'.sort fields').map FieldDef.toCanonicalFieldDef :=
  byOffset.map_sort_eq byOffset' lessOffset (fun _ _ lt => lt) (fun _ _ lt => lt) perm distinct.connex

/-- The bytes are those of the signed part of the record. -/
lemma canonicalSchemaBytes_forget (P : Platform) (byOffset : SortSlice lessFieldOffset)
    (s : ModelSchema (List FieldDef)) (distinct : ∀ fields ∈ s.layout, DistinctOffsets fields) :
    ModelSchema.canonicalSchemaBytes P byOffset (some s) = canonicalSchemaBytes P s.toApplicationSchema := by
  cases layout : s.layout with
  | none =>
    rw [ModelSchema.canonicalSchemaBytes, canonicalSchemaBytes, ModelSchema.toApplicationSchema, layout]
    rfl
  | some fields =>
    have sorted : (byOffset.sort fields).map FieldDef.toCanonicalFieldDef =
        P.byOffset.sort (fields.map FieldDef.toCanonicalFieldDef) :=
      byOffset.map_sort P.byOffset (fun _ _ lt => lt) (.refl _) (distinct fields layout).connex
    rw [ModelSchema.canonicalSchemaBytes, canonicalSchemaBytes, ModelSchema.toApplicationSchema, layout]
    simp only [Option.map_some, ModelSchema.canonicalFields, sorted]
    rfl

/-! ## When the bytes are equal -/

/-- The strings that are signed are in UTF-8. -/
structure ModelSchema.ValidStrings (s : ModelSchema (List FieldDef)) : Prop where
  id : ValidUtf8 s.id
  name : ValidUtf8 s.name
  operatorID : ValidUtf8 s.operatorID
  fields : ∀ fields ∈ s.layout, ∀ f ∈ fields, ValidUtf8 f.name

/-- The records agree on what is signed. -/
structure ModelSchema.SameSigned (s s' : ModelSchema (List FieldDef)) : Prop where
  id : s.id = s'.id
  oamMode : s.oamMode = s'.oamMode
  payloadBytes : s.payloadBytes = s'.payloadBytes
  name : s.name = s'.name
  version : s.version = s'.version
  operatorID : s.operatorID = s'.operatorID
  createdAt : s.createdAt = s'.createdAt

/-- `json.Marshal` is injective on `canonicalSchemaFields`. -/
def SchemaJsonInjective (enc : Encoding) : Prop :=
  ∀ {a b : CanonicalSchemaFields}, a.Valid → b.Valid → a.marshal enc = b.marshal enc → a = b

lemma ModelSchema.ValidStrings.canonicalFields {P : Platform} (time : P.enc.rfc3339Nano = rfc3339Nano)
    {s : ModelSchema (List FieldDef)} (valid : s.ValidStrings) (byOffset : SortSlice lessFieldOffset)
    {fields : List FieldDef} (layout : s.layout = some fields) :
    (s.canonicalFields P (byOffset.sort fields)).Valid where
  id := valid.id
  name := valid.name
  fields := by
    intro f mem
    obtain ⟨g, hg, rfl⟩ := List.mem_map.mp mem
    exact valid.fields fields layout g ((byOffset.perm fields).mem_iff.mp hg)
  operatorID := valid.operatorID
  createdAt := SignedObject.validUtf8_time time _

/-- The canonical bytes are a canonical form. Two records with layouts whose offsets differ have bytes, and the same
    bytes exactly if they agree on the ID, the OAM mode, the payload size, the name, the version, the operator and the
    instant of their creation and have the same fields by name, offset, length and type. -/
theorem canonicalSchemaBytes_eq_iff (P : Platform) (json : SchemaJsonInjective P.enc)
    (time : P.enc.rfc3339Nano = rfc3339Nano) (byOffset byOffset' : SortSlice lessFieldOffset)
    (s s' : ModelSchema (List FieldDef)) {fields fields' : List FieldDef} (layout : s.layout = some fields)
    (layout' : s'.layout = some fields') (valid : s.ValidStrings) (valid' : s'.ValidStrings)
    (distinct : DistinctOffsets fields) (distinct' : DistinctOffsets fields') :
    ∃ m m', ModelSchema.canonicalSchemaBytes P byOffset (some s) = .ok m ∧
      ModelSchema.canonicalSchemaBytes P byOffset' (some s') = .ok m' ∧
      (m = m' ↔ s.SameSigned s' ∧
        ∀ f, f ∈ fields.map FieldDef.toCanonicalFieldDef ↔ f ∈ fields'.map FieldDef.toCanonicalFieldDef) := by
  refine ⟨(s.canonicalFields P (byOffset.sort fields)).marshal P.enc,
    (s'.canonicalFields P (byOffset'.sort fields')).marshal P.enc, ?_, ?_, ?_, ?_⟩
  · rw [ModelSchema.canonicalSchemaBytes, layout]
  · rw [ModelSchema.canonicalSchemaBytes, layout']
  · intro e
    have structs := json (valid.canonicalFields time byOffset layout) (valid'.canonicalFields time byOffset' layout') e
    simp only [ModelSchema.canonicalFields, CanonicalSchemaFields.mk.injEq] at structs
    obtain ⟨id, oamMode, payloadBytes, name, version, sorted, operatorID, createdAt⟩ := structs
    have createdAt := SignedObject.time_inj time createdAt
    refine ⟨⟨id, oamMode, payloadBytes, name, version, operatorID, createdAt⟩, fun f => ?_⟩
    have perm := ((byOffset.perm fields).map FieldDef.toCanonicalFieldDef).symm.trans
      (sorted ▸ (byOffset'.perm fields').map FieldDef.toCanonicalFieldDef)
    exact perm.mem_iff
  · rintro ⟨same, fieldsSame⟩
    have perm := (List.perm_ext_iff_of_nodup distinct.nodup distinct'.nodup).mpr fieldsSame
    have sorted := sorted_fields_eq byOffset byOffset' distinct perm
    rw [ModelSchema.canonicalFields, ModelSchema.canonicalFields, sorted, same.id, same.oamMode, same.payloadBytes,
      same.name, same.version, same.operatorID, same.createdAt]

def sortByFieldOffset : SortSlice lessFieldOffset :=
  .byKey (·.offset) Int32.le_total Int32.le_trans fun _ _ => Int32.not_lt.mpr

def priceField : FieldDef :=
  ⟨⟨ascii "px", 0, 8, 4⟩, ascii "in ticks"⟩

def quantityField : FieldDef :=
  ⟨⟨ascii "qty", 8, 4, 3⟩, []⟩

def priceRecord (fields : List FieldDef) (status : SchemaStatus) (updatedAt : Time) : ModelSchema (List FieldDef) where
  id := ascii "px"
  oamMode := 2
  payloadBytes := 12
  name := ascii "Price \"quote\""
  version := 1
  layout := some fields
  operatorID := ascii "op:1"
  status := status
  createdAt := 0
  updatedAt := updatedAt
  signature := []

lemma priceRecord_valid {fields : List FieldDef} (names : ∀ f ∈ fields, ValidUtf8 f.name) (status : SchemaStatus)
    (updatedAt : Time) : (priceRecord fields status updatedAt).ValidStrings where
  id := (by decide +kernel : ValidUtf8 (ascii "px"))
  name := (by decide +kernel : ValidUtf8 (ascii "Price \"quote\""))
  operatorID := (by decide +kernel : ValidUtf8 (ascii "op:1"))
  fields := by
    rintro _ ⟨⟩
    exact names

/-- A record before and after it is revoked, its fields listed the other way round and one description dropped. -/
theorem canonicalSchemaBytes_eq_iff_revoked :
    ∃ m, ModelSchema.canonicalSchemaBytes .quoted sortByFieldOffset
        (some (priceRecord [priceField, quantityField] schemaStatusActive 0)) = .ok m ∧
      ModelSchema.canonicalSchemaBytes .quoted sortByFieldOffset
        (some (priceRecord [quantityField, { priceField with description := [] }] schemaStatusRevoked 5)) = .ok m := by
  obtain ⟨m, m', bytes, bytes', same⟩ := canonicalSchemaBytes_eq_iff .quoted
    (schemaFields_inj Encoding.quoted_selfDelimiting) rfl sortByFieldOffset sortByFieldOffset
    (priceRecord [priceField, quantityField] schemaStatusActive 0)
    (priceRecord [quantityField, { priceField with description := [] }] schemaStatusRevoked 5) rfl rfl
    (priceRecord_valid (by decide +kernel) _ _) (priceRecord_valid (by decide +kernel) _ _) (by decide) (by decide)
  have perm : ([priceField, quantityField].map FieldDef.toCanonicalFieldDef).Perm
      ([quantityField, { priceField with description := [] }].map FieldDef.toCanonicalFieldDef) := by
    decide
  obtain rfl := same.mpr ⟨⟨rfl, rfl, rfl, rfl, rfl, rfl, rfl⟩, fun _ => perm.mem_iff⟩
  exact ⟨m, bytes, bytes'⟩

end Otap.Flr
