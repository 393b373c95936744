import Otap.Lib.GoTime
import Otap.Lib.Json
import Otap.Flr.SchemaStore

/-!
# The schema listing of the REST API

Embeds `listSchemas` of `flr/internal/api/schema_rest.go` and `BadgerStore.ListSchemas`, with the JSON that
`encoding/json` makes of the response. A response is its status and the document of its body; a body that could not
be encoded is empty, as the status is sent before.

The descriptions of the fields are not part of the stored schemas here (nothing but this response reads them);
`describe` gives the description of a field by its schema and position. An empty list of fields stands for a nil
slice.
-/

namespace Otap.Flr

open Otap.Lib

/-! ## The store -/

structure SchemaFilter where
  operatorID : Bytes
  oamMode : Option Int32
  status : SchemaStatus
  nameLike : Bytes

def schemaMatches (s : Schema) (f : SchemaFilter) : Bool :=
  if f.operatorID ≠ [] ∧ s.operatorID ≠ f.operatorID then false
  else if f.oamMode.isSome ∧ f.oamMode ≠ some s.oamMode then false
  else if f.status ≠ schemaStatusUnspecified ∧ s.status ≠ f.status then false
  else if f.nameLike ≠ [] ∧ ¬ f.nameLike <:+: s.name then false
  else true

/-- `BadgerStore.ListSchemas`. -/
def SchemaStore.listSchemas (s : SchemaStore) (fails : Bool) (filter : SchemaFilter) : Result (List Schema) :=
  if fails then .error dbError else .ok (s.schemas.values.filter (schemaMatches · filter))

/-! ## JSON -/

/-- A string in JSON. -/
def encodeString (s : Bytes) : Json := .str (coerceUtf8 s)

/-- A slice in JSON; one that was never appended to is nil. -/
def encodeSlice : List Json → Json
  | [] => .null
  | l => .arr l

/-- A `FieldDef`; the tag of `description` is `omitempty`. -/
def encodeField (description : Bytes) (f : CanonicalFieldDef) : Json :=
  .obj ([ (ascii "name", encodeString f.name), (ascii "offset", .num f.offset.toInt),
      (ascii "length", .num f.length.toInt), (ascii "type", .num f.type.toInt) ] ++
    if description = [] then [] else [(ascii "description", encodeString description)])

def encodeLayout (describe : Nat → Bytes) : Option (List CanonicalFieldDef) → Json
  | none => .null
  | some fields => .obj [(ascii "fields", encodeSlice (fields.mapIdx fun i f => encodeField (describe i) f))]

/-- The members of an `ApplicationSchema`; the tag of `signature` is `omitempty`. -/
def Schema.members (describe : Nat → Bytes) (s : Schema) : List (Bytes × Json) :=
  [ (ascii "id", encodeString s.id), (ascii "oam_mode", .num s.oamMode.toInt),
    (ascii "payload_bytes", .num s.payloadBytes.toInt), (ascii "name", encodeString s.name),
    (ascii "version", .num s.version.toInt), (ascii "layout", encodeLayout describe s.layout),
    (ascii "operator_id", encodeString s.operatorID), (ascii "status", .num s.status.toInt),
    (ascii "created_at", .str (rfc3339Nano s.createdAt)), (ascii "updated_at", .str (rfc3339Nano s.updatedAt)) ] ++
    if s.signature = [] then [] else [(ascii "signature", .str (base64 s.signature))]

/-- `json.Marshal` of an `ApplicationSchema`. -/
def Schema.encode (describe : Nat → Bytes) (s : Schema) : Option Json :=
  if jsonTime s.createdAt && jsonTime s.updatedAt then some (.obj (s.members describe)) else none

/-! ## The handler -/

structure HttpResponse where
  code : Nat
  body : Option Json

/-- `writeError`. -/
def writeError (code : Nat) (msg : Bytes) : HttpResponse :=
  ⟨code, some (.obj [(ascii "error", encodeString msg)])⟩

/-- The response that carries the listed schemas. -/
def writeSchemas (describe : Schema → Nat → Bytes) (out : List Schema) : HttpResponse :=
  ⟨200, (out.mapM fun s : Schema => s.encode (describe s)).map fun l => .obj [(ascii "schemas", encodeSlice l)]⟩

/-- The parameters of the query; one that is absent is empty. -/
structure ListQuery where
  operatorID : Bytes
  nameLike : Bytes
  status : Bytes
  oamMode : Bytes

/-- `strings.ToUpper`, as far as the names of the statuses can tell: ASCII letters and the dotless `ı`. -/
def toUpper : Bytes → Bytes
  | [] => []
  | 0xc4 :: 0xb1 :: l => 73 :: toUpper l
  | b :: l => (if 97 ≤ b ∧ b ≤ 122 then b - 32 else b) :: toUpper l

def parseSchemaStatus (v : Bytes) : SchemaStatus :=
  let name := toUpper v
  if name = ascii "ACTIVE" then schemaStatusActive
  else if name = ascii "DEPRECATED" then schemaStatusDeprecated
  else if name = ascii "REVOKED" then schemaStatusRevoked
  else schemaStatusUnspecified

/-- The magnitude of a number in decimal. -/
def parseDigits (v : Bytes) : Option Nat :=
  if v ≠ [] ∧ v.all (fun b => 48 ≤ b && b ≤ 57) then some (ofDecimal v) else none

/-- `strconv.ParseInt(v, 10, 32)`. -/
def parseInt32 (v : Bytes) : Option Int32 :=
  let value : Option Int :=
    match v with
    | 45 :: l => (parseDigits l).map fun n => -n
    | 43 :: l => (parseDigits l).map fun n => n
    | l => (parseDigits l).map fun n => n
  value.bind fun n => if -2 ^ 31 ≤ n ∧ n < 2 ^ 31 then some (Int32.ofInt n) else none

/-- The filter that the parameters ask for. -/
def ListQuery.filter (q : ListQuery) : SchemaFilter where
  operatorID := q.operatorID
  nameLike := q.nameLike
  status := if q.status = [] then schemaStatusUnspecified else parseSchemaStatus q.status
  oamMode := if q.oamMode = [] then none else parseInt32 q.oamMode

/-- `Server.listSchemas`. -/
def listSchemas (store : SchemaStore) (fails : Bool) (describe : Schema → Nat → Bytes) (q : ListQuery) :
    HttpResponse :=
  if q.oamMode ≠ [] ∧ parseInt32 q.oamMode = none then writeError 400 (ascii "invalid oam_mode")
  else
    match store.listSchemas fails q.filter with
    | .error err => writeError 500 err
    | .ok out => writeSchemas describe out

end Otap.Flr
