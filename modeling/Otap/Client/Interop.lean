import Otap.Client.FlrClient
import Otap.Flr.SchemaApi
import Otap.Flr.SchemaEngine
import Otap.Flr.SchemaIndex

/-!
# The schema listing across the two languages

What `FlrClient::list_active_schemas` reads in the bodies that `listSchemas` writes: nothing. The server encodes the
status of a schema as the number it is in Go, and the client expects the name of a variant; and without schemas the
server encodes a nil slice as `null`, where the client expects an array.
-/

namespace Otap.Client
open Otap.Lib Json

/-! ## One schema -/

/-- The document of a schema with another value, or none, for its status. -/
def withStatus (describe : Nat → Bytes) (s : Flr.Schema) (status : Option Json) : Json :=
  .obj ((s.members describe).flatMap fun m =>
    if m.1 = ascii "status" then (status.map fun j => (m.1, j)).toList else [m])

lemma withStatus_self (describe : Nat → Bytes) (s : Flr.Schema) :
    withStatus describe s (some (.num s.status.toInt)) = .obj (s.members describe) := by
  unfold withStatus Flr.Schema.members
  split
  case isTrue => rfl
  case isFalse => rfl

lemma structFields_withStatus (describe : Nat → Bytes) (s : Flr.Schema) (status : Option Json) :
    structFields
      [ ascii "id", ascii "oam_mode", ascii "payload_bytes", ascii "name", ascii "version", ascii "layout",
        ascii "operator_id", ascii "status", ascii "created_at", ascii "updated_at", ascii "signature" ]
      (withStatus describe s status) =
    some [ some (Flr.encodeString s.id), some (.num s.oamMode.toInt), some (.num s.payloadBytes.toInt),
      some (Flr.encodeString s.name), some (.num s.version.toInt), some (Flr.encodeLayout describe s.layout),
      some (Flr.encodeString s.operatorID), status, some (.str (rfc3339Nano s.createdAt)),
      some (.str (rfc3339Nano s.updatedAt)),
      if s.signature = [] then none else some (.str (base64 s.signature)) ] := by
  unfold withStatus Flr.Schema.members
  cases status with
  | none => split <;> rfl
  | some j => split <;> rfl

lemma readI32_toInt (n : Int32) : readI32 (.num n.toInt) = some n := by
  rw [readI32, if_pos ⟨n.minValue_le_toInt, n.toInt_lt⟩, Int32.ofInt_toInt]

/-- A schema as the client has it, with its layout and its status. -/
def clientSchema (s : Flr.Schema) (layout : FieldLayout) (status : Option SchemaStatus) : ApplicationSchema where
  id := coerceUtf8 s.id
  oamMode := s.oamMode
  payloadBytes := s.payloadBytes
  name := coerceUtf8 s.name
  version := s.version
  layout := layout
  operatorID := coerceUtf8 s.operatorID
  status := status
  createdAt := rfc3339Nano s.createdAt
  updatedAt := rfc3339Nano s.updatedAt
  signature := if s.signature = [] then none else some (base64 s.signature)

/-- What the client reads in the document of a schema hangs on the layout and on the status. -/
lemma applicationSchema_eq (describe : Nat → Bytes) (s : Flr.Schema) (status : Option Json) :
    decode.applicationSchema (withStatus describe s status) =
      (decode.fieldLayout (Flr.encodeLayout describe s.layout)).bind fun layout =>
        (defaulted none (readOption decode.schemaStatus) status).map (clientSchema s layout) := by
  have version : defaulted 0 readI32 (some (.num s.version.toInt)) = some s.version := readI32_toInt s.version
  unfold decode.applicationSchema
  rw [structFields_withStatus]
  dsimp only [Option.bind_eq_bind, Option.bind_some]
  simp only [Option.bind_some, required, readI32_toInt, Flr.encodeString, readString, version]
  congr 1
  funext layout
  cases defaulted none (readOption decode.schemaStatus) status with
  | none => rfl
  | some st =>
    rw [Option.map_some, clientSchema]
    split <;> rfl

/-- The client refuses every schema, because of its status. -/
lemma applicationSchema_encode (describe : Nat → Bytes) (s : Flr.Schema) :
    decode.applicationSchema (.obj (s.members describe)) = none := by
  have unread : defaulted none (readOption decode.schemaStatus) (some (.num s.status.toInt)) = none := rfl
  rw [← withStatus_self, applicationSchema_eq, unread]
  exact Option.bind_fun_none _

/-! ## The listing -/

/-- The server's response as the client receives it. -/
def received (r : Flr.HttpResponse) : Response where
  status := r.code
  body := match r.body with
    | none => .text []
    | some document => .json document

/-- The client fails on every list of schemas that the server writes. -/
lemma listActiveSchemas_writeSchemas (describe : Flr.Schema → Nat → Bytes) (out : List Flr.Schema) :
    listActiveSchemas (some (received (Flr.writeSchemas describe out))) = .error .json := by
  cases out with
  | nil => rfl
  | cons s out =>
    rw [Flr.writeSchemas, List.mapM_cons]
    by_cases time : jsonTime s.createdAt && jsonTime s.updatedAt
    case neg =>
      -- a time that has no text leaves an empty body
      rw [Flr.Schema.encode, if_neg time]
      rfl
    case pos =>
      rw [Flr.Schema.encode, if_pos time]
      cases out.mapM fun s : Flr.Schema => s.encode (describe s) with
      | none => rfl
      | some l =>
        have refused : (Json.obj (s.members (describe s)) :: l).mapM decode.applicationSchema = none := by
          rw [List.mapM_cons, applicationSchema_encode]
          rfl
        have read : decode.listSchemasResponse
            (.obj [(ascii "schemas", .arr (Json.obj (s.members (describe s)) :: l))]) = none := refused
        change fromStr (.json (.obj [(ascii "schemas", .arr (Json.obj (s.members (describe s)) :: l))])) = _
        rw [fromStr, read]

/-- The code that Go gives to a status. -/
def SchemaStatus.code : SchemaStatus → Flr.SchemaStatus
  | unspecified => Flr.schemaStatusUnspecified
  | active => Flr.schemaStatusActive
  | deprecated => Flr.schemaStatusDeprecated
  | revoked => Flr.schemaStatusRevoked

/-- The schema that the client read is the one that the server holds. -/
structure SameSchema (describe : Flr.Schema → Nat → Bytes) (s : Flr.Schema) (c : ApplicationSchema) : Prop where
  id : c.id = s.id
  oamMode : c.oamMode = s.oamMode
  payloadBytes : c.payloadBytes = s.payloadBytes
  name : c.name = s.name
  version : c.version = s.version
  operatorID : c.operatorID = s.operatorID
  status : c.status.map SchemaStatus.code = some s.status
  layout : s.layout.map (fun fields => fields.mapIdx fun i f =>
    (⟨f.name, f.offset, f.length, f.type, describe s i⟩ : FieldDef)) = some c.layout

/-- The client reads the listing of a store as the list of the schemas in it, in order. -/
def Interoperates (store : Flr.SchemaStore) (describe : Flr.Schema → Nat → Bytes) (q : Flr.ListQuery) : Prop :=
  ∃ out schemas, store.listSchemas false q.filter = .ok out ∧
    listActiveSchemas (some (received (Flr.listSchemas store false describe q))) = .ok schemas ∧
    List.Forall₂ (SameSchema describe) out schemas

/-- The client reads no listing of any store. -/
theorem listing_never_interoperates (store : Flr.SchemaStore) (describe : Flr.Schema → Nat → Bytes)
    (q : Flr.ListQuery) : ¬ Interoperates store describe q := by
  rintro ⟨out, schemas, listed, read, -⟩
  unfold Flr.listSchemas at read
  split at read
  case isTrue => cases read
  case isFalse =>
    rw [listed] at read
    cases (listActiveSchemas_writeSchemas describe out).symm.trans read

/-- The request that the client makes for operator `op`. -/
def clientQuery : Flr.ListQuery where
  operatorID := ascii "op"
  nameLike := []
  status := ascii "ACTIVE"
  oamMode := []

/-- A store that holds one schema, which is valid and ACTIVE. -/
def oneSchema : Flr.SchemaStore :=
  [Flr.schemaInput (.create (some (Flr.schemaOf (ascii "a") (ascii "op"))))].foldl Flr.SchemaStore.step .empty

theorem not_listing_interoperates :
    (Flr.schemaOf (ascii "a") (ascii "op")).validate = .ok () ∧
    ¬ Interoperates oneSchema (fun _ _ => []) clientQuery ∧
    ¬ Interoperates .empty (fun _ _ => []) clientQuery := by
  refine ⟨by decide +kernel, ?_, ?_⟩
  · rintro ⟨out, schemas, -, read, -⟩
    have failed : listActiveSchemas (some (received
        (Flr.listSchemas oneSchema false (fun _ _ => []) clientQuery))) = .error .json := rfl
    cases failed.symm.trans read
  · rintro ⟨out, schemas, -, read, -⟩
    have failed : listActiveSchemas (some (received
        (Flr.listSchemas .empty false (fun _ _ => []) clientQuery))) = .error .json := rfl
    cases failed.symm.trans read

end Otap.Client
