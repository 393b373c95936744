import Otap.Lib.GoLib
import Otap.Lib.Json
import Otap.Csr.RegisterFile

/-!
# The FLR client

Embeds `otap-flr-client/src/lib.rs`: the schema types with their derived decoders, `list_active_schemas`, and the
programming of a register file, with the schema constants of `otap-schema` that it uses. The answer of the HTTP
client is an argument of the calls. A `body` is the JSON document it is the text of, or some other text; the texts
of the errors of serde and of the HTTP client are left out.
-/

namespace Otap.Client
open Otap.Lib Otap.Csr

/-! ## Schemas as the FLR serves them -/

structure FieldDef where
  name : Bytes
  offset : Int32
  length : Int32
  typeCode : Int32
  description : Bytes
  deriving DecidableEq

/-- The field `fields` is the only one of `FieldLayout`. -/
abbrev FieldLayout := List FieldDef

inductive SchemaStatus where
  | unspecified
  | active
  | deprecated
  | revoked
  deriving DecidableEq

structure ApplicationSchema where
  id : Bytes
  oamMode : Int32
  payloadBytes : Int32
  name : Bytes
  version : Int32
  layout : FieldLayout
  operatorID : Bytes
  status : Option SchemaStatus
  createdAt : Bytes
  updatedAt : Bytes
  signature : Option Bytes
  deriving DecidableEq

namespace decode
open Json

def fieldDef (j : Json) : Option FieldDef := do
  let [name, offset, length, typeCode, description] ←
    structFields [ascii "name", ascii "offset", ascii "length", ascii "type", ascii "description"] j | none
  return {
    name := ← required readString name
    offset := ← required readI32 offset
    length := ← required readI32 length
    typeCode := ← required readI32 typeCode
    description := ← defaulted [] readString description }

def fieldLayout (j : Json) : Option FieldLayout := do
  let [fields] ← structFields [ascii "fields"] j | none
  required (readVec fieldDef) fields

def schemaStatus : Json → Option SchemaStatus :=
  readVariant
    [ (ascii "UNSPECIFIED", .unspecified), (ascii "ACTIVE", .active), (ascii "DEPRECATED", .deprecated),
      (ascii "REVOKED", .revoked) ]

def applicationSchema (j : Json) : Option ApplicationSchema := do
  let [id, oamMode, payloadBytes, name, version, layout, operatorID, status, createdAt, updatedAt, signature] ←
    structFields
      [ ascii "id", ascii "oam_mode", ascii "payload_bytes", ascii "name", ascii "version", ascii "layout",
        ascii "operator_id", ascii "status", ascii "created_at", ascii "updated_at", ascii "signature" ] j | none
  return {
    id := ← required readString id
    oamMode := ← required readI32 oamMode
    payloadBytes := ← required readI32 payloadBytes
    name := ← required readString name
    version := ← defaulted 0 readI32 version
    layout := ← required fieldLayout layout
    operatorID := ← required readString operatorID
    status := ← defaulted none (readOption schemaStatus) status
    createdAt := ← required readString createdAt
    updatedAt := ← defaulted [] readString updatedAt
    signature := ← defaulted none (readOption readString) signature }

/-- `ListSchemasResponse`. -/
def listSchemasResponse (j : Json) : Option (List ApplicationSchema) := do
  let [schemas] ← structFields [ascii "schemas"] j | none
  defaulted [] (readVec applicationSchema) schemas

end decode

/-! ## Requests -/

inductive Body where
  | json (document : Json)
  | text (content : Bytes)

/-- An HTTP response. -/
structure Response where
  status : Nat
  body : Body

inductive FlrClientError where
  | http
  | json
  | badResponse (status : Nat) (body : Body)
  | csr (e : CsrError)

/-- `StatusCode::is_success`. -/
def isSuccess (status : Nat) : Bool :=
  200 ≤ status && status < 300

/-- `serde_json::from_str` into a `ListSchemasResponse`. -/
def fromStr : Body → Except FlrClientError (List ApplicationSchema)
  | .json document =>
    match decode.listSchemasResponse document with
    | none => .error .json
    | some schemas => .ok schemas
  | .text _ => .error .json

/-- `FlrClient::list_active_schemas`, with the response or `none` for an error of the HTTP client. -/
def listActiveSchemas (response : Option Response) : Except FlrClientError (List ApplicationSchema) :=
  match response with
  | none => .error .http
  | some r => if !isSuccess r.status then .error (.badResponse r.status r.body) else fromStr r.body

/-! ## Programming the register file -/

inductive SchemaId where
  | equityTradeOrder
  | marketTick
  | heartbeat
  deriving DecidableEq

/-- `OAM_MODE` of the schema. -/
def SchemaId.oamMode : SchemaId → OamMode
  | equityTradeOrder => ⟨1, by decide, by decide⟩
  | marketTick => ⟨3, by decide, by decide⟩
  | heartbeat => ⟨4, by decide, by decide⟩

/-- `SchemaId::payload_bytes`. -/
def SchemaId.payloadBytes : SchemaId → Nat
  | equityTradeOrder => 256
  | marketTick => 64
  | heartbeat => 32

def mapOamToSchemaId (oam : Int32) : Option SchemaId :=
  if oam.toInt = SchemaId.equityTradeOrder.oamMode.charge then some .equityTradeOrder
  else if oam.toInt = SchemaId.marketTick.oamMode.charge then some .marketTick
  else if oam.toInt = SchemaId.heartbeat.oamMode.charge then some .heartbeat
  else none

def csrHandleForSchemaId : SchemaId → BitVec 8
  | .equityTradeOrder => 1
  | .marketTick => 2
  | .heartbeat => 3

/-- `i32 as usize` on a 64-bit target. -/
def asUsize (n : Int32) : Nat :=
  (n.toInt % 2 ^ 64).toNat

/-- The body of the error for a schema whose size is not the local one. -/
def sizeMismatch (sch : ApplicationSchema) (localBytes : Nat) : FlrClientError :=
  .badResponse 0 (.text (ascii "schema " ++ sch.id ++ ascii " (oam " ++ decimalInt sch.oamMode.toInt ++
    ascii ") FLR says " ++ decimalInt sch.payloadBytes.toInt ++ ascii " bytes but local enum says " ++
    decimal localBytes))

/-- Code that has the register file as `&mut RegisterFile` and returns a `FlrResult`. -/
abbrev Program (α : Type) := ExceptT FlrClientError (StateM RegisterFile) α

/-- The result and the register file after it. -/
def Program.exec {α : Type} (m : Program α) (rf : RegisterFile) : Except FlrClientError α × RegisterFile :=
  m.run.run rf

/-- A call of `writer` with `?`. -/
def write (m : Update Unit) : Program Unit :=
  ExceptT.adapt .csr m

/-- The loop of `program_register_file` over the schemas; the result counts the mapped ones. -/
def programSchemas : List ApplicationSchema → Nat → Program Nat
  | [], mapped => return mapped
  | sch :: schemas, mapped =>
    match mapOamToSchemaId sch.oamMode with
    | none => programSchemas schemas mapped
    | some localId => do
      let handle := csrHandleForSchemaId localId
      let localBytes := localId.payloadBytes
      if localBytes ≠ asUsize sch.payloadBytes then throw (sizeMismatch sch localBytes)
      write (writer.setSchemaPayload handle (sch.payloadBytes.toBitVec.setWidth 16))
      write (writer.setOamToSchema localId.oamMode handle)
      programSchemas schemas (mapped + 1)

/-- The tolerance that `set_auth_tolerance` writes for `0.01` radians. -/
def toleranceMilliradians : Word := 10

/-- `FlrClient::program_register_file`. -/
def programRegisterFile (wavelength : Csr.Wavelength) (secretBytes : Vector (BitVec 8) 32)
    (topologicalAuth : Bool) (response : Option Response) : Program Nat := do
  write (writer.setWavelength wavelength)
  write (writer.setSecret secretBytes)
  let ctrl := ctrlEnableTx ||| ctrlEnableRx
  let ctrl := if topologicalAuth then ctrl ||| ctrlAuthTopological else ctrl
  write (writer.setCtrl ctrl)
  write (writer.setAuthTolerance toleranceMilliradians)
  let schemas ← liftExcept (listActiveSchemas response)
  programSchemas schemas 0

end Otap.Client
