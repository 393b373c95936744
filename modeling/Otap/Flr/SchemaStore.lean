import Otap.Lib.Utf8
import Otap.Flr.Registry

/-!
# The schema store and its OAM index

Embeds `flr/internal/registry/schema_store.go`: schemas by ID, and for every operator and OAM mode the ID of
the schema that is ACTIVE there. The two maps stand for the keys with the prefixes `schema:` and `schema_oam:`.

A schema is stored in JSON, and what is read back is what JSON makes of it (`Schema.stored`): strings are
coerced to UTF-8. The keys are not JSON. So a schema created under an operator ID that is not UTF-8 is indexed
under the ID it was given and stored with another one, and the calls that compute the index key from the
stored record miss the entry.

Badger transactions are atomic; `Faults` says which accesses inside one fail. The code ends the transaction on
most failures, but treats an index entry or an occupant that it fails to read as absent.
-/

namespace Otap.Flr

open Otap.Lib

/-! ## Schemas -/

abbrev SchemaStatus := Int32

def schemaStatusUnspecified : SchemaStatus := 0
def schemaStatusActive : SchemaStatus := 1
def schemaStatusDeprecated : SchemaStatus := 2
def schemaStatusRevoked : SchemaStatus := 3

/-- `SchemaStatus.String`. -/
def schemaStatusString (s : SchemaStatus) : Bytes :=
  if s = schemaStatusActive then ascii "ACTIVE"
  else if s = schemaStatusDeprecated then ascii "DEPRECATED"
  else if s = schemaStatusRevoked then ascii "REVOKED"
  else ascii "UNSPECIFIED"

/-- A `models.ApplicationSchema`: the signed part, and the rest of the record. -/
structure Schema extends ApplicationSchema where
  status : SchemaStatus
  updatedAt : Time
  signature : Bytes

/-- A schema as it is read back after `json.Marshal`; `none` if that fails. -/
def Schema.stored (s : Schema) : Option Schema :=
  if jsonTime s.createdAt && jsonTime s.updatedAt then
    some { s with
      id := coerceUtf8 s.id
      name := coerceUtf8 s.name
      operatorID := coerceUtf8 s.operatorID
      layout := s.layout.map fun fields => fields.map fun f => { f with name := coerceUtf8 f.name } }
  else none

/-- What follows `schema_oam:` in an index key: `"%s:%d"`. -/
def oamKey (operatorID : Bytes) (oamMode : Int32) : Bytes :=
  operatorID ++ ascii ":" ++ decimalInt oamMode.toInt

/-! ## The store -/

structure SchemaStore where
  schemas : KV Schema
  oamIndex : KV Bytes

def SchemaStore.empty : SchemaStore where
  schemas := .empty
  oamIndex := .empty

/-- Which accesses of a transaction fail: reading the schema's own record, the index entry and the schema it
    names; the first write; a later write or the commit. -/
structure Faults where
  record : Bool := false
  index : Bool := false
  occupant : Bool := false
  write : Bool := false
  commit : Bool := false

namespace SchemaStore

/-- `loadSchema`. -/
def loadSchema (s : SchemaStore) (fails : Bool) (id : Bytes) : Result Schema :=
  if fails then .error dbError
  else
    match s.schemas.get id with
    | none => .error (ascii "schema not found: " ++ id)
    | some sch => .ok sch

/-- `getValue` of an index entry, where the code does not tell an error from an absent entry. -/
def indexed (s : SchemaStore) (f : Faults) (key : Bytes) : Option Bytes :=
  if f.index then none else s.oamIndex.get key

/-- The schema that an index entry names, if it loads and is ACTIVE. -/
def activeSchema (s : SchemaStore) (f : Faults) (id : Bytes) : Option Schema :=
  match s.loadSchema f.occupant id with
  | .error _ => none
  | .ok sch => if sch.status = schemaStatusActive then some sch else none

/-- The error of a second ACTIVE schema for an operator and OAM mode. -/
def slotTaken (sch other : Schema) : Bytes :=
  ascii "operator " ++ sch.operatorID ++ ascii " already has active schema " ++ other.id ++
    ascii " on OAM mode " ++ decimalInt sch.oamMode.toInt

/-- The end of a transaction. -/
def commit (s : SchemaStore) (f : Faults) : Result SchemaStore :=
  if f.commit then .error dbError else .ok s

/-- `BadgerStore.CreateSchema`. -/
def createSchema (s : SchemaStore) (f : Faults) (sch : Option Schema) : Result SchemaStore :=
  match sch with
  | none => .error (ascii "schema cannot be nil")
  | some sch =>
    if sch.id = [] then .error (ascii "schema ID cannot be empty")
    else if f.record then .error (ascii "check schema existence: " ++ dbError)
    else if (s.schemas.get sch.id).isSome then .error (ascii "schema already exists: " ++ sch.id)
    else
      let oamIdxKey := oamKey sch.operatorID sch.oamMode
      let existing :=
        if sch.status = schemaStatusActive then (s.indexed f oamIdxKey).bind (s.activeSchema f) else none
      match existing with
      | some existing => .error (slotTaken sch existing)
      | none =>
        match sch.stored with
        | none => .error (ascii "marshal schema: " ++ marshalError)
        | some data =>
          if f.write then .error dbError
          else
            let s := { s with schemas := s.schemas.set sch.id data }
            if sch.status = schemaStatusActive then
              commit { s with oamIndex := s.oamIndex.set oamIdxKey sch.id } f
            else s.commit f

/-- `BadgerStore.GetSchema`. -/
def getSchema (s : SchemaStore) (f : Faults) (id : Bytes) : Result Schema :=
  if id = [] then .error (ascii "schema ID cannot be empty") else s.loadSchema f.record id

/-- `BadgerStore.UpdateSchema`. -/
def updateSchema (s : SchemaStore) (f : Faults) (sch : Option Schema) : Result SchemaStore :=
  match sch with
  | none => .error (ascii "schema cannot be nil")
  | some sch =>
    if sch.id = [] then .error (ascii "schema ID cannot be empty")
    else
      let oamIdxKey := oamKey sch.operatorID sch.oamMode
      match s.loadSchema f.record sch.id with
      | .error _ => .error (ascii "schema not found: " ++ sch.id)
      | .ok existing =>
        match sch.stored with
        | none => .error (ascii "marshal schema: " ++ marshalError)
        | some data =>
          if f.write then .error dbError
          else
            let s := { s with schemas := s.schemas.set sch.id data }
            if existing.status = schemaStatusActive ∧ sch.status ≠ schemaStatusActive then
              commit { s with oamIndex := s.oamIndex.delete oamIdxKey } f
            else if existing.status ≠ schemaStatusActive ∧ sch.status = schemaStatusActive then
              -- an entry that names the schema itself needs no check
              match ((s.indexed f oamIdxKey).filter (· ≠ sch.id)).bind (s.activeSchema f) with
              | some other => .error (slotTaken sch other)
              | none => commit { s with oamIndex := s.oamIndex.set oamIdxKey sch.id } f
            else s.commit f

/-- `BadgerStore.DeleteSchema`. -/
def deleteSchema (s : SchemaStore) (f : Faults) (id : Bytes) : Result SchemaStore :=
  if id = [] then .error (ascii "schema ID cannot be empty")
  else
    match s.loadSchema f.record id with
    | .error _ => .error (ascii "schema not found: " ++ id)
    | .ok existing =>
      let oamIdxKey := oamKey existing.operatorID existing.oamMode
      if f.write then .error dbError
      else
        let s := { s with schemas := s.schemas.delete id }
        if s.indexed f oamIdxKey = some id then
          commit { s with oamIndex := s.oamIndex.delete oamIdxKey } f
        else s.commit f

/-- `BadgerStore.GetActiveSchemaForOam`. -/
def getActiveSchemaForOam (s : SchemaStore) (f : Faults) (operatorID : Bytes) (oamMode : Int32) :
    Result Schema :=
  let noSchema := ascii "no active schema for operator " ++ operatorID ++ ascii " OAM " ++
    decimalInt oamMode.toInt ++ ascii ": "
  if operatorID = [] then .error (ascii "operator ID cannot be empty")
  else if f.index then .error (noSchema ++ dbError)
  else
    match s.oamIndex.get (oamKey operatorID oamMode) with
    | none => .error (noSchema ++ ascii "Key not found")
    | some id =>
      match s.loadSchema f.occupant id with
      | .error err => .error err
      | .ok sch =>
        if sch.status ≠ schemaStatusActive then
          .error (ascii "indexed schema " ++ sch.id ++ ascii " is not ACTIVE (status " ++
            schemaStatusString sch.status ++ ascii ")")
        else .ok sch

end SchemaStore

end Otap.Flr
