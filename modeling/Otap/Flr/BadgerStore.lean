import Otap.Lib.FlatStore
import Otap.Flr.SchemaApi

/-!
# The Badger store

Embeds the lease, endpoint, operator and commitment operations of `flr/internal/registry/badger_store.go` and
the schema operations of `schema_store.go` over the one key space they share: every record is JSON under a
string made of a prefix and unescaped IDs.

A database is an ordered map of byte strings. An operation runs in one transaction, which sees its own writes
and is dropped when the operation returns an error. JSON is a `Codec` for each record type. The database does
not fail by itself, and the audit log, under a prefix of its own, is left out.
-/

namespace Otap.Flr

open Otap.Lib

abbrev Badger := KV Bytes

/-- `json.Marshal` and `json.Unmarshal` of the records. -/
structure Codecs where
  lease : Codec Lease
  endpoint : Codec Endpoint
  operator : Codec Operator
  commitment : Codec MerkleCommitment
  schema : Codec Schema

/-! ## Keys -/

def prefixLease : Bytes := ascii "lease:"
def prefixEndpoint : Bytes := ascii "endpoint:"
def prefixOperator : Bytes := ascii "operator:"
def prefixCommitment : Bytes := ascii "commitment:"
def prefixSchema : Bytes := ascii "schema:"
def prefixSchemaOamIdx : Bytes := ascii "schema_oam:"

/-! ## Leases, endpoints and operators -/

/-- What the operations on a kind of record with an ID differ in. -/
structure RecordKind (α : Type) where
  noun : Bytes
  start : Bytes
  id : α → Bytes

def leaseRecord : RecordKind Lease where
  noun := ascii "lease"
  start := prefixLease
  id := Lease.id

def endpointRecord : RecordKind Endpoint where
  noun := ascii "endpoint"
  start := prefixEndpoint
  id := Endpoint.id

def operatorRecord : RecordKind Operator where
  noun := ascii "operator"
  start := prefixOperator
  id := Operator.id

section Records

variable {α : Type} (kind : RecordKind α) (json : Codec α) (db : Badger)

/-- Storing a new record. -/
def createRecord (record : Option α) : Result Badger :=
  match record with
  | none => .error (kind.noun ++ ascii " cannot be nil")
  | some record =>
    if kind.id record = [] then .error (kind.noun ++ ascii " ID cannot be empty")
    else
      let key := kind.start ++ kind.id record
      match db.get key with
      | some _ => .error (kind.noun ++ ascii " already exists: " ++ kind.id record)
      | none =>
        match json.marshal record with
        | .error err => .error (ascii "failed to marshal " ++ kind.noun ++ ascii ": " ++ err)
        | .ok data => .ok (db.set key data)

def getRecord (id : Bytes) : Result α :=
  if id = [] then .error (kind.noun ++ ascii " ID cannot be empty")
  else
    match db.get (kind.start ++ id) with
    | none => .error (kind.noun ++ ascii " not found: " ++ id)
    | some val => json.unmarshal val

/-- The loop over the values of an iterator; the first one that cannot be read ends it. -/
def collect (keep : α → Bool) : List Bytes → Result (List α)
  | [] => .ok []
  | val :: rest =>
    match json.unmarshal val with
    | .error err => .error (ascii "failed to unmarshal " ++ kind.noun ++ ascii ": " ++ err)
    | .ok record =>
      match collect keep rest with
      | .error err => .error err
      | .ok records => .ok (if keep record then record :: records else records)

def listRecords (keep : α → Bool) : Result (List α) :=
  collect kind json keep ((db.scan kind.start).map Prod.snd)

end Records

structure EndpointFilter where
  operatorID : Bytes := []
  status : EndpointStatus := .unspecified

/-- The filters of `ListEndpoints`; an empty one admits every endpoint. -/
def EndpointFilter.admits (filter : EndpointFilter) (ep : Endpoint) : Bool :=
  (filter.operatorID == [] || ep.operatorID == filter.operatorID) &&
  (filter.status == .unspecified || ep.status == filter.status)

namespace BadgerStore

variable (json : Codecs) (db : Badger)

/-- `CreateLease`. -/
def createLease (lease : Option Lease) : Result Badger :=
  createRecord leaseRecord json.lease db lease

/-- `GetLease`. -/
def getLease (id : Bytes) : Result Lease :=
  getRecord leaseRecord json.lease db id

/-- `UpdateLease`, with `now` its clock reading. -/
def updateLease (now : Time) (lease : Option Lease) : Result Badger :=
  match lease with
  | none => .error (ascii "lease cannot be nil")
  | some lease =>
    if lease.id = [] then .error (ascii "lease ID cannot be empty")
    else
      let key := prefixLease ++ lease.id
      match db.get key with
      | none => .error (ascii "lease not found: " ++ lease.id)
      | some _ =>
        match json.lease.marshal { lease with updatedAt := now } with
        | .error err => .error (ascii "failed to marshal lease: " ++ err)
        | .ok data => .ok (db.set key data)

/-- `DeleteLease`. -/
def deleteLease (id : Bytes) : Result Badger :=
  if id = [] then .error (ascii "lease ID cannot be empty")
  else .ok (db.delete (prefixLease ++ id))

/-- `ListLeases`. -/
def listLeases (filter : LeaseFilter) : Result (List Lease) :=
  listRecords leaseRecord json.lease db filter.admits

/-- `CreateEndpoint`. -/
def createEndpoint (ep : Option Endpoint) : Result Badger :=
  createRecord endpointRecord json.endpoint db ep

/-- `GetEndpoint`. -/
def getEndpoint (id : Bytes) : Result Endpoint :=
  getRecord endpointRecord json.endpoint db id

/-- `ListEndpoints`. -/
def listEndpoints (filter : EndpointFilter) : Result (List Endpoint) :=
  listRecords endpointRecord json.endpoint db filter.admits

/-- `CreateOperator`. -/
def createOperator (op : Option Operator) : Result Badger :=
  createRecord operatorRecord json.operator db op

/-- `GetOperator`. -/
def getOperator (id : Bytes) : Result Operator :=
  getRecord operatorRecord json.operator db id

/-- `ListOperators`. -/
def listOperators : Result (List Operator) :=
  listRecords operatorRecord json.operator db fun _ => true

/-! ## Commitments -/

/-- `SaveCommitment`. -/
def saveCommitment (c : Option MerkleCommitment) : Result Badger :=
  match c with
  | none => .error (ascii "commitment cannot be nil")
  | some c =>
    if c.operatorID = [] then .error (ascii "operator ID cannot be empty")
    else
      match json.commitment.marshal c with
      | .error err => .error (ascii "failed to marshal commitment: " ++ err)
      | .ok data =>
        let db := db.set (prefixCommitment ++ heightKey c.operatorID c.blockHeight) data
        .ok (db.set (prefixCommitment ++ latestKey c.operatorID) data)

/-- `GetCommitment`. -/
def getCommitment (operatorID : Bytes) (blockHeight : Int64) : Result MerkleCommitment :=
  if operatorID = [] then .error (ascii "operator ID cannot be empty")
  else
    match db.get (prefixCommitment ++ heightKey operatorID blockHeight) with
    | none =>
      .error (ascii "commitment not found for operator " ++ operatorID ++ ascii " at height " ++
        decimalInt blockHeight.toInt)
    | some val => json.commitment.unmarshal val

/-- `GetLatestCommitment`. -/
def getLatestCommitment (operatorID : Bytes) : Result MerkleCommitment :=
  if operatorID = [] then .error (ascii "operator ID cannot be empty")
  else
    match db.get (prefixCommitment ++ latestKey operatorID) with
    | none => .error (ascii "no commitment found for operator " ++ operatorID)
    | some val => json.commitment.unmarshal val

/-! ## Schemas -/

/-- `loadSchema`. -/
def loadSchema (id : Bytes) : Result Schema :=
  match db.get (prefixSchema ++ id) with
  | none => .error (ascii "schema not found: " ++ id)
  | some v =>
    match json.schema.unmarshal v with
    | .error err => .error (ascii "unmarshal schema: " ++ err)
    | .ok sch => .ok sch

/-- The ACTIVE schema that an index entry names, as `CreateSchema` and `UpdateSchema` look for it: a schema
    that does not load counts as none. -/
def occupant (id : Bytes) : Option Schema :=
  match loadSchema json db id with
  | .error _ => none
  | .ok sch => if sch.status = schemaStatusActive then some sch else none

def oamIdxKey (operatorID : Bytes) (oamMode : Int32) : Bytes :=
  prefixSchemaOamIdx ++ oamKey operatorID oamMode

/-- `CreateSchema`. -/
def createSchema (sch : Option Schema) : Result Badger :=
  match sch with
  | none => .error (ascii "schema cannot be nil")
  | some sch =>
    if sch.id = [] then .error (ascii "schema ID cannot be empty")
    else
      let primaryKey := prefixSchema ++ sch.id
      let idxKey := oamIdxKey sch.operatorID sch.oamMode
      match db.get primaryKey with
      | some _ => .error (ascii "schema already exists: " ++ sch.id)
      | none =>
        let existing :=
          if sch.status = schemaStatusActive then (db.get idxKey).bind (occupant json db) else none
        match existing with
        | some existing => .error (SchemaStore.slotTaken sch existing)
        | none =>
          match json.schema.marshal sch with
          | .error err => .error (ascii "marshal schema: " ++ err)
          | .ok data =>
            let db := db.set primaryKey data
            if sch.status = schemaStatusActive then .ok (db.set idxKey sch.id) else .ok db

/-- `GetSchema`. -/
def getSchema (id : Bytes) : Result Schema :=
  if id = [] then .error (ascii "schema ID cannot be empty") else loadSchema json db id

/-- `UpdateSchema`. -/
def updateSchema (sch : Option Schema) : Result Badger :=
  match sch with
  | none => .error (ascii "schema cannot be nil")
  | some sch =>
    if sch.id = [] then .error (ascii "schema ID cannot be empty")
    else
      let idxKey := oamIdxKey sch.operatorID sch.oamMode
      match loadSchema json db sch.id with
      | .error _ => .error (ascii "schema not found: " ++ sch.id)
      | .ok existing =>
        match json.schema.marshal sch with
        | .error err => .error (ascii "marshal schema: " ++ err)
        | .ok data =>
          let db := db.set (prefixSchema ++ sch.id) data
          if existing.status = schemaStatusActive ∧ sch.status ≠ schemaStatusActive then
            .ok (db.delete idxKey)
          else if existing.status ≠ schemaStatusActive ∧ sch.status = schemaStatusActive then
            -- an entry that names the schema itself needs no check
            match ((db.get idxKey).filter (· ≠ sch.id)).bind (occupant json db) with
            | some other => .error (SchemaStore.slotTaken sch other)
            | none => .ok (db.set idxKey sch.id)
          else .ok db

/-- `DeleteSchema`. -/
def deleteSchema (id : Bytes) : Result Badger :=
  if id = [] then .error (ascii "schema ID cannot be empty")
  else
    match loadSchema json db id with
    | .error _ => .error (ascii "schema not found: " ++ id)
    | .ok existing =>
      let idxKey := oamIdxKey existing.operatorID existing.oamMode
      let db := db.delete (prefixSchema ++ id)
      if db.get idxKey = some id then .ok (db.delete idxKey) else .ok db

/-- `ListSchemas`, which skips what it cannot read. -/
def listSchemas (filter : SchemaFilter) : List Schema :=
  ((db.scan prefixSchema).map Prod.snd).filterMap fun v =>
    match json.schema.unmarshal v with
    | .error _ => none
    | .ok sch => if schemaMatches sch filter then some sch else none

/-- `GetActiveSchemaForOam`. -/
def getActiveSchemaForOam (operatorID : Bytes) (oamMode : Int32) : Result Schema :=
  if operatorID = [] then .error (ascii "operator ID cannot be empty")
  else
    match db.get (oamIdxKey operatorID oamMode) with
    | none =>
      .error (ascii "no active schema for operator " ++ operatorID ++ ascii " OAM " ++
        decimalInt oamMode.toInt ++ ascii ": Key not found")
    | some id =>
      match loadSchema json db id with
      | .error err => .error err
      | .ok sch =>
        if sch.status ≠ schemaStatusActive then
          .error (ascii "indexed schema " ++ sch.id ++ ascii " is not ACTIVE (status " ++
            schemaStatusString sch.status ++ ascii ")")
        else .ok sch

end BadgerStore

/-! ## Calls -/

/-- The calls of the store, with the clock reading of the one that reads it. -/
inductive StoreCall where
  | createLease (lease : Option Lease)
  | getLease (id : Bytes)
  | updateLease (now : Time) (lease : Option Lease)
  | deleteLease (id : Bytes)
  | listLeases (filter : LeaseFilter)
  | createEndpoint (ep : Option Endpoint)
  | getEndpoint (id : Bytes)
  | listEndpoints (filter : EndpointFilter)
  | createOperator (op : Option Operator)
  | getOperator (id : Bytes)
  | listOperators
  | saveCommitment (c : Option MerkleCommitment)
  | getCommitment (operatorID : Bytes) (blockHeight : Int64)
  | getLatestCommitment (operatorID : Bytes)
  | createSchema (sch : Option Schema)
  | getSchema (id : Bytes)
  | updateSchema (sch : Option Schema)
  | deleteSchema (id : Bytes)
  | listSchemas (filter : SchemaFilter)
  | getActiveSchemaForOam (operatorID : Bytes) (oamMode : Int32)

/-- What a call returns besides its error. -/
inductive StoreReply where
  | done
  | lease (lease : Lease)
  | leases (leases : List Lease)
  | endpoint (ep : Endpoint)
  | endpoints (eps : List Endpoint)
  | operator (op : Operator)
  | operators (ops : List Operator)
  | commitment (c : MerkleCommitment)
  | schema (sch : Schema)
  | schemas (schs : List Schema)

/-- `db.Update`: the writes of a transaction that fails are dropped. -/
def update {σ : Type} (s : σ) (result : Result σ) : σ × Result StoreReply :=
  match result with
  | .error err => (s, .error err)
  | .ok s' => (s', .ok .done)

/-- `db.View`. -/
def view {σ α : Type} (s : σ) (reply : α → StoreReply) (result : Result α) : σ × Result StoreReply :=
  (s, result.map reply)

/-- One call on the database. -/
def BadgerStore.step (json : Codecs) (db : Badger) : StoreCall → Badger × Result StoreReply
  | .createLease lease => update db (createLease json db lease)
  | .getLease id => view db .lease (getLease json db id)
  | .updateLease now lease => update db (updateLease json db now lease)
  | .deleteLease id => update db (deleteLease db id)
  | .listLeases filter => view db .leases (listLeases json db filter)
  | .createEndpoint ep => update db (createEndpoint json db ep)
  | .getEndpoint id => view db .endpoint (getEndpoint json db id)
  | .listEndpoints filter => view db .endpoints (listEndpoints json db filter)
  | .createOperator op => update db (createOperator json db op)
  | .getOperator id => view db .operator (getOperator json db id)
  | .listOperators => view db .operators (listOperators json db)
  | .saveCommitment c => update db (saveCommitment json db c)
  | .getCommitment operatorID height => view db .commitment (getCommitment json db operatorID height)
  | .getLatestCommitment operatorID => view db .commitment (getLatestCommitment json db operatorID)
  | .createSchema sch => update db (createSchema json db sch)
  | .getSchema id => view db .schema (getSchema json db id)
  | .updateSchema sch => update db (updateSchema json db sch)
  | .deleteSchema id => update db (deleteSchema json db id)
  | .listSchemas filter => view db .schemas (.ok (listSchemas json db filter))
  | .getActiveSchemaForOam operatorID mode => view db .schema (getActiveSchemaForOam json db operatorID mode)

end Otap.Flr
