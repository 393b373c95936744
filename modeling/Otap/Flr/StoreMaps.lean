import Otap.Flr.BadgerStore
import Otap.Flr.PeerSync
import Otap.Flr.SchemaIndex

/-!
# The store as independent maps

`Maps` is what the Badger store is for: a map of leases, of endpoints, of operators and of schemas by ID, of
commitments by operator and height, of the latest commitment by operator, and of the active schema's ID by
operator and OAM mode. `Maps.step` are the store's calls on them.

A `StoreKey` is a key of one of the maps and `StoreKey.stored` the string it is stored under. The strings of
different keys differ (`StoreKey.stored_injective`): the prefixes do, and behind them an ID stands alone or is
set off from a number or the word `latest` by the last colon. `Holds` says that a database represents the
maps, and there is one lemma for each kind of write that keeps it so.
-/

namespace Otap.Flr

open Otap.Lib

/-! ## The maps -/

structure Maps where
  leases : KV Lease
  endpoints : KV Endpoint
  operators : KV Operator
  schemas : KV Schema
  commitments : Bytes × Int64 → Option MerkleCommitment
  latest : Bytes → Option MerkleCommitment
  oamIndex : Bytes × Int32 → Option Bytes

/-- The place of a schema in the index. -/
def Schema.place (sch : Schema) : Bytes × Int32 :=
  (sch.operatorID, sch.oamMode)

namespace Maps

def empty : Maps where
  leases := .empty
  endpoints := .empty
  operators := .empty
  schemas := .empty
  commitments _ := none
  latest _ := none
  oamIndex _ := none

section Records

variable {α : Type} (kind : RecordKind α) (json : Codec α) (records : KV α)

/-- Adds a record under its ID, unless there is one. It has to be one that can be marshalled. -/
def create (record : Option α) : Result (KV α) :=
  match record with
  | none => .error (kind.noun ++ ascii " cannot be nil")
  | some record =>
    if kind.id record = [] then .error (kind.noun ++ ascii " ID cannot be empty")
    else if (records.get (kind.id record)).isSome then
      .error (kind.noun ++ ascii " already exists: " ++ kind.id record)
    else
      match json.marshal record with
      | .error err => .error (ascii "failed to marshal " ++ kind.noun ++ ascii ": " ++ err)
      | .ok _ => .ok (records.set (kind.id record) record)

def lookup (id : Bytes) : Result α :=
  if id = [] then .error (kind.noun ++ ascii " ID cannot be empty")
  else
    match records.get id with
    | none => .error (kind.noun ++ ascii " not found: " ++ id)
    | some record => .ok record

end Records

variable (json : Codecs) (m : Maps)

def updateLease (now : Time) (lease : Option Lease) : Result Maps :=
  match lease with
  | none => .error (ascii "lease cannot be nil")
  | some lease =>
    if lease.id = [] then .error (ascii "lease ID cannot be empty")
    else if (m.leases.get lease.id).isNone then .error (ascii "lease not found: " ++ lease.id)
    else
      let lease := { lease with updatedAt := now }
      match json.lease.marshal lease with
      | .error err => .error (ascii "failed to marshal lease: " ++ err)
      | .ok _ => .ok { m with leases := m.leases.set lease.id lease }

def deleteLease (id : Bytes) : Result Maps :=
  if id = [] then .error (ascii "lease ID cannot be empty")
  else .ok { m with leases := m.leases.delete id }

/-- Keeps the commitment at its height and as the latest one of its operator. -/
def saveCommitment (c : Option MerkleCommitment) : Result Maps :=
  match c with
  | none => .error (ascii "commitment cannot be nil")
  | some c =>
    if c.operatorID = [] then .error (ascii "operator ID cannot be empty")
    else
      match json.commitment.marshal c with
      | .error err => .error (ascii "failed to marshal commitment: " ++ err)
      | .ok _ =>
        .ok { m with
          commitments := Function.update m.commitments (c.operatorID, c.blockHeight) (some c)
          latest := Function.update m.latest c.operatorID (some c) }

def getCommitment (operatorID : Bytes) (blockHeight : Int64) : Result MerkleCommitment :=
  if operatorID = [] then .error (ascii "operator ID cannot be empty")
  else
    match m.commitments (operatorID, blockHeight) with
    | none =>
      .error (ascii "commitment not found for operator " ++ operatorID ++ ascii " at height " ++
        decimalInt blockHeight.toInt)
    | some c => .ok c

def getLatestCommitment (operatorID : Bytes) : Result MerkleCommitment :=
  if operatorID = [] then .error (ascii "operator ID cannot be empty")
  else
    match m.latest operatorID with
    | none => .error (ascii "no commitment found for operator " ++ operatorID)
    | some c => .ok c

def setIndex (slot : Bytes × Int32) (id : Option Bytes) : Maps :=
  { m with oamIndex := Function.update m.oamIndex slot id }

/-- The schema with the ID, if it is ACTIVE. -/
def active (id : Bytes) : Option Schema :=
  (m.schemas.get id).filter fun sch => sch.status = schemaStatusActive

def createSchema (sch : Option Schema) : Result Maps :=
  match sch with
  | none => .error (ascii "schema cannot be nil")
  | some sch =>
    if sch.id = [] then .error (ascii "schema ID cannot be empty")
    else if (m.schemas.get sch.id).isSome then .error (ascii "schema already exists: " ++ sch.id)
    else
      let existing :=
        if sch.status = schemaStatusActive then (m.oamIndex sch.place).bind m.active else none
      match existing with
      | some existing => .error (SchemaStore.slotTaken sch existing)
      | none =>
        match json.schema.marshal sch with
        | .error err => .error (ascii "marshal schema: " ++ err)
        | .ok _ =>
          let m := { m with schemas := m.schemas.set sch.id sch }
          if sch.status = schemaStatusActive then .ok (m.setIndex sch.place (some sch.id)) else .ok m

def loadSchema (id : Bytes) : Result Schema :=
  match m.schemas.get id with
  | none => .error (ascii "schema not found: " ++ id)
  | some sch => .ok sch

def getSchema (id : Bytes) : Result Schema :=
  if id = [] then .error (ascii "schema ID cannot be empty") else m.loadSchema id

def updateSchema (sch : Option Schema) : Result Maps :=
  match sch with
  | none => .error (ascii "schema cannot be nil")
  | some sch =>
    if sch.id = [] then .error (ascii "schema ID cannot be empty")
    else
      match m.schemas.get sch.id with
      | none => .error (ascii "schema not found: " ++ sch.id)
      | some existing =>
        match json.schema.marshal sch with
        | .error err => .error (ascii "marshal schema: " ++ err)
        | .ok _ =>
          let m := { m with schemas := m.schemas.set sch.id sch }
          if existing.status = schemaStatusActive ∧ sch.status ≠ schemaStatusActive then
            .ok (m.setIndex sch.place none)
          else if existing.status ≠ schemaStatusActive ∧ sch.status = schemaStatusActive then
            match ((m.oamIndex sch.place).filter (· ≠ sch.id)).bind m.active with
            | some other => .error (SchemaStore.slotTaken sch other)
            | none => .ok (m.setIndex sch.place (some sch.id))
          else .ok m

def deleteSchema (id : Bytes) : Result Maps :=
  if id = [] then .error (ascii "schema ID cannot be empty")
  else
    match m.schemas.get id with
    | none => .error (ascii "schema not found: " ++ id)
    | some existing =>
      let m := { m with schemas := m.schemas.delete id }
      if m.oamIndex existing.place = some id then .ok (m.setIndex existing.place none) else .ok m

def getActiveSchemaForOam (operatorID : Bytes) (oamMode : Int32) : Result Schema :=
  if operatorID = [] then .error (ascii "operator ID cannot be empty")
  else
    match m.oamIndex (operatorID, oamMode) with
    | none =>
      .error (ascii "no active schema for operator " ++ operatorID ++ ascii " OAM " ++
        decimalInt oamMode.toInt ++ ascii ": Key not found")
    | some id =>
      match m.loadSchema id with
      | .error err => .error err
      | .ok sch =>
        if sch.status ≠ schemaStatusActive then
          .error (ascii "indexed schema " ++ sch.id ++ ascii " is not ACTIVE (status " ++
            schemaStatusString sch.status ++ ascii ")")
        else .ok sch

/-- The maps after a call that writes: those it has made, or the old ones if it fails. -/
def commit : Result Maps → Maps × Result StoreReply
  | .ok m' => (m', .ok .done)
  | .error err => (m, .error err)

/-- A call that only reads. -/
def answer {α : Type} (reply : α → StoreReply) : Result α → Maps × Result StoreReply
  | .ok a => (m, .ok (reply a))
  | .error err => (m, .error err)

/-- One call on the maps. -/
def step : StoreCall → Maps × Result StoreReply
  | .createLease lease =>
    m.commit ((create leaseRecord json.lease m.leases lease).map fun leases => { m with leases := leases })
  | .getLease id => m.answer .lease (lookup leaseRecord m.leases id)
  | .updateLease now lease => m.commit (m.updateLease json now lease)
  | .deleteLease id => m.commit (m.deleteLease id)
  | .listLeases filter => m.answer .leases (.ok (m.leases.values.filter filter.admits))
  | .createEndpoint ep =>
    m.commit ((create endpointRecord json.endpoint m.endpoints ep).map fun eps => { m with endpoints := eps })
  | .getEndpoint id => m.answer .endpoint (lookup endpointRecord m.endpoints id)
  | .listEndpoints filter => m.answer .endpoints (.ok (m.endpoints.values.filter filter.admits))
  | .createOperator op =>
    m.commit ((create operatorRecord json.operator m.operators op).map fun ops => { m with operators := ops })
  | .getOperator id => m.answer .operator (lookup operatorRecord m.operators id)
  | .listOperators => m.answer .operators (.ok m.operators.values)
  | .saveCommitment c => m.commit (m.saveCommitment json c)
  | .getCommitment operatorID height => m.answer .commitment (m.getCommitment operatorID height)
  | .getLatestCommitment operatorID => m.answer .commitment (m.getLatestCommitment operatorID)
  | .createSchema sch => m.commit (m.createSchema json sch)
  | .getSchema id => m.answer .schema (m.getSchema id)
  | .updateSchema sch => m.commit (m.updateSchema json sch)
  | .deleteSchema id => m.commit (m.deleteSchema id)
  | .listSchemas filter => m.answer .schemas (.ok (m.schemas.values.filter (schemaMatches · filter)))
  | .getActiveSchemaForOam operatorID mode => m.answer .schema (m.getActiveSchemaForOam operatorID mode)

end Maps

/-! ## Keys -/

/-- The prefixes of the store, each of which is a word and a colon. -/
inductive Table where
  | leases
  | endpoints
  | operators
  | commitments
  | schemas
  | oamIndex
  deriving DecidableEq

def Table.word : Table → Bytes
  | leases => ascii "lease"
  | endpoints => ascii "endpoint"
  | operators => ascii "operator"
  | commitments => ascii "commitment"
  | schemas => ascii "schema"
  | oamIndex => ascii "schema_oam"

lemma Table.word_injective : Function.Injective Table.word := by
  intro a b
  cases a <;> cases b <;> decide

lemma Table.colon_notMem_word (t : Table) : (58 : UInt8) ∉ t.word := by
  cases t <;> decide

/-- A key of one of the maps. -/
inductive StoreKey where
  | lease (id : Bytes)
  | endpoint (id : Bytes)
  | operator (id : Bytes)
  | schema (id : Bytes)
  | commitment (operatorID : Bytes) (blockHeight : Int64)
  | latest (operatorID : Bytes)
  | oamIndex (operatorID : Bytes) (oamMode : Int32)
  deriving DecidableEq

namespace StoreKey

/-- The string a key is stored under. -/
def stored : StoreKey → Bytes
  | lease id => prefixLease ++ id
  | endpoint id => prefixEndpoint ++ id
  | operator id => prefixOperator ++ id
  | schema id => prefixSchema ++ id
  | commitment operatorID blockHeight => prefixCommitment ++ heightKey operatorID blockHeight
  | latest operatorID => prefixCommitment ++ latestKey operatorID
  | oamIndex operatorID oamMode => BadgerStore.oamIdxKey operatorID oamMode

def table : StoreKey → Table
  | lease _ => .leases
  | endpoint _ => .endpoints
  | operator _ => .operators
  | schema _ => .schemas
  | commitment _ _ | latest _ => .commitments
  | oamIndex _ _ => .oamIndex

/-- What follows the prefix. -/
def rest : StoreKey → Bytes
  | lease id | endpoint id | operator id | schema id => id
  | commitment operatorID blockHeight => entryKey operatorID (.height blockHeight)
  | latest operatorID => entryKey operatorID .latest
  | oamIndex operatorID oamMode => oamKey operatorID oamMode

lemma stored_eq (k : StoreKey) : k.stored = k.table.word ++ 58 :: k.rest := by
  cases k with
  | lease | endpoint | operator | schema | oamIndex => rfl
  | commitment operatorID height =>
    rw [rest, entryKey_height]
    rfl
  | latest operatorID =>
    rw [rest, entryKey_latest]
    rfl

/-- Different keys are stored under different strings. -/
lemma stored_injective : Function.Injective stored := by
  intro a b same
  rw [stored_eq, stored_eq] at same
  obtain ⟨words, rests⟩ := separated_inj_left a.table.colon_notMem_word b.table.colon_notMem_word same
  have tables := Table.word_injective words
  cases a with
  | lease id =>
    cases b with
    | lease id' => exact congrArg lease rests
    | _ => cases tables
  | endpoint id =>
    cases b with
    | endpoint id' => exact congrArg endpoint rests
    | _ => cases tables
  | operator id =>
    cases b with
    | operator id' => exact congrArg operator rests
    | _ => cases tables
  | schema id =>
    cases b with
    | schema id' => exact congrArg schema rests
    | _ => cases tables
  | commitment operatorID height =>
    cases b with
    | commitment operatorID' height' =>
      obtain ⟨rfl, entry⟩ := entryKey_inj.mp rests
      cases entry
      rfl
    | latest operatorID' =>
      obtain ⟨-, entry⟩ := entryKey_inj.mp rests
      cases entry
    | _ => cases tables
  | latest operatorID =>
    cases b with
    | commitment operatorID' height' =>
      obtain ⟨-, entry⟩ := entryKey_inj.mp rests
      cases entry
    | latest operatorID' =>
      obtain ⟨rfl, -⟩ := entryKey_inj.mp rests
      rfl
    | _ => cases tables
  | oamIndex operatorID mode =>
    cases b with
    | oamIndex operatorID' mode' =>
      obtain ⟨rfl, rfl⟩ := oamKey_inj rests
      rfl
    | _ => cases tables

/-- What the map of a key holds. -/
def Value : StoreKey → Type
  | lease _ => Lease
  | endpoint _ => Endpoint
  | operator _ => Operator
  | schema _ => Schema
  | commitment _ _ | latest _ => MerkleCommitment
  | oamIndex _ _ => Bytes

end StoreKey

/-- How the values of a map are stored. -/
def Codecs.codec (json : Codecs) : ∀ k : StoreKey, Codec k.Value
  | .lease _ => json.lease
  | .endpoint _ => json.endpoint
  | .operator _ => json.operator
  | .schema _ => json.schema
  | .commitment _ _ | .latest _ => json.commitment
  | .oamIndex _ _ => .raw

/-- The content of the maps at a key. -/
def Maps.cell (m : Maps) : ∀ k : StoreKey, Option k.Value
  | .lease id => m.leases.get id
  | .endpoint id => m.endpoints.get id
  | .operator id => m.operators.get id
  | .schema id => m.schemas.get id
  | .commitment operatorID blockHeight => m.commitments (operatorID, blockHeight)
  | .latest operatorID => m.latest operatorID
  | .oamIndex operatorID oamMode => m.oamIndex (operatorID, oamMode)

/-- The database holds the maps. -/
def Holds (json : Codecs) (db : Badger) (m : Maps) : Prop :=
  Represents json.codec StoreKey.stored db m.cell

/-- JSON gives back the record that the call writes. -/
def StoreCall.RoundTrips (json : Codecs) : StoreCall → Prop
  | createLease lease => ∀ l ∈ lease, json.lease.RoundTrips l
  | updateLease now lease => ∀ l ∈ lease, json.lease.RoundTrips { l with updatedAt := now }
  | createEndpoint ep => ∀ e ∈ ep, json.endpoint.RoundTrips e
  | createOperator op => ∀ o ∈ op, json.operator.RoundTrips o
  | saveCommitment c => ∀ c' ∈ c, json.commitment.RoundTrips c'
  | createSchema sch | updateSchema sch => ∀ s ∈ sch, json.schema.RoundTrips s
  | _ => True

namespace Holds

variable {json : Codecs} {db : Badger} {m : Maps}

/-! ## The records under each prefix -/

lemma leases (rep : Holds json db m) (id : Bytes) :
    json.lease.Cell (db.get (leaseRecord.start ++ id)) (m.leases.get id) :=
  rep (.lease id)

lemma endpoints (rep : Holds json db m) (id : Bytes) :
    json.endpoint.Cell (db.get (endpointRecord.start ++ id)) (m.endpoints.get id) :=
  rep (.endpoint id)

lemma operators (rep : Holds json db m) (id : Bytes) :
    json.operator.Cell (db.get (operatorRecord.start ++ id)) (m.operators.get id) :=
  rep (.operator id)

lemma schemas (rep : Holds json db m) (id : Bytes) :
    json.schema.Cell (db.get (prefixSchema ++ id)) (m.schemas.get id) :=
  rep (.schema id)

/-! ## Writes -/

/-- A write of one cell. -/
lemma set (rep : Holds json db m) (k : StoreKey) {v : k.Value} {b : Bytes}
    (read : (json.codec k).unmarshal b = .ok v) {m' : Maps} (here : m'.cell k = some v)
    (elsewhere : ∀ k' ≠ k, m'.cell k' = m.cell k') : Holds json (db.set k.stored b) m' := by
  rw [Holds, Function.eq_update_iff.mpr ⟨here, elsewhere⟩]
  exact Represents.set rep StoreKey.stored_injective read

lemma delete (rep : Holds json db m) (k : StoreKey) {m' : Maps} (here : m'.cell k = none)
    (elsewhere : ∀ k' ≠ k, m'.cell k' = m.cell k') : Holds json (db.delete k.stored) m' := by
  rw [Holds, Function.eq_update_iff.mpr ⟨here, elsewhere⟩]
  exact Represents.delete rep StoreKey.stored_injective k

lemma setLease (rep : Holds json db m) (id : Bytes) {lease : Lease} {b : Bytes}
    (read : json.lease.unmarshal b = .ok lease) :
    Holds json (db.set (prefixLease ++ id) b) { m with leases := m.leases.set id lease } := by
  refine rep.set (.lease id) read (KV.get_set_self ..) fun k ne => ?_
  cases k with
  | lease id' => exact KV.get_set_ne _ _ fun same => ne (congrArg _ same)
  | _ => rfl

lemma deleteLease (rep : Holds json db m) (id : Bytes) :
    Holds json (db.delete (prefixLease ++ id)) { m with leases := m.leases.delete id } := by
  refine rep.delete (.lease id) ((KV.get_delete ..).trans (if_pos rfl)) fun k ne => ?_
  cases k with
  | lease id' => exact (KV.get_delete ..).trans (if_neg fun same => ne (congrArg _ same))
  | _ => rfl

lemma setEndpoint (rep : Holds json db m) (id : Bytes) {ep : Endpoint} {b : Bytes}
    (read : json.endpoint.unmarshal b = .ok ep) :
    Holds json (db.set (prefixEndpoint ++ id) b) { m with endpoints := m.endpoints.set id ep } := by
  refine rep.set (.endpoint id) read (KV.get_set_self ..) fun k ne => ?_
  cases k with
  | endpoint id' => exact KV.get_set_ne _ _ fun same => ne (congrArg _ same)
  | _ => rfl

lemma setOperator (rep : Holds json db m) (id : Bytes) {op : Operator} {b : Bytes}
    (read : json.operator.unmarshal b = .ok op) :
    Holds json (db.set (prefixOperator ++ id) b) { m with operators := m.operators.set id op } := by
  refine rep.set (.operator id) read (KV.get_set_self ..) fun k ne => ?_
  cases k with
  | operator id' => exact KV.get_set_ne _ _ fun same => ne (congrArg _ same)
  | _ => rfl

lemma setSchema (rep : Holds json db m) (id : Bytes) {sch : Schema} {b : Bytes}
    (read : json.schema.unmarshal b = .ok sch) :
    Holds json (db.set (prefixSchema ++ id) b) { m with schemas := m.schemas.set id sch } := by
  refine rep.set (.schema id) read (KV.get_set_self ..) fun k ne => ?_
  cases k with
  | schema id' => exact KV.get_set_ne _ _ fun same => ne (congrArg _ same)
  | _ => rfl

lemma deleteSchema (rep : Holds json db m) (id : Bytes) :
    Holds json (db.delete (prefixSchema ++ id)) { m with schemas := m.schemas.delete id } := by
  refine rep.delete (.schema id) ((KV.get_delete ..).trans (if_pos rfl)) fun k ne => ?_
  cases k with
  | schema id' => exact (KV.get_delete ..).trans (if_neg fun same => ne (congrArg _ same))
  | _ => rfl

lemma setCommitment (rep : Holds json db m) {c : MerkleCommitment} {b : Bytes}
    (read : json.commitment.unmarshal b = .ok c) :
    Holds json (db.set (prefixCommitment ++ heightKey c.operatorID c.blockHeight) b)
      { m with commitments := Function.update m.commitments (c.operatorID, c.blockHeight) (some c) } := by
  refine rep.set (.commitment c.operatorID c.blockHeight) read (Function.update_self ..) fun k ne => ?_
  cases k with
  | commitment operatorID height =>
    refine Function.update_of_ne (fun same => ne ?_) ..
    cases same
    rfl
  | _ => rfl

lemma setLatest (rep : Holds json db m) {c : MerkleCommitment} {b : Bytes}
    (read : json.commitment.unmarshal b = .ok c) :
    Holds json (db.set (prefixCommitment ++ latestKey c.operatorID) b)
      { m with latest := Function.update m.latest c.operatorID (some c) } := by
  refine rep.set (.latest c.operatorID) read (Function.update_self ..) fun k ne => ?_
  cases k with
  | latest operatorID => exact Function.update_of_ne (fun same => ne (congrArg _ same)) ..
  | _ => rfl

lemma cell_setIndex_ne {operatorID : Bytes} {mode : Int32} {id : Option Bytes} {k : StoreKey}
    (ne : k ≠ .oamIndex operatorID mode) : (m.setIndex (operatorID, mode) id).cell k = m.cell k := by
  cases k with
  | oamIndex operatorID' mode' =>
    refine Function.update_of_ne (fun same => ne ?_) ..
    cases same
    rfl
  | _ => rfl

lemma setIndex (rep : Holds json db m) (operatorID : Bytes) (mode : Int32) (id : Bytes) :
    Holds json (db.set (BadgerStore.oamIdxKey operatorID mode) id) (m.setIndex (operatorID, mode) (some id)) :=
  rep.set (.oamIndex operatorID mode) rfl (Function.update_self ..) fun _ => cell_setIndex_ne

lemma deleteIndex (rep : Holds json db m) (operatorID : Bytes) (mode : Int32) :
    Holds json (db.delete (BadgerStore.oamIdxKey operatorID mode)) (m.setIndex (operatorID, mode) none) :=
  rep.delete (.oamIndex operatorID mode) (Function.update_self ..) fun _ => cell_setIndex_ne

end Holds

end Otap.Flr
