import Otap.Lib.Run
import Otap.Flr.StoreMaps

/-!
# The store refines the maps

Every call of the Badger store does to the database what `Maps.step` does to the maps that it holds, and
answers the same, if JSON gives back the record that the call writes. The reads of a call are rewritten to reads
of the maps (`getRecord_eq`, `loadSchema_eq`, `getIndex_eq`), and its result matches the one on the maps.
`store_refines_maps` puts the calls of a run together: what was stored is what the next read returns.
-/

namespace Otap.Flr

open Otap.Lib

/-! ## Records -/

section Records

variable {α : Type} {kind : RecordKind α} {json : Codec α} {db : Badger} {records : KV α}

/-- A record is created in the database as in its map. -/
lemma createRecord_matches (rep : ∀ id, json.Cell (db.get (kind.start ++ id)) (records.get id))
    {record : Option α} (round : ∀ r ∈ record, json.RoundTrips r) :
    Matches (fun db' records' => ∃ r b, json.unmarshal b = .ok r ∧ db' = db.set (kind.start ++ kind.id r) b ∧
        records' = records.set (kind.id r) r)
      (createRecord kind json db record) (Maps.create kind json records record) := by
  cases record with
  | none => exact .error _
  | some r =>
    rw [createRecord, Maps.create]
    refine .guard fun _ => ?_
    dsimp only
    have cell := rep (kind.id r)
    generalize db.get (kind.start ++ kind.id r) = stored at cell
    generalize records.get (kind.id r) = content at cell
    cases cell with
    | present => exact .error _
    | absent =>
      cases written : json.marshal r with
      | error err => exact .error _
      | ok b => exact .ok ⟨r, b, round r rfl written, rfl, rfl⟩

/-- A record is read as in its map. -/
lemma getRecord_eq (rep : ∀ id, json.Cell (db.get (kind.start ++ id)) (records.get id)) (id : Bytes) :
    getRecord kind json db id = Maps.lookup kind records id := by
  rw [getRecord, Maps.lookup]
  have cell := rep id
  generalize db.get (kind.start ++ id) = stored at cell
  generalize records.get id = content at cell
  cases cell with
  | absent => rfl
  | present read => simp only [read]

/-- The loop of an iterator reads all values and keeps the admitted ones. -/
lemma collect_eq (keep : α → Bool) {data : List Bytes} {values : List α}
    (rel : List.Forall₂ (fun b v => json.unmarshal b = .ok v) data values) :
    collect kind json keep data = .ok (values.filter keep) := by
  induction rel with
  | nil => rfl
  | cons read _ ih =>
    rw [collect, read, ih, List.filter_cons]

/-- The records are listed as in their map. -/
lemma listRecords_eq (rep : ∀ id, json.Cell (db.get (kind.start ++ id)) (records.get id)) (keep : α → Bool) :
    listRecords kind json db keep = .ok (records.values.filter keep) :=
  collect_eq keep (KV.scan_entries rep)

end Records

/-! ## The calls -/

section Calls

variable {json : Codecs} {db : Badger} {m : Maps} (rep : Holds json db m)

include rep

/-- `UpdateLease` matches the update of the map. -/
lemma updateLease_matches {now : Time} {lease : Option Lease}
    (round : ∀ l ∈ lease, json.lease.RoundTrips { l with updatedAt := now }) :
    Matches (Holds json) (BadgerStore.updateLease json db now lease) (m.updateLease json now lease) := by
  cases lease with
  | none => exact .error _
  | some lease =>
    rw [BadgerStore.updateLease, Maps.updateLease]
    refine .guard fun _ => ?_
    dsimp only
    have cell : json.lease.Cell (db.get (prefixLease ++ lease.id)) (m.leases.get lease.id) :=
      rep.leases lease.id
    generalize db.get (prefixLease ++ lease.id) = stored at cell
    generalize m.leases.get lease.id = content at cell
    cases cell with
    | absent => exact .error _
    | present =>
      cases written : json.lease.marshal { lease with updatedAt := now } with
      | error err => exact .error _
      | ok b => exact .ok (rep.setLease lease.id (round lease rfl written))

/-- `DeleteLease` matches the deletion from the map. -/
lemma deleteLease_matches (id : Bytes) :
    Matches (Holds json) (BadgerStore.deleteLease db id) (m.deleteLease id) := by
  rw [BadgerStore.deleteLease, Maps.deleteLease]
  refine .guard fun _ => ?_
  exact .ok (rep.deleteLease id)

/-- `SaveCommitment` matches the two writes to the maps. -/
lemma saveCommitment_matches {c : Option MerkleCommitment} (round : ∀ c' ∈ c, json.commitment.RoundTrips c') :
    Matches (Holds json) (BadgerStore.saveCommitment json db c) (m.saveCommitment json c) := by
  cases c with
  | none => exact .error _
  | some c =>
    rw [BadgerStore.saveCommitment, Maps.saveCommitment]
    refine .guard fun _ => ?_
    cases written : json.commitment.marshal c with
    | error err => exact .error _
    | ok b =>
      have read := round c rfl written
      exact .ok ((rep.setCommitment read).setLatest read)

/-- The index holds IDs as they are. -/
lemma getIndex_eq (operatorID : Bytes) (mode : Int32) :
    db.get (BadgerStore.oamIdxKey operatorID mode) = m.oamIndex (operatorID, mode) :=
  Codec.Cell.raw_eq (rep (.oamIndex operatorID mode))

/-- The entry at the place of a schema. -/
lemma getIndex_place (sch : Schema) :
    db.get (BadgerStore.oamIdxKey sch.operatorID sch.oamMode) = m.oamIndex sch.place :=
  getIndex_eq rep ..

/-- `GetCommitment` answers from its map. -/
lemma getCommitment_eq (operatorID : Bytes) (height : Int64) :
    BadgerStore.getCommitment json db operatorID height = m.getCommitment operatorID height := by
  rw [BadgerStore.getCommitment, Maps.getCommitment]
  have cell : json.commitment.Cell (db.get (prefixCommitment ++ heightKey operatorID height))
      (m.commitments (operatorID, height)) := rep (.commitment operatorID height)
  generalize db.get (prefixCommitment ++ heightKey operatorID height) = stored at cell
  generalize m.commitments (operatorID, height) = content at cell
  cases cell with
  | absent => rfl
  | present read => simp only [read]

/-- `GetLatestCommitment` answers from its map. -/
lemma getLatestCommitment_eq (operatorID : Bytes) :
    BadgerStore.getLatestCommitment json db operatorID = m.getLatestCommitment operatorID := by
  rw [BadgerStore.getLatestCommitment, Maps.getLatestCommitment]
  have cell : json.commitment.Cell (db.get (prefixCommitment ++ latestKey operatorID))
      (m.latest operatorID) := rep (.latest operatorID)
  generalize db.get (prefixCommitment ++ latestKey operatorID) = stored at cell
  generalize m.latest operatorID = content at cell
  cases cell with
  | absent => rfl
  | present read => simp only [read]

/-- A schema is loaded as from its map. -/
lemma loadSchema_eq (id : Bytes) : BadgerStore.loadSchema json db id = m.loadSchema id := by
  rw [BadgerStore.loadSchema, Maps.loadSchema]
  have cell := rep.schemas id
  generalize db.get (prefixSchema ++ id) = stored at cell
  generalize m.schemas.get id = content at cell
  cases cell with
  | absent => rfl
  | present read => simp only [read]

/-- An index entry names an ACTIVE schema of the database exactly if it does of the maps. -/
lemma occupant_eq : BadgerStore.occupant json db = m.active := by
  funext id
  rw [BadgerStore.occupant, Maps.active, loadSchema_eq rep, Maps.loadSchema]
  cases m.schemas.get id with
  | none => rfl
  | some sch =>
    simp only [Option.filter_some, decide_eq_true_eq]

/-- `CreateSchema` matches the creation in the maps. -/
lemma createSchema_matches {sch : Option Schema} (round : ∀ s ∈ sch, json.schema.RoundTrips s) :
    Matches (Holds json) (BadgerStore.createSchema json db sch) (m.createSchema json sch) := by
  cases sch with
  | none => exact .error _
  | some sch =>
    rw [BadgerStore.createSchema, Maps.createSchema]
    refine .guard fun _ => ?_
    simp only [getIndex_place rep, occupant_eq rep]
    have cell := rep.schemas sch.id
    generalize db.get (prefixSchema ++ sch.id) = stored at cell
    generalize m.schemas.get sch.id = content at cell
    cases cell with
    | present => exact .error _
    | absent =>
      simp only [Option.isSome_none, Bool.false_eq_true, if_false]
      generalize (if sch.status = schemaStatusActive then
        (m.oamIndex sch.place).bind m.active else none) = existing
      cases existing with
      | some existing => exact .error _
      | none =>
        cases written : json.schema.marshal sch with
        | error err => exact .error _
        | ok b =>
          have stored := rep.setSchema sch.id (round sch rfl written)
          by_cases active : sch.status = schemaStatusActive
          · simp only [if_pos active]
            exact .ok (stored.setIndex sch.operatorID sch.oamMode sch.id)
          · simp only [if_neg active]
            exact .ok stored

/-- `GetSchema` answers from its map. -/
lemma getSchema_eq (id : Bytes) : BadgerStore.getSchema json db id = m.getSchema id := by
  rw [BadgerStore.getSchema, Maps.getSchema, loadSchema_eq rep]

/-- `UpdateSchema` matches the update of the maps. -/
lemma updateSchema_matches {sch : Option Schema} (round : ∀ s ∈ sch, json.schema.RoundTrips s) :
    Matches (Holds json) (BadgerStore.updateSchema json db sch) (m.updateSchema json sch) := by
  cases sch with
  | none => exact .error _
  | some sch =>
    rw [BadgerStore.updateSchema, Maps.updateSchema]
    refine .guard fun _ => ?_
    simp only [loadSchema_eq rep, Maps.loadSchema]
    cases m.schemas.get sch.id with
    | none => exact .error _
    | some existing =>
      cases written : json.schema.marshal sch with
      | error err => exact .error _
      | ok b =>
        have stored := rep.setSchema sch.id (round sch rfl written)
        simp only [getIndex_place stored, occupant_eq stored]
        by_cases retired : existing.status = schemaStatusActive ∧ sch.status ≠ schemaStatusActive
        · simp only [if_pos retired]
          exact .ok (stored.deleteIndex sch.operatorID sch.oamMode)
        · simp only [if_neg retired]
          by_cases activated : existing.status ≠ schemaStatusActive ∧ sch.status = schemaStatusActive
          · simp only [if_pos activated]
            generalize Option.bind _ (Maps.active _) = other
            cases other with
            | some other => exact .error _
            | none => exact .ok (stored.setIndex sch.operatorID sch.oamMode sch.id)
          · simp only [if_neg activated]
            exact .ok stored

/-- `DeleteSchema` matches the deletion from the maps. -/
lemma deleteSchema_matches (id : Bytes) :
    Matches (Holds json) (BadgerStore.deleteSchema json db id) (m.deleteSchema id) := by
  rw [BadgerStore.deleteSchema, Maps.deleteSchema]
  refine .guard fun _ => ?_
  simp only [loadSchema_eq rep, Maps.loadSchema]
  cases m.schemas.get id with
  | none => exact .error _
  | some existing =>
    have deleted := rep.deleteSchema id
    simp only [getIndex_place deleted]
    by_cases held : m.oamIndex existing.place = some id
    · simp only [if_pos held]
      exact .ok (deleted.deleteIndex existing.operatorID existing.oamMode)
    · simp only [if_neg held]
      exact .ok deleted

/-- The schemas are listed as in their map. -/
lemma listSchemas_eq (filter : SchemaFilter) :
    BadgerStore.listSchemas json db filter = m.schemas.values.filter (schemaMatches · filter) := by
  rw [BadgerStore.listSchemas]
  have rel := KV.scan_entries rep.schemas
  generalize (db.scan prefixSchema).map Prod.snd = data at rel ⊢
  generalize m.schemas.values = schemas at rel ⊢
  induction rel with
  | nil => rfl
  | cons read _ ih =>
    rw [List.filterMap_cons, List.filter_cons, ih, read]
    dsimp only
    cases schemaMatches _ filter with
    | true => rfl
    | false => rfl

/-- `GetActiveSchemaForOam` answers from the index and the schemas of the maps. -/
lemma getActiveSchemaForOam_eq (operatorID : Bytes) (mode : Int32) :
    BadgerStore.getActiveSchemaForOam json db operatorID mode = m.getActiveSchemaForOam operatorID mode := by
  unfold BadgerStore.getActiveSchemaForOam Maps.getActiveSchemaForOam
  rw [getIndex_eq rep]
  cases m.oamIndex (operatorID, mode) with
  | none => rfl
  | some id =>
    dsimp only
    have loaded := loadSchema_eq rep id
    generalize BadgerStore.loadSchema json db id = result at loaded ⊢
    subst loaded
    rfl

end Calls

/-! ## Runs -/

/-- A transaction ends as the commit of the maps does. -/
lemma update_sim {json : Codecs} {db : Badger} {m : Maps} (rep : Holds json db m) {r : Result Badger}
    {r' : Result Maps} (h : Matches (Holds json) r r') :
    Holds json (update db r).1 (m.commit r').1 ∧ (update db r).2 = (m.commit r').2 := by
  cases h with
  | error err => exact ⟨rep, rfl⟩
  | ok rep' => exact ⟨rep', rfl⟩

/-- A read ends as the answer of the maps does. -/
lemma view_sim {α : Type} {json : Codecs} {db : Badger} {m : Maps} (rep : Holds json db m)
    (reply : α → StoreReply) {r r' : Result α} (h : r = r') :
    Holds json (view db reply r).1 (m.answer reply r').1 ∧ (view db reply r).2 = (m.answer reply r').2 := by
  subst h
  cases r with
  | error err => exact ⟨rep, rfl⟩
  | ok a => exact ⟨rep, rfl⟩

/-- A call answers as on the maps that the database holds, and it then holds the maps after the call. -/
lemma step_sim {json : Codecs} (db : Badger) (m : Maps) (call : StoreCall) (round : call.RoundTrips json)
    (rep : Holds json db m) :
    Holds json (BadgerStore.step json db call).1 (m.step json call).1 ∧
      (BadgerStore.step json db call).2 = (m.step json call).2 := by
  cases call with
  | createLease lease =>
    refine update_sim rep ((createRecord_matches rep.leases round).map ?_)
    rintro _ _ ⟨r, b, read, rfl, rfl⟩
    exact rep.setLease r.id read
  | getLease id => exact view_sim rep _ (getRecord_eq rep.leases id)
  | updateLease now lease => exact update_sim rep (updateLease_matches rep round)
  | deleteLease id => exact update_sim rep (deleteLease_matches rep id)
  | listLeases filter => exact view_sim rep _ (listRecords_eq rep.leases filter.admits)
  | createEndpoint ep =>
    refine update_sim rep ((createRecord_matches rep.endpoints round).map ?_)
    rintro _ _ ⟨r, b, read, rfl, rfl⟩
    exact rep.setEndpoint r.id read
  | getEndpoint id => exact view_sim rep _ (getRecord_eq rep.endpoints id)
  | listEndpoints filter => exact view_sim rep _ (listRecords_eq rep.endpoints filter.admits)
  | createOperator op =>
    refine update_sim rep ((createRecord_matches rep.operators round).map ?_)
    rintro _ _ ⟨r, b, read, rfl, rfl⟩
    exact rep.setOperator r.id read
  | getOperator id => exact view_sim rep _ (getRecord_eq rep.operators id)
  | listOperators =>
    refine view_sim rep _ ((listRecords_eq rep.operators _).trans ?_)
    rw [List.filter_true]
  | saveCommitment c => exact update_sim rep (saveCommitment_matches rep round)
  | getCommitment operatorID height => exact view_sim rep _ (getCommitment_eq rep operatorID height)
  | getLatestCommitment operatorID => exact view_sim rep _ (getLatestCommitment_eq rep operatorID)
  | createSchema sch => exact update_sim rep (createSchema_matches rep round)
  | getSchema id => exact view_sim rep _ (getSchema_eq rep id)
  | updateSchema sch => exact update_sim rep (updateSchema_matches rep round)
  | deleteSchema id => exact update_sim rep (deleteSchema_matches rep id)
  | listSchemas filter => exact view_sim rep _ (congrArg Except.ok (listSchemas_eq rep filter))
  | getActiveSchemaForOam operatorID mode =>
    exact view_sim rep _ (getActiveSchemaForOam_eq rep operatorID mode)

/-- The empty database holds the empty maps. -/
lemma holds_empty (json : Codecs) : Holds json KV.empty Maps.empty := by
  intro k
  cases k with
  | _ => exact .absent

/-- The maps a call is about. -/
def StoreCall.tables : StoreCall → List Table
  | createLease _ | getLease _ | updateLease _ _ | deleteLease _ | listLeases _ => [.leases]
  | createEndpoint _ | getEndpoint _ | listEndpoints _ => [.endpoints]
  | createOperator _ | getOperator _ | listOperators => [.operators]
  | saveCommitment _ | getCommitment _ _ | getLatestCommitment _ => [.commitments]
  | createSchema _ | getSchema _ | updateSchema _ | deleteSchema _ | listSchemas _
  | getActiveSchemaForOam _ _ => [.schemas, .oamIndex]

/-- What a write stores and a read returns: after a successful `call` the call `get` answers `reply`. -/
inductive StoreCall.Stores : (call get : StoreCall) → (reply : StoreReply) → Prop where
  | createLease (l) : Stores (.createLease (some l)) (.getLease l.id) (.lease l)
  | updateLease (now l) :
      Stores (.updateLease now (some l)) (.getLease l.id) (.lease { l with updatedAt := now })
  | createEndpoint (ep) : Stores (.createEndpoint (some ep)) (.getEndpoint ep.id) (.endpoint ep)
  | createOperator (op) : Stores (.createOperator (some op)) (.getOperator op.id) (.operator op)
  | saveCommitment (c) :
      Stores (.saveCommitment (some c)) (.getCommitment c.operatorID c.blockHeight) (.commitment c)
  | saveLatest (c) : Stores (.saveCommitment (some c)) (.getLatestCommitment c.operatorID) (.commitment c)
  | createSchema (sch) : Stores (.createSchema (some sch)) (.getSchema sch.id) (.schema sch)
  | updateSchema (sch) : Stores (.updateSchema (some sch)) (.getSchema sch.id) (.schema sch)

namespace Maps

variable {json : Codecs} {m m' : Maps}

/-! ### What a successful call does -/

section Records

variable {α : Type} {kind : RecordKind α} {codec : Codec α} {records records' : KV α}

/-- A created record stands under its ID, which is not empty. -/
lemma create_ok {record : Option α} (h : create kind codec records record = .ok records') :
    ∃ r, record = some r ∧ kind.id r ≠ [] ∧ records' = records.set (kind.id r) r := by
  unfold create at h
  split at h
  case h_1 => cases h
  case h_2 r =>
    obtain ⟨named, h⟩ := ok_of_guard h
    obtain ⟨-, h⟩ := ok_of_guard h
    split at h
    case h_1 => cases h
    case h_2 => exact ⟨r, rfl, named, (Except.ok.inj h).symm⟩

/-- A record that stands under an ID is found. -/
lemma lookup_set {id : Bytes} (named : id ≠ []) (r : α) : lookup kind (records.set id r) id = .ok r := by
  rw [lookup, if_neg named, KV.get_set_self]

end Records

/-- An updated lease has the time of the update. -/
lemma updateLease_ok {now : Time} {lease : Option Lease} (h : m.updateLease json now lease = .ok m') :
    ∃ l, lease = some l ∧ l.id ≠ [] ∧ m' = { m with leases := m.leases.set l.id { l with updatedAt := now } } := by
  unfold updateLease at h
  split at h
  case h_1 => cases h
  case h_2 l =>
    obtain ⟨named, h⟩ := ok_of_guard h
    obtain ⟨-, h⟩ := ok_of_guard h
    dsimp only at h
    split at h
    case h_1 => cases h
    case h_2 => exact ⟨l, rfl, named, (Except.ok.inj h).symm⟩

/-- A deletion is one of leases. -/
lemma deleteLease_ok {id : Bytes} (h : m.deleteLease id = .ok m') : ∃ leases, m' = { m with leases := leases } := by
  unfold deleteLease at h
  obtain ⟨-, h⟩ := ok_of_guard h
  exact ⟨_, (Except.ok.inj h).symm⟩

/-- A saved commitment stands at its height and as the latest one. -/
lemma saveCommitment_ok {c : Option MerkleCommitment} (h : m.saveCommitment json c = .ok m') :
    ∃ c', c = some c' ∧ c'.operatorID ≠ [] ∧ m' = { m with
      commitments := Function.update m.commitments (c'.operatorID, c'.blockHeight) (some c')
      latest := Function.update m.latest c'.operatorID (some c') } := by
  unfold saveCommitment at h
  split at h
  case h_1 => cases h
  case h_2 c =>
    obtain ⟨named, h⟩ := ok_of_guard h
    split at h
    case h_1 => cases h
    case h_2 => exact ⟨c, rfl, named, (Except.ok.inj h).symm⟩

/-- A created schema stands under its ID; what else changes is the index. -/
lemma createSchema_ok {sch : Option Schema} (h : m.createSchema json sch = .ok m') :
    ∃ s index, sch = some s ∧ s.id ≠ [] ∧ m' = { m with schemas := m.schemas.set s.id s, oamIndex := index } := by
  unfold createSchema at h
  split at h
  case h_1 => cases h
  case h_2 sch =>
    obtain ⟨named, h⟩ := ok_of_guard h
    obtain ⟨-, h⟩ := ok_of_guard h
    dsimp only at h
    split at h
    case h_1 => cases h
    case h_2 =>
      split at h
      case h_1 => cases h
      case h_2 =>
        split at h
        case isTrue => exact ⟨sch, _, rfl, named, (Except.ok.inj h).symm⟩
        case isFalse => exact ⟨sch, m.oamIndex, rfl, named, (Except.ok.inj h).symm⟩

/-- So does an updated one. -/
lemma updateSchema_ok {sch : Option Schema} (h : m.updateSchema json sch = .ok m') :
    ∃ s index, sch = some s ∧ s.id ≠ [] ∧ m' = { m with schemas := m.schemas.set s.id s, oamIndex := index } := by
  unfold updateSchema at h
  split at h
  case h_1 => cases h
  case h_2 sch =>
    obtain ⟨named, h⟩ := ok_of_guard h
    split at h
    case h_1 => cases h
    case h_2 existing _ =>
      split at h
      case h_1 => cases h
      case h_2 =>
        dsimp only at h
        split at h
        case isTrue => exact ⟨sch, _, rfl, named, (Except.ok.inj h).symm⟩
        case isFalse =>
          split at h
          case isTrue =>
            split at h
            case h_1 => cases h
            case h_2 => exact ⟨sch, _, rfl, named, (Except.ok.inj h).symm⟩
          case isFalse => exact ⟨sch, m.oamIndex, rfl, named, (Except.ok.inj h).symm⟩

/-- A deletion of a schema is one of schemas and of the index. -/
lemma deleteSchema_ok {id : Bytes} (h : m.deleteSchema id = .ok m') :
    ∃ schemas index, m' = { m with schemas := schemas, oamIndex := index } := by
  unfold deleteSchema at h
  obtain ⟨-, h⟩ := ok_of_guard h
  split at h
  case h_1 => cases h
  case h_2 existing _ =>
    dsimp only at h
    split at h
    case isTrue => exact ⟨_, _, (Except.ok.inj h).symm⟩
    case isFalse => exact ⟨_, m.oamIndex, (Except.ok.inj h).symm⟩

/-! ### Independence of the maps -/

/-- A commit keeps a cell that the new maps keep. -/
lemma cell_commit {r : Result Maps} {k : StoreKey} (same : ∀ m', r = .ok m' → m'.cell k = m.cell k) :
    (m.commit r).1.cell k = m.cell k := by
  cases r with
  | error err => rfl
  | ok m' => exact same m' rfl

/-- An answer leaves the maps alone. -/
lemma answer_fst {α : Type} (reply : α → StoreReply) (r : Result α) : (m.answer reply r).1 = m := by
  cases r with
  | error err => rfl
  | ok a => rfl

/-- The cells of other maps do not see the leases. -/
lemma cell_leases {leases : KV Lease} {k : StoreKey} (other : k.table ∉ [Table.leases]) :
    { m with leases := leases }.cell k = m.cell k := by
  cases k with
  | lease id => exact absurd (List.mem_singleton_self _) other
  | _ => rfl

/-- The cells of other maps do not see the schemas and their index. -/
lemma cell_schemas {schemas : KV Schema} {index : Bytes × Int32 → Option Bytes} {k : StoreKey}
    (other : k.table ∉ [Table.schemas, Table.oamIndex]) :
    { m with schemas := schemas, oamIndex := index }.cell k = m.cell k := by
  cases k with
  | schema id => exact absurd List.mem_cons_self other
  | oamIndex operatorID mode => exact absurd (List.mem_cons_of_mem _ (List.mem_singleton_self _)) other
  | _ => rfl

/-- A call changes none of the maps it is not about. -/
lemma step_frame (json : Codecs) (m : Maps) (call : StoreCall) {k : StoreKey} (other : k.table ∉ call.tables) :
    (m.step json call).1.cell k = m.cell k := by
  cases call with
  | createLease lease =>
    refine cell_commit fun m' h => ?_
    obtain ⟨leases, -, rfl⟩ := map_ok h
    exact cell_leases other
  | updateLease now lease =>
    refine cell_commit fun m' h => ?_
    obtain ⟨l, -, -, rfl⟩ := updateLease_ok h
    exact cell_leases other
  | deleteLease id =>
    refine cell_commit fun m' h => ?_
    obtain ⟨leases, rfl⟩ := deleteLease_ok h
    exact cell_leases other
  | createEndpoint ep =>
    refine cell_commit fun m' h => ?_
    obtain ⟨eps, -, rfl⟩ := map_ok h
    cases k with
    | endpoint id => exact absurd (List.mem_singleton_self _) other
    | _ => rfl
  | createOperator op =>
    refine cell_commit fun m' h => ?_
    obtain ⟨ops, -, rfl⟩ := map_ok h
    cases k with
    | operator id => exact absurd (List.mem_singleton_self _) other
    | _ => rfl
  | saveCommitment c =>
    refine cell_commit fun m' h => ?_
    obtain ⟨c', -, -, rfl⟩ := saveCommitment_ok h
    cases k with
    | commitment operatorID height => exact absurd (List.mem_singleton_self _) other
    | latest operatorID => exact absurd (List.mem_singleton_self _) other
    | _ => rfl
  | createSchema sch =>
    refine cell_commit fun m' h => ?_
    obtain ⟨s, index, -, -, rfl⟩ := createSchema_ok h
    exact cell_schemas other
  | updateSchema sch =>
    refine cell_commit fun m' h => ?_
    obtain ⟨s, index, -, -, rfl⟩ := updateSchema_ok h
    exact cell_schemas other
  | deleteSchema id =>
    refine cell_commit fun m' h => ?_
    obtain ⟨schemas, index, rfl⟩ := deleteSchema_ok h
    exact cell_schemas other
  | _ =>
    rw [step, answer_fst]

/-! ### Reading what was written -/

/-- A read after a commit that succeeds is one of the new maps. -/
lemma read_committed {r : Result Maps} {get : StoreCall} {reply : StoreReply} (done : (m.commit r).2 = .ok .done)
    (reads : ∀ m', r = .ok m' → (m'.step json get).2 = .ok reply) :
    ((m.commit r).1.step json get).2 = .ok reply := by
  cases r with
  | error err => cases done
  | ok m' => exact reads m' rfl

/-- What was found is answered. -/
lemma answer_of_ok {α : Type} {reply : α → StoreReply} {r : Result α} {a : α} (found : r = .ok a) :
    (m.answer reply r).2 = .ok (reply a) := by
  rw [found]
  rfl

/-- A schema that stands under an ID is found. -/
lemma getSchema_set {sch : Schema} {index : Bytes × Int32 → Option Bytes} (named : sch.id ≠ []) :
    { m with schemas := m.schemas.set sch.id sch, oamIndex := index }.getSchema sch.id = .ok sch := by
  rw [getSchema, if_neg named, loadSchema, KV.get_set_self]

/-- After a successful write the read of its key returns what it stored. -/
lemma step_stores {call get : StoreCall} {reply : StoreReply} (stores : call.Stores get reply)
    (done : (m.step json call).2 = .ok .done) : ((m.step json call).1.step json get).2 = .ok reply := by
  cases stores with
  | createLease l =>
    refine read_committed done fun m' made => ?_
    obtain ⟨leases, created, rfl⟩ := map_ok made
    obtain ⟨_, same, named, rfl⟩ := create_ok created
    cases same
    exact answer_of_ok (lookup_set named l)
  | updateLease now l =>
    refine read_committed done fun m' made => ?_
    obtain ⟨_, same, named, rfl⟩ := updateLease_ok made
    cases same
    exact answer_of_ok (lookup_set named _)
  | createEndpoint ep =>
    refine read_committed done fun m' made => ?_
    obtain ⟨eps, created, rfl⟩ := map_ok made
    obtain ⟨_, same, named, rfl⟩ := create_ok created
    cases same
    exact answer_of_ok (lookup_set named ep)
  | createOperator op =>
    refine read_committed done fun m' made => ?_
    obtain ⟨ops, created, rfl⟩ := map_ok made
    obtain ⟨_, same, named, rfl⟩ := create_ok created
    cases same
    exact answer_of_ok (lookup_set named op)
  | saveCommitment c =>
    refine read_committed done fun m' made => answer_of_ok ?_
    obtain ⟨_, same, named, rfl⟩ := saveCommitment_ok made
    cases same
    simp only [getCommitment, if_neg named, Function.update_self]
  | saveLatest c =>
    refine read_committed done fun m' made => answer_of_ok ?_
    obtain ⟨_, same, named, rfl⟩ := saveCommitment_ok made
    cases same
    simp only [getLatestCommitment, if_neg named, Function.update_self]
  | createSchema sch =>
    refine read_committed done fun m' made => ?_
    obtain ⟨_, index, same, named, rfl⟩ := createSchema_ok made
    cases same
    exact answer_of_ok (getSchema_set named)
  | updateSchema sch =>
    refine read_committed done fun m' made => ?_
    obtain ⟨_, index, same, named, rfl⟩ := updateSchema_ok made
    cases same
    exact answer_of_ok (getSchema_set named)

end Maps

/-- The database after the calls. -/
def BadgerStore.run (json : Codecs) (calls : List StoreCall) : Badger :=
  calls.foldl (fun db call => (BadgerStore.step json db call).1) .empty

/-- Every run of calls whose records JSON gives back answers on the empty database as on the maps; a read that follows
    a successful write returns what that stored; no call changes a map that it is not about; and no two keys of the
    maps are stored under one string. -/
theorem store_refines_maps (json : Codecs) (calls : List StoreCall) (round : ∀ call ∈ calls, call.RoundTrips json) :
    outputs (BadgerStore.step json) KV.empty calls = outputs (Maps.step json) .empty calls ∧
      (∀ before call after get reply, calls = before ++ call :: after → call.Stores get reply →
        (BadgerStore.step json (BadgerStore.run json before) call).2 = .ok .done →
        (BadgerStore.step json (BadgerStore.run json (before ++ [call])) get).2 = .ok reply) ∧
      (∀ (m : Maps) (call : StoreCall) (k : StoreKey), k.table ∉ call.tables →
        (m.step json call).1.cell k = m.cell k) ∧
      Function.Injective StoreKey.stored := by
  refine ⟨(run_related step_sim (holds_empty json) round).1, ?_, fun m call _ => m.step_frame json call,
    StoreKey.stored_injective⟩
  rintro before call after get reply rfl stores done
  have rep : Holds json (BadgerStore.run json before) _ :=
    (run_related step_sim (holds_empty json) fun c mem => round c (List.mem_append_left _ mem)).2
  have trips : call.RoundTrips json := round call (List.mem_append_right _ List.mem_cons_self)
  obtain ⟨rep', same⟩ := step_sim _ _ call trips rep
  rw [same] at done
  have read := step_sim _ _ get (by cases stores <;> trivial) rep'
  rw [BadgerStore.run, List.foldl_append]
  exact read.2.trans (Maps.step_stores stores done)

def colonCommitment (operatorID : Bytes) (blockHeight : Int64) : MerkleCommitment where
  operatorID := operatorID
  rootHash := zeroHash
  timestamp := 0
  signature := []
  leaseCount := 0
  blockHeight := blockHeight

/-- JSON for the two commitments of `colonCalls`. -/
def colonCodecs : Codecs where
  lease := .ofList []
  endpoint := .ofList []
  operator := .ofList []
  commitment := .ofList [colonCommitment (ascii "a") 1, colonCommitment (ascii "a:1") (-2)]
  schema := ⟨fun _ => .error [], fun _ => .error []⟩

/-- Commitments of operators whose IDs differ in a colon and a number. -/
def colonCalls : List StoreCall :=
  [ .saveCommitment (some (colonCommitment (ascii "a") 1)),
    .saveCommitment (some (colonCommitment (ascii "a:1") (-2))),
    .getCommitment (ascii "a") 1,
    .getLatestCommitment (ascii "a"),
    .getCommitment (ascii "a:1") (-2),
    .getLease (ascii "a:1") ]

/-- What these codecs write they read. -/
lemma colonCodecs_roundTrips (call : StoreCall) : call.RoundTrips colonCodecs := by
  cases call with
  | createLease | updateLease | createEndpoint | createOperator =>
    exact fun _ _ => Codec.ofList_roundTrips [] _
  | saveCommitment =>
    exact fun _ _ => Codec.ofList_roundTrips [colonCommitment (ascii "a") 1, colonCommitment (ascii "a:1") (-2)] _
  | createSchema | updateSchema => exact fun _ _ _ written => by cases written
  | _ => trivial

theorem store_refines_maps_colons :
    outputs (BadgerStore.step colonCodecs) KV.empty colonCalls = outputs (Maps.step colonCodecs) .empty colonCalls ∧
      (BadgerStore.step colonCodecs (BadgerStore.run colonCodecs (colonCalls.take 2))
        (.getLatestCommitment (ascii "a:1"))).2 = .ok (.commitment (colonCommitment (ascii "a:1") (-2))) := by
  obtain ⟨same, reads, -⟩ :=
    store_refines_maps colonCodecs colonCalls fun call _ => colonCodecs_roundTrips call
  exact ⟨same, reads [_] _ _ _ _ rfl (.saveLatest (colonCommitment (ascii "a:1") (-2))) rfl⟩

end Otap.Flr
