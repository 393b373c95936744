import Otap.Lib.Run
import Otap.Lib.UniqueIndex
import Otap.Flr.SchemaStore

/-!
# The OAM index is exact

Runs of the schema store (`SchemaStore.step`), and the invariant of its secondary index: `schema_index_exact`.
The store is an instance of `Lib.Indexed`, in which a schema occupies the slot of its operator and mode while
it is ACTIVE. Each call is inverted once (`createSchema_ok`, `updateSchema_ok`, `deleteSchema_ok`), and what it
does to the two maps is one of the three rules of the library.
-/

namespace Otap.Flr

open Otap.Lib

/-! ## Runs -/

inductive SchemaCall where
  | create (sch : Option Schema)
  | update (sch : Option Schema)
  | delete (id : Bytes)

/-- The schema that a call creates. -/
def SchemaCall.created : SchemaCall → Option Schema
  | create sch => sch
  | _ => none

/-- The schema that a call updates. -/
def SchemaCall.updated : SchemaCall → Option Schema
  | update sch => sch
  | _ => none

structure SchemaInput where
  call : SchemaCall
  faults : Faults

namespace SchemaStore

def call (s : SchemaStore) (f : Faults) : SchemaCall → Result SchemaStore
  | .create sch => s.createSchema f sch
  | .update sch => s.updateSchema f sch
  | .delete id => s.deleteSchema f id

/-- A call that fails changes nothing. -/
def step (s : SchemaStore) (input : SchemaInput) : SchemaStore :=
  match s.call input.faults input.call with
  | .ok s' => s'
  | .error _ => s

/-- An update keeps the operator and the OAM mode of the stored schema. -/
def KeepsSlot (s : SchemaStore) (input : SchemaInput) : Prop :=
  ∀ sch ∈ input.call.updated, ∀ existing ∈ s.schemas.get sch.id,
    sch.operatorID = existing.operatorID ∧ sch.oamMode = existing.oamMode

instance (s : SchemaStore) (input : SchemaInput) : Decidable (s.KeepsSlot input) :=
  inferInstanceAs (Decidable (∀ sch ∈ input.call.updated, ∀ existing ∈ s.schemas.get sch.id,
    sch.operatorID = existing.operatorID ∧ sch.oamMode = existing.oamMode))

end SchemaStore

/-- A schema that is created ACTIVE has an operator ID in UTF-8, and the index entry and the schema it names
    are read without a failure. -/
def SchemaInput.Readable (input : SchemaInput) : Prop :=
  (∀ sch ∈ input.call.created, sch.status = schemaStatusActive →
    coerceUtf8 sch.operatorID = sch.operatorID) ∧
  input.faults.index = false ∧ input.faults.occupant = false

instance (input : SchemaInput) : Decidable input.Readable :=
  inferInstanceAs (Decidable ((∀ sch ∈ input.call.created, sch.status = schemaStatusActive →
    coerceUtf8 sch.operatorID = sch.operatorID) ∧
    input.faults.index = false ∧ input.faults.occupant = false))

/-! ## The index keys -/

/-- A key determines the operator and the mode: the number holds no colon. -/
lemma oamKey_inj {op op' : Bytes} {mode mode' : Int32} (e : oamKey op mode = oamKey op' mode') :
    op = op' ∧ mode = mode' := by
  rw [oamKey, oamKey, List.append_assoc, List.append_assoc] at e
  obtain ⟨operator, number⟩ := separated_inj (colon_notMem_decimalInt _) (colon_notMem_decimalInt _) e
  exact ⟨operator, Int32.toInt_inj.mp (decimalInt_inj number)⟩

namespace SchemaStore

/-- The index, by operator and mode. -/
def slots (s : SchemaStore) (i : Bytes × Int32) : Option Bytes :=
  s.oamIndex.get (oamKey i.1 i.2)

lemma oamKey_eq_iff {i : Bytes × Int32} {op : Bytes} {mode : Int32} :
    oamKey i.1 i.2 = oamKey op mode ↔ i = (op, mode) := by
  constructor
  · intro eq
    obtain ⟨operator, number⟩ := oamKey_inj eq
    exact Prod.ext operator number
  · rintro rfl
    rfl

lemma slots_set (s : SchemaStore) (schemas : KV Schema) (op : Bytes) (mode : Int32) (id : Bytes) :
    slots { schemas, oamIndex := s.oamIndex.set (oamKey op mode) id } =
      Function.update s.slots (op, mode) (some id) := by
  funext i
  rw [slots, KV.get_set, Function.update_apply]
  exact if_congr oamKey_eq_iff rfl rfl

lemma slots_delete (s : SchemaStore) (schemas : KV Schema) (op : Bytes) (mode : Int32) :
    slots { schemas, oamIndex := s.oamIndex.delete (oamKey op mode) } =
      Function.update s.slots (op, mode) none := by
  funext i
  rw [slots, KV.get_delete, Function.update_apply]
  exact if_congr oamKey_eq_iff rfl rfl

/-! ## What a successful call does -/

variable {s s' : SchemaStore} {f : Faults} {o : Option Schema} {id : Bytes}

lemma loadSchema_ok {fails : Bool} {sch : Schema} (ok : s.loadSchema fails id = .ok sch) :
    s.schemas.get id = some sch := by
  unfold loadSchema at ok
  obtain ⟨-, ok⟩ := ok_of_guard ok
  split at ok
  case h_1 => cases ok
  case h_2 found =>
    cases ok
    exact found

lemma commit_ok (ok : s.commit f = .ok s') : s' = s := by
  unfold commit at ok
  obtain ⟨-, ok⟩ := ok_of_guard ok
  exact (Except.ok.inj ok).symm

lemma createSchema_ok (ok : s.createSchema f o = .ok s') :
    ∃ sch data, o = some sch ∧ sch.stored = some data ∧ s.schemas.get sch.id = none ∧
      (sch.status = schemaStatusActive ∧
          (s.indexed f (oamKey sch.operatorID sch.oamMode)).bind (s.activeSchema f) = none ∧
          s' = ⟨s.schemas.set sch.id data, s.oamIndex.set (oamKey sch.operatorID sch.oamMode) sch.id⟩ ∨
        sch.status ≠ schemaStatusActive ∧ s' = ⟨s.schemas.set sch.id data, s.oamIndex⟩) := by
  cases o with
  | none => cases ok
  | some sch =>
    rw [createSchema] at ok
    obtain ⟨-, ok⟩ := ok_of_guard ok
    obtain ⟨-, ok⟩ := ok_of_guard ok
    obtain ⟨new, ok⟩ := ok_of_guard ok
    simp only at ok
    split at ok
    case h_1 => cases ok
    case h_2 free =>
      split at ok
      case h_1 => cases ok
      case h_2 data stored =>
        obtain ⟨-, ok⟩ := ok_of_guard ok
        refine ⟨sch, data, rfl, stored, Option.not_isSome_iff_eq_none.mp new, ?_⟩
        split at ok
        case isTrue active =>
          rw [if_pos active] at free
          exact .inl ⟨active, free, commit_ok ok⟩
        case isFalse inactive => exact .inr ⟨inactive, commit_ok ok⟩

lemma updateSchema_ok (ok : s.updateSchema f o = .ok s') :
    ∃ sch data existing, o = some sch ∧ sch.stored = some data ∧
      s.schemas.get sch.id = some existing ∧
      (existing.status = schemaStatusActive ∧ sch.status ≠ schemaStatusActive ∧
          s' = ⟨s.schemas.set sch.id data, s.oamIndex.delete (oamKey sch.operatorID sch.oamMode)⟩ ∨
        existing.status ≠ schemaStatusActive ∧ sch.status = schemaStatusActive ∧
          ((s.indexed f (oamKey sch.operatorID sch.oamMode)).filter (· ≠ sch.id)).bind
            (activeSchema ⟨s.schemas.set sch.id data, s.oamIndex⟩ f) = none ∧
          s' = ⟨s.schemas.set sch.id data, s.oamIndex.set (oamKey sch.operatorID sch.oamMode) sch.id⟩ ∨
        (sch.status = schemaStatusActive ↔ existing.status = schemaStatusActive) ∧
          s' = ⟨s.schemas.set sch.id data, s.oamIndex⟩) := by
  cases o with
  | none => cases ok
  | some sch =>
    rw [updateSchema] at ok
    obtain ⟨-, ok⟩ := ok_of_guard ok
    simp only at ok
    split at ok
    case h_1 => cases ok
    case h_2 existing loaded =>
      split at ok
      case h_1 => cases ok
      case h_2 data stored =>
        obtain ⟨-, ok⟩ := ok_of_guard ok
        refine ⟨sch, data, existing, rfl, stored, loadSchema_ok loaded, ?_⟩
        split at ok
        case isTrue leaves => exact .inl ⟨leaves.1, leaves.2, commit_ok ok⟩
        case isFalse stays =>
          split at ok
          case isTrue takes =>
            split at ok
            case h_1 => cases ok
            case h_2 free => exact .inr (.inl ⟨takes.1, takes.2, free, commit_ok ok⟩)
          case isFalse out =>
            refine .inr (.inr ⟨⟨fun active => ?_, fun active => ?_⟩, commit_ok ok⟩)
            · exact not_not.mp fun was => out ⟨was, active⟩
            · exact not_not.mp fun is => stays ⟨active, is⟩

lemma deleteSchema_ok (ok : s.deleteSchema f id = .ok s') :
    ∃ existing, s.schemas.get id = some existing ∧
      (s.indexed f (oamKey existing.operatorID existing.oamMode) = some id ∧
          s' = ⟨s.schemas.delete id, s.oamIndex.delete (oamKey existing.operatorID existing.oamMode)⟩ ∨
        s.indexed f (oamKey existing.operatorID existing.oamMode) ≠ some id ∧
          s' = ⟨s.schemas.delete id, s.oamIndex⟩) := by
  rw [deleteSchema] at ok
  obtain ⟨-, ok⟩ := ok_of_guard ok
  split at ok
  case h_1 => cases ok
  case h_2 existing loaded =>
    refine ⟨existing, loadSchema_ok loaded, ?_⟩
    obtain ⟨-, ok⟩ := ok_of_guard ok
    simp only at ok
    split at ok
    case isTrue named => exact .inl ⟨named, commit_ok ok⟩
    case isFalse unnamed => exact .inr ⟨unnamed, commit_ok ok⟩

end SchemaStore

/-! ## The invariant -/

/-- The operator and mode for which a schema is the ACTIVE one. -/
def Schema.slot (sch : Schema) : Option (Bytes × Int32) :=
  if sch.status = schemaStatusActive then some (sch.operatorID, sch.oamMode) else none

lemma Schema.slot_active {sch : Schema} (active : sch.status = schemaStatusActive) :
    sch.slot = some (sch.operatorID, sch.oamMode) :=
  if_pos active

lemma Schema.slot_inactive {sch : Schema} (inactive : sch.status ≠ schemaStatusActive) :
    sch.slot = none :=
  if_neg inactive

lemma Schema.slot_eq_some {sch : Schema} {op : Bytes} {mode : Int32} :
    sch.slot = some (op, mode) ↔
      sch.operatorID = op ∧ sch.oamMode = mode ∧ sch.status = schemaStatusActive := by
  by_cases active : sch.status = schemaStatusActive
  case pos =>
    rw [slot_active active, Option.some_inj, Prod.mk.injEq, and_iff_left active]
  case neg =>
    rw [slot_inactive active]
    exact iff_of_false (fun e => nomatch e) fun h => active h.2.2

lemma Schema.stored_eq {sch data : Schema} (stored : sch.stored = some data) :
    data.operatorID = coerceUtf8 sch.operatorID ∧ data.oamMode = sch.oamMode ∧
      data.status = sch.status := by
  unfold Schema.stored at stored
  split at stored
  case isTrue =>
    cases stored
    exact ⟨rfl, rfl, rfl⟩
  case isFalse => cases stored

/-- A schema with an operator ID in UTF-8 is stored for the slot it is meant for. -/
lemma Schema.slot_stored {sch data : Schema} (stored : sch.stored = some data)
    (utf8 : coerceUtf8 sch.operatorID = sch.operatorID) : data.slot = sch.slot := by
  obtain ⟨operator, mode, status⟩ := stored_eq stored
  rw [slot, slot, operator, mode, status, utf8]

namespace SchemaStore

/-- The index names exactly the ACTIVE schemas; stored operator IDs are UTF-8. -/
structure Inv (s : SchemaStore) : Prop where
  indexed : Indexed Schema.slot s.schemas.get s.slots
  utf8 : ∀ id sch, s.schemas.get id = some sch → coerceUtf8 sch.operatorID = sch.operatorID

variable {s s' : SchemaStore} {f : Faults} {o : Option Schema} {id : Bytes}

lemma Inv.empty : Inv .empty where
  indexed := Indexed.empty
  utf8 _ _ found := nomatch found

lemma activeSchema_of_slot {i : Bytes × Int32} (read : f.occupant = false)
    (occ : (s.schemas.get id).bind Schema.slot = some i) : ∃ sch, s.activeSchema f id = some sch := by
  obtain ⟨sch, found, slot⟩ := Option.bind_eq_some_iff.mp occ
  refine ⟨sch, ?_⟩
  rw [activeSchema, loadSchema, read, if_neg Bool.false_ne_true, found]
  exact if_pos (Schema.slot_eq_some.mp slot).2.2

/-- A slot for which the check of `createSchema` finds no ACTIVE schema is free. -/
lemma Inv.free_of_unoccupied (inv : s.Inv) {op : Bytes} {mode : Int32} (index : f.index = false)
    (read : f.occupant = false)
    (none : (s.indexed f (oamKey op mode)).bind (s.activeSchema f) = none) :
    s.slots (op, mode) = Option.none := by
  rw [SchemaStore.indexed, index, if_neg Bool.false_ne_true] at none
  by_contra named
  obtain ⟨id, named⟩ := Option.ne_none_iff_exists'.mp named
  obtain ⟨sch, active⟩ := activeSchema_of_slot read ((inv.indexed _ _).mp named)
  rw [slots] at named
  rw [named, Option.bind_some, active] at none
  cases none

/-- A slot for which the check of `updateSchema` finds no other ACTIVE schema is free, if the schema itself has none. -/
lemma Inv.free_of_unoccupied_by_other (inv : s.Inv) {sch data : Schema} {op : Bytes} {mode : Int32}
    (index : f.index = false) (read : f.occupant = false)
    (out : (s.schemas.get sch.id).bind Schema.slot = none)
    (free : ((s.indexed f (oamKey op mode)).filter (· ≠ sch.id)).bind
      (activeSchema ⟨s.schemas.set sch.id data, s.oamIndex⟩ f) = none) :
    s.slots (op, mode) = none := by
  by_contra named
  obtain ⟨other, named⟩ := Option.ne_none_iff_exists'.mp named
  have occ := (inv.indexed _ _).mp named
  have ne : other ≠ sch.id := by
    rintro rfl
    cases occ.symm.trans out
  have occ' : ((s.schemas.set sch.id data).get other).bind Schema.slot = some (op, mode) := by
    rwa [KV.get_set_ne _ _ ne]
  obtain ⟨found, active⟩ := activeSchema_of_slot (s := ⟨s.schemas.set sch.id data, s.oamIndex⟩) read occ'
  rw [slots] at named
  rw [SchemaStore.indexed, index, if_neg Bool.false_ne_true, named,
    Option.filter_some, if_pos (decide_eq_true ne), Option.bind_some, active] at free
  cases free

lemma utf8_set (inv : s.Inv) {sch data : Schema} (stored : sch.stored = some data) (id' : Bytes)
    (sch' : Schema) (found : (s.schemas.set id data).get id' = some sch') :
    coerceUtf8 sch'.operatorID = sch'.operatorID := by
  rw [KV.get_set] at found
  split at found
  case isTrue =>
    cases found
    rw [(Schema.stored_eq stored).1, coerceUtf8_idem]
  case isFalse => exact inv.utf8 id' sch' found

lemma Inv.create (inv : s.Inv) (index : f.index = false) (read : f.occupant = false)
    (valid : ∀ sch ∈ o, sch.status = schemaStatusActive →
      coerceUtf8 sch.operatorID = sch.operatorID)
    (ok : s.createSchema f o = .ok s') : s'.Inv := by
  obtain ⟨sch, data, rfl, stored, new, active⟩ := createSchema_ok ok
  have out : (s.schemas.get sch.id).bind Schema.slot = none := by rw [new]; rfl
  obtain ⟨active, free, rfl⟩ | ⟨inactive, rfl⟩ := active
  case inl =>
    refine ⟨?_, utf8_set inv stored⟩
    have occ : data.slot = some (sch.operatorID, sch.oamMode) :=
      (Schema.slot_stored stored (valid sch rfl active)).trans (Schema.slot_active active)
    rw [slots_set, KV.get_set_eq_update]
    exact inv.indexed.take out (inv.free_of_unoccupied index read free) occ
  case inr =>
    refine ⟨?_, utf8_set inv stored⟩
    have none : data.slot = none := Schema.slot_inactive ((Schema.stored_eq stored).2.2 ▸ inactive)
    rw [KV.get_set_eq_update]
    exact inv.indexed.keep (none.trans out.symm)

lemma Inv.update (inv : s.Inv) (index : f.index = false) (read : f.occupant = false)
    (keeps : ∀ sch ∈ o, ∀ existing ∈ s.schemas.get sch.id,
      sch.operatorID = existing.operatorID ∧ sch.oamMode = existing.oamMode)
    (ok : s.updateSchema f o = .ok s') : s'.Inv := by
  obtain ⟨sch, data, existing, rfl, stored, found, cases⟩ := updateSchema_ok ok
  obtain ⟨operator, mode⟩ := keeps sch rfl existing found
  have slot : data.slot = sch.slot :=
    Schema.slot_stored stored (operator ▸ inv.utf8 _ _ found)
  have old : (s.schemas.get sch.id).bind Schema.slot = existing.slot := by rw [found]; rfl
  obtain ⟨was, is, rfl⟩ | ⟨was, is, free, rfl⟩ | ⟨same, rfl⟩ := cases
  case inl =>
    refine ⟨?_, utf8_set inv stored⟩
    rw [slots_delete, KV.get_set_eq_update, operator, mode]
    exact inv.indexed.leave (old.trans (Schema.slot_active was))
      (slot.trans (Schema.slot_inactive is))
  case inr.inl =>
    refine ⟨?_, utf8_set inv stored⟩
    have out : (s.schemas.get sch.id).bind Schema.slot = none :=
      old.trans (Schema.slot_inactive was)
    rw [slots_set, KV.get_set_eq_update]
    exact inv.indexed.take out (inv.free_of_unoccupied_by_other index read out free)
      (slot.trans (Schema.slot_active is))
  case inr.inr =>
    refine ⟨?_, utf8_set inv stored⟩
    have same : data.slot = existing.slot := by
      rw [slot, Schema.slot, Schema.slot, operator, mode]
      exact if_congr same rfl rfl
    rw [KV.get_set_eq_update]
    exact inv.indexed.keep (same.trans old.symm)

lemma Inv.delete (inv : s.Inv) (index : f.index = false) (ok : s.deleteSchema f id = .ok s') :
    s'.Inv := by
  obtain ⟨existing, found, cases⟩ := deleteSchema_ok ok
  have old : (s.schemas.get id).bind Schema.slot = existing.slot := by rw [found]; rfl
  have utf8 : ∀ id' sch, (s.schemas.delete id).get id' = some sch →
      coerceUtf8 sch.operatorID = sch.operatorID := by
    intro id' sch found'
    rw [KV.get_delete] at found'
    split at found'
    case isTrue => cases found'
    case isFalse => exact inv.utf8 id' sch found'
  rw [SchemaStore.indexed, index, if_neg Bool.false_ne_true] at cases
  obtain ⟨named, rfl⟩ | ⟨unnamed, rfl⟩ := cases
  case inl =>
    refine ⟨?_, utf8⟩
    rw [slots_delete, KV.get_delete_eq_update]
    exact inv.indexed.leave ((inv.indexed (existing.operatorID, existing.oamMode) id).mp named) rfl
  case inr =>
    refine ⟨?_, utf8⟩
    have out : existing.slot = none := by
      by_contra occ
      have active : existing.status = schemaStatusActive :=
        not_not.mp fun inactive => occ (Schema.slot_inactive inactive)
      exact unnamed ((inv.indexed (existing.operatorID, existing.oamMode) id).mpr
        (old.trans (Schema.slot_active active)))
    rw [KV.get_delete_eq_update]
    exact inv.indexed.keep (out.symm.trans old.symm)

lemma Inv.step {input : SchemaInput} (inv : s.Inv) (ok : s.KeepsSlot input ∧ input.Readable) :
    (s.step input).Inv := by
  obtain ⟨keeps, valid, index, occupant⟩ := ok
  obtain ⟨call, f⟩ := input
  unfold SchemaStore.step
  split
  case h_2 => exact inv
  case h_1 s' ok =>
    cases call with
    | create o => exact inv.create index occupant valid ok
    | update o => exact inv.update index occupant keeps ok
    | delete id => exact inv.delete index ok

/-! ## The property -/

/-- The index of a store is exact, no operator has two ACTIVE schemas for one mode, and
    `getActiveSchemaForOam` finds the one there is. -/
structure IndexExact (s : SchemaStore) : Prop where
  index : ∀ op mode id, op ≠ [] →
    (s.oamIndex.get (oamKey op mode) = some id ↔
      ∃ sch, s.schemas.get id = some sch ∧ sch.operatorID = op ∧ sch.oamMode = mode ∧
        sch.status = schemaStatusActive)
  unique : ∀ id id' sch sch', s.schemas.get id = some sch → s.schemas.get id' = some sch' →
    sch.status = schemaStatusActive → sch'.status = schemaStatusActive →
    sch.operatorID = sch'.operatorID → sch.oamMode = sch'.oamMode → sch.operatorID ≠ [] → id = id'
  getActive : ∀ op mode sch, op ≠ [] →
    (s.getActiveSchemaForOam {} op mode = .ok sch ↔
      ∃ id, s.schemas.get id = some sch ∧ sch.operatorID = op ∧ sch.oamMode = mode ∧
        sch.status = schemaStatusActive)

/-- Without failing reads, `getActiveSchemaForOam` returns the ACTIVE schema that the index names. -/
lemma getActiveSchemaForOam_ok {op : Bytes} {mode : Int32} {sch : Schema} (ne : op ≠ []) :
    s.getActiveSchemaForOam {} op mode = .ok sch ↔
      ∃ id, s.oamIndex.get (oamKey op mode) = some id ∧ s.schemas.get id = some sch ∧
        sch.status = schemaStatusActive := by
  rw [getActiveSchemaForOam, if_neg ne, if_neg Bool.false_ne_true]
  cases s.oamIndex.get (oamKey op mode) with
  | none => exact iff_of_false (fun e => nomatch e) fun ⟨_, e, _⟩ => nomatch e
  | some id =>
    simp only [Option.some_inj, exists_eq_left', loadSchema, if_neg Bool.false_ne_true]
    cases s.schemas.get id with
    | none => exact iff_of_false (fun e => nomatch e) fun ⟨e, _⟩ => nomatch e
    | some sch' =>
      simp only [Option.some_inj]
      by_cases active : sch'.status = schemaStatusActive
      case pos =>
        rw [if_neg (not_not.mpr active)]
        exact ⟨fun e => Except.ok.inj e ▸ ⟨rfl, active⟩, fun h => h.1 ▸ rfl⟩
      case neg =>
        rw [if_pos active]
        exact iff_of_false (fun e => nomatch e) fun h => active (h.1 ▸ h.2)

lemma Inv.indexExact (inv : s.Inv) : s.IndexExact := by
  have index (op : Bytes) (mode : Int32) (id : Bytes) :
      s.oamIndex.get (oamKey op mode) = some id ↔
        ∃ sch, s.schemas.get id = some sch ∧ sch.operatorID = op ∧ sch.oamMode = mode ∧
          sch.status = schemaStatusActive := by
    refine (inv.indexed (op, mode) id).trans (Option.bind_eq_some_iff.trans ?_)
    exact exists_congr fun sch => and_congr_right fun _ => Schema.slot_eq_some
  refine ⟨fun op mode id _ => index op mode id, ?_, ?_⟩
  case refine_1 =>
    intro id id' sch sch' found found' active active' operator mode _
    have named := (index _ _ id).mpr ⟨sch, found, operator, mode, active⟩
    have named' := (index _ _ id').mpr ⟨sch', found', rfl, rfl, active'⟩
    exact Option.some.inj (named.symm.trans named')
  case refine_2 =>
    intro op mode sch ne
    rw [getActiveSchemaForOam_ok ne]
    refine exists_congr fun id => ⟨?_, ?_⟩
    · rintro ⟨named, found, active⟩
      obtain ⟨sch', found', operator, mode, -⟩ := (index op mode id).mp named
      obtain rfl : sch = sch' := Option.some.inj (found.symm.trans found')
      exact ⟨found, operator, mode, active⟩
    · rintro ⟨found, operator, mode, active⟩
      exact ⟨(index _ _ id).mpr ⟨sch, found, operator, mode, active⟩, found, active⟩

end SchemaStore

/-- The OAM index is exact after every call of a run from an empty store. -/
theorem schema_index_exact (inputs : List SchemaInput)
    (run : Along (fun s input => s.KeepsSlot input ∧ input.Readable) SchemaStore.step .empty inputs) :
    (inputs.foldl SchemaStore.step .empty).IndexExact := by
  have inv : (inputs.foldl SchemaStore.step .empty).Inv :=
    Along.inv SchemaStore.Inv.empty (fun _ _ inv ok => inv.step ok) run
  exact inv.indexExact

/-- An ACTIVE schema of an operator, for OAM mode 3. -/
def schemaOf (id operatorID : Bytes) : Schema where
  id := id
  oamMode := 3
  payloadBytes := 1
  name := ascii "Heartbeat"
  version := 1
  layout := some [⟨ascii "beat", 0, 1, 1⟩]
  operatorID := operatorID
  createdAt := 0
  status := schemaStatusActive
  updatedAt := 0
  signature := []

def schemaInput (call : SchemaCall) : SchemaInput where
  call := call
  faults := {}

/-- A schema is created, deprecated and replaced by another one. -/
def replaceSchema : List SchemaInput :=
  [ schemaInput (.create (some (schemaOf (ascii "a") (ascii "op")))),
    schemaInput (.create (some (schemaOf (ascii "b") (ascii "op")))),
    schemaInput (.update (some { schemaOf (ascii "a") (ascii "op") with
      status := schemaStatusDeprecated })),
    schemaInput (.create (some (schemaOf (ascii "b") (ascii "op")))) ]

theorem schema_index_exact_replaceSchema :
    (replaceSchema.foldl SchemaStore.step .empty).IndexExact ∧
      (replaceSchema.foldl SchemaStore.step .empty).oamIndex.get (oamKey (ascii "op") 3) =
        some (ascii "b") := by
  have run : Along (fun s input => s.KeepsSlot input ∧ input.Readable) SchemaStore.step .empty
      replaceSchema := by decide +kernel
  exact ⟨schema_index_exact replaceSchema run, by decide +kernel⟩

/-- A schema is created ACTIVE for an operator ID that is not UTF-8, and deleted. -/
def deleteInvalid : List SchemaInput :=
  [ schemaInput (.create (some (schemaOf (ascii "a") [0xff]))), schemaInput (.delete (ascii "a")) ]

/-- The index keeps an entry for the deleted schema. -/
theorem not_schema_index_exact :
    ¬ ∀ inputs, Along SchemaStore.KeepsSlot SchemaStore.step .empty inputs →
      (inputs.foldl SchemaStore.step .empty).IndexExact := by
  intro all
  have exact := all deleteInvalid (by decide +kernel)
  have named : (deleteInvalid.foldl SchemaStore.step .empty).oamIndex.get (oamKey [0xff] 3) =
      some (ascii "a") := by decide +kernel
  obtain ⟨sch, found, -⟩ := (exact.index [0xff] 3 (ascii "a") (List.cons_ne_nil _ _)).mp named
  have gone : ((deleteInvalid.foldl SchemaStore.step .empty).schemas.get (ascii "a")).isNone = true := by
    decide +kernel
  rw [found] at gone
  cases gone

end Otap.Flr
