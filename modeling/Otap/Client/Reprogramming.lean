import Mathlib.Data.List.TakeWhile
import Otap.Client.FlrClient
import Otap.Csr.Independence

/-!
# Reprogramming the register file

What a sequence of `program_register_file` calls leaves in the schema and OAM tables. Every call is a run of setter
calls: it binds the schemas of its list, in order, up to the first one whose size is not the local one, and clears
nothing. So after any sequence of calls the tables hold what was ever bound, and they track the last list exactly
when that list still has every schema that an earlier call bound.
-/

namespace Otap.Client
open Otap.Lib Otap.Csr

variable {rf rf' : RegisterFile} {id : SchemaId}

/-! ## Execution -/

lemma exec_bind {α β : Type} {m : Program α} {f : α → Program β} {a : α} (h : m.exec rf = (.ok a, rf')) :
    (m >>= f).exec rf = (f a).exec rf' :=
  run_bind_ok h

lemma exec_write {m : Update Unit} (ok : m.exec rf = (.ok (), rf')) : (write m).exec rf = (.ok (), rf') := by
  unfold Update.exec at ok
  unfold Program.exec write
  rw [ExceptT.run_adapt, StateT.run_map]
  erw [ok]
  rfl

/-- A setter call that succeeds. -/
lemma exec_write_call {c : Call} (ok : (c.run.exec rf).1 = .ok ()) : (write c.run).exec rf = (.ok (), rf.call c) :=
  exec_write (Prod.ext ok rfl)

lemma calls_append (cs cs' : List Call) : rf.calls (cs ++ cs') = (rf.calls cs).calls cs' :=
  List.foldl_append

/-! ## The schemas of a list -/

lemma OamMode.ext_charge {m m' : OamMode} (e : m.charge = m'.charge) : m = m' := by
  cases m
  cases m'
  simpa using e

lemma mapOamToSchemaId_iff {oam : Int32} :
    mapOamToSchemaId oam = some id ↔ oam.toInt = id.oamMode.charge := by
  unfold mapOamToSchemaId
  cases id <;> simp only [SchemaId.oamMode] <;> grind

lemma oamMode_inj {id id' : SchemaId} (e : id.oamMode = id'.oamMode) : id = id' := by
  have charge := congrArg OamMode.charge e
  cases id <;> cases id' <;> first | rfl | cases charge

lemma csrHandleForSchemaId_inj {id id' : SchemaId} (e : csrHandleForSchemaId id = csrHandleForSchemaId id') :
    id = id' := by
  cases id <;> cases id' <;> first | rfl | cases e

lemma csrHandleForSchemaId_ne_zero (id : SchemaId) : csrHandleForSchemaId id ≠ 0 := by
  cases id <;> decide

lemma csrHandleForSchemaId_lt (id : SchemaId) : (csrHandleForSchemaId id).toNat < 32 := by
  cases id <;> decide

/-- The size that the FLR states is the local one, if there is one. -/
def sizeAgrees (sch : ApplicationSchema) : Bool :=
  match mapOamToSchemaId sch.oamMode with
  | none => true
  | some localId => localId.payloadBytes == asUsize sch.payloadBytes

/-- The local schemas that a list binds: those before the first one with another size. -/
def boundBy (schemas : List ApplicationSchema) : List SchemaId :=
  (schemas.takeWhile sizeAgrees).filterMap fun sch => mapOamToSchemaId sch.oamMode

/-- The setter calls that bind a schema. -/
def bindCalls (id : SchemaId) : List Call :=
  [ .setSchemaPayload (csrHandleForSchemaId id) (BitVec.ofNat 16 id.payloadBytes),
    .setOamToSchema id.oamMode (csrHandleForSchemaId id) ]

lemma toInt_of_size {n : Int32} (size : id.payloadBytes = asUsize n) : n.toInt = id.payloadBytes := by
  have lo := n.minValue_le_toInt
  have hi := n.toInt_lt
  have small : id.payloadBytes ≤ 256 := by cases id <;> decide
  unfold asUsize at size
  change -2 ^ 31 ≤ n.toInt at lo
  omega

lemma truncated_size {n : Int32} (size : id.payloadBytes = asUsize n) :
    n.toBitVec.setWidth 16 = BitVec.ofNat 16 id.payloadBytes := by
  have value : n = Int32.ofInt id.payloadBytes := by rw [← toInt_of_size size, Int32.ofInt_toInt]
  rw [value]
  cases id <;> rfl

lemma exec_setPayload (id : SchemaId) :
    (write (writer.setSchemaPayload (csrHandleForSchemaId id) (BitVec.ofNat 16 id.payloadBytes))).exec rf =
      (.ok (), rf.call (.setSchemaPayload (csrHandleForSchemaId id) (BitVec.ofNat 16 id.payloadBytes))) := by
  have ok := @writer.exec_setSchemaPayload rf _ (csrHandleForSchemaId_ne_zero id) (csrHandleForSchemaId_lt id)
  exact exec_write_call (c := .setSchemaPayload _ _) (by rw [Call.run, ok])

lemma exec_setOam (id : SchemaId) :
    (write (writer.setOamToSchema id.oamMode (csrHandleForSchemaId id))).exec rf =
      (.ok (), rf.call (.setOamToSchema id.oamMode (csrHandleForSchemaId id))) :=
  exec_write_call (c := .setOamToSchema _ _) (by rw [Call.run, writer.exec_setOamToSchema])

/-- The loop of the program is the run of the setter calls of the schemas it binds, and it returns `Ok` exactly
    when all sizes agree. -/
lemma exec_programSchemas (schemas : List ApplicationSchema) (mapped : Nat) :
    ((programSchemas schemas mapped).exec rf).2 = rf.calls ((boundBy schemas).flatMap bindCalls) ∧
      ((∃ n, ((programSchemas schemas mapped).exec rf).1 = .ok n) ↔ ∀ sch ∈ schemas, sizeAgrees sch = true) := by
  induction schemas generalizing rf mapped with
  | nil => exact ⟨rfl, fun _ _ mem => (nomatch mem), fun _ => ⟨mapped, rfl⟩⟩
  | cons sch schemas ih =>
    cases map : mapOamToSchemaId sch.oamMode with
    | none =>
      have agrees : sizeAgrees sch = true := by rw [sizeAgrees, map]
      have skip : boundBy (sch :: schemas) = boundBy schemas := by
        rw [boundBy, List.takeWhile_cons_of_pos agrees, List.filterMap_cons, map, boundBy]
      rw [programSchemas, map, skip]
      refine ⟨(ih mapped).1, (ih mapped).2.trans ?_⟩
      rw [List.forall_mem_cons, and_iff_right agrees]
    | some id =>
      by_cases size : id.payloadBytes = asUsize sch.payloadBytes
      case pos =>
        have agrees : sizeAgrees sch = true := by rw [sizeAgrees, map]; exact beq_of_eq size
        have binds : boundBy (sch :: schemas) = id :: boundBy schemas := by
          rw [boundBy, List.takeWhile_cons_of_pos agrees, List.filterMap_cons, map, boundBy]
        have body : (programSchemas (sch :: schemas) mapped).exec rf =
            (programSchemas schemas (mapped + 1)).exec (rf.calls (bindCalls id)) := by
          rw [programSchemas, map]
          dsimp only
          rw [if_neg (not_not.mpr size), truncated_size size]
          rw [exec_bind (exec_setPayload id), exec_bind (exec_setOam id)]
          rfl
        rw [body, binds, List.flatMap_cons, calls_append]
        refine ⟨(ih _).1, (ih _).2.trans ?_⟩
        rw [List.forall_mem_cons, and_iff_right agrees]
      case neg =>
        have differs : sizeAgrees sch = false := by rw [sizeAgrees, map]; exact beq_false_of_ne size
        have binds : boundBy (sch :: schemas) = [] := by
          rw [boundBy, List.takeWhile_cons_of_neg (by rw [differs]; exact Bool.false_ne_true), List.filterMap_nil]
        have body : (programSchemas (sch :: schemas) mapped).exec rf =
            (.error (sizeMismatch sch id.payloadBytes), rf) := by
          rw [programSchemas, map]
          dsimp only
          rw [if_pos size]
          rfl
        rw [body, binds]
        refine ⟨rfl, fun ok => (nomatch ok.choose_spec), fun all => ?_⟩
        cases differs.symm.trans (all sch List.mem_cons_self)

/-! ## Rounds -/

/-- A call of `program_register_file`: its arguments and the answer of the FLR to its request. -/
structure Round where
  wavelength : Csr.Wavelength
  secretBytes : Vector (BitVec 8) 32
  topologicalAuth : Bool
  response : Option Response

def Round.run (r : Round) : Program Nat :=
  programRegisterFile r.wavelength r.secretBytes r.topologicalAuth r.response

/-- The active list that the FLR returned, if the client could read one. -/
def Round.schemas (r : Round) : List ApplicationSchema :=
  match listActiveSchemas r.response with
  | .ok schemas => schemas
  | .error _ => []

/-- The register file after a sequence of calls that starts with a new one. -/
def reprogram (rounds : List Round) : RegisterFile :=
  rounds.foldl (fun rf r => (r.run.exec rf).2) .new

/-- The setter calls of a round. -/
def Round.calls (r : Round) : List Call :=
  [ .setWavelength r.wavelength,
    .setSecret r.secretBytes,
    .setCtrl (if r.topologicalAuth then ctrlEnableTx ||| ctrlEnableRx ||| ctrlAuthTopological
      else ctrlEnableTx ||| ctrlEnableRx),
    .setAuthTolerance toleranceMilliradians ] ++ (boundBy r.schemas).flatMap bindCalls

lemma exec_prelude (r : Round) :
    r.run.exec rf = (do
      let schemas ← liftExcept (listActiveSchemas r.response)
      programSchemas schemas 0 : Program Nat).exec (rf.calls (r.calls.take 4)) := by
  have wavelength : ((Call.setWavelength r.wavelength).run.exec rf).1 = .ok () := by
    rw [Call.run, writer.exec_setWavelength]
  refine (exec_bind (exec_write_call wavelength)).trans ?_
  refine (exec_bind (exec_write_call (c := .setSecret r.secretBytes) ?_)).trans ?_
  case refine_1 => rw [Call.run, writer.exec_setSecret]
  refine (exec_bind (exec_write_call (c := .setCtrl _) ?_)).trans ?_
  case refine_1 => rw [Call.run, writer.exec_setCtrl]
  refine (exec_bind (exec_write_call (c := .setAuthTolerance _) ?_)).trans ?_
  case refine_1 => rw [Call.run, writer.exec_setAuthTolerance]
  rfl

/-- What a round does to the register file, and what it means that it returns `Ok`. -/
lemma exec_round (r : Round) :
    (r.run.exec rf).2 = rf.calls r.calls ∧
      ((∃ n, (r.run.exec rf).1 = .ok n) → ∀ sch ∈ r.schemas, sizeAgrees sch = true) := by
  rw [exec_prelude, Round.schemas]
  have split : rf.calls r.calls = (rf.calls (r.calls.take 4)).calls ((boundBy r.schemas).flatMap bindCalls) :=
    calls_append _ _
  rw [split, Round.schemas]
  cases listActiveSchemas r.response with
  | error e => exact ⟨rfl, fun _ _ mem => (nomatch mem)⟩
  | ok schemas =>
    obtain ⟨effect, returns⟩ := @exec_programSchemas (rf.calls (r.calls.take 4)) schemas 0
    exact ⟨effect, returns.mp⟩

/-- A sequence of rounds is a run of setter calls. -/
lemma reprogram_eq (rounds : List Round) :
    reprogram rounds = RegisterFile.new.calls (rounds.flatMap Round.calls) := by
  induction rounds using List.reverseRecOn with
  | nil => rfl
  | append_singleton rounds r ih =>
    rw [reprogram, List.foldl_concat, ← reprogram, (exec_round r).1, ih, List.flatMap_append, List.flatMap_singleton,
      calls_append]

/-! ## The tables after a sequence of rounds -/

/-- Some round of the sequence bound the schema. -/
def BoundIn (rounds : List Round) (id : SchemaId) : Prop :=
  ∃ r ∈ rounds, id ∈ boundBy r.schemas

lemma boundIn_concat {rounds : List Round} {r : Round} :
    BoundIn (rounds ++ [r]) id ↔ BoundIn rounds id ∨ id ∈ boundBy r.schemas := by
  simp only [BoundIn, List.mem_append, List.mem_singleton, or_and_right, exists_or, exists_eq_left]

/-- The table entries are written by the binding of schemas only. -/
lemma mem_roundCalls {rounds : List Round} {c : Call} (mem : c ∈ rounds.flatMap Round.calls) :
    (∃ id, BoundIn rounds id ∧ c ∈ bindCalls id) ∨
      (∀ m, c.schemaIdForOam m = none) ∧ ∀ h, c.schemaPayloadBytes h = none := by
  obtain ⟨r, memR, mem⟩ := List.mem_flatMap.mp mem
  rcases List.mem_append.mp mem with fixed | bind
  · refine .inr ?_
    simp only [List.mem_cons, List.not_mem_nil, or_false] at fixed
    rcases fixed with rfl | rfl | rfl | rfl <;> exact ⟨fun _ => rfl, fun _ => rfl⟩
  · obtain ⟨id, bound, mem⟩ := List.mem_flatMap.mp bind
    exact .inl ⟨id, ⟨r, memR, bound⟩, mem⟩

lemma bindCalls_mem {rounds : List Round} {c : Call} (bound : BoundIn rounds id)
    (mem : c ∈ bindCalls id) : c ∈ rounds.flatMap Round.calls := by
  obtain ⟨r, memR, bound⟩ := bound
  exact List.mem_flatMap.mpr ⟨r, memR, List.mem_append_right _ (List.mem_flatMap.mpr ⟨id, bound, mem⟩)⟩

lemma schemaIdForOam_new (m : OamMode) : view.schemaIdForOam .new m = .ok 0 := by
  rw [view.schemaIdForOam_eq, word_new]
  exact congrArg Except.ok BitVec.extractLsb'_zero

/-- The entry of a mode holds the handle of its schema if some round bound it, and is still empty otherwise. -/
lemma schemaIdForOam_reprogram (rounds : List Round) (m : OamMode) :
    (∃ id, BoundIn rounds id ∧ id.oamMode = m ∧
      view.schemaIdForOam (reprogram rounds) m = .ok (csrHandleForSchemaId id)) ∨
    (∀ id, BoundIn rounds id → id.oamMode ≠ m) ∧ view.schemaIdForOam (reprogram rounds) m = .ok 0 := by
  have read := @read_run _ _ _ _ (fun rf => view.schemaIdForOam rf m) _ (schemaIdForOam_call m) .new
    (rounds.flatMap Round.calls)
  change view.schemaIdForOam (RegisterFile.new.calls _) m = _ at read
  rw [← reprogram_eq, schemaIdForOam_new] at read
  rw [read]
  rcases lastWrite_cases (Call.schemaIdForOam m) (rounds.flatMap Round.calls) with
    ⟨c, mem, h, wrote, last⟩ | ⟨none, last⟩
  · refine .inl ?_
    rcases mem_roundCalls mem with ⟨id, bound, mem⟩ | ⟨never, -⟩
    · refine ⟨id, bound, ?_⟩
      simp only [bindCalls, List.mem_cons, List.not_mem_nil, or_false] at mem
      rcases mem with rfl | rfl
      · cases wrote
      · simp only [Call.schemaIdForOam, Option.ite_none_right_eq_some, Option.some.injEq] at wrote
        rw [last, ← wrote.2]
        exact ⟨wrote.1, rfl⟩
    · cases (never m).symm.trans wrote
  · refine .inr ⟨fun id bound mode => ?_, by rw [last]; rfl⟩
    have unset := none _ (bindCalls_mem bound (List.mem_cons_of_mem _ List.mem_cons_self))
    rw [Call.schemaIdForOam, if_pos mode] at unset
    cases unset

/-- The payload entry of a schema that some round bound. -/
lemma schemaPayloadBytes_reprogram {rounds : List Round} (bound : BoundIn rounds id) :
    view.schemaPayloadBytes (reprogram rounds) (csrHandleForSchemaId id) = .ok (BitVec.ofNat 16 id.payloadBytes) := by
  have law := schemaPayloadBytes_call (csrHandleForSchemaId_ne_zero id) (csrHandleForSchemaId_lt id)
  have read := @read_run _ _ _ _ (fun rf => view.schemaPayloadBytes rf (csrHandleForSchemaId id)) _ law .new
    (rounds.flatMap Round.calls)
  change view.schemaPayloadBytes (RegisterFile.new.calls _) _ = _ at read
  rw [reprogram_eq, read]
  rcases lastWrite_cases (Call.schemaPayloadBytes (csrHandleForSchemaId id)) (rounds.flatMap Round.calls) with
    ⟨c, mem, p, wrote, last⟩ | ⟨none, -⟩
  · rcases mem_roundCalls mem with ⟨id', -, mem⟩ | ⟨-, never⟩
    · simp only [bindCalls, List.mem_cons, List.not_mem_nil, or_false] at mem
      rcases mem with rfl | rfl
      · simp only [Call.schemaPayloadBytes, Option.ite_none_right_eq_some, Option.some.injEq] at wrote
        rw [last, ← wrote.2, csrHandleForSchemaId_inj wrote.1]
        rfl
      · cases wrote
    · cases (never _).symm.trans wrote
  · have unset := none _ (bindCalls_mem bound List.mem_cons_self)
    rw [Call.schemaPayloadBytes, if_pos rfl] at unset
    cases unset

/-! ## Main result -/

/-- The tables hold the schemas of an active list and no others. -/
structure Tracks (rf : RegisterFile) (schemas : List ApplicationSchema) : Prop where
  bound : ∀ m : OamMode, (∃ handle, view.schemaIdForOam rf m = .ok handle ∧ handle ≠ 0) ↔
    ∃ sch ∈ schemas, sch.oamMode.toInt = m.charge ∧ ∃ id, mapOamToSchemaId sch.oamMode = some id
  entry : ∀ m : OamMode, ∀ sch ∈ schemas, sch.oamMode.toInt = m.charge →
    ∀ id, mapOamToSchemaId sch.oamMode = some id →
      view.schemaIdForOam rf m = .ok (csrHandleForSchemaId id) ∧
        ∃ size, view.schemaPayloadBytes rf (csrHandleForSchemaId id) = .ok size ∧
          (size.toNat : Int) = sch.payloadBytes.toInt

/-- After any sequence of rounds of which the last returned `Ok`, the tables track the active list of the last round
    if and only if that list still has every schema that an earlier round bound. -/
theorem reprogramming_tracks_iff (rounds : List Round) (last : Round)
    (ok : ∃ n, (last.run.exec (reprogram rounds)).1 = .ok n) :
    Tracks (reprogram (rounds ++ [last])) last.schemas ↔
      ∀ id, (∃ r ∈ rounds, id ∈ boundBy r.schemas) →
        ∃ sch ∈ last.schemas, mapOamToSchemaId sch.oamMode = some id := by
  have sizes := (exec_round last).2 ok
  have inLast : ∀ id, id ∈ boundBy last.schemas ↔ ∃ sch ∈ last.schemas, mapOamToSchemaId sch.oamMode = some id := by
    intro id
    rw [boundBy, List.takeWhile_eq_self_iff.mpr sizes, List.mem_filterMap]
  constructor
  case mp =>
    intro tracks id before
    have boundAll : BoundIn (rounds ++ [last]) id := boundIn_concat.mpr (.inl before)
    rcases schemaIdForOam_reprogram (rounds ++ [last]) id.oamMode with ⟨id', -, -, read⟩ | ⟨unbound, -⟩
    · obtain ⟨sch, mem, mode, -⟩ := (tracks.bound id.oamMode).mp ⟨_, read, csrHandleForSchemaId_ne_zero id'⟩
      exact ⟨sch, mem, mapOamToSchemaId_iff.mpr mode⟩
    · exact absurd rfl (unbound id boundAll)
  case mpr =>
    intro kept
    have boundAll : ∀ id, BoundIn (rounds ++ [last]) id ↔
        ∃ sch ∈ last.schemas, mapOamToSchemaId sch.oamMode = some id := by
      intro id
      rw [boundIn_concat, inLast]
      exact or_iff_right_of_imp (kept id)
    have entry : ∀ m : OamMode, ∀ sch ∈ last.schemas, sch.oamMode.toInt = m.charge →
        ∀ id, mapOamToSchemaId sch.oamMode = some id →
          BoundIn (rounds ++ [last]) id ∧
            view.schemaIdForOam (reprogram (rounds ++ [last])) m = .ok (csrHandleForSchemaId id) := by
      intro m sch mem mode id map
      have bound := (boundAll id).mpr ⟨sch, mem, map⟩
      have same : id.oamMode = m := OamMode.ext_charge ((mapOamToSchemaId_iff.mp map).symm.trans mode)
      rcases schemaIdForOam_reprogram (rounds ++ [last]) m with ⟨id', -, mode', read⟩ | ⟨unbound, -⟩
      · rw [oamMode_inj (mode'.trans same.symm)] at read
        exact ⟨bound, read⟩
      · exact absurd same (unbound id bound)
    refine ⟨fun m => ⟨?_, ?_⟩, fun m sch mem mode id map => ?_⟩
    · rintro ⟨handle, read, nonzero⟩
      rcases schemaIdForOam_reprogram (rounds ++ [last]) m with ⟨id, bound, mode, -⟩ | ⟨-, empty⟩
      · obtain ⟨sch, mem, map⟩ := (boundAll id).mp bound
        refine ⟨sch, mem, ?_, id, map⟩
        rw [← mode]
        exact mapOamToSchemaId_iff.mp map
      · cases read.symm.trans empty
        exact absurd rfl nonzero
    · rintro ⟨sch, mem, mode, id, map⟩
      exact ⟨_, (entry m sch mem mode id map).2, csrHandleForSchemaId_ne_zero id⟩
    · obtain ⟨bound, read⟩ := entry m sch mem mode id map
      refine ⟨read, _, schemaPayloadBytes_reprogram bound, ?_⟩
      have agrees := sizes sch mem
      rw [sizeAgrees, map] at agrees
      rw [toInt_of_size (eq_of_beq agrees)]
      cases id <;> rfl

/-- The equity order schema as a JSON document. -/
def tradeOrderDocument : Json :=
  .obj
    [ (ascii "id", .str (ascii "trade-order")), (ascii "oam_mode", .num 1), (ascii "payload_bytes", .num 256),
      (ascii "name", .str (ascii "EquityTradeOrder")), (ascii "layout", .obj [(ascii "fields", .arr [])]),
      (ascii "operator_id", .str (ascii "op")), (ascii "created_at", .str []) ]

/-- A round to which the FLR answers with the given active schemas. -/
def roundOf (documents : List Json) : Round where
  wavelength := ⟨42, by decide⟩
  secretBytes := Vector.replicate 32 0
  topologicalAuth := false
  response := some ⟨200, .json (.obj [(ascii "schemas", .arr documents)])⟩

/-- Two rounds with the same active schema. -/
theorem reprogramming_tracks_again :
    Tracks (reprogram [roundOf [tradeOrderDocument], roundOf [tradeOrderDocument]])
      (roundOf [tradeOrderDocument]).schemas := by
  refine (reprogramming_tracks_iff [roundOf [tradeOrderDocument]] (roundOf [tradeOrderDocument]) ⟨1, rfl⟩).mpr ?_
  rintro id ⟨r, mem, bound⟩
  cases List.mem_singleton.mp mem
  obtain rfl : id = .equityTradeOrder := List.mem_singleton.mp bound
  exact ⟨_, List.mem_cons_self, rfl⟩

/-- The schema is active at the first round and no longer at the second, which returns `Ok`: its mode is still
    bound. -/
theorem not_reprogramming_tracks :
    ((roundOf []).run.exec (reprogram [roundOf [tradeOrderDocument]])).1.toOption = some 0 ∧
    (roundOf []).schemas = [] ∧
    view.schemaIdForOam (reprogram [roundOf [tradeOrderDocument], roundOf []])
      SchemaId.equityTradeOrder.oamMode = .ok 1 ∧
    ¬ Tracks (reprogram [roundOf [tradeOrderDocument], roundOf []]) (roundOf []).schemas := by
  have stale : view.schemaIdForOam (reprogram [roundOf [tradeOrderDocument], roundOf []])
      SchemaId.equityTradeOrder.oamMode = .ok 1 := by decide +kernel
  refine ⟨rfl, rfl, stale, fun tracks => ?_⟩
  obtain ⟨sch, mem, -⟩ := (tracks.bound _).mp ⟨1, stale, by decide⟩
  cases mem

end Otap.Client
