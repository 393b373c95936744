import Otap.Flr.SchemaEngine
import Otap.Flr.SchemaIndex

/-!
# Revocation of schemas

Runs of the schema operations of the engine, and whether a revoked schema stays revoked. `setStatus` looks the
schema up under the ID of the call and stores it under the ID in the record. Nothing in `DeprecateSchema` looks at
the status that the schema has, so a revoked schema can be deprecated, which makes it valid for decoding again.
And a record whose key is not UTF-8 carries another ID than its key, so that a call under that key changes another
schema than the one it names. In every run without these two kinds of calls revocation is permanent.
-/

namespace Otap.Flr

open Otap.Lib

variable {P : Platform}

lemma Schema.id_stored {sch data : Schema} (stored : sch.stored = some data) : data.id = coerceUtf8 sch.id := by
  unfold Schema.stored at stored
  split at stored
  case isTrue =>
    cases stored
    rfl
  case isFalse => cases stored

/-! ## Runs -/

inductive SchemaEngineCall where
  | registerSchema (s : Option Schema)
  | deprecateSchema (id : Bytes)
  | revokeSchema (id : Bytes)

structure SchemaEngineInput where
  call : SchemaEngineCall
  env : SchemaEnv

namespace SchemaEngine

/-- A call with its result. -/
def call (e : SchemaEngine P) (input : SchemaEngineInput) : Result Schema × SchemaEngine P :=
  match input.call with
  | .registerSchema s => e.registerSchema input.env s
  | .deprecateSchema id => e.deprecateSchema input.env id
  | .revokeSchema id => e.revokeSchema input.env id

def step (e : SchemaEngine P) (input : SchemaEngineInput) : SchemaEngine P :=
  (e.call input).2

/-- The status of the schema stored under an ID. -/
def status (e : SchemaEngine P) (id : Bytes) : Option SchemaStatus :=
  (e.store.schemas.get id).map fun sch => sch.status

/-- A call that changes a status names a schema by an ID in UTF-8, and one that deprecates names none that is
    revoked. -/
def RespectsRevocation (e : SchemaEngine P) (input : SchemaEngineInput) : Prop :=
  match input.call with
  | .registerSchema _ => True
  | .deprecateSchema id => coerceUtf8 id = id ∧ e.status id ≠ some schemaStatusRevoked
  | .revokeSchema id => coerceUtf8 id = id

instance (e : SchemaEngine P) : (input : SchemaEngineInput) → Decidable (e.RespectsRevocation input)
  | ⟨.registerSchema _, _⟩ => inferInstanceAs (Decidable True)
  | ⟨.deprecateSchema id, _⟩ =>
    inferInstanceAs (Decidable (coerceUtf8 id = id ∧ e.status id ≠ some schemaStatusRevoked))
  | ⟨.revokeSchema id, _⟩ => inferInstanceAs (Decidable (coerceUtf8 id = id))

/-- Every schema is stored with the ID that JSON makes of its key. -/
def Keyed (e : SchemaEngine P) : Prop :=
  ∀ id sch, e.store.schemas.get id = some sch → sch.id = coerceUtf8 id

variable {e : SchemaEngine P}

/-! ## What a call does to the stored schemas -/

/-- Registration adds a schema under an ID that is not taken, or changes nothing. -/
lemma registerSchema_cases (env : SchemaEnv) (s : Option Schema) :
    (e.registerSchema env s).2.store.schemas = e.store.schemas ∨
      ∃ id data, e.store.schemas.get id = none ∧ data.id = coerceUtf8 id ∧
        (e.registerSchema env s).2.store.schemas = e.store.schemas.set id data := by
  unfold registerSchema
  split
  case h_1 => exact .inl rfl
  case h_2 s =>
    dsimp only
    split
    case isTrue => exact .inl rfl
    case isFalse =>
      split
      case h_1 => exact .inl rfl
      case h_2 =>
        split
        case h_1 => exact .inl rfl
        case h_2 sig crypto _ =>
          split
          case h_1 => exact .inl rfl
          case h_2 store ok =>
            obtain ⟨sch, data, -, stored, new, ⟨-, -, rfl⟩ | ⟨-, rfl⟩⟩ := SchemaStore.createSchema_ok ok
            · exact .inr ⟨sch.id, data, new, Schema.id_stored stored, rfl⟩
            · exact .inr ⟨sch.id, data, new, Schema.id_stored stored, rfl⟩

/-- A change of status stores the schema that it found under the schema's own ID; a failed one changes
    nothing. -/
lemma setStatus_cases (env : SchemaEnv) (id : Bytes) (verb : String) (status : SchemaStatus) :
    (∃ err, (e.setStatus env id verb status).1 = .error err) ∧
        (e.setStatus env id verb status).2.store.schemas = e.store.schemas ∨
      ∃ sch data, e.store.schemas.get id = some sch ∧ data.id = coerceUtf8 sch.id ∧ data.status = status ∧
        (e.setStatus env id verb status).2.store.schemas = e.store.schemas.set sch.id data := by
  unfold setStatus
  split
  case h_1 err _ => exact .inl ⟨⟨err, rfl⟩, rfl⟩
  case h_2 sch got =>
    have found : e.store.schemas.get id = some sch := by
      unfold SchemaStore.getSchema at got
      split at got
      case isTrue => cases got
      case isFalse => exact SchemaStore.loadSchema_ok got
    split
    case isTrue => exact .inl ⟨⟨_, rfl⟩, rfl⟩
    case isFalse =>
      dsimp only
      split
      case h_1 => exact .inl ⟨⟨_, rfl⟩, rfl⟩
      case h_2 sig crypto _ =>
        split
        case h_1 => exact .inl ⟨⟨_, rfl⟩, rfl⟩
        case h_2 store ok =>
          obtain ⟨sch', data, existing, same, stored, -, cases⟩ := SchemaStore.updateSchema_ok ok
          cases same
          have schemas : store.schemas = e.store.schemas.set sch.id data := by
            obtain ⟨-, -, rfl⟩ | ⟨-, -, -, rfl⟩ | ⟨-, rfl⟩ := cases
            · rfl
            · rfl
            · rfl
          have id_eq := Schema.id_stored stored
          exact .inr ⟨sch, data, found, id_eq, (Schema.stored_eq stored).2.2, schemas⟩

/-! ## Stability -/

lemma Keyed.of_set (keyed : e.Keyed) {e' : SchemaEngine P} {id : Bytes} {data : Schema}
    (own : data.id = coerceUtf8 id) (set : e'.store.schemas = e.store.schemas.set id data) : e'.Keyed := by
  intro id' sch found
  rw [set, KV.get_set] at found
  split at found
  case isTrue e =>
    cases found
    rw [e, own]
  case isFalse => exact keyed id' sch found

lemma Keyed.of_same (keyed : e.Keyed) {e' : SchemaEngine P} (same : e'.store.schemas = e.store.schemas) :
    e'.Keyed := by
  intro id sch found
  rw [same] at found
  exact keyed id sch found

lemma Keyed.setStatus (keyed : e.Keyed) (env : SchemaEnv) (id : Bytes) (verb : String) (status : SchemaStatus) :
    (e.setStatus env id verb status).2.Keyed := by
  obtain ⟨-, same⟩ | ⟨sch, data, -, own, -, set⟩ := setStatus_cases env id verb status
  · exact keyed.of_same same
  · exact keyed.of_set own set

lemma Keyed.step (keyed : e.Keyed) (input : SchemaEngineInput) : (e.step input).Keyed := by
  obtain ⟨call, env⟩ := input
  cases call with
  | registerSchema s =>
    obtain same | ⟨id, data, -, own, set⟩ := registerSchema_cases env s
    · exact keyed.of_same same
    · exact keyed.of_set own set
  | deprecateSchema id => exact keyed.setStatus env id _ _
  | revokeSchema id => exact keyed.setStatus env id _ _

/-- A change of status under an ID in UTF-8 changes the status of that schema and of no other one. -/
lemma Keyed.status_setStatus (keyed : e.Keyed) {id : Bytes} (utf8 : coerceUtf8 id = id) (env : SchemaEnv)
    (verb : String) (status : SchemaStatus) (id' : Bytes) :
    (e.setStatus env id verb status).2.status id' = e.status id' ∨
      id' = id ∧ (e.setStatus env id verb status).2.status id' = some status := by
  obtain ⟨-, same⟩ | ⟨sch, data, found, -, set, schemas⟩ := setStatus_cases env id verb status
  · exact .inl (by rw [SchemaEngine.status, same, SchemaEngine.status])
  · have own : sch.id = id := (keyed id sch found).trans utf8
    rw [SchemaEngine.status, schemas, own, KV.get_set]
    by_cases eq : id' = id
    case pos => exact .inr ⟨eq, by rw [if_pos eq, Option.map_some, set]⟩
    case neg => exact .inl (by rw [if_neg eq, SchemaEngine.status])

lemma Keyed.status_revoked (keyed : e.Keyed) {id : Bytes} {env : SchemaEnv} {sch : Schema} (utf8 : coerceUtf8 id = id)
    (ok : (e.revokeSchema env id).1 = .ok sch) :
    (e.revokeSchema env id).2.status id = some schemaStatusRevoked := by
  obtain ⟨⟨err, failed⟩, -⟩ | ⟨sch', data, found, -, set, schemas⟩ :=
    @setStatus_cases P e env id "revoke" schemaStatusRevoked
  · cases failed.symm.trans ok
  · have own : sch'.id = id := (keyed id sch' found).trans utf8
    rw [SchemaEngine.status, revokeSchema, schemas, own, KV.get_set_self, Option.map_some, set]

/-- The step lemma: a revoked schema stays revoked. -/
lemma Keyed.stays_revoked (keyed : e.Keyed) {input : SchemaEngineInput} {id : Bytes}
    (respects : e.RespectsRevocation input) (revoked : e.status id = some schemaStatusRevoked) :
    (e.step input).status id = some schemaStatusRevoked := by
  obtain ⟨call, env⟩ := input
  cases call with
  | registerSchema s =>
    change (e.registerSchema env s).2.status id = _
    obtain same | ⟨id', data, new, -, set⟩ := @registerSchema_cases P e env s
    · rw [SchemaEngine.status, same]
      exact revoked
    · have ne : id ≠ id' := by
        rintro rfl
        rw [SchemaEngine.status, new] at revoked
        cases revoked
      rw [SchemaEngine.status, set, KV.get_set_ne _ _ ne]
      exact revoked
  | deprecateSchema id' =>
    obtain ⟨utf8, live⟩ := respects
    obtain same | ⟨rfl, -⟩ := keyed.status_setStatus utf8 env "deprecate" schemaStatusDeprecated id
    · exact same.trans revoked
    · exact absurd revoked live
  | revokeSchema id' =>
    obtain same | ⟨-, set⟩ := keyed.status_setStatus respects env "revoke" schemaStatusRevoked id
    · exact same.trans revoked
    · exact set

/-! ## Main result -/

/-- The engine over an empty store. -/
def start (crypto : CryptoEngine P) (operatorID : Bytes) : SchemaEngine P where
  store := .empty
  crypto := crypto
  operatorID := operatorID

lemma keyed_start (crypto : CryptoEngine P) (operatorID : Bytes) : (start crypto operatorID).Keyed :=
  fun _ _ found => nomatch found

/-- Once `revokeSchema` has succeeded on an ID, the schema stored under it is revoked before every later call and
    at the end. -/
def RevocationPermanent (e : SchemaEngine P) (inputs : List SchemaEngineInput) : Prop :=
  ∀ i id env sch, inputs[i]? = some ⟨.revokeSchema id, env⟩ →
    ((stateAt step e inputs i).revokeSchema env id).1 = .ok sch →
    ∀ j > i, (stateAt step e inputs j).status id = some schemaStatusRevoked

end SchemaEngine

open SchemaEngine

/-- Revocation is permanent in every run in which no call deprecates a revoked schema or names a schema by an ID
    that is not UTF-8. -/
theorem schema_revocation_permanent (crypto : CryptoEngine P) (operatorID : Bytes) (inputs : List SchemaEngineInput)
    (run : Along RespectsRevocation step (start crypto operatorID) inputs) :
    RevocationPermanent (start crypto operatorID) inputs := by
  have keyed (n : Nat) : (stateAt step (start crypto operatorID) inputs n).Keyed :=
    run_inv _ (keyed_start crypto operatorID) fun _ input keyed => keyed.step input
  intro i id env sch called ok j later
  refine stateAt_inv (P := fun e : SchemaEngine P => e.status id = some schemaStatusRevoked)
    (fun k input got revoked => (keyed k).stays_revoked (run.stateAt got) revoked) later ?_
  have utf8 : coerceUtf8 id = id := run.stateAt called
  rw [stateAt_succ called]
  exact (keyed i).status_revoked utf8 ok

def schemaEnv : SchemaEnv where
  now := 0
  uuid := []
  random := []

/-- A schema is registered and revoked, and another one takes its mode and is deprecated. -/
def revokeAndReplace : List SchemaEngineInput :=
  [ ⟨.registerSchema (some (schemaOf (ascii "a") (ascii "op"))), schemaEnv⟩,
    ⟨.revokeSchema (ascii "a"), schemaEnv⟩,
    ⟨.registerSchema (some (schemaOf (ascii "b") (ascii "op"))), schemaEnv⟩,
    ⟨.deprecateSchema (ascii "b"), schemaEnv⟩ ]

def opEngine : SchemaEngine .plain :=
  start plainEngine.crypto (ascii "op")

theorem schema_revocation_permanent_replaced :
    RevocationPermanent opEngine revokeAndReplace ∧
      (stateAt step opEngine revokeAndReplace 4).status (ascii "a") = some schemaStatusRevoked :=
  ⟨schema_revocation_permanent _ _ _ (by decide +kernel), by decide +kernel⟩

/-- A schema is registered, revoked and deprecated. -/
def deprecateRevoked : List SchemaEngineInput :=
  [ ⟨.registerSchema (some (schemaOf (ascii "a") (ascii "op"))), schemaEnv⟩,
    ⟨.revokeSchema (ascii "a"), schemaEnv⟩,
    ⟨.deprecateSchema (ascii "a"), schemaEnv⟩ ]

theorem not_schema_revocation_permanent : ¬ RevocationPermanent opEngine deprecateRevoked := by
  intro permanent
  have succeeds : ((stateAt step opEngine deprecateRevoked 1).revokeSchema schemaEnv (ascii "a")).1.isOk = true := by
    decide +kernel
  have valid : (stateAt step opEngine deprecateRevoked 3).status (ascii "a") = some schemaStatusDeprecated := by
    decide +kernel
  cases ok : ((stateAt step opEngine deprecateRevoked 1).revokeSchema schemaEnv (ascii "a")).1 with
  | error err =>
    rw [ok] at succeeds
    cases succeeds
  | ok sch =>
    have revoked := permanent 1 (ascii "a") schemaEnv sch rfl ok 3 (by decide)
    rw [valid] at revoked
    exact absurd revoked (by decide)

end Otap.Flr
