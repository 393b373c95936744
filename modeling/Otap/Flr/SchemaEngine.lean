import Otap.Flr.SchemaStore

/-!
# The schema operations of the engine

Embeds `RegisterSchema`, `DeprecateSchema` and `RevokeSchema` of `flr/internal/registry/schema_engine.go` with the
structural checks of `flr/internal/models/schema.go` that registration makes. A call holds the engine's lock
while it accesses the store, so it is one step; it returns its result and the engine after it.

Sums of offsets and lengths are `int32` and wrap, as in the source.
-/

namespace Otap.Flr

open Otap.Lib

variable {P : Platform}

/-! ## Structural checks -/

/-- `FieldType.SizeBytes`; `-1` for a type of variable width. -/
def fieldTypeSizeBytes (t : Int32) : Int :=
  if t = 1 ∨ t = 5 ∨ t = 13 then 1
  else if t = 2 ∨ t = 6 then 2
  else if t = 3 ∨ t = 7 ∨ t = 9 then 4
  else if t = 4 ∨ t = 8 ∨ t = 10 then 8
  else -1

/-- `FieldType.String`. -/
def fieldTypeString (t : Int32) : Bytes :=
  let names : List (Int32 × String) :=
    [ (1, "u8"), (2, "u16"), (3, "u32"), (4, "u64"), (5, "i8"), (6, "i16"), (7, "i32"), (8, "i64"),
      (9, "f32"), (10, "f64"), (11, "ascii"), (12, "bytes"), (13, "enum_u8") ]
  ascii ((names.lookup t).getD "UNSPECIFIED")

/-- `FieldDef.Validate`. -/
def CanonicalFieldDef.validate (f : CanonicalFieldDef) : Result Unit :=
  let field := ascii "field " ++ quoted f.name
  if f.name = [] then .error (ascii "field name cannot be empty")
  else if f.length ≤ 0 then
    .error (field ++ ascii " length must be positive (got " ++ decimalInt f.length.toInt ++ ascii ")")
  else if f.offset < 0 then
    .error (field ++ ascii " offset cannot be negative (got " ++ decimalInt f.offset.toInt ++ ascii ")")
  else if fieldTypeSizeBytes f.type > 0 ∧ f.length.toInt ≠ fieldTypeSizeBytes f.type then
    .error (field ++ ascii " type " ++ fieldTypeString f.type ++ ascii " requires length " ++
      decimalInt (fieldTypeSizeBytes f.type) ++ ascii ", got " ++ decimalInt f.length.toInt)
  else .ok ()

/-- `FieldLayout.TotalBytes`. -/
def totalBytes (fields : List CanonicalFieldDef) : Int32 :=
  fields.foldl (fun maxEnd f => if f.offset + f.length > maxEnd then f.offset + f.length else maxEnd) 0

/-- The loop over the fields in `FieldLayout.Validate`. -/
def validateFields : Nat → List CanonicalFieldDef → Result Unit
  | _, [] => .ok ()
  | i, f :: fields =>
    match f.validate with
    | .error err => .error (ascii "field[" ++ decimal i ++ ascii "]: " ++ err)
    | .ok () => validateFields (i + 1) fields

/-- The loop over the bytes of a field: every byte is inside the layout and not yet occupied. -/
def occupyBytes (total : Int32) (f : CanonicalFieldDef) : List Int → List Int → Result (List Int)
  | [], occupied => .ok occupied
  | b :: bytes, occupied =>
    if b < 0 ∨ b ≥ total.toInt then
      .error (ascii "field " ++ quoted f.name ++ ascii ": byte " ++ decimalInt b ++
        ascii " out of layout bounds [0," ++ decimalInt total.toInt ++ ascii ")")
    else if b ∈ occupied then
      .error (ascii "field " ++ quoted f.name ++ ascii " overlaps another field at byte " ++ decimalInt b)
    else occupyBytes total f bytes (b :: occupied)

/-- `for b := f.Offset; b < f.Offset+f.Length; b++`. -/
def CanonicalFieldDef.bytes (f : CanonicalFieldDef) : List Int :=
  (List.range ((f.offset + f.length).toInt - f.offset.toInt).toNat).map fun i => f.offset.toInt + i

def occupy (total : Int32) : List CanonicalFieldDef → List Int → Result (List Int)
  | [], occupied => .ok occupied
  | f :: fields, occupied =>
    match occupyBytes total f f.bytes occupied with
    | .error err => .error err
    | .ok occupied => occupy total fields occupied

/-- `FieldLayout.Validate`. -/
def validateLayout (fields : List CanonicalFieldDef) : Result Unit :=
  if fields = [] then .error (ascii "layout must have at least one field")
  else
    match validateFields 0 fields with
    | .error err => .error err
    | .ok () =>
      match occupy (totalBytes fields) fields [] with
      | .error err => .error err
      | .ok occupied =>
        match (List.range (totalBytes fields).toInt.toNat).find? fun b : Nat => !decide (Int.ofNat b ∈ occupied) with
        | some b =>
          .error (ascii "byte " ++ decimal b ++
            ascii " in layout is not covered by any field (use a `bytes` field for reserved/padding zones)")
        | none => .ok ()

/-- `ApplicationSchema.Validate`. -/
def ApplicationSchema.validate (s : ApplicationSchema) : Result Unit :=
  if s.id = [] then .error (ascii "schema ID cannot be empty")
  else if s.name = [] then .error (ascii "schema name cannot be empty")
  else if s.operatorID = [] then .error (ascii "operator ID cannot be empty")
  else if s.oamMode < -16 ∨ s.oamMode > 16 then
    .error (ascii "oam_mode " ++ decimalInt s.oamMode.toInt ++ ascii " outside supported range [-16, 16]")
  else if s.payloadBytes ≤ 0 then
    .error (ascii "payload_bytes must be positive (got " ++ decimalInt s.payloadBytes.toInt ++ ascii ")")
  else
    match s.layout with
    | none => .error (ascii "layout cannot be nil")
    | some fields =>
      match validateLayout fields with
      | .error err => .error (ascii "layout invalid: " ++ err)
      | .ok () =>
        if totalBytes fields ≠ s.payloadBytes then
          .error (ascii "payload_bytes (" ++ decimalInt s.payloadBytes.toInt ++ ascii ") != layout total (" ++
            decimalInt (totalBytes fields).toInt ++ ascii ")")
        else .ok ()

/-! ## The engine -/

/-- `registry.Engine` with its store as a `SchemaStore`. -/
structure SchemaEngine (P : Platform) where
  store : SchemaStore
  crypto : CryptoEngine P
  operatorID : Bytes

/-- What one call reads from its surroundings: its clock reading, a new UUID, the randomness of the signature,
    and the faults of its two store accesses. -/
structure SchemaEnv where
  now : Time
  uuid : Bytes
  random : Bytes
  read : Faults := {}
  write : Faults := {}

/-- The zero value of `time.Time`. -/
def zeroTime : Time := -62135596800 * second

/-- The defaults that registration fills in. -/
def SchemaEngine.complete (e : SchemaEngine P) (env : SchemaEnv) (s : Schema) : Schema :=
  { s with
    operatorID := if s.operatorID = [] then e.operatorID else s.operatorID
    id := if s.id = [] then env.uuid else s.id
    createdAt := if s.createdAt = zeroTime then env.now else s.createdAt
    updatedAt := env.now
    status := if s.status = schemaStatusUnspecified then schemaStatusActive else s.status }

/-- `Engine.RegisterSchema`. -/
def SchemaEngine.registerSchema (e : SchemaEngine P) (env : SchemaEnv) (s : Option Schema) :
    Result Schema × SchemaEngine P :=
  match s with
  | none => (.error (ascii "schema cannot be nil"), e)
  | some s =>
    let s := e.complete env s
    if s.operatorID ≠ e.operatorID then
      (.error (ascii "cannot register schema for operator " ++ quoted s.operatorID ++ ascii " (this engine: " ++
        quoted e.operatorID ++ ascii ")"), e)
    else
      match s.validate with
      | .error err => (.error (ascii "invalid schema: " ++ err), e)
      | .ok () =>
        match e.crypto.signSchema env.random s.toApplicationSchema with
        | (.error err, crypto) => (.error (ascii "sign schema: " ++ err), { e with crypto })
        | (.ok sig, crypto) =>
          let s := { s with signature := sig }
          match e.store.createSchema env.write (some s) with
          | .error err => (.error (ascii "store schema: " ++ err), { e with crypto })
          | .ok store => (.ok s, { e with crypto, store })

/-- What `DeprecateSchema` and `RevokeSchema` do: look the schema up, set its status, sign it again and store it. -/
def SchemaEngine.setStatus (e : SchemaEngine P) (env : SchemaEnv) (id : Bytes) (verb : String)
    (status : SchemaStatus) : Result Schema × SchemaEngine P :=
  match e.store.getSchema env.read id with
  | .error err => (.error err, e)
  | .ok sch =>
    if sch.operatorID ≠ e.operatorID then
      (.error (ascii "cannot " ++ ascii verb ++ ascii " schema owned by operator " ++ quoted sch.operatorID), e)
    else
      let sch := { sch with status := status, updatedAt := env.now }
      match e.crypto.signSchema env.random sch.toApplicationSchema with
      | (.error err, crypto) => (.error (ascii "re-sign schema: " ++ err), { e with crypto })
      | (.ok sig, crypto) =>
        let sch := { sch with signature := sig }
        match e.store.updateSchema env.write (some sch) with
        | .error err => (.error (ascii "update schema: " ++ err), { e with crypto })
        | .ok store => (.ok sch, { e with crypto, store })

/-- `Engine.DeprecateSchema`. -/
def SchemaEngine.deprecateSchema (e : SchemaEngine P) (env : SchemaEnv) (id : Bytes) :
    Result Schema × SchemaEngine P :=
  e.setStatus env id "deprecate" schemaStatusDeprecated

/-- `Engine.RevokeSchema`. -/
def SchemaEngine.revokeSchema (e : SchemaEngine P) (env : SchemaEnv) (id : Bytes) :
    Result Schema × SchemaEngine P :=
  e.setStatus env id "revoke" schemaStatusRevoked

end Otap.Flr
