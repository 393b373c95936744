import Otap.Lib.JsonText
import Otap.Flr.Crypto

/-!
# Signed messages

One operator key signs lease tokens, lease commitments, application schemas and schema commitments, all by
`sha3.Sum256` of some bytes. This module shows that the bytes determine the kind of the object and every
field of it that its signer covers.

Within a kind the JSON of the canonical struct is assumed to determine the struct, as
`Encoding.JsonInjective` says for strings in UTF-8 and finite floats; `Encoding.SelfDelimiting.jsonInjective`
derives it from the texts of the scalars. The instants in a struct are already formatted, and the format is
injective. A schema commitment is no JSON: its height and root have a fixed length, and what is left in front
of them is the operator. Between kinds the third byte decides.
-/

namespace Otap.Flr

open Otap.Lib

/-! ## The canonical structs -/

/-- The struct that `SignMerkleCommitment` marshals. -/
structure CanonicalCommitmentFields where
  operatorID : Bytes
  rootHash : Bytes
  timestamp : Bytes
  blockHeight : Int64
  leaseCount : Int32

def CanonicalCommitmentFields.marshal (enc : Encoding) (cf : CanonicalCommitmentFields) : Bytes :=
  jsonObject
    [ jsonField "operator_id" (enc.string cf.operatorID),
      jsonField "root_hash" (enc.bytes cf.rootHash),
      jsonField "timestamp" (enc.string cf.timestamp),
      jsonField "block_height" (decimalInt cf.blockHeight.toInt),
      jsonField "lease_count" (decimalInt cf.leaseCount.toInt) ]

def MerkleCommitment.canonical (enc : Encoding) (c : MerkleCommitment) : CanonicalCommitmentFields where
  operatorID := c.operatorID
  rootHash := c.rootHash
  timestamp := enc.rfc3339Nano c.timestamp
  blockHeight := c.blockHeight
  leaseCount := c.leaseCount

/-- `canonicalSchemaFields`. -/
structure CanonicalSchemaFields where
  id : Bytes
  oamMode : Int32
  payloadBytes : Int32
  name : Bytes
  version : Int32
  fields : List CanonicalFieldDef
  operatorID : Bytes
  createdAt : Bytes

def CanonicalFieldDef.marshal (enc : Encoding) (f : CanonicalFieldDef) : Bytes :=
  jsonObject
    [ jsonField "name" (enc.string f.name),
      jsonField "offset" (decimalInt f.offset.toInt),
      jsonField "length" (decimalInt f.length.toInt),
      jsonField "type" (decimalInt f.type.toInt) ]

def CanonicalSchemaFields.marshal (enc : Encoding) (cf : CanonicalSchemaFields) : Bytes :=
  jsonObject
    [ jsonField "id" (enc.string cf.id),
      jsonField "oam_mode" (decimalInt cf.oamMode.toInt),
      jsonField "payload_bytes" (decimalInt cf.payloadBytes.toInt),
      jsonField "name" (enc.string cf.name),
      jsonField "version" (decimalInt cf.version.toInt),
      jsonField "fields" (jsonArray (cf.fields.map (CanonicalFieldDef.marshal enc))),
      jsonField "operator_id" (enc.string cf.operatorID),
      jsonField "created_at" (enc.string cf.createdAt) ]

/-- The struct that `canonicalSchemaBytes` marshals for a layout with the given fields. -/
def ApplicationSchema.canonical (P : Platform) (s : ApplicationSchema) (fields : List CanonicalFieldDef) :
    CanonicalSchemaFields where
  id := s.id
  oamMode := s.oamMode
  payloadBytes := s.payloadBytes
  name := s.name
  version := s.version
  fields := P.byOffset.sort fields
  operatorID := s.operatorID
  createdAt := P.enc.rfc3339Nano s.createdAt

lemma MerkleCommitment.message_eq (enc : Encoding) (c : MerkleCommitment) :
    c.message enc = (c.canonical enc).marshal enc :=
  rfl

lemma canonicalSchemaBytes_ok {P : Platform} {s : ApplicationSchema} {m : Bytes}
    (h : canonicalSchemaBytes P s = .ok m) :
    ∃ fields, s.layout = some fields ∧ (s.canonical P fields).marshal P.enc = m := by
  unfold canonicalSchemaBytes at h
  split at h
  case h_1 => cases h
  case h_2 fields layout => exact ⟨fields, layout, Except.ok.inj h⟩

/-! ## What is assumed of JSON -/

def FiniteWavelength (w : Option Wavelength) : Prop :=
  ∀ x ∈ w, x.lambdaNm.finite ∧ x.gridGHz.finite

/-- Strings in UTF-8 and finite floats. -/
structure CanonicalTokenFields.Valid (cf : CanonicalTokenFields) : Prop where
  leaseID : ValidUtf8 cf.leaseID
  operatorID : ValidUtf8 cf.operatorID
  wavelength : FiniteWavelength cf.wavelength
  endpointID : ValidUtf8 cf.endpointID
  startTime : ValidUtf8 cf.startTime
  endTime : ValidUtf8 cf.endTime

structure CanonicalCommitmentFields.Valid (cf : CanonicalCommitmentFields) : Prop where
  operatorID : ValidUtf8 cf.operatorID
  timestamp : ValidUtf8 cf.timestamp

structure CanonicalSchemaFields.Valid (cf : CanonicalSchemaFields) : Prop where
  id : ValidUtf8 cf.id
  name : ValidUtf8 cf.name
  fields : ∀ f ∈ cf.fields, ValidUtf8 f.name
  operatorID : ValidUtf8 cf.operatorID
  createdAt : ValidUtf8 cf.createdAt

/-- `json.Marshal` is injective on each canonical struct. -/
structure JsonInjective (enc : Encoding) : Prop where
  token : ∀ {a b : CanonicalTokenFields}, a.Valid → b.Valid →
    ∀ {m}, a.marshal enc = some m → b.marshal enc = some m → a = b
  commitment : ∀ {a b : CanonicalCommitmentFields}, a.Valid → b.Valid →
    a.marshal enc = b.marshal enc → a = b
  schema : ∀ {a b : CanonicalSchemaFields}, a.Valid → b.Valid → a.marshal enc = b.marshal enc → a = b

section Scalars

variable {enc : Encoding} (law : enc.SelfDelimiting)

/-- The fields of a wavelength's object, which is what it marshals to unless it is nil. -/
lemma marshalWavelength_some {w : Wavelength} {x : Bytes} (h : marshalWavelength enc (some w) = some x) :
    ∃ lambda grid, enc.float w.lambdaNm = some lambda ∧ enc.float w.gridGHz = some grid ∧
      x = jsonObject
        [ jsonField "lambda_nm" lambda,
          jsonField "channel_num" (decimalInt w.channelNum.toInt),
          jsonField "band" (decimalInt w.band.toInt),
          jsonField "grid_ghz" grid ] := by
  rw [marshalWavelength] at h
  split at h
  case h_1 lambda grid hl hg => exact ⟨lambda, grid, hl, hg, (Option.some.inj h).symm⟩
  case h_2 => cases h

include law

lemma marshalWavelength_separated {w w' : Option Wavelength} {x y : Bytes}
    (hx : marshalWavelength enc w = some x) (hy : marshalWavelength enc w' = some y) : Separated x y := by
  cases w with
  | none =>
    cases hx
    cases w' with
    | none =>
      cases hy
      exact fun _ _ _ _ _ => rfl
    | some w' =>
      obtain ⟨_, _, -, -, rfl⟩ := marshalWavelength_some hy
      exact .of_head_ne (by decide)
  | some w =>
    obtain ⟨lambda, grid, hl, hg, rfl⟩ := marshalWavelength_some hx
    cases w' with
    | none =>
      cases hy
      exact .of_head_ne (by decide)
    | some w' =>
      obtain ⟨lambda', grid', hl', hg', rfl⟩ := marshalWavelength_some hy
      exact .object (.cons (.field (law.float hl hl')) (.cons (.field (.decimalInt _ _))
        (.cons (.field (.decimalInt _ _)) (.cons (.field (law.float hg hg')) .nil))))

lemma marshalWavelength_inj {w w' : Option Wavelength} {x : Bytes}
    (hx : marshalWavelength enc w = some x) (hy : marshalWavelength enc w' = some x) : w = w' := by
  cases w with
  | none =>
    cases hx
    cases w' with
    | none => rfl
    | some w' =>
      obtain ⟨_, _, -, -, e⟩ := marshalWavelength_some hy
      exact absurd (List.cons.inj e).1 (by decide)
  | some w =>
    obtain ⟨lambda, grid, hl, hg, rfl⟩ := marshalWavelength_some hx
    cases w' with
    | none => exact absurd (List.cons.inj (Option.some.inj hy)).1 (by decide)
    | some w' =>
      obtain ⟨lambda', grid', hl', hg', e⟩ := marshalWavelength_some hy
      have e := jsonObject_inj (.cons (.field (law.float hl hl')) (.cons (.field (.decimalInt _ _))
        (.cons (.field (.decimalInt _ _)) (.cons (.field (law.float hg hg')) .nil)))) e
      simp only [List.cons.injEq, jsonField_inj, and_true] at e
      obtain ⟨rfl, channel, band, rfl⟩ := e
      cases w
      cases w'
      rw [Option.some.injEq, Wavelength.mk.injEq]
      exact ⟨law.float_inj hl hl', Int32.toInt_inj.mp (decimalInt_inj channel),
        Int32.toInt_inj.mp (decimalInt_inj band), law.float_inj hg hg'⟩

lemma tokenFields_inj {a b : CanonicalTokenFields} (va : a.Valid) (vb : b.Valid) {m : Bytes}
    (ha : a.marshal enc = some m) (hb : b.marshal enc = some m) : a = b := by
  unfold CanonicalTokenFields.marshal at ha hb
  split at ha
  case h_1 => cases ha
  case h_2 x wx =>
    split at hb
    case h_1 => cases hb
    case h_2 y wy =>
      have e := jsonObject_inj
        (.cons (.field (.decimalInt _ _)) (.cons (.field (law.string va.leaseID vb.leaseID))
          (.cons (.field (law.string va.operatorID vb.operatorID))
          (.cons (.field (marshalWavelength_separated law wx wy))
          (.cons (.field (law.string va.endpointID vb.endpointID))
          (.cons (.field (law.string va.startTime vb.startTime))
          (.cons (.field (law.string va.endTime vb.endTime))
          (.cons (.field (law.bytes _ _)) .nil))))))))
        ((Option.some.inj ha).trans (Option.some.inj hb).symm)
      simp only [List.cons.injEq, jsonField_inj, and_true] at e
      obtain ⟨version, leaseID, operatorID, wavelength, endpointID, startTime, endTime, nonce⟩ := e
      subst wavelength
      cases a
      cases b
      rw [CanonicalTokenFields.mk.injEq]
      exact ⟨Int32.toInt_inj.mp (decimalInt_inj version), law.string_inj va.leaseID vb.leaseID leaseID,
        law.string_inj va.operatorID vb.operatorID operatorID, marshalWavelength_inj law wx wy,
        law.string_inj va.endpointID vb.endpointID endpointID,
        law.string_inj va.startTime vb.startTime startTime, law.string_inj va.endTime vb.endTime endTime,
        law.bytes_inj nonce⟩

lemma commitmentFields_inj {a b : CanonicalCommitmentFields} (va : a.Valid) (vb : b.Valid)
    (h : a.marshal enc = b.marshal enc) : a = b := by
  have e := jsonObject_inj
    (.cons (.field (law.string va.operatorID vb.operatorID)) (.cons (.field (law.bytes _ _))
      (.cons (.field (law.string va.timestamp vb.timestamp)) (.cons (.field (.decimalInt _ _))
      (.cons (.field (.decimalInt _ _)) .nil))))) h
  simp only [List.cons.injEq, jsonField_inj, and_true] at e
  obtain ⟨operatorID, rootHash, timestamp, blockHeight, leaseCount⟩ := e
  cases a
  cases b
  rw [CanonicalCommitmentFields.mk.injEq]
  exact ⟨law.string_inj va.operatorID vb.operatorID operatorID, law.bytes_inj rootHash,
    law.string_inj va.timestamp vb.timestamp timestamp, Int64.toInt_inj.mp (decimalInt_inj blockHeight),
    Int32.toInt_inj.mp (decimalInt_inj leaseCount)⟩

lemma fieldDef_separated {f g : CanonicalFieldDef} (vf : ValidUtf8 f.name) (vg : ValidUtf8 g.name) :
    List.Forall₂ Separated
      [ jsonField "name" (enc.string f.name), jsonField "offset" (decimalInt f.offset.toInt),
        jsonField "length" (decimalInt f.length.toInt), jsonField "type" (decimalInt f.type.toInt) ]
      [ jsonField "name" (enc.string g.name), jsonField "offset" (decimalInt g.offset.toInt),
        jsonField "length" (decimalInt g.length.toInt), jsonField "type" (decimalInt g.type.toInt) ] :=
  .cons (.field (law.string vf vg)) (.cons (.field (.decimalInt _ _)) (.cons (.field (.decimalInt _ _))
    (.cons (.field (.decimalInt _ _)) .nil)))

lemma fieldDef_inj {f g : CanonicalFieldDef} (vf : ValidUtf8 f.name) (vg : ValidUtf8 g.name)
    (h : f.marshal enc = g.marshal enc) : f = g := by
  have e := jsonObject_inj (fieldDef_separated law vf vg) h
  simp only [List.cons.injEq, jsonField_inj, and_true] at e
  obtain ⟨name, offset, length, type⟩ := e
  cases f
  cases g
  rw [CanonicalFieldDef.mk.injEq]
  exact ⟨law.string_inj vf vg name, Int32.toInt_inj.mp (decimalInt_inj offset),
    Int32.toInt_inj.mp (decimalInt_inj length), Int32.toInt_inj.mp (decimalInt_inj type)⟩

omit law in
lemma opens_fieldDefs (l : List CanonicalFieldDef) : ∀ x ∈ l.map (CanonicalFieldDef.marshal enc), Opens x := by
  intro x mem
  obtain ⟨f, -, rfl⟩ := List.mem_map.mp mem
  exact ⟨123, _, rfl, by decide⟩

lemma fieldDefs_separated {l l' : List CanonicalFieldDef} (vl : ∀ f ∈ l, ValidUtf8 f.name)
    (vl' : ∀ f ∈ l', ValidUtf8 f.name) :
    ∀ x ∈ l.map (CanonicalFieldDef.marshal enc), ∀ y ∈ l'.map (CanonicalFieldDef.marshal enc),
      Separated x y := by
  intro x hx y hy
  obtain ⟨f, hf, rfl⟩ := List.mem_map.mp hx
  obtain ⟨g, hg, rfl⟩ := List.mem_map.mp hy
  exact .object (fieldDef_separated law (vl f hf) (vl' g hg))

lemma fieldDefs_inj {l l' : List CanonicalFieldDef} (vl : ∀ f ∈ l, ValidUtf8 f.name)
    (vl' : ∀ f ∈ l', ValidUtf8 f.name)
    (h : l.map (CanonicalFieldDef.marshal enc) = l'.map (CanonicalFieldDef.marshal enc)) : l = l' := by
  induction l generalizing l' with
  | nil => exact (List.map_eq_nil_iff.mp h.symm).symm
  | cons f l ih =>
    cases l' with
    | nil => cases h
    | cons g l' =>
      obtain ⟨first, rest⟩ := List.cons.inj h
      rw [fieldDef_inj law (vl f List.mem_cons_self) (vl' g List.mem_cons_self) first,
        ih (fun x hx => vl x (List.mem_cons_of_mem _ hx)) (fun x hx => vl' x (List.mem_cons_of_mem _ hx)) rest]

lemma schemaFields_inj {a b : CanonicalSchemaFields} (va : a.Valid) (vb : b.Valid)
    (h : a.marshal enc = b.marshal enc) : a = b := by
  have sep := fieldDefs_separated law va.fields vb.fields
  have e := jsonObject_inj
    (.cons (.field (law.string va.id vb.id)) (.cons (.field (.decimalInt _ _))
      (.cons (.field (.decimalInt _ _)) (.cons (.field (law.string va.name vb.name))
      (.cons (.field (.decimalInt _ _))
      (.cons (.field (.array sep (opens_fieldDefs a.fields) (opens_fieldDefs b.fields)))
      (.cons (.field (law.string va.operatorID vb.operatorID))
      (.cons (.field (law.string va.createdAt vb.createdAt)) .nil)))))))) h
  simp only [List.cons.injEq, jsonField_inj, and_true] at e
  obtain ⟨id, oamMode, payloadBytes, name, version, fields, operatorID, createdAt⟩ := e
  have fields := jsonArray_inj sep (opens_fieldDefs a.fields) (opens_fieldDefs b.fields) fields
  cases a
  cases b
  rw [CanonicalSchemaFields.mk.injEq]
  exact ⟨law.string_inj va.id vb.id id, Int32.toInt_inj.mp (decimalInt_inj oamMode),
    Int32.toInt_inj.mp (decimalInt_inj payloadBytes), law.string_inj va.name vb.name name,
    Int32.toInt_inj.mp (decimalInt_inj version), fieldDefs_inj law va.fields vb.fields fields,
    law.string_inj va.operatorID vb.operatorID operatorID, law.string_inj va.createdAt vb.createdAt createdAt⟩

/-- Texts of scalars that can be read back make the JSON of the structs injective. -/
lemma jsonInjective_of_selfDelimiting : JsonInjective enc where
  token va vb _ := tokenFields_inj law va vb
  commitment := commitmentFields_inj law
  schema := schemaFields_inj law

end Scalars

/-! ## The objects that are signed -/

/-- What an operator key signs: by `signToken`, `SignMerkleCommitment`, `SignSchema`, and `SignBytes` for the
    commitments of the schema engine. -/
inductive SignedObject where
  | token (token : LeaseToken)
  | commitment (commitment : MerkleCommitment)
  | schema (schema : ApplicationSchema)
  | schemaCommitment (commitment : MerkleCommitment)

namespace SignedObject

/-- The bytes that are hashed and signed, unless marshalling fails. -/
def signedBytes (P : Platform) : SignedObject → Option Bytes
  | .token t => t.message P.enc
  | .commitment c => some (c.message P.enc)
  | .schema s => (canonicalSchemaBytes P s).toOption
  | .schemaCommitment c => some (commitmentSignableBytes c)

/-- Strings in UTF-8, finite floats and, in a schema commitment, a root of 32 bytes. -/
def Valid : SignedObject → Prop
  | .token t =>
    ValidUtf8 t.leaseID ∧ ValidUtf8 t.operatorID ∧ FiniteWavelength t.wavelength ∧ ValidUtf8 t.endpointID
  | .commitment c => ValidUtf8 c.operatorID
  | .schema s =>
    ValidUtf8 s.id ∧ ValidUtf8 s.name ∧ ValidUtf8 s.operatorID ∧
      ∀ fields ∈ s.layout, ∀ f ∈ fields, ValidUtf8 f.name
  | .schemaCommitment c => ValidUtf8 c.operatorID ∧ c.rootHash.length = 32

/-- The same kind, and the same in every field that the kind's signer covers. The fields of a layout are
    signed in the order of their offsets, in whichever order they are listed. -/
def Agrees : SignedObject → SignedObject → Prop
  | .token a, .token b =>
    a.version = b.version ∧ a.leaseID = b.leaseID ∧ a.operatorID = b.operatorID ∧
      a.wavelength = b.wavelength ∧ a.endpointID = b.endpointID ∧ a.startTime = b.startTime ∧
      a.endTime = b.endTime ∧ a.nonce = b.nonce
  | .commitment a, .commitment b =>
    a.operatorID = b.operatorID ∧ a.rootHash = b.rootHash ∧ a.timestamp = b.timestamp ∧
      a.blockHeight = b.blockHeight ∧ a.leaseCount = b.leaseCount
  | .schema a, .schema b =>
    a.id = b.id ∧ a.oamMode = b.oamMode ∧ a.payloadBytes = b.payloadBytes ∧ a.name = b.name ∧
      a.version = b.version ∧ a.operatorID = b.operatorID ∧ a.createdAt = b.createdAt ∧
      ∃ fields fields', a.layout = some fields ∧ b.layout = some fields' ∧ fields.Perm fields'
  | .schemaCommitment a, .schemaCommitment b =>
    a.operatorID = b.operatorID ∧ a.blockHeight = b.blockHeight ∧ a.rootHash = b.rootHash
  | _, _ => False

/-! ### Between kinds -/

/-- The third byte of what is signed: the first letter of the first key, or of the domain after `OT`. -/
def third : SignedObject → UInt8
  | .token _ => 118
  | .commitment _ => 111
  | .schema _ => 105
  | .schemaCommitment _ => 65

lemma signedBytes_schema {P : Platform} {s : ApplicationSchema} {m : Bytes}
    (h : (SignedObject.schema s).signedBytes P = some m) :
    ∃ fields, s.layout = some fields ∧ (s.canonical P fields).marshal P.enc = m := by
  rw [signedBytes] at h
  cases e : canonicalSchemaBytes P s with
  | error err =>
    rw [e] at h
    cases h
  | ok m' =>
    rw [e] at h
    cases h
    exact canonicalSchemaBytes_ok e

lemma signedBytes_third {P : Platform} {o : SignedObject} {m : Bytes} (h : o.signedBytes P = some m) :
    m[2]? = some o.third := by
  cases o with
  | token t => exact t.message_third h
  | commitment c =>
    cases h
    rfl
  | schema s =>
    obtain ⟨fields, -, rfl⟩ := signedBytes_schema h
    rfl
  | schemaCommitment c =>
    cases h
    rfl

/-! ### Within a kind -/

/-- The operator has no length prefix, but behind it stand 8 bytes of height and 32 of root. -/
lemma schemaCommitment_inj {a b : MerkleCommitment} (ra : a.rootHash.length = 32)
    (rb : b.rootHash.length = 32) (e : commitmentSignableBytes a = commitmentSignableBytes b) :
    a.operatorID = b.operatorID ∧ a.blockHeight = b.blockHeight ∧ a.rootHash = b.rootHash := by
  obtain ⟨front, root⟩ := List.append_inj' e (ra.trans rb.symm)
  obtain ⟨front, height⟩ := List.append_inj' front (by rw [length_toBE, length_toBE])
  refine ⟨List.append_cancel_left front, ?_, root⟩
  have nat := toBE_inj (UInt64.toNat_lt _) (UInt64.toNat_lt _) height
  exact Int64.toBitVec_inj.mp (congrArg UInt64.toBitVec (UInt64.toNat_inj.mp nat))

variable {P : Platform} (json : JsonInjective P.enc) (time : P.enc.rfc3339Nano = rfc3339Nano)

include time in
lemma validUtf8_time (t : Time) : ValidUtf8 (P.enc.rfc3339Nano t) := by
  rw [time]
  exact validUtf8_rfc3339Nano t

include time in
lemma time_inj {t t' : Time} (e : P.enc.rfc3339Nano t = P.enc.rfc3339Nano t') : t = t' := by
  rw [time] at e
  exact rfc3339Nano_inj e

include json time

lemma token_agrees {a b : LeaseToken} (va : (token a).Valid) (vb : (token b).Valid) {m : Bytes}
    (ha : a.message P.enc = some m) (hb : b.message P.enc = some m) : (token a).Agrees (token b) := by
  have valid {t : LeaseToken} (v : (token t).Valid) : (t.canonical P.enc).Valid :=
    { leaseID := v.1
      operatorID := v.2.1
      wavelength := v.2.2.1
      endpointID := v.2.2.2
      startTime := validUtf8_time time _
      endTime := validUtf8_time time _ }
  have e := json.token (valid va) (valid vb) ha hb
  simp only [LeaseToken.canonical, CanonicalTokenFields.mk.injEq] at e
  obtain ⟨version, leaseID, operatorID, wavelength, endpointID, startTime, endTime, nonce⟩ := e
  exact ⟨version, leaseID, operatorID, wavelength, endpointID, time_inj time startTime,
    time_inj time endTime, nonce⟩

lemma commitment_agrees {a b : MerkleCommitment} (va : (commitment a).Valid) (vb : (commitment b).Valid)
    (h : a.message P.enc = b.message P.enc) : (commitment a).Agrees (commitment b) := by
  have valid {c : MerkleCommitment} (v : (commitment c).Valid) : (c.canonical P.enc).Valid :=
    { operatorID := v
      timestamp := validUtf8_time time _ }
  rw [MerkleCommitment.message_eq, MerkleCommitment.message_eq] at h
  have e := json.commitment (valid va) (valid vb) h
  simp only [MerkleCommitment.canonical, CanonicalCommitmentFields.mk.injEq] at e
  obtain ⟨operatorID, rootHash, timestamp, blockHeight, leaseCount⟩ := e
  exact ⟨operatorID, rootHash, time_inj time timestamp, blockHeight, leaseCount⟩

lemma schema_agrees {a b : ApplicationSchema} (va : (schema a).Valid) (vb : (schema b).Valid) {m : Bytes}
    (ha : (schema a).signedBytes P = some m) (hb : (schema b).signedBytes P = some m) :
    (schema a).Agrees (schema b) := by
  obtain ⟨fields, la, ma⟩ := signedBytes_schema ha
  obtain ⟨fields', lb, mb⟩ := signedBytes_schema hb
  have valid {s : ApplicationSchema} (v : (schema s).Valid) {l : List CanonicalFieldDef}
      (layout : s.layout = some l) : (s.canonical P l).Valid :=
    { id := v.1
      name := v.2.1
      fields := fun f mem => v.2.2.2 l layout f ((P.byOffset.perm l).mem_iff.mp mem)
      operatorID := v.2.2.1
      createdAt := validUtf8_time time _ }
  have e := json.schema (valid va la) (valid vb lb) (ma.trans mb.symm)
  simp only [ApplicationSchema.canonical, CanonicalSchemaFields.mk.injEq] at e
  obtain ⟨id, oamMode, payloadBytes, name, version, sorted, operatorID, createdAt⟩ := e
  have perm : fields.Perm fields' :=
    (P.byOffset.perm fields).symm.trans (sorted ▸ P.byOffset.perm fields')
  exact ⟨id, oamMode, payloadBytes, name, version, operatorID, time_inj time createdAt, fields, fields', la,
    lb, perm⟩

end SignedObject

open SignedObject in
/-- If the bytes signed for two objects are equal, then the objects are of one kind and agree on every field
    that its signer covers. -/
theorem signed_messages_determine (P : Platform) (json : JsonInjective P.enc)
    (time : P.enc.rfc3339Nano = rfc3339Nano) {a b : SignedObject} (va : a.Valid) (vb : b.Valid) {m : Bytes}
    (ha : a.signedBytes P = some m) (hb : b.signedBytes P = some m) : a.Agrees b := by
  have kind : a.third = b.third :=
    Option.some.inj ((signedBytes_third ha).symm.trans (signedBytes_third hb))
  cases a with
  | token a =>
    cases b with
    | token b => exact token_agrees json time va vb ha hb
    | commitment | schema | schemaCommitment => exact absurd kind (by simp [third])
  | commitment a =>
    cases b with
    | commitment b =>
      exact commitment_agrees json time va vb (Option.some.inj (ha.trans hb.symm))
    | token | schema | schemaCommitment => exact absurd kind (by simp [third])
  | schema a =>
    cases b with
    | schema b => exact schema_agrees json time va vb ha hb
    | token | commitment | schemaCommitment => exact absurd kind (by simp [third])
  | schemaCommitment a =>
    cases b with
    | schemaCommitment b => exact schemaCommitment_inj va.2 vb.2 (Option.some.inj (ha.trans hb.symm))
    | token | commitment | schema => exact absurd kind (by simp [third])

/-- A platform whose JSON can be read back. -/
def Platform.quoted : Platform :=
  { Platform.plain with enc := .quoted }

/-- A schema of two fields, which may be listed in any order. -/
def priceSchema (fields : List CanonicalFieldDef) : ApplicationSchema where
  id := ascii "px"
  oamMode := 2
  payloadBytes := 12
  name := ascii "Price \"quote\""
  version := 1
  layout := some fields
  operatorID := ascii "op:1"
  createdAt := 0

def priceFields : List CanonicalFieldDef :=
  [⟨ascii "px", 0, 8, 1⟩, ⟨ascii "qty", 8, 4, 2⟩]

/-- The same schema with its two fields listed in both orders. -/
theorem signed_messages_determine_reordered :
    ∃ m, (SignedObject.schema (priceSchema priceFields)).signedBytes .quoted = some m ∧
      (SignedObject.schema (priceSchema priceFields.reverse)).signedBytes .quoted = some m ∧
      (SignedObject.schema (priceSchema priceFields)).Agrees
        (SignedObject.schema (priceSchema priceFields.reverse)) := by
  have same : (SignedObject.schema (priceSchema priceFields.reverse)).signedBytes .quoted
      = (SignedObject.schema (priceSchema priceFields)).signedBytes .quoted := by decide +kernel
  obtain ⟨m, signed⟩ := Option.isSome_iff_exists.mp
    (by decide +kernel : ((SignedObject.schema (priceSchema priceFields)).signedBytes .quoted).isSome)
  refine ⟨m, signed, same.trans signed, signed_messages_determine .quoted
    (jsonInjective_of_selfDelimiting Encoding.quoted_selfDelimiting) rfl ?_ ?_ signed (same.trans signed)⟩
  · refine ⟨by decide +kernel, by decide +kernel, by decide +kernel, ?_⟩
    rintro fields ⟨⟩
    decide +kernel
  · refine ⟨by decide +kernel, by decide +kernel, by decide +kernel, ?_⟩
    rintro fields ⟨⟩
    decide +kernel

end Otap.Flr
