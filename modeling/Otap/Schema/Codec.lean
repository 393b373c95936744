import Otap.Lib.Layout
import Otap.Client.FlrClient

/-!
# Schema codecs

Embeds `otap-schema`: the three registered payloads with their `encode` and `decode`, and the dispatch by OAM mode. The
fields `f64` are their 64-bit patterns, which `to_be_bytes` and `from_be_bytes` move without a change.

Every payload has a fixed layout, so the codecs are instances of `Otap.Lib.assemble` and `Otap.Lib.slice`: a payload is
read back by `slice_assemble` and written back by `assemble_taken`.
-/

namespace Otap.Schema
open Otap.Lib
open Otap.Csr (OamMode)
open Otap.Client (SchemaId)

variable {bytes : Bytes} {id : SchemaId}

/-! ## The code -/

/-- `ProtocolError`, the variants that the codecs raise. -/
inductive ProtocolError where
  | unknownOamMode (charge : Int)
  | authenticationFailure
  | schemaMismatch (oamMode : Int) (expected actual : Nat)
  | wireFormat (reason : String)
  deriving DecidableEq

abbrev Result := Except ProtocolError

/-- The check of the payload size that every `decode` begins with. -/
def checkLength (id : SchemaId) (bytes : Bytes) : Result Unit :=
  if bytes.length ≠ id.payloadBytes then
    .error (.schemaMismatch id.oamMode.charge id.payloadBytes bytes.length)
  else .ok ()

inductive Side where
  | buy
  | sell
  deriving DecidableEq

namespace Side

/-- `as u8`. -/
def toU8 : Side → UInt8
  | buy => 0
  | sell => 1

def fromU8 (b : UInt8) : Result Side :=
  if b = 0 then .ok buy else if b = 1 then .ok sell else .error (.wireFormat "invalid side byte")

end Side

structure EquityTradeOrder where
  symbol : Vector UInt8 4
  side : Side
  quantity : BitVec 32
  priceCents : BitVec 64
  timestampNs : BitVec 64
  clientOrderId : BitVec 64
  firmUuid : Vector UInt8 16
  deriving DecidableEq

namespace EquityTradeOrder

/-- What `encode` copies into the buffer. -/
def fields (o : EquityTradeOrder) : List Placed :=
  [ ⟨0, o.symbol.toList⟩,
    ⟨4, [o.side.toU8]⟩,
    ⟨8, toBeBytes 4 o.quantity⟩,
    ⟨16, toBeBytes 8 o.priceCents⟩,
    ⟨24, toBeBytes 8 o.timestampNs⟩,
    ⟨32, toBeBytes 8 o.clientOrderId⟩,
    ⟨40, o.firmUuid.toList⟩ ]

def encode (o : EquityTradeOrder) : Bytes :=
  assemble 256 o.fields

def decode (bytes : Bytes) : Result EquityTradeOrder := do
  checkLength .equityTradeOrder bytes
  let side ← Side.fromU8 (bytes[4]?.getD 0)
  return {
    symbol := arrayOf 4 (slice bytes 0 4)
    side := side
    quantity := ofBeBytes 4 (slice bytes 8 12)
    priceCents := ofBeBytes 8 (slice bytes 16 24)
    timestampNs := ofBeBytes 8 (slice bytes 24 32)
    clientOrderId := ofBeBytes 8 (slice bytes 32 40)
    firmUuid := arrayOf 16 (slice bytes 40 56) }

end EquityTradeOrder

structure MarketTick where
  symbol : Vector UInt8 8
  bidCents : BitVec 64
  askCents : BitVec 64
  lastCents : BitVec 64
  volume : BitVec 64
  timestampNs : BitVec 64
  reserved : Vector UInt8 16
  deriving DecidableEq

namespace MarketTick

/-- What `encode` copies into the buffer. -/
def fields (t : MarketTick) : List Placed :=
  [ ⟨0, t.symbol.toList⟩,
    ⟨8, toBeBytes 8 t.bidCents⟩,
    ⟨16, toBeBytes 8 t.askCents⟩,
    ⟨24, toBeBytes 8 t.lastCents⟩,
    ⟨32, toBeBytes 8 t.volume⟩,
    ⟨40, toBeBytes 8 t.timestampNs⟩,
    ⟨48, t.reserved.toList⟩ ]

def encode (t : MarketTick) : Bytes :=
  assemble 64 t.fields

def decode (bytes : Bytes) : Result MarketTick := do
  checkLength .marketTick bytes
  return {
    symbol := arrayOf 8 (slice bytes 0 8)
    bidCents := ofBeBytes 8 (slice bytes 8 16)
    askCents := ofBeBytes 8 (slice bytes 16 24)
    lastCents := ofBeBytes 8 (slice bytes 24 32)
    volume := ofBeBytes 8 (slice bytes 32 40)
    timestampNs := ofBeBytes 8 (slice bytes 40 48)
    reserved := arrayOf 16 (slice bytes 48 64) }

end MarketTick

structure Heartbeat where
  nodeId : BitVec 64
  clockOffsetNs : BitVec 64
  heartbeatSeq : BitVec 64
  reserved : Vector UInt8 8
  deriving DecidableEq

namespace Heartbeat

/-- What `encode` copies into the buffer. -/
def fields (h : Heartbeat) : List Placed :=
  [ ⟨0, toBeBytes 8 h.nodeId⟩,
    ⟨8, toBeBytes 8 h.clockOffsetNs⟩,
    ⟨16, toBeBytes 8 h.heartbeatSeq⟩,
    ⟨24, h.reserved.toList⟩ ]

def encode (h : Heartbeat) : Bytes :=
  assemble 32 h.fields

def decode (bytes : Bytes) : Result Heartbeat := do
  checkLength .heartbeat bytes
  return {
    nodeId := ofBeBytes 8 (slice bytes 0 8)
    clockOffsetNs := ofBeBytes 8 (slice bytes 8 16)
    heartbeatSeq := ofBeBytes 8 (slice bytes 16 24)
    reserved := arrayOf 8 (slice bytes 24 32) }

end Heartbeat

/-- `SchemaId::resolve`. -/
def resolve (oam : OamMode) : Option SchemaId :=
  if oam.charge = 1 then some .equityTradeOrder
  else if oam.charge = 3 then some .marketTick
  else if oam.charge = 4 then some .heartbeat
  else none

inductive AnySchemaValue where
  | equityTradeOrder (order : EquityTradeOrder)
  | marketTick (tick : MarketTick)
  | heartbeat (beat : Heartbeat)
  deriving DecidableEq

namespace AnySchemaValue

/-- The schema of a value. -/
def schemaId : AnySchemaValue → SchemaId
  | equityTradeOrder _ => .equityTradeOrder
  | marketTick _ => .marketTick
  | heartbeat _ => .heartbeat

/-- `Schema::encode` of the value. -/
def encode : AnySchemaValue → Bytes
  | equityTradeOrder order => order.encode
  | marketTick tick => tick.encode
  | heartbeat beat => beat.encode

def decode (oam : OamMode) (payload : Bytes) : Result AnySchemaValue :=
  match resolve oam with
  | none => .error (.unknownOamMode oam.charge)
  | some .equityTradeOrder => (EquityTradeOrder.decode payload).map equityTradeOrder
  | some .marketTick => (MarketTick.decode payload).map marketTick
  | some .heartbeat => (Heartbeat.decode payload).map heartbeat

end AnySchemaValue

/-! ## Encoded values decode -/

lemma checkLength_ok :
    checkLength id bytes = .ok () ↔ bytes.length = id.payloadBytes := by
  unfold checkLength
  constructor
  · intro h
    split at h
    case isTrue => cases h
    case isFalse eq => exact not_not.mp eq
  · intro eq
    rw [if_neg (not_not.mpr eq)]

lemma Side.fromU8_toU8 (side : Side) : fromU8 side.toU8 = .ok side := by
  cases side <;> rfl

lemma Side.fromU8_ok {b : UInt8} {side : Side} (h : fromU8 b = .ok side) : b = side.toU8 := by
  unfold fromU8 at h
  split at h
  case isTrue eq =>
    cases h
    exact eq
  case isFalse =>
    split at h
    case isTrue eq =>
      cases h
      exact eq
    case isFalse => cases h

namespace EquityTradeOrder

lemma laid (o : EquityTradeOrder) : Laid 256 o.fields where
  apart := by simp [fields, Placed.stop]
  fits := by simp [fields, Placed.stop]

lemma length_encode (o : EquityTradeOrder) : o.encode.length = 256 :=
  length_assemble o.laid

lemma decode_encode (o : EquityTradeOrder) : decode o.encode = .ok o := by
  have read (off : Nat) (src : Bytes) {hi : Nat} (mem : ⟨off, src⟩ ∈ o.fields) (stop : off + src.length = hi) :
      slice o.encode off hi = src := slice_assemble o.laid mem stop
  have side : o.encode[4]? = some o.side.toU8 := getElem?_of_slice (read 4 _ (by simp [fields]) rfl)
  rw [decode, checkLength_ok.mpr o.length_encode, side, Option.getD_some, Side.fromU8_toU8,
    read 0 o.symbol.toList (by simp [fields]) (by simp),
    read 8 (toBeBytes 4 o.quantity) (by simp [fields]) (by simp),
    read 16 (toBeBytes 8 o.priceCents) (by simp [fields]) (by simp),
    read 24 (toBeBytes 8 o.timestampNs) (by simp [fields]) (by simp),
    read 32 (toBeBytes 8 o.clientOrderId) (by simp [fields]) (by simp),
    read 40 o.firmUuid.toList (by simp [fields]) (by simp)]
  simp only [arrayOf_toList, ofBeBytes_toBeBytes]
  rfl

/-- A payload that decodes: its size, its side byte, and the order that it holds. -/
lemma decode_ok {o : EquityTradeOrder} (h : decode bytes = .ok o) :
    bytes.length = 256 ∧ bytes[4]? = some o.side.toU8 ∧ ∀ f ∈ o.fields, f.TakenFrom bytes := by
  unfold decode at h
  cases checked : checkLength .equityTradeOrder bytes with
  | error err =>
    rw [checked] at h
    cases h
  | ok =>
    have len : bytes.length = 256 := checkLength_ok.mp checked
    cases read : Side.fromU8 (bytes[4]?.getD 0) with
    | error err =>
      rw [checked, read] at h
      cases h
    | ok side =>
      rw [checked, read] at h
      cases h
      have sideByte : bytes[4]? = some side.toU8 := by
        have eq := Side.fromU8_ok read
        rw [List.getElem?_eq_getElem (by omega), Option.getD_some] at eq
        rw [List.getElem?_eq_getElem (by omega), eq]
      refine ⟨len, sideByte, ?_⟩
      simp only [fields, List.forall_mem_cons]
      exact ⟨takenFrom_array 0 4 (by omega), takenFrom_byte sideByte, takenFrom_number 8 4 (by omega),
        takenFrom_number 16 8 (by omega), takenFrom_number 24 8 (by omega), takenFrom_number 32 8 (by omega),
        takenFrom_array 40 16 (by omega), List.forall_mem_nil _⟩

lemma decode_isOk (len : bytes.length = 256) (side : Side) (sideByte : bytes[4]? = some side.toU8) :
    ∃ o, decode bytes = .ok o := by
  rw [decode, checkLength_ok.mpr len, sideByte, Option.getD_some, Side.fromU8_toU8]
  exact ⟨_, rfl⟩

/-- The bytes of the payload that no field covers. -/
def padding (i : Nat) : Bool :=
  5 ≤ i && i < 8 || 12 ≤ i && i < 16 || 56 ≤ i && i < 256

lemma padding_iff (o : EquityTradeOrder) {i : Nat} (lt : i < 256) :
    padding i = true ↔ ∀ f ∈ o.fields, ¬ f.Covers i := by
  simp [padding, fields, Placed.Covers, Placed.stop]
  omega

end EquityTradeOrder

namespace MarketTick

lemma laid (t : MarketTick) : Laid 64 t.fields where
  apart := by simp [fields, Placed.stop]
  fits := by simp [fields, Placed.stop]

lemma length_encode (t : MarketTick) : t.encode.length = 64 :=
  length_assemble t.laid

lemma decode_encode (t : MarketTick) : decode t.encode = .ok t := by
  have read (off : Nat) (src : Bytes) {hi : Nat} (mem : ⟨off, src⟩ ∈ t.fields) (stop : off + src.length = hi) :
      slice t.encode off hi = src := slice_assemble t.laid mem stop
  rw [decode, checkLength_ok.mpr t.length_encode,
    read 0 t.symbol.toList (by simp [fields]) (by simp),
    read 8 (toBeBytes 8 t.bidCents) (by simp [fields]) (by simp),
    read 16 (toBeBytes 8 t.askCents) (by simp [fields]) (by simp),
    read 24 (toBeBytes 8 t.lastCents) (by simp [fields]) (by simp),
    read 32 (toBeBytes 8 t.volume) (by simp [fields]) (by simp),
    read 40 (toBeBytes 8 t.timestampNs) (by simp [fields]) (by simp),
    read 48 t.reserved.toList (by simp [fields]) (by simp)]
  simp only [arrayOf_toList, ofBeBytes_toBeBytes]
  rfl

lemma decode_ok {t : MarketTick} (h : decode bytes = .ok t) :
    bytes.length = 64 ∧ ∀ f ∈ t.fields, f.TakenFrom bytes := by
  unfold decode at h
  cases checked : checkLength .marketTick bytes with
  | error err =>
    rw [checked] at h
    cases h
  | ok =>
    have len : bytes.length = 64 := checkLength_ok.mp checked
    rw [checked] at h
    cases h
    refine ⟨len, ?_⟩
    simp only [fields, List.forall_mem_cons]
    exact ⟨takenFrom_array 0 8 (by omega), takenFrom_number 8 8 (by omega), takenFrom_number 16 8 (by omega),
      takenFrom_number 24 8 (by omega), takenFrom_number 32 8 (by omega), takenFrom_number 40 8 (by omega),
      takenFrom_array 48 16 (by omega), List.forall_mem_nil _⟩

lemma decode_isOk (len : bytes.length = 64) : ∃ t, decode bytes = .ok t := by
  rw [decode, checkLength_ok.mpr len]
  exact ⟨_, rfl⟩

/-- The fields cover the payload. -/
lemma covers (t : MarketTick) {i : Nat} (lt : i < 64) : ¬ ∀ f ∈ t.fields, ¬ f.Covers i := by
  simp [fields, Placed.Covers, Placed.stop]
  omega

end MarketTick

namespace Heartbeat

lemma laid (h : Heartbeat) : Laid 32 h.fields where
  apart := by simp [fields, Placed.stop]
  fits := by simp [fields, Placed.stop]

lemma length_encode (h : Heartbeat) : h.encode.length = 32 :=
  length_assemble h.laid

lemma decode_encode (h : Heartbeat) : decode h.encode = .ok h := by
  have read (off : Nat) (src : Bytes) {hi : Nat} (mem : ⟨off, src⟩ ∈ h.fields) (stop : off + src.length = hi) :
      slice h.encode off hi = src := slice_assemble h.laid mem stop
  rw [decode, checkLength_ok.mpr h.length_encode,
    read 0 (toBeBytes 8 h.nodeId) (by simp [fields]) (by simp),
    read 8 (toBeBytes 8 h.clockOffsetNs) (by simp [fields]) (by simp),
    read 16 (toBeBytes 8 h.heartbeatSeq) (by simp [fields]) (by simp),
    read 24 h.reserved.toList (by simp [fields]) (by simp)]
  simp only [arrayOf_toList, ofBeBytes_toBeBytes]
  rfl

lemma decode_ok {h : Heartbeat} (ok : decode bytes = .ok h) :
    bytes.length = 32 ∧ ∀ f ∈ h.fields, f.TakenFrom bytes := by
  unfold decode at ok
  cases checked : checkLength .heartbeat bytes with
  | error err =>
    rw [checked] at ok
    cases ok
  | ok =>
    have len : bytes.length = 32 := checkLength_ok.mp checked
    rw [checked] at ok
    cases ok
    refine ⟨len, ?_⟩
    simp only [fields, List.forall_mem_cons]
    exact ⟨takenFrom_number 0 8 (by omega), takenFrom_number 8 8 (by omega), takenFrom_number 16 8 (by omega),
      takenFrom_array 24 8 (by omega), List.forall_mem_nil _⟩

lemma decode_isOk (len : bytes.length = 32) : ∃ h, decode bytes = .ok h := by
  rw [decode, checkLength_ok.mpr len]
  exact ⟨_, rfl⟩

/-- The fields cover the payload. -/
lemma covers (h : Heartbeat) {i : Nat} (lt : i < 32) : ¬ ∀ f ∈ h.fields, ¬ f.Covers i := by
  simp [fields, Placed.Covers, Placed.stop]
  omega

end Heartbeat

/-! ## Dispatch -/

lemma resolve_oamMode (id : SchemaId) : resolve id.oamMode = some id := by
  cases id <;> rfl

lemma resolve_some {oam : OamMode} (h : resolve oam = some id) : oam = id.oamMode := by
  obtain ⟨charge, lo, hi⟩ := oam
  unfold resolve at h
  split at h
  case isTrue eq =>
    cases h
    subst eq
    rfl
  case isFalse =>
    split at h
    case isTrue eq =>
      cases h
      subst eq
      rfl
    case isFalse =>
      split at h
      case isTrue eq =>
        cases h
        subst eq
        rfl
      case isFalse => cases h

/-- The bytes of a payload that carry nothing: in equity orders those between the fields and behind them. -/
def padding : SchemaId → Nat → Bool
  | .equityTradeOrder => EquityTradeOrder.padding
  | .marketTick => fun _ => false
  | .heartbeat => fun _ => false

/-- The payload is of the schema's size and, if it is an equity order, has a side. -/
def WellFormed (id : SchemaId) (payload : Bytes) : Prop :=
  payload.length = id.payloadBytes ∧ (id = .equityTradeOrder → payload[4]? = some 0 ∨ payload[4]? = some 1)

instance (id : SchemaId) (payload : Bytes) : Decidable (WellFormed id payload) :=
  inferInstanceAs (Decidable (_ ∧ (_ → _)))

namespace AnySchemaValue

lemma decode_encode (v : AnySchemaValue) : decode v.schemaId.oamMode v.encode = .ok v := by
  rw [decode, resolve_oamMode]
  cases v with
  | equityTradeOrder order => exact congrArg (Except.map _) order.decode_encode
  | marketTick tick => exact congrArg (Except.map _) tick.decode_encode
  | heartbeat beat => exact congrArg (Except.map _) beat.decode_encode

lemma length_encode (v : AnySchemaValue) : v.encode.length = v.schemaId.payloadBytes := by
  cases v with
  | equityTradeOrder order => exact order.length_encode
  | marketTick tick => exact tick.length_encode
  | heartbeat beat => exact beat.length_encode

/-- A payload that decodes: its mode, its form, and what encoding the value writes back. -/
lemma decode_ok {oam : OamMode} {payload : Bytes} {v : AnySchemaValue} (h : decode oam payload = .ok v) :
    oam = v.schemaId.oamMode ∧ WellFormed v.schemaId payload ∧
      v.encode = payload.mapIdx fun i b => if padding v.schemaId i then 0 else b := by
  unfold decode at h
  split at h
  case h_1 => cases h
  case h_2 resolved =>
    obtain ⟨order, read, rfl⟩ := map_ok h
    obtain ⟨len, side, taken⟩ := EquityTradeOrder.decode_ok read
    refine ⟨resolve_some resolved, ⟨len, fun _ => ?_⟩, ?_⟩
    · rw [side]
      cases order.side with
      | buy => exact .inl rfl
      | sell => exact .inr rfl
    · rw [encode, EquityTradeOrder.encode, ← len]
      exact assemble_taken (len ▸ order.laid) taken fun i lt => order.padding_iff (len ▸ lt)
  case h_3 resolved =>
    obtain ⟨tick, read, rfl⟩ := map_ok h
    obtain ⟨len, taken⟩ := MarketTick.decode_ok read
    refine ⟨resolve_some resolved, ⟨len, fun e => by cases e⟩, ?_⟩
    rw [encode, MarketTick.encode, ← len]
    exact assemble_taken (len ▸ tick.laid) taken fun i lt =>
      (iff_false_left Bool.false_ne_true).mpr (tick.covers (len ▸ lt))
  case h_4 resolved =>
    obtain ⟨beat, read, rfl⟩ := map_ok h
    obtain ⟨len, taken⟩ := Heartbeat.decode_ok read
    refine ⟨resolve_some resolved, ⟨len, fun e => by cases e⟩, ?_⟩
    rw [encode, Heartbeat.encode, ← len]
    exact assemble_taken (len ▸ beat.laid) taken fun i lt =>
      (iff_false_left Bool.false_ne_true).mpr (beat.covers (len ▸ lt))

lemma decode_isOk {payload : Bytes} (wf : WellFormed id payload) :
    ∃ v, decode id.oamMode payload = .ok v := by
  obtain ⟨len, side⟩ := wf
  rw [decode, resolve_oamMode]
  cases id with
  | equityTradeOrder =>
    have read : ∃ order, EquityTradeOrder.decode payload = .ok order := by
      cases side rfl with
      | inl buy => exact EquityTradeOrder.decode_isOk len .buy buy
      | inr sell => exact EquityTradeOrder.decode_isOk len .sell sell
    obtain ⟨order, read⟩ := read
    exact ⟨.equityTradeOrder order, congrArg (Except.map _) read⟩
  | marketTick =>
    obtain ⟨tick, read⟩ := MarketTick.decode_isOk len
    exact ⟨.marketTick tick, congrArg (Except.map _) read⟩
  | heartbeat =>
    obtain ⟨beat, read⟩ := Heartbeat.decode_isOk len
    exact ⟨.heartbeat beat, congrArg (Except.map _) read⟩

end AnySchemaValue

/-- The codecs are exact: a value is read back from its encoding, `decode` takes the well-formed payloads of the
    registered modes and no others, and writing a decoded value back clears the padding and nothing else. -/
theorem codec_exact :
    (∀ v : AnySchemaValue, AnySchemaValue.decode v.schemaId.oamMode v.encode = .ok v ∧
      v.encode.length = v.schemaId.payloadBytes) ∧
    ∀ (oam : OamMode) (payload : Bytes),
      ((∃ v, AnySchemaValue.decode oam payload = .ok v) ↔
        ∃ id : SchemaId, oam = id.oamMode ∧ payload.length = id.payloadBytes ∧
          (id = .equityTradeOrder → payload[4]? = some 0 ∨ payload[4]? = some 1)) ∧
      ∀ v, AnySchemaValue.decode oam payload = .ok v →
        v.encode = payload.mapIdx fun i b => if padding v.schemaId i then 0 else b := by
  refine ⟨fun v => ⟨v.decode_encode, v.length_encode⟩, fun oam payload => ⟨?_, ?_⟩⟩
  · constructor
    · rintro ⟨v, ok⟩
      obtain ⟨mode, wf, _⟩ := AnySchemaValue.decode_ok ok
      exact ⟨v.schemaId, mode, wf⟩
    · rintro ⟨id, rfl, wf⟩
      exact AnySchemaValue.decode_isOk wf
  · intro v ok
    exact (AnySchemaValue.decode_ok ok).2.2

end Otap.Schema
