import Otap.Obg.SoftDriver

/-!
# Delivery of the accepted requests

`SendQueue::post` checks the length that a work request states (`payload_len`) against its schema, and never the
payload that comes with it. The receiver's codec checks the payload itself, and `SoftDriver::receive` drops what does
not decode. So every accepted request is delivered exactly if every accepted payload has the length that its request
states; a heartbeat request posted with an empty payload is accepted and lost.

`accepted_eq` says which requests a queue accepts, `deliver_drain` what a pump delivers.
-/

namespace Otap.Obg
open Otap.Lib
open Otap.Csr hiding ProtocolError
open Otap.Client (SchemaId)
open Otap.Schema (AnySchemaValue WellFormed)

variable {P : Platform}

/-! ## Admission -/

namespace SendQueue

/-- The queue holds what it held and the accepted requests, in posting order. -/
lemma requests_postAll (q : SendQueue) (posts : List Posted) :
    (q.postAll posts).requests = q.requests ++ q.accepted posts := by
  induction posts generalizing q with
  | nil => exact (List.append_nil q.requests).symm
  | cons request posts ih =>
    change ((q.post request).2.postAll posts).requests =
      q.requests ++ ((if (q.post request).1.isOk then [request] else []) ++ (q.post request).2.accepted posts)
    rw [ih]
    by_cases taken : request.1.validate.isOk = true ∧ q.requests.length < q.capacity
    case pos =>
      rw [post_ok taken.1 taken.2, ← List.append_assoc]
      rfl
    case neg =>
      have rejected : request.1.validate.isOk = false ∨ q.capacity ≤ q.requests.length := by
        rw [not_and_or, Bool.not_eq_true, Nat.not_lt] at taken
        exact taken
      obtain ⟨failed, same⟩ := post_error rejected
      rw [failed, same, if_neg Bool.false_ne_true, List.nil_append]

/-- A queue accepts the requests whose stated length fits their schema, until it is full. -/
lemma accepted_eq (q : SendQueue) (posts : List Posted) :
    q.accepted posts = (posts.filter (·.1.validate.isOk)).take (q.capacity - q.requests.length) := by
  induction posts generalizing q with
  | nil => exact List.take_nil.symm
  | cons request posts ih =>
    change (if (q.post request).1.isOk then [request] else []) ++ (q.post request).2.accepted posts = _
    rw [ih]
    cases valid : request.1.validate.isOk with
    | false =>
      obtain ⟨failed, same⟩ := post_error (.inl valid : _ ∨ q.capacity ≤ q.requests.length)
      rw [failed, same, if_neg Bool.false_ne_true, List.nil_append, List.filter_cons, valid,
        if_neg Bool.false_ne_true]
    | true =>
      rw [List.filter_cons, valid, if_pos rfl]
      by_cases room : q.requests.length < q.capacity
      case pos =>
        have left : q.capacity - q.requests.length = q.capacity - (q.requests.length + 1) + 1 := by omega
        rw [post_ok valid room, left, List.take_succ_cons, List.length_append]
        rfl
      case neg =>
        have full : q.capacity - q.requests.length = 0 := by omega
        obtain ⟨failed, same⟩ := post_error (.inr (Nat.not_lt.mp room) : request.1.validate.isOk = false ∨ _)
        rw [failed, same, full, List.take_zero, List.take_zero]
        rfl

lemma mem_accepted {q : SendQueue} {posts : List Posted} {r : Posted} (mem : r ∈ q.accepted posts) :
    r ∈ posts ∧ r.1.schemaId.payloadBytes = r.1.payloadLen.toNat := by
  rw [accepted_eq] at mem
  obtain ⟨posted, valid⟩ := List.mem_filter.mp (List.mem_of_mem_take mem)
  exact ⟨posted, WorkRequest.validate_isOk valid⟩

end SendQueue

/-! ## Delivery -/

/-- The completion is that of the request posted at the index. -/
def Carries (entry : Posted × Nat) (c : Completion) : Prop :=
  AnySchemaValue.decode entry.1.1.schemaId.oamMode entry.1.2 = .ok c.value ∧ c.sequence = UInt16.ofNat entry.2

/-- One completion per request, in posting order. -/
def Delivered (requests : List Posted) (completions : List Completion) : Prop :=
  List.Forall₂ Carries requests.zipIdx completions

/-- A request whose payload decodes, encoded and sent over a channel without bit errors, leads to its completion. -/
lemma receive_encoded {rx : SoftDriver P} {channel : Channel P} (clean : channel.bitErrorRate = P.zero64) {e : Encoder}
    (bound : e.wavelength = rx.decoder.expectedWavelength) {n : Nat} (next : e.nextSequence = UInt16.ofNat n)
    {wr : WorkRequest} {payload : Bytes} {value : AnySchemaValue}
    (decoded : AnySchemaValue.decode wr.schemaId.oamMode payload = .ok value) (cq : CompletionQueue) :
    ∃ c, Carries ((wr, payload), n) c ∧
      rx.receive (channel.transmit (e.encodeRaw P wr.schemaId.oamMode payload).1).1 cq = cq.push c := by
  rw [transmit_clean clean, SoftDriver.receive, completion_of_decode bound decoded]
  exact ⟨_, ⟨decoded, next⟩, rfl⟩

/-- A pump over a channel without bit errors delivers requests whose payloads decode, from the encoder's counter on. -/
lemma deliver_drain {rx : SoftDriver P} {channel : Channel P} (clean : channel.bitErrorRate = P.zero64) {e : Encoder}
    (bound : e.wavelength = rx.decoder.expectedWavelength) {n : Nat} (next : e.nextSequence = UInt16.ofNat n)
    {requests : List Posted}
    (decodes : ∀ r ∈ requests, ∃ value, AnySchemaValue.decode r.1.schemaId.oamMode r.2 = .ok value)
    {cq : CompletionQueue} (room : cq.completions.length + requests.length ≤ cq.capacity) :
    ∃ completions, (deliver rx channel cq (SoftDriver.drain P e requests).1).2.completions =
      cq.completions ++ completions ∧ List.Forall₂ Carries (requests.zipIdx n) completions := by
  induction requests generalizing e n cq with
  | nil => exact ⟨[], (List.append_nil _).symm, .nil⟩
  | cons request requests ih =>
    obtain ⟨wr, payload⟩ := request
    obtain ⟨value, decoded⟩ := decodes (wr, payload) List.mem_cons_self
    obtain ⟨c, carries, received⟩ := receive_encoded clean bound next decoded cq
    rw [List.length_cons] at room
    have pushed := completions_push (show cq.completions.length < cq.capacity by omega) c
    -- one turn of the loop, with the channel as it was
    have turn : deliver rx channel cq (SoftDriver.drain P e ((wr, payload) :: requests)).1 =
        deliver rx channel (cq.push c)
          (SoftDriver.drain P (e.encodeRaw P wr.schemaId.oamMode payload).2 requests).1 := by
      rw [← received, SoftDriver.drain, deliver, transmit_clean clean]
    have following : (e.encodeRaw P wr.schemaId.oamMode payload).2.nextSequence = UInt16.ofNat (n + 1) := by
      rw [UInt16.ofNat_add, ← next]
      rfl
    have still : (e.encodeRaw P wr.schemaId.oamMode payload).2.wavelength = rx.decoder.expectedWavelength := bound
    have rest : ∀ r ∈ requests, ∃ value, AnySchemaValue.decode r.1.schemaId.oamMode r.2 = .ok value :=
      fun r mem => decodes r (List.mem_cons_of_mem _ mem)
    have left : (cq.push c).completions.length + requests.length ≤ (cq.push c).capacity := by
      rw [pushed, List.length_append, List.length_singleton]
      dsimp only
      omega
    obtain ⟨completions, queued, carried⟩ := ih still following rest left
    refine ⟨c :: completions, ?_, ?_⟩
    · rw [turn, queued, pushed, List.append_assoc, List.singleton_append]
    · rw [List.zipIdx_cons]
      exact .cons carries carried

/-- Between drivers built from one register file, all requests whose payloads decode are delivered. -/
lemma pump_delivers {rf : RegisterFile} {tx rx : SoftDriver P} (builtTx : SoftDriver.fromCsr P rf = .ok tx)
    (builtRx : SoftDriver.fromCsr P rf = .ok rx) {channel : Channel P} (clean : channel.bitErrorRate = P.zero64)
    {send : SendQueue}
    (decodes : ∀ r ∈ send.requests, ∃ value, AnySchemaValue.decode r.1.schemaId.oamMode r.2 = .ok value)
    {capacity : Nat} (room : send.requests.length ≤ capacity) :
    Delivered send.requests (pump channel tx send rx (.new capacity)).cq.completions := by
  have bound : tx.encoder.wavelength = rx.decoder.expectedWavelength := by
    rw [builtTx] at builtRx
    rw [← Except.ok.inj builtRx]
    exact SoftDriver.wavelength_fromCsr builtTx
  have next : tx.encoder.nextSequence = UInt16.ofNat 0 := SoftDriver.nextSequence_fromCsr builtTx
  have fits : (CompletionQueue.new capacity).completions.length + send.requests.length ≤
      (CompletionQueue.new capacity).capacity := (Nat.zero_add _).trans_le room
  obtain ⟨completions, delivered, carried⟩ := deliver_drain clean bound next decodes fits
  change List.Forall₂ Carries _ (deliver rx channel (.new capacity)
    (SoftDriver.drain P tx.encoder send.requests).1).2.completions
  rw [delivered]
  exact carried

/-- What was delivered was decoded. -/
lemma Delivered.decodes {requests : List Posted} {completions : List Completion}
    (delivered : Delivered requests completions) {r : Posted} (mem : r ∈ requests) :
    ∃ value, AnySchemaValue.decode r.1.schemaId.oamMode r.2 = .ok value := by
  obtain ⟨i, lt, rfl⟩ := List.getElem_of_mem mem
  have posted : i < requests.zipIdx.length := by rwa [List.length_zipIdx]
  have carried := delivered.get posted (delivered.length_eq ▸ posted)
  rw [List.get_eq_getElem, List.getElem_zipIdx] at carried
  exact ⟨_, carried.1⟩

/-- A payload that decodes under the mode of a schema has the schema's size. -/
lemma length_of_decode {id : SchemaId} {payload : Bytes} {value : AnySchemaValue}
    (decoded : AnySchemaValue.decode id.oamMode payload = .ok value) : payload.length = id.payloadBytes := by
  obtain ⟨mode, ⟨length, _⟩, _⟩ := AnySchemaValue.decode_ok decoded
  have same : id = value.schemaId := Option.some.inj
    ((Schema.resolve_oamMode id).symm.trans (mode ▸ Schema.resolve_oamMode value.schemaId))
  rw [length, same]

/-- Every accepted request is delivered, once and in posting order, exactly if among the requests that a queue accepts,
    the first `capacity` ones whose stated length is their schema's, each payload has the length stated. -/
theorem delivery_iff {rf : RegisterFile} {a b : SoftDriver P} (builtA : SoftDriver.fromCsr P rf = .ok a)
    (builtB : SoftDriver.fromCsr P rf = .ok b) (fabric : Fabric P) (clean : fabric.aToB.bitErrorRate = P.zero64)
    (capacity : Nat) (posts : List Posted)
    (valid : ∀ r ∈ posts, r.2.length = r.1.schemaId.payloadBytes → WellFormed r.1.schemaId r.2)
    (cqCapacity : Nat) (room : ((SendQueue.new capacity).accepted posts).length ≤ cqCapacity) :
    Delivered ((SendQueue.new capacity).accepted posts)
        (fabric.pumpAToB a ((SendQueue.new capacity).postAll posts) b (.new cqCapacity)).cq.completions ↔
      ∀ r ∈ (posts.filter (·.1.validate.isOk)).take capacity, r.2.length = r.1.payloadLen.toNat := by
  have taken : (SendQueue.new capacity).accepted posts = (posts.filter (·.1.validate.isOk)).take capacity :=
    SendQueue.accepted_eq _ posts
  have queued : ((SendQueue.new capacity).postAll posts).requests = (SendQueue.new capacity).accepted posts :=
    SendQueue.requests_postAll _ posts
  rw [← taken]
  constructor
  · intro delivered r mem
    obtain ⟨value, decoded⟩ := delivered.decodes mem
    exact (length_of_decode decoded).trans (SendQueue.mem_accepted mem).2
  · intro lengths
    have decodes : ∀ r ∈ ((SendQueue.new capacity).postAll posts).requests,
        ∃ value, AnySchemaValue.decode r.1.schemaId.oamMode r.2 = .ok value := by
      intro r mem
      rw [queued] at mem
      obtain ⟨posted, stated⟩ := SendQueue.mem_accepted mem
      exact AnySchemaValue.decode_isOk (valid r posted ((lengths r mem).trans stated.symm))
    have delivered := pump_delivers builtA builtB clean decodes (queued ▸ room)
    rwa [queued] at delivered

/-- A heartbeat request that states a length, with a payload of zeroes. -/
def beat (payloadLen : UInt32) (length : Nat) : Posted :=
  (WorkRequest.new .heartbeat channel40 payloadLen 0, List.replicate length 0)

theorem delivery_iff_heartbeats :
    SoftDriver.fromCsr .quarterTurns armedRf = .ok armedDriver ∧
      Delivered [beat 32 32, beat 32 32] ((Fabric.perfect .quarterTurns).pumpAToB armedDriver
        ((SendQueue.new 2).postAll [beat 32 32, beat 31 31, beat 32 32, beat 32 0]) armedDriver
        (.new 2)).cq.completions :=
  ⟨fromCsr_armedRf, (delivery_iff fromCsr_armedRf fromCsr_armedRf (.perfect .quarterTurns) rfl 2
    [beat 32 32, beat 31 31, beat 32 32, beat 32 0] (by decide) 2 (by decide)).mpr (by decide)⟩

/-- A heartbeat request that states 32 bytes and is posted with none is accepted, and nothing arrives. -/
theorem not_delivery :
    SoftDriver.fromCsr .quarterTurns armedRf = .ok armedDriver ∧
      ((SendQueue.new 1).accepted [beat 32 0]).length = 1 ∧
      ((Fabric.perfect .quarterTurns).pumpAToB armedDriver ((SendQueue.new 1).postAll [beat 32 0]) armedDriver
        (.new 1)).cq.completions.length = 0 ∧
      ¬ Delivered ((SendQueue.new 1).accepted [beat 32 0]) ((Fabric.perfect .quarterTurns).pumpAToB armedDriver
        ((SendQueue.new 1).postAll [beat 32 0]) armedDriver (.new 1)).cq.completions := by
  refine ⟨fromCsr_armedRf, rfl, rfl, fun delivered => ?_⟩
  have lengths := delivered.length_eq
  cases lengths

end Otap.Obg
