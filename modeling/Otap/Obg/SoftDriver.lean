import Otap.Obg.Transient
import Otap.Lib.Run

/-!
# The software driver and the fabric

Port of `otap-obg/src/lib.rs` (work requests, queues, `SoftDriver`, `arm_register_file`), of the channel of
`otap-sim/src/lib.rs` and of `otap-fabric/src/lib.rs`. The driver's register file and its accessors are those of
`Otap.Csr`.

`fromCsr_armed` and `fromCsr_ok` say what a driver latches from a register file, and from which; `post_ok` and
`post_error` what a send queue takes; `transmit_clean` what a channel without bit errors keeps; `completion_of_decode`
and `completions_push` what a delivery adds to a completion queue.
-/

namespace Otap.Obg
open Otap.Lib
open Otap.Csr hiding ProtocolError
open Otap.Client (SchemaId)
open Otap.Schema (ProtocolError AnySchemaValue)

variable {P : Platform}

inductive ObgError where
  | sendQueueFull
  | protocol (e : ProtocolError)
  | csr (e : CsrError)
  | notArmed (reason : String)

abbrev ObgResult := Except ObgError

/-! ## Work requests -/

structure WorkRequest where
  version : UInt8
  schemaId : SchemaId
  wavelength : Wavelength
  payloadLen : UInt32
  cookie : UInt64
  flags : UInt32

namespace WorkRequest

def new (schemaId : SchemaId) (wavelength : Wavelength) (payloadLen : UInt32) (cookie : UInt64) : WorkRequest :=
  { version := 0x01, schemaId, wavelength, payloadLen, cookie, flags := 0 }

/-- Validate the descriptor against its schema's payload size. -/
def validate (wr : WorkRequest) : ObgResult Unit :=
  let expected := wr.schemaId.payloadBytes
  if expected ≠ wr.payloadLen.toNat then
    .error (.protocol (.schemaMismatch 0 expected wr.payloadLen.toNat))
  else .ok ()

end WorkRequest

/-- A work request with the payload posted along with it. -/
abbrev Posted := WorkRequest × Bytes

/-! ## Queues -/

structure SendQueue where
  requests : List Posted
  capacity : Nat

namespace SendQueue

def new (capacity : Nat) : SendQueue := { requests := [], capacity }

/-- Post a new request. -/
def post (q : SendQueue) (request : Posted) : ObgResult Unit × SendQueue :=
  match request.1.validate with
  | .error e => (.error e, q)
  | .ok () =>
    if q.requests.length ≥ q.capacity then (.error .sendQueueFull, q)
    else (.ok (), { q with requests := q.requests ++ [request] })

/-- The queue after a run of `post` calls. -/
def postAll (q : SendQueue) (posts : List Posted) : SendQueue :=
  posts.foldl (fun q request => (q.post request).2) q

/-- The requests of the run for which `post` returned `Ok`. -/
def accepted (q : SendQueue) (posts : List Posted) : List Posted :=
  (outputs (fun q request => ((q.post request).2, if (q.post request).1.isOk then [request] else [])) q posts).flatten

end SendQueue

/-- A single received-Transient completion. -/
structure Completion where
  value : AnySchemaValue
  authOk : Bool
  sequence : UInt16
  cookie : UInt64

structure CompletionQueue where
  completions : List Completion
  capacity : Nat

namespace CompletionQueue

def new (capacity : Nat) : CompletionQueue := { completions := [], capacity }

/-- Push a completion; a full queue loses its oldest one. -/
def push (cq : CompletionQueue) (c : Completion) : CompletionQueue :=
  let completions := if cq.completions.length ≥ cq.capacity then cq.completions.tail else cq.completions
  { cq with completions := completions ++ [c] }

end CompletionQueue

/-! ## The driver -/

/-- Configuration latched from the register file at arm-time. -/
structure DriverConfig (P : Platform) where
  wavelength : Wavelength
  authMode : AuthMode P

structure SoftDriver (P : Platform) where
  encoder : Encoder
  decoder : Decoder P
  config : DriverConfig P

/-- `CsrView::auth_tolerance`. -/
def authTolerance (P : Platform) (rf : RegisterFile) : Except CsrError P.F32 := do
  let v ← rf.readU32 regAuthTolerance
  return P.ofInt v.toNat / P.literal 1000

namespace SoftDriver

/-- The driver with these register values. -/
def latch (secret : SharedSecret) (wavelength : Wavelength) (ctrl : Word) (tolerance : P.F32) : SoftDriver P :=
  let authMode :=
    if ctrl &&& ctrlAuthTopological ≠ 0 then .topological
    else .trajectoryMatch (P.max tolerance (P.literal 1e-4))
  { encoder := Encoder.new secret wavelength
    decoder := { secret, expectedWavelength := wavelength, authMode }
    config := { wavelength, authMode } }

/-- Build a driver from the current contents of a register file. -/
def fromCsr (P : Platform) (rf : RegisterFile) : ObgResult (SoftDriver P) := do
  let wavelength ← (view.wavelength rf).mapError .csr
  let some secret ← (view.sharedSecret rf).mapError .csr | throw (.notArmed "shared secret not loaded")
  let ctrl ← (view.ctrl rf).mapError .csr
  let tolerance ← (authTolerance P rf).mapError .csr
  return latch secret wavelength ctrl tolerance

/-- Re-read the register file and reinitialize. -/
def refreshFromCsr (d : SoftDriver P) (rf : RegisterFile) : ObgResult Unit × SoftDriver P :=
  match fromCsr P rf with
  | .error e => (.error e, d)
  | .ok d' => (.ok (), d')

/-- The loop of `transmit_pending` over the requests of the queue. -/
def drain (P : Platform) : Encoder → List Posted → List (Transient P × UInt64) × Encoder
  | e, [] => ([], e)
  | e, (wr, payload) :: rest =>
    let oam := wr.schemaId.oamMode
    let (transient, e) := e.encodeRaw P oam payload
    let (out, e) := drain P e rest
    ((transient, wr.cookie) :: out, e)

/-- Drain the send queue and produce Transients. -/
def transmitPending (d : SoftDriver P) (send : SendQueue) :
    List (Transient P × UInt64) × SoftDriver P × SendQueue :=
  let (out, encoder) := drain P d.encoder send.requests
  (out, { d with encoder }, { send with requests := [] })

/-- The completion that a Transient leads to; malformed Transients lead to none. -/
def completion (d : SoftDriver P) (t : Transient P) : Option Completion :=
  match d.decoder.decode t with
  | .ok report =>
    some { value := report.value, authOk := report.authOk, sequence := report.micro.sequence, cookie := 0 }
  | .error _ => none

/-- Accept an incoming Transient (post-channel) and push a completion. -/
def receive (d : SoftDriver P) (t : Transient P) (cq : CompletionQueue) : CompletionQueue :=
  match d.completion t with
  | some c => cq.push c
  | none => cq

end SoftDriver

/-! ## Arming -/

/-- The register file after `arm_register_file`. None of the calls fails on the values it passes. -/
def armRegisterFile (rf : RegisterFile) (wavelength : Wavelength) (secretBytes : SharedSecret)
    (topologicalAuth : Bool) : RegisterFile :=
  rf.calls [
    .setWavelength wavelength,
    .setSecret secretBytes,
    .setCtrl (ctrlEnableTx ||| ctrlEnableRx ||| if topologicalAuth then ctrlAuthTopological else 0),
    .setAuthTolerance 10,   -- `set_auth_tolerance(rf, 0.01)`
    .setSchemaPayload 1 256,
    .setSchemaPayload 2 64,
    .setSchemaPayload 3 32,
    .setOamToSchema SchemaId.equityTradeOrder.oamMode 1,
    .setOamToSchema SchemaId.marketTick.oamMode 2,
    .setOamToSchema SchemaId.heartbeat.oamMode 3]

/-- A register file from which a driver can be built. -/
def Armed (rf : RegisterFile) : Prop :=
  ∃ wavelength secret, view.wavelength rf = .ok wavelength ∧ view.sharedSecret rf = .ok (some secret)

/-! ## The channel -/

/-- A 3×3 real matrix acting on the Poincaré sphere. -/
structure PoincareRotation (P : Platform) where
  m : Fin 3 → Fin 3 → P.F32

def PoincareRotation.identity (P : Platform) : PoincareRotation P :=
  ⟨fun i j => if i = j then P.literal 1 else P.literal 0⟩

section

local instance three_neZero : NeZero 3 := ⟨by decide⟩

/-- Apply this rotation to a Stokes vector. -/
def PoincareRotation.apply (r : PoincareRotation P) (v : StokesVector P) : StokesVector P :=
  let row (i : Fin 3) := r.m i 0 * v.s1 + r.m i 1 * v.s2 + r.m i 2 * v.s3
  StokesVector.new (row 0) (row 1) (row 2)

end

structure ChannelRng where
  state : UInt64

namespace ChannelRng

def new (seed : UInt64) : ChannelRng :=
  ⟨if seed = 0 then 0xDEADBEEFCAFEF00D else seed⟩

def nextU64 (rng : ChannelRng) : UInt64 × ChannelRng :=
  let x := rng.state
  let x := x ^^^ (x <<< 13)
  let x := x ^^^ (x >>> 7)
  let x := x ^^^ (x <<< 17)
  (x, ⟨x⟩)

/-- Uniform float in `[0, 1)`. -/
def nextUnit (P : Platform) (rng : ChannelRng) : P.F32 × ChannelRng :=
  let (x, rng) := rng.nextU64
  let n := x.toUInt32
  (P.ofInt n.toNat / P.ofInt (2 ^ 32 - 1), rng)

end ChannelRng

/-- A fiber channel with configurable impairments. -/
structure Channel (P : Platform) where
  pmdRotation : PoincareRotation P
  bitErrorRate : P.F64
  rng : ChannelRng

namespace Channel

/-- A perfect fiber: identity transform, zero BER. -/
def perfect (P : Platform) : Channel P :=
  { pmdRotation := .identity P, bitErrorRate := P.zero64, rng := .new 1 }

/-- One byte through the bit errors, with the generator after it. -/
def corrupt (bitErrorRate : P.F64) (rng : ChannelRng) (byte : UInt8) : UInt8 × ChannelRng :=
  (List.range 8).foldl (fun (byte, rng) bit =>
    let (unit, rng) := rng.nextUnit P
    if P.lt64 (P.widen unit) bitErrorRate then (byte ^^^ (1 <<< UInt8.ofNat bit), rng) else (byte, rng)) (byte, rng)

def corruptAll (bitErrorRate : P.F64) : ChannelRng → Bytes → Bytes × ChannelRng
  | rng, [] => ([], rng)
  | rng, byte :: bytes =>
    let (byte, rng) := corrupt bitErrorRate rng byte
    let (bytes, rng) := corruptAll bitErrorRate rng bytes
    (byte :: bytes, rng)

/-- Transit a Transient through this channel. -/
def transmit (channel : Channel P) (t : Transient P) : Transient P × Channel P :=
  let t := { t with polarization := ⟨t.polarization.samples.map channel.pmdRotation.apply⟩ }
  if P.lt64 P.zero64 channel.bitErrorRate then
    let (payload, rng) := corruptAll channel.bitErrorRate channel.rng t.payload
    ({ t with payload }, { channel with rng })
  else (t, channel)

end Channel

/-! ## The fabric -/

/-- A bidirectional simulated fiber. -/
structure Fabric (P : Platform) where
  aToB : Channel P
  bToA : Channel P

/-- The delivery loop of a pump. -/
def deliver (rx : SoftDriver P) : Channel P → CompletionQueue → List (Transient P × UInt64) →
    Channel P × CompletionQueue
  | channel, cq, [] => (channel, cq)
  | channel, cq, (transient, _) :: outgoing =>
    let (postChannel, channel) := channel.transmit transient
    deliver rx channel (rx.receive postChannel cq) outgoing

/-- What a pump returns and leaves behind. -/
structure Pumped (P : Platform) where
  delivered : Nat
  channel : Channel P
  driver : SoftDriver P
  send : SendQueue
  cq : CompletionQueue

/-- Pump one direction. -/
def pump (channel : Channel P) (tx : SoftDriver P) (send : SendQueue) (rx : SoftDriver P) (cq : CompletionQueue) :
    Pumped P :=
  let (outgoing, driver, send) := tx.transmitPending send
  let (channel, cq) := deliver rx channel cq outgoing
  { delivered := outgoing.length, channel, driver, send, cq }

namespace Fabric

/-- A fabric with two perfect (identity, zero-BER) channels. -/
def perfect (P : Platform) : Fabric P :=
  ⟨.perfect P, .perfect P⟩

def pumpAToB (fabric : Fabric P) (aDriver : SoftDriver P) (aSend : SendQueue) (bDriver : SoftDriver P)
    (bCq : CompletionQueue) : Pumped P :=
  pump fabric.aToB aDriver aSend bDriver bCq

def pumpBToA (fabric : Fabric P) (bDriver : SoftDriver P) (bSend : SendQueue) (aDriver : SoftDriver P)
    (aCq : CompletionQueue) : Pumped P :=
  pump fabric.bToA bDriver bSend aDriver aCq

end Fabric

/-! ## Building a driver -/

namespace SoftDriver

variable {rf : RegisterFile} {d : SoftDriver P}

lemma authTolerance_eq : authTolerance P rf = .ok (P.ofInt (rf.word 2).toNat / P.literal 1000) := by
  rw [authTolerance, Csr.readU32_eq (by decide) rfl]
  rfl

lemma fromCsr_armed {wavelength : Wavelength} {secret : SharedSecret} (bound : view.wavelength rf = .ok wavelength)
    (loaded : view.sharedSecret rf = .ok (some secret)) :
    fromCsr P rf = .ok (latch secret wavelength (rf.word 1) (P.ofInt (rf.word 2).toNat / P.literal 1000)) := by
  rw [fromCsr, bound, loaded, view.ctrl_eq, authTolerance_eq]
  rfl

lemma fromCsr_ok (built : fromCsr P rf = .ok d) :
    ∃ wavelength secret, view.wavelength rf = .ok wavelength ∧ view.sharedSecret rf = .ok (some secret) ∧
      d = latch secret wavelength (rf.word 1) (P.ofInt (rf.word 2).toNat / P.literal 1000) := by
  cases bound : view.wavelength rf with
  | error err =>
    rw [fromCsr, bound] at built
    cases built
  | ok wavelength =>
    cases loaded : view.sharedSecret rf with
    | error err =>
      rw [fromCsr, bound, loaded] at built
      cases built
    | ok secret =>
      cases secret with
      | none =>
        rw [fromCsr, bound, loaded] at built
        cases built
      | some secret =>
        rw [fromCsr_armed bound loaded] at built
        cases built
        exact ⟨wavelength, secret, rfl, rfl, rfl⟩

lemma nextSequence_fromCsr (built : fromCsr P rf = .ok d) : d.encoder.nextSequence = 0 := by
  obtain ⟨_, _, _, _, rfl⟩ := fromCsr_ok built
  rfl

lemma wavelength_fromCsr (built : fromCsr P rf = .ok d) : d.encoder.wavelength = d.decoder.expectedWavelength := by
  obtain ⟨_, _, _, _, rfl⟩ := fromCsr_ok built
  rfl

lemma armed_iff : Armed rf ↔ ∃ d, fromCsr P rf = .ok d := by
  constructor
  · rintro ⟨wavelength, secret, bound, loaded⟩
    exact ⟨_, fromCsr_armed bound loaded⟩
  · rintro ⟨d, built⟩
    obtain ⟨wavelength, secret, bound, loaded, _⟩ := fromCsr_ok built
    exact ⟨wavelength, secret, bound, loaded⟩

/-- What `from_csr` latches after `arm_register_file`. -/
lemma fromCsr_armRegisterFile (P : Platform) (rf : RegisterFile) (wavelength : Wavelength) (secret : SharedSecret)
    (topologicalAuth : Bool) :
    fromCsr P (armRegisterFile rf wavelength secret topologicalAuth) = .ok (latch secret wavelength
      (ctrlEnableTx ||| ctrlEnableRx ||| if topologicalAuth then ctrlAuthTopological else 0)
      (P.ofInt 10 / P.literal 1000)) := by
  have bound : view.wavelength (armRegisterFile rf wavelength secret topologicalAuth) = .ok wavelength := by
    simp only [armRegisterFile, RegisterFile.calls, List.foldl, wavelength_call, Call.wavelength, Option.getD]
  have loaded : view.sharedSecret (armRegisterFile rf wavelength secret topologicalAuth) = .ok (some secret) := by
    simp only [armRegisterFile, RegisterFile.calls, List.foldl, sharedSecret_call, Call.sharedSecret, Option.getD]
  have ctrl : view.ctrl (armRegisterFile rf wavelength secret topologicalAuth) =
      .ok (ctrlEnableTx ||| ctrlEnableRx ||| if topologicalAuth then ctrlAuthTopological else 0) := by
    simp only [armRegisterFile, RegisterFile.calls, List.foldl, ctrl_call, Call.ctrl, Option.getD]
  have tolerance : (armRegisterFile rf wavelength secret topologicalAuth).word 2 = 10 := by
    simp only [armRegisterFile, RegisterFile.calls, List.foldl, word_two_call, Call.authTolerance, Option.getD]
  rw [view.ctrl_eq] at ctrl
  rw [fromCsr_armed bound loaded, Except.ok.inj ctrl, tolerance]
  rfl

end SoftDriver

lemma forty_le : (40 : BitVec 16) ≤ 351 := by decide

def channel40 : Wavelength := ⟨40, forty_le⟩

/-- The register file of the driver's tests: channel 40 and a key of equal bytes; here with topological
    authentication. -/
def armedRf : RegisterFile :=
  armRegisterFile .new channel40 (Vector.replicate 32 0x42) true

def armedDriver : SoftDriver .quarterTurns :=
  .latch (Vector.replicate 32 0x42) channel40 7 (Platform.quarterTurns.ofInt 10 / Platform.quarterTurns.literal 1000)

lemma fromCsr_armedRf : SoftDriver.fromCsr .quarterTurns armedRf = .ok armedDriver :=
  SoftDriver.fromCsr_armRegisterFile .quarterTurns .new channel40 (Vector.replicate 32 0x42) true

/-! ## Queues, channel and completions -/

lemma WorkRequest.validate_isOk {wr : WorkRequest} (valid : wr.validate.isOk = true) :
    wr.schemaId.payloadBytes = wr.payloadLen.toNat := by
  by_contra differs
  rw [validate, if_pos differs] at valid
  cases valid

namespace SendQueue

variable {q : SendQueue} {request : Posted}

lemma post_ok (valid : request.1.validate.isOk = true) (room : q.requests.length < q.capacity) :
    q.post request = (.ok (), { q with requests := q.requests ++ [request] }) := by
  unfold post
  cases checked : request.1.validate with
  | error err =>
    rw [checked] at valid
    cases valid
  | ok _ =>
    dsimp only
    rw [if_neg (Nat.not_le.mpr room)]

lemma post_error (rejected : request.1.validate.isOk = false ∨ q.capacity ≤ q.requests.length) :
    (q.post request).1.isOk = false ∧ (q.post request).2 = q := by
  unfold post
  cases checked : request.1.validate with
  | error err => exact ⟨rfl, rfl⟩
  | ok _ =>
    rw [checked] at rejected
    cases rejected with
    | inl invalid => cases invalid
    | inr full =>
      dsimp only
      rw [if_pos full]
      exact ⟨rfl, rfl⟩

end SendQueue

/-- A channel without bit errors changes the polarization only. -/
lemma transmit_clean {channel : Channel P} (clean : channel.bitErrorRate = P.zero64) (t : Transient P) :
    channel.transmit t =
      ({ t with polarization := ⟨t.polarization.samples.map channel.pmdRotation.apply⟩ }, channel) := by
  rw [Channel.transmit, clean, P.lt64_irrefl, if_neg Bool.false_ne_true]

/-- A push into a queue that is not full loses nothing. -/
lemma completions_push {cq : CompletionQueue} (room : cq.completions.length < cq.capacity) (c : Completion) :
    cq.push c = { cq with completions := cq.completions ++ [c] } := by
  rw [CompletionQueue.push, if_neg (Nat.not_le.mpr room)]

lemma completion_of_decode {d : SoftDriver P} {t : Transient P} (bound : t.wavelength = d.decoder.expectedWavelength)
    {value : AnySchemaValue} (decoded : AnySchemaValue.decode t.oam t.payload = .ok value) :
    d.completion t = some {
      value
      authOk := (verifyTrajectory d.decoder.secret t.context t.polarization d.decoder.authMode).isOk
      sequence := t.micro.sequence
      cookie := 0 } := by
  rw [SoftDriver.completion, decode_wavelength bound, decoded]
  rfl

end Otap.Obg
