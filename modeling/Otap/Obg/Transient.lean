import Otap.Csr.Independence
import Otap.Schema.Codec

/-!
# Transients

Port of the polarization and microstructure of `otap-core/src/dimensions.rs`, of `otap-core/src/transient.rs`, of
`otap-crypto/src/lib.rs` and of `otap-codec/src/lib.rs`: how a Transient is encoded, and what a decoder checks and
reads.

The floating-point arithmetic and HMAC-SHA256 are those of a `Platform`. The two loops that wrap an angle are bounded;
by `wrapAngle_fuel` the bound is never reached.
-/

namespace Otap.Obg
open Otap.Lib
open Otap.Csr (Wavelength OamMode)
open Otap.Schema (ProtocolError Result AnySchemaValue)

/-- A 256-bit shared secret. -/
abbrev SharedSecret := Vector (BitVec 8) 32

/-- What the crates take from elsewhere: `f32`, `f64` and HMAC-SHA256. -/
structure Platform where
  F32 : Type
  F64 : Type
  /-- `as f32` of an integer. -/
  ofInt : Int → F32
  literal : Rat → F32
  pi : F32
  add : F32 → F32 → F32
  sub : F32 → F32 → F32
  mul : F32 → F32 → F32
  div : F32 → F32 → F32
  neg : F32 → F32
  sqrt : F32 → F32
  acos : F32 → F32
  round : F32 → F32
  /-- `y.atan2(x)`. -/
  atan2 : F32 → F32 → F32
  max : F32 → F32 → F32
  clamp : F32 → F32 → F32 → F32
  /-- `x > y`. -/
  gt : F32 → F32 → Bool
  /-- `x <= y`. -/
  le : F32 → F32 → Bool
  /-- `as i32`. -/
  toI32 : F32 → Int32
  /-- `as f64`. -/
  widen : F32 → F64
  zero64 : F64
  /-- `x < y`. -/
  lt64 : F64 → F64 → Bool
  hmac : SharedSecret → Hash 32
  lt64_irrefl : ∀ x, lt64 x x = false
  -- `atan2` returns an angle in `[-π, π]`, so that the difference of two needs one turn at most
  gt_turn : ∀ y x y' x', gt (sub (atan2 y x) (atan2 y' x')) pi = true →
    gt (sub (sub (atan2 y x) (atan2 y' x')) (mul (literal 2) pi)) pi = false
  gt_turn_le : ∀ y x y' x', gt (sub (atan2 y x) (atan2 y' x')) pi = true →
    le (sub (sub (atan2 y x) (atan2 y' x')) (mul (literal 2) pi)) (neg pi) = false
  le_turn : ∀ y x y' x', le (sub (atan2 y x) (atan2 y' x')) (neg pi) = true →
    le (add (sub (atan2 y x) (atan2 y' x')) (mul (literal 2) pi)) (neg pi) = false

namespace Platform

/-- The angle of a point in quarter turns. -/
def quarter (y x : Int) : Int :=
  if 0 < y then 1 else if y < 0 then -1 else if x < 0 then 2 else 0

lemma quarter_mem (y x : Int) : -1 ≤ quarter y x ∧ quarter y x ≤ 2 := by
  unfold quarter
  grind

lemma floor_two : Rat.floor 2 = 2 := rfl

/-- A platform to compute with: integers for floats, and angles in quarter turns. -/
def quarterTurns : Platform where
  F32 := Int
  F64 := Int
  ofInt := id
  literal := Rat.floor
  pi := 2
  add := (· + ·)
  sub := (· - ·)
  mul := (· * ·)
  div := (· / ·)
  neg := (- ·)
  sqrt x := x.toNat.sqrt
  acos x := 1 - x
  round := id
  atan2 := quarter
  max := Max.max
  clamp x lo hi := Max.max lo (min x hi)
  gt x y := decide (x > y)
  le x y := decide (x ≤ y)
  toI32 := Int32.ofInt
  widen := id
  zero64 := 0
  lt64 x y := decide (x < y)
  hmac secret :=
    { sum := fun b => (Hash.positional 32).sum (secret.toList.map UInt8.ofBitVec ++ b)
      length_sum := fun _ => Hash.length_sum _ _ }
  lt64_irrefl x := decide_eq_false (lt_irrefl x)
  gt_turn y x y' x' := by grind [quarter_mem y x, quarter_mem y' x', floor_two]
  gt_turn_le y x y' x' := by grind [quarter_mem y x, quarter_mem y' x', floor_two]
  le_turn y x y' x' := by grind [quarter_mem y x, quarter_mem y' x', floor_two]

variable (P : Platform)

instance : Add P.F32 := ⟨P.add⟩
instance : Sub P.F32 := ⟨P.sub⟩
instance : Mul P.F32 := ⟨P.mul⟩
instance : Div P.F32 := ⟨P.div⟩
instance : Neg P.F32 := ⟨P.neg⟩

def twoPi : P.F32 := P.literal 2 * P.pi

end Platform

variable {P : Platform}

/-! ## Polarization -/

structure StokesVector (P : Platform) where
  s1 : P.F32
  s2 : P.F32
  s3 : P.F32

namespace StokesVector

/-- Construct from raw components. Normalizes to the unit sphere. -/
def new (s1 s2 s3 : P.F32) : StokesVector P :=
  let mag := P.max (P.sqrt (s1 * s1 + s2 * s2 + s3 * s3)) (P.literal 1e-9)
  { s1 := s1 / mag, s2 := s2 / mag, s3 := s3 / mag }

/-- Angular distance on the Poincaré sphere (radians). -/
def angularDistance (a b : StokesVector P) : P.F32 :=
  let dot := P.clamp (a.s1 * b.s1 + a.s2 * b.s2 + a.s3 * b.s3) (P.literal (-1)) (P.literal 1)
  P.acos dot

end StokesVector

abbrev trajectorySamples : Nat := 16

structure PolarizationTrajectory (P : Platform) where
  samples : Vector (StokesVector P) trajectorySamples

/-- `while d > PI { d -= 2.0 * PI }`. -/
def wrapDown : Nat → P.F32 → P.F32
  | 0, d => d
  | fuel + 1, d => if P.gt d P.pi then wrapDown fuel (d - P.twoPi) else d

/-- `while d <= -PI { d += 2.0 * PI }`. -/
def wrapUp : Nat → P.F32 → P.F32
  | 0, d => d
  | fuel + 1, d => if P.le d (-P.pi) then wrapUp fuel (d + P.twoPi) else d

/-- Wrap to `(-π, π]`. -/
def wrapAngle (fuel : Nat) (d : P.F32) : P.F32 :=
  wrapUp fuel (wrapDown fuel d)

/-- The angle of a sample in the equatorial plane. -/
def StokesVector.theta (a : StokesVector P) : P.F32 :=
  P.atan2 a.s2 a.s1

section

local instance samples_neZero : NeZero trajectorySamples := ⟨by decide⟩

/-- The discrete winding number of the trajectory around the s3 axis. -/
def PolarizationTrajectory.windingNumberS3 (t : PolarizationTrajectory P) : Int32 :=
  let totalAngle := (List.finRange trajectorySamples).foldl (fun total i =>
    let a := t.samples.get i
    let b := t.samples.get (i + 1)   -- `(i + 1) % TRAJECTORY_SAMPLES`
    total + wrapAngle 1 (b.theta - a.theta)) (P.literal 0)
  P.toI32 (P.round (totalAngle / P.twoPi))

end

lemma wrapDown_fuel (a b : StokesVector P) (fuel : Nat) :
    wrapDown (fuel + 1) (b.theta - a.theta) =
      if P.gt (b.theta - a.theta) P.pi then b.theta - a.theta - P.twoPi else b.theta - a.theta := by
  rw [wrapDown]
  split
  case isTrue above =>
    have below : P.gt (b.theta - a.theta - P.twoPi) P.pi = false := P.gt_turn _ _ _ _ above
    cases fuel with
    | zero => rfl
    | succ fuel => rw [wrapDown, below, if_neg Bool.false_ne_true]
  case isFalse => rfl

lemma wrapUp_fuel (a b : StokesVector P) (fuel : Nat) :
    wrapUp (fuel + 1) (b.theta - a.theta) =
      if P.le (b.theta - a.theta) (-P.pi) then b.theta - a.theta + P.twoPi else b.theta - a.theta := by
  rw [wrapUp]
  split
  case isTrue below =>
    have above : P.le (b.theta - a.theta + P.twoPi) (-P.pi) = false := P.le_turn _ _ _ _ below
    cases fuel with
    | zero => rfl
    | succ fuel => rw [wrapUp, above, if_neg Bool.false_ne_true]
  case isFalse => rfl

/-- One turn is enough for each loop: with more fuel they end with the same angle. -/
lemma wrapAngle_fuel (a b : StokesVector P) (fuel : Nat) :
    wrapAngle (fuel + 1) (b.theta - a.theta) = wrapAngle 1 (b.theta - a.theta) := by
  rw [wrapAngle, wrapAngle, wrapDown_fuel, wrapDown_fuel]
  split
  case isTrue above =>
    -- an angle turned down is not turned up again
    have inside : P.le (b.theta - a.theta - P.twoPi) (-P.pi) = false := P.gt_turn_le _ _ _ _ above
    rw [wrapUp, wrapUp, inside, if_neg Bool.false_ne_true, if_neg Bool.false_ne_true]
  case isFalse => rw [wrapUp_fuel, wrapUp_fuel]

/-! ## Microstructure and Transients -/

/-- Flow-control state encoded as guard interval duration. -/
inductive GuardInterval where
  | nominal
  | priority
  | endOfMessage
  | retransmission
  | keepalive
  deriving DecidableEq

structure MicroStructure where
  sequence : UInt16
  guard : GuardInterval
  deriving DecidableEq

def MicroStructure.new (sequence : UInt16) : MicroStructure :=
  { sequence, guard := .nominal }

structure Transient (P : Platform) where
  /-- D2: destination addressing. -/
  wavelength : Wavelength
  /-- D3: source authentication and integrity. -/
  polarization : PolarizationTrajectory P
  /-- D4: application schema selector. -/
  oam : OamMode
  /-- D5: sequence number and flow control. -/
  micro : MicroStructure
  /-- D1: payload bits. -/
  payload : Bytes

/-! ## Trajectory derivation and verification -/

/-- Inputs that bind the trajectory to a specific Transient. -/
structure TrajectoryContext where
  wavelength : Wavelength
  oam : OamMode
  sequence : UInt16
  payload : Bytes

/-- What the first HMAC is taken of. -/
def TrajectoryContext.message (ctx : TrajectoryContext) : Bytes :=
  ascii "OTAP-D3-TRAJECTORY-v1" ++ toBE 2 ctx.wavelength.channel.toNat ++ toBE 1 (ctx.oam.charge % 256).toNat ++
    toBE 2 ctx.sequence.toNat ++ toBE 4 ctx.payload.length ++ ctx.payload

/-- `i16::from_be_bytes([hi, lo]) as f32 / 32768.0`. -/
def toSigned (P : Platform) (hi lo : UInt8) : P.F32 :=
  P.ofInt (hi.toBitVec ++ lo.toBitVec).toInt / P.literal 32768

/-- Map 6 bytes of HMAC output to a normalized Stokes vector. -/
def stokesFromBytes (P : Platform) (bytes : Bytes) : StokesVector P :=
  StokesVector.new (toSigned P (bytes.getD 0 0) (bytes.getD 1 0)) (toSigned P (bytes.getD 2 0) (bytes.getD 3 0))
    (toSigned P (bytes.getD 4 0) (bytes.getD 5 0))

/-- Derive the expected polarization trajectory from key material and context. -/
def deriveTrajectory (P : Platform) (secret : SharedSecret) (ctx : TrajectoryContext) : PolarizationTrajectory P :=
  let tag := (P.hmac secret).sum ctx.message
  { samples := Vector.ofFn fun i =>
      let sampleBytes := (P.hmac secret).sum (ascii "OTAP-D3-SAMPLE-v1" ++ tag ++ toBE 2 i.val)
      stokesFromBytes P (sampleBytes.take 6) }

/-- Authentication mode selected by the receiver. -/
inductive AuthMode (P : Platform) where
  | trajectoryMatch (toleranceRad : P.F32)
  | topological

/-- Verify an observed trajectory against the expected derivation. -/
def verifyTrajectory (secret : SharedSecret) (ctx : TrajectoryContext) (observed : PolarizationTrajectory P) :
    AuthMode P → Result Unit
  | .trajectoryMatch toleranceRad =>
    let expected := deriveTrajectory P secret ctx
    (List.finRange trajectorySamples).forM fun i =>
      let d := (expected.samples.get i).angularDistance (observed.samples.get i)
      if P.gt d toleranceRad then throw .authenticationFailure else pure ()
  | .topological =>
    let expected := deriveTrajectory P secret ctx
    if expected.windingNumberS3 = observed.windingNumberS3 then .ok () else .error .authenticationFailure

/-- A trajectory as it was derived passes the topological check. -/
lemma verifyTrajectory_topological (secret : SharedSecret) (ctx : TrajectoryContext) :
    verifyTrajectory secret ctx (deriveTrajectory P secret ctx) .topological = .ok () :=
  if_pos rfl

/-! ## Encoder -/

structure Encoder where
  secret : SharedSecret
  nextSequence : UInt16
  wavelength : Wavelength

namespace Encoder

def new (secret : SharedSecret) (wavelength : Wavelength) : Encoder :=
  { secret, nextSequence := 0, wavelength }

/-- Encode a pre-serialized payload at a given OAM mode. -/
def encodeRaw (P : Platform) (e : Encoder) (oam : OamMode) (payload : Bytes) : Transient P × Encoder :=
  let sequence := e.nextSequence
  let e := { e with nextSequence := e.nextSequence + 1 }   -- `wrapping_add`
  let micro := MicroStructure.new sequence
  let trajectory := deriveTrajectory P e.secret { wavelength := e.wavelength, oam, sequence, payload }
  ({ wavelength := e.wavelength, polarization := trajectory, oam, micro, payload }, e)

end Encoder

/-! ## Decoder -/

structure Decoder (P : Platform) where
  secret : SharedSecret
  expectedWavelength : Wavelength
  authMode : AuthMode P

/-- Result of decoding a single Transient. -/
structure DecodeReport where
  value : AnySchemaValue
  wavelength : Wavelength
  oam : OamMode
  micro : MicroStructure
  authOk : Bool

/-- The inputs that a receiver takes from a Transient. -/
def Transient.context (t : Transient P) : TrajectoryContext :=
  { wavelength := t.wavelength, oam := t.oam, sequence := t.micro.sequence, payload := t.payload }

/-- A Transient whose trajectory the decoder's check takes. -/
def Decoder.Authentic (d : Decoder P) (t : Transient P) : Prop :=
  verifyTrajectory d.secret t.context t.polarization d.authMode = .ok ()

def Decoder.decode (d : Decoder P) (t : Transient P) : Result DecodeReport := do
  if t.wavelength ≠ d.expectedWavelength then throw (.wireFormat "wavelength does not match decoder binding")
  let authOk := (verifyTrajectory d.secret t.context t.polarization d.authMode).isOk
  let value ← AnySchemaValue.decode t.oam t.payload
  return { value, wavelength := t.wavelength, oam := t.oam, micro := t.micro, authOk }

/-- The context of an encoded Transient is the one its trajectory was derived from. -/
lemma encodeRaw_polarization (e : Encoder) (oam : OamMode) (payload : Bytes) :
    (e.encodeRaw P oam payload).1.polarization = deriveTrajectory P e.secret (e.encodeRaw P oam payload).1.context :=
  rfl

/-- In topological mode, what a sender encodes is authentic for every receiver with its secret. -/
lemma authentic_encodeRaw {d : Decoder P} {e : Encoder} (shared : d.secret = e.secret)
    (mode : d.authMode = .topological) (oam : OamMode) (payload : Bytes) :
    d.Authentic (e.encodeRaw P oam payload).1 := by
  rw [Decoder.Authentic, mode, shared, encodeRaw_polarization]
  exact verifyTrajectory_topological _ _

lemma decode_otherWavelength {d : Decoder P} {t : Transient P} (other : t.wavelength ≠ d.expectedWavelength) :
    d.decode t = .error (.wireFormat "wavelength does not match decoder binding") := by
  rw [Decoder.decode, if_pos other]
  rfl

lemma decode_wavelength {d : Decoder P} {t : Transient P} (same : t.wavelength = d.expectedWavelength) :
    d.decode t = (AnySchemaValue.decode t.oam t.payload).map fun value =>
      { value, wavelength := t.wavelength, oam := t.oam, micro := t.micro,
        authOk := (verifyTrajectory d.secret t.context t.polarization d.authMode).isOk } := by
  rw [Decoder.decode, if_neg (not_not.mpr same)]
  cases AnySchemaValue.decode t.oam t.payload with
  | error err => rfl
  | ok value => rfl

end Otap.Obg
