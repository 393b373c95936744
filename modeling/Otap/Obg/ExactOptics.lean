import Otap.Obg.HonestTransmission
import Otap.Optics.Channel
import Otap.Optics.PmdInvariance

/-!
# The optics of the drivers

Polarization is modelled over any `Platform` where a driver computes with it, and over the real numbers, in
`Otap.Optics`, where its geometry is studied. On `Platform.exact` the two are one: `toOptics` takes the normalization
of a sample, the rotations, the winding number and the channel to those of the optics.

So what is proved there holds of drivers. `Channel.authentic_transmit`: light that a fiber turns about the s3 axis is as
authentic as it was sent. `Channel.Sound.run`: a fiber goes on to rotate properly, with a generator that moves.
-/

namespace Otap.Obg

open Real Otap.Lib

variable {hmac : SharedSecret → Hash 32}

/-- A sample of the exact platform in the optics, -/
def StokesVector.toOptics (v : StokesVector (.exact hmac)) : Optics.StokesVector :=
  ⟨v.s1, v.s2, v.s3⟩

/-- a trajectory -/
def PolarizationTrajectory.toOptics (t : PolarizationTrajectory (.exact hmac)) : Optics.PolarizationTrajectory :=
  ⟨fun i => (t.samples.get i).toOptics⟩

/-- and a rotation. -/
def PoincareRotation.toOptics (r : PoincareRotation (.exact hmac)) : Optics.PoincareRotation :=
  ⟨Matrix.of r.m⟩

/-! ## Samples and rotations -/

/-- Normalization is the one of the optics. -/
lemma StokesVector.toOptics_new (x y z : ℝ) :
    (StokesVector.new x y z : StokesVector (.exact hmac)).toOptics = Optics.StokesVector.new x y z := by
  have literal : ((1e-9 : ℚ) : ℝ) = 1e-9 := by norm_num
  change (⟨x / magnitude x y z, y / magnitude x y z, z / magnitude x y z⟩ : Optics.StokesVector) = _
  rw [magnitude, literal, Optics.StokesVector.new]

/-- A rotated sample is the sample rotated in the optics. -/
lemma PoincareRotation.toOptics_apply (r : PoincareRotation (.exact hmac)) (v : StokesVector (.exact hmac)) :
    (r.apply v).toOptics = r.toOptics.apply v.toOptics :=
  StokesVector.toOptics_new ..

/-- The rotation of a perfect fiber. -/
lemma PoincareRotation.toOptics_identity : (PoincareRotation.identity (.exact hmac)).toOptics = .identity := by
  ext i j
  change (if i = j then ((1 : ℚ) : ℝ) else ((0 : ℚ) : ℝ)) = _
  rw [Rat.cast_one, Rat.cast_zero, Optics.PoincareRotation.identity, ← Matrix.one_fin_three]
  exact (Matrix.one_apply ..).symm

/-! ## The winding number -/

/-- The loops of the optics make one pass at most where the angle is less than a full turn. -/
lemma wrapAngle_once {d : ℝ} (lt : d < fullTurn) (gt : -fullTurn < d) :
    Lib.wrapAngle d =
      let down := if decide (d > π) then d - fullTurn else d
      if decide (down ≤ -π) then down + fullTurn else down := by
  have pos := pi_pos
  rw [fullTurn_eq] at lt gt ⊢
  simp only [decide_eq_true_eq]
  rw [Lib.wrapAngle, Lib.wrapDown]
  by_cases above : d > π
  · have once : ¬ d - 2 * π > π := by linarith
    have inside : ¬ d - 2 * π ≤ -π := by linarith
    rw [if_pos above, if_pos above, Lib.wrapDown, if_neg once, Lib.wrapUp, if_neg inside, if_neg inside]
  rw [if_neg above, if_neg above, Lib.wrapUp]
  by_cases below : d ≤ -π
  · have once : ¬ d + 2 * π ≤ -π := by linarith
    rw [if_pos below, if_pos below, Lib.wrapUp, if_neg once]
  · rw [if_neg below, if_neg below]

/-- A wrapped increment of the angle. -/
noncomputable def wrappedIncrement (a b : StokesVector (.exact hmac)) : ℝ :=
  wrapAngle 1 (b.theta - a.theta)

/-- It is wrapped as in the optics. -/
lemma wrappedIncrement_eq (a b : StokesVector (.exact hmac)) :
    wrappedIncrement a b =
      Lib.wrapAngle (Optics.atan2 b.toOptics.s2 b.toOptics.s1 - Optics.atan2 a.toOptics.s2 a.toOptics.s1) := by
  rw [wrapAngle_once atan2_sub_lt.1 atan2_sub_lt.2]
  rfl

/-- Truncation keeps whole numbers. -/
lemma truncated_intCast (n : ℤ) : truncated n = Int32.ofInt (Optics.asI32 n) := by
  rw [truncated, Int.floor_intCast, Int.ceil_intCast, ite_self]

/-- The winding number is the one of the optics. -/
lemma PolarizationTrajectory.windingNumberS3_toOptics (t : PolarizationTrajectory (.exact hmac)) :
    t.windingNumberS3 = Int32.ofInt t.toOptics.windingNumberS3 := by
  have total : (List.finRange trajectorySamples).foldl (fun (total : ℝ) i =>
      total + wrappedIncrement (t.samples.get i) (t.samples.get (i + 1))) ((0 : ℚ) : ℝ) = t.toOptics.totalAngle := by
    simp only [wrappedIncrement_eq, Rat.cast_zero]
    rfl
  rw [Optics.PolarizationTrajectory.windingNumberS3_round, ← total, ← truncated_intCast, ← fullTurn_eq]
  rfl

/-! ## The channel -/

/-- A fiber rotates the samples as in the optics. -/
lemma Channel.toOptics_transmit (channel : Channel (.exact hmac)) (t : Transient (.exact hmac)) :
    (channel.transmit t).1.polarization.toOptics = channel.pmdRotation.toOptics.transmit t.polarization.toOptics := by
  have rotated : (channel.transmit t).1.polarization = ⟨t.polarization.samples.map channel.pmdRotation.apply⟩ := by
    rw [transmit]
    dsimp only
    split <;> rfl
  rw [rotated, PolarizationTrajectory.toOptics, Optics.PoincareRotation.transmit]
  congr 1
  funext i
  refine Eq.trans ?_ (channel.pmdRotation.toOptics_apply (t.polarization.samples.get i))
  exact congrArg StokesVector.toOptics (Vector.getElem_map ..)

/-- Where the mode is topological, a fiber without bit errors that turns about the s3 axis leaves authentic what is. -/
theorem Channel.authentic_transmit {channel : Channel (.exact hmac)} {d : Decoder (.exact hmac)}
    {t : Transient (.exact hmac)} {angle : ℝ} (clean : channel.bitErrorRate = (Platform.exact hmac).zero64)
    (about : channel.pmdRotation.toOptics = .aboutS3 angle) (mode : d.authMode = .topological)
    (unit : ∀ i, (t.polarization.toOptics.samples i).OnSphere) (off : t.polarization.toOptics.OffAxis)
    (authentic : d.Authentic t) : d.Authentic (channel.transmit t).1 := by
  have winding : (channel.transmit t).1.polarization.windingNumberS3 = t.polarization.windingNumberS3 := by
    rw [PolarizationTrajectory.windingNumberS3_toOptics, toOptics_transmit, about,
      Optics.winding_aboutS3 angle unit off, PolarizationTrajectory.windingNumberS3_toOptics]
  have context : (channel.transmit t).1.context = t.context := by
    rw [transmit, clean]
    dsimp only
    rw [if_neg (Bool.eq_false_iff.mp ((Platform.exact hmac).lt64_irrefl _))]
    rfl
  rw [Decoder.Authentic, mode] at authentic ⊢
  rw [context]
  rw [verifyTrajectory] at authentic ⊢
  rwa [winding]

/-- The generator in the optics. -/
def ChannelRng.toOptics (rng : ChannelRng) : Optics.ChannelRng :=
  ⟨rng.state⟩

/-- A draw moves it as in the optics, -/
lemma ChannelRng.toOptics_nextUnit (P : Platform) (rng : ChannelRng) :
    (rng.nextUnit P).2.toOptics = rng.toOptics.advance :=
  rfl

/-- where it does not get stuck. -/
lemma ChannelRng.nextUnit_moving (P : Platform) {rng : ChannelRng} (moving : rng.state ≠ 0) :
    (rng.nextUnit P).2.state ≠ 0 := by
  have start : rng.toOptics.state ≠ 0 := moving
  have moved := Optics.ChannelRng.advance_ne_zero start 1
  rwa [Function.iterate_one, ← toOptics_nextUnit P] at moved

namespace Channel

/-- A fiber that rotates properly and whose generator is not stuck. -/
structure Sound (c : Channel (.exact hmac)) : Prop where
  rotates : c.pmdRotation.toOptics.Built
  moving : c.rng.state ≠ 0

lemma sound_perfect : (Channel.perfect (.exact hmac)).Sound where
  rotates := PoincareRotation.toOptics_identity ▸ .identity
  moving := (by decide : (ChannelRng.new 1).state ≠ 0)

variable {P : Platform} {rate : P.F64} {rng : ChannelRng}

/-- Eight draws, one for each bit. -/
lemma corrupt_moving (moving : rng.state ≠ 0) (byte : UInt8) : (corrupt rate rng byte).2.state ≠ 0 := by
  refine run_inv (P := fun s : UInt8 × ChannelRng => s.2.state ≠ 0) _ moving fun s bit moving => ?_
  dsimp only
  split <;> exact ChannelRng.nextUnit_moving P moving

lemma corruptAll_moving (moving : rng.state ≠ 0) (bytes : Bytes) : (corruptAll rate rng bytes).2.state ≠ 0 := by
  induction bytes generalizing rng with
  | nil => exact moving
  | cons byte bytes ih => exact ih (corrupt_moving moving byte)

lemma Sound.transmit {c : Channel (.exact hmac)} (sound : c.Sound) (t : Transient (.exact hmac)) :
    (c.transmit t).2.Sound := by
  rw [Channel.transmit]
  dsimp only
  split
  case isTrue => exact ⟨sound.rotates, corruptAll_moving sound.moving _⟩
  case isFalse => exact sound

/-- Whatever has been transmitted, the fiber is as good as it was made. -/
lemma Sound.run {c : Channel (.exact hmac)} (sound : c.Sound) (ts : List (Transient (.exact hmac))) :
    (ts.foldl (fun c t => (c.transmit t).2) c).Sound :=
  run_inv ts sound fun _ t sound => sound.transmit t

end Channel

end Otap.Obg
