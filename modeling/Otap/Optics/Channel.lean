import Otap.Lib.Bytes
import Otap.Lib.Run
import Otap.Lib.XorShift
import Otap.Optics.Polarization

/-!
# The simulated fiber

Port of `ChannelRng` and of `Channel::random_pmd` of `otap-sim/src/lib.rs`. The generator is a xorshift on 64-bit words
(`nextU64_toBitVec`), so its update is a bijection that keeps zero in place, and `ChannelRng::new` never starts there.
The floating-point values are real numbers, as in the rest of the optics.
-/

namespace Otap.Optics

open Real Otap.Lib

/-! ## The generator -/

/-- Tiny deterministic RNG for reproducible channel simulations. -/
structure ChannelRng where
  state : UInt64
deriving DecidableEq

namespace ChannelRng

/-- Seed the RNG. -/
def new (seed : UInt64) : ChannelRng :=
  { state := if seed = 0 then 0xDEADBEEFCAFEF00D else seed }

def nextU64 (rng : ChannelRng) : ChannelRng × UInt64 :=
  let x := rng.state
  let x := x ^^^ x <<< 13
  let x := x ^^^ x >>> 7
  let x := x ^^^ x <<< 17
  ({ state := x }, x)

/-- The generator after one call of `next_u64`. -/
def advance (rng : ChannelRng) : ChannelRng :=
  rng.nextU64.1

/-- `u32::MAX`. -/
def u32Max : ℕ := 4294967295

noncomputable def nextSignedUnit (rng : ChannelRng) : ChannelRng × ℝ :=
  let (rng, n) := rng.nextU64
  (rng, (n.toUInt32.toNat : ℝ) / u32Max * ((2 : ℕ) : ℝ) - 1)

lemma new_state_ne_zero (seed : UInt64) : (new seed).state ≠ 0 := by
  unfold new
  split
  case isTrue => decide
  case isFalse nonzero => exact nonzero

lemma nextU64_toBitVec (rng : ChannelRng) :
    rng.advance.state.toBitVec = xorShiftLeft 17 (xorShiftRight 7 (xorShiftLeft 13 rng.state.toBitVec)) :=
  rfl

lemma state_injective : Function.Injective state := by
  rintro ⟨x⟩ ⟨y⟩ e
  exact congrArg mk e

lemma advance_injective : Function.Injective advance := by
  intro rng rng' e
  have words : rng.advance.state.toBitVec = rng'.advance.state.toBitVec := by rw [e]
  rw [nextU64_toBitVec, nextU64_toBitVec] at words
  have third := xorShiftLeft_injective (by decide) words
  have second := xorShiftRight_injective (by decide) third
  have first := xorShiftLeft_injective (by decide) second
  exact state_injective (UInt64.toBitVec_inj.mp first)

lemma advance_zero : advance ⟨0⟩ = ⟨0⟩ := by decide

lemma finite_words : Finite UInt64 :=
  Finite.of_injective UInt64.toFin fun _ _ => UInt64.toFin_inj.mp

lemma advance_bijective : Function.Bijective fun x : UInt64 => (advance ⟨x⟩).state := by
  have := finite_words
  apply Finite.injective_iff_bijective.mp
  intro x y e
  exact congrArg state (advance_injective (state_injective e))

lemma advance_periodic (rng : ChannelRng) : ∃ p > 0, ∀ n, advance^[n + p] rng = advance^[n] rng := by
  have := finite_words
  have : Finite ChannelRng := Finite.of_injective state state_injective
  exact orbit_periodic advance_injective rng

lemma advance_ne_zero {rng : ChannelRng} (nonzero : rng.state ≠ 0) (n : ℕ) : (advance^[n] rng).state ≠ 0 := by
  have start : rng ≠ ⟨0⟩ := fun zero => nonzero (congrArg state zero)
  intro zero
  exact iterate_ne_fixed advance_injective advance_zero start n (state_injective zero)

end ChannelRng

open ChannelRng

/-- From every seed the generator stays away from zero; its update is a bijection on 64-bit words, every sequence of
    states is purely periodic, and different states never merge. -/
theorem channelRng_never_degenerates :
    (∀ seed n, (advance^[n] (ChannelRng.new seed)).state ≠ 0) ∧
    (Function.Bijective fun x : UInt64 => (advance ⟨x⟩).state) ∧
    (∀ rng : ChannelRng, ∃ p > 0, ∀ n, advance^[n + p] rng = advance^[n] rng) ∧
    (∀ rng rng' : ChannelRng, rng ≠ rng' → ∀ n, advance^[n] rng ≠ advance^[n] rng') := by
  refine ⟨fun seed n => ?_, advance_bijective, advance_periodic, fun rng rng' ne n same => ?_⟩
  · exact advance_ne_zero (new_state_ne_zero seed) n
  · exact ne (advance_injective.iterate n same)

/-! ## The channel -/

/-- A fiber channel with configurable impairments. -/
structure Channel where
  pmdRotation : PoincareRotation
  bitErrorRate : ℝ
  rng : ChannelRng

namespace Channel

/-- Random-PMD fiber with a given seed. -/
noncomputable def randomPmd (seed : UInt64) : Channel :=
  let rng := ChannelRng.new seed
  let (rng, a1) := rng.nextSignedUnit
  let r1 := PoincareRotation.aboutS1 (a1 * π)
  let (rng, a2) := rng.nextSignedUnit
  let r2 := PoincareRotation.aboutS2 (a2 * π)
  let (rng, a3) := rng.nextSignedUnit
  let r3 := PoincareRotation.aboutS3 (a3 * π)
  { pmdRotation := (r1.andThen r2).andThen r3, bitErrorRate := 0, rng := rng }

/-- It is built from rotations about the axes, -/
lemma built_randomPmd (seed : UInt64) : (randomPmd seed).pmdRotation.Built :=
  .andThen (.andThen (.aboutS1 _) (.aboutS2 _)) (.aboutS3 _)

/-- and its generator, after three draws, is not stuck. -/
lemma randomPmd_moving (seed : UInt64) : (randomPmd seed).rng.state ≠ 0 :=
  advance_ne_zero (new_state_ne_zero seed) 3

end Channel

end Otap.Optics
