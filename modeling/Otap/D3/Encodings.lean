import Otap.D3.Session
import Otap.Obg.SoftDriver

/-!
# What the optical side authenticates

The byte strings that go into an HMAC in `derive_trajectory` (`crates/otap-crypto/src/lib.rs`) and into SHA-256 in the
handshake and in a session (`crates/luxstream-otap-d3/src/handshake.rs`, `session.rs`). Each determines what it was
made of, and strings of different kinds differ (`authenticated_encodings_separated`).
-/

namespace Otap.Obg

open Otap.Lib

/-- What the HMAC of the `i`-th sample is taken of. -/
def sampleMessage (P : Platform) (secret : SharedSecret) (ctx : TrajectoryContext) (i : Fin trajectorySamples) :
    Bytes :=
  ascii "OTAP-D3-SAMPLE-v1" ++ (P.hmac secret).sum ctx.message ++ toBE 2 i.val

lemma deriveTrajectory_eq (P : Platform) (secret : SharedSecret) (ctx : TrajectoryContext) :
    deriveTrajectory P secret ctx =
      ⟨.ofFn fun i => stokesFromBytes P (((P.hmac secret).sum (sampleMessage P secret ctx i)).take 6)⟩ :=
  rfl

lemma charge_inj {oam oam' : Csr.OamMode} (e : (oam.charge % 256).toNat = (oam'.charge % 256).toNat) :
    oam = oam' := by
  have := oam.min_le
  have := oam.le_max
  have := oam'.min_le
  have := oam'.le_max
  have charge : oam.charge = oam'.charge := by omega
  cases oam
  cases oam'
  cases charge
  rfl

/-- The first HMAC input determines the context. -/
lemma TrajectoryContext.message_inj {ctx ctx' : TrajectoryContext} (short : ctx.payload.length < 2 ^ 32)
    (short' : ctx'.payload.length < 2 ^ 32) (e : ctx.message = ctx'.message) : ctx = ctx' := by
  have numbers (size m n : Nat) : (toBE size m).length = (toBE size n).length := by
    rw [length_toBE, length_toBE]
  simp only [message, List.append_assoc] at e
  have e := List.append_cancel_left e
  obtain ⟨channels, e⟩ := List.append_inj e (numbers ..)
  obtain ⟨charges, e⟩ := List.append_inj e (numbers ..)
  obtain ⟨sequences, e⟩ := List.append_inj e (numbers ..)
  obtain ⟨-, payload⟩ := List.append_inj e (numbers ..)
  have byte (c : Int) : (c % 256).toNat < 256 ^ 1 := by omega
  have channel := BitVec.eq_of_toNat_eq (toBE_inj (BitVec.isLt _) (BitVec.isLt _) channels)
  have oam := charge_inj (toBE_inj (byte _) (byte _) charges)
  have sequence := UInt16.toNat_inj.mp (toBE_inj (UInt16.toNat_lt _) (UInt16.toNat_lt _) sequences)
  obtain ⟨⟨_, _⟩, _, _, _⟩ := ctx
  obtain ⟨⟨_, _⟩, _, _, _⟩ := ctx'
  cases channel
  cases oam
  cases sequence
  cases payload
  rfl

lemma trajectorySamples_pos : 0 < trajectorySamples := by
  decide

def firstSample : Fin trajectorySamples := ⟨0, trajectorySamples_pos⟩

/-- The two domain separators differ at their ninth byte. -/
lemma TrajectoryContext.message_ne_sampleMessage (P : Platform) (secret : SharedSecret) (ctx ctx' : TrajectoryContext)
    (i : Fin trajectorySamples) : ctx.message ≠ sampleMessage P secret ctx' i := by
  intro e
  have ninth := congrArg (fun bytes : Bytes => bytes[8]?) e
  simp only [message, sampleMessage, List.append_assoc] at ninth
  rw [List.getElem?_append_left (by decide), List.getElem?_append_left (by decide)] at ninth
  revert ninth
  decide

end Otap.Obg

namespace Otap.D3

open Otap.Lib

lemma deriveEpochNonce_eq (H : Hash 32) (nonceI nonceR : Nonce) :
    deriveEpochNonce H nonceI nonceR =
      UInt64.ofNat (ofBE ((H.sum (nonceBytes NonceHash.epoch.tag nonceI nonceR)).take 8)) :=
  rfl

lemma length_nonceBytes (tag : Bytes) (n1 n2 : Nonce) : (nonceBytes tag n1 n2).length = tag.length + 64 := by
  simp [nonceBytes, nonceLen]

/-- Equal inputs of `hash_nonces` are of one use and have the same nonces. -/
lemma NonceHash.bytes_inj {use use' : NonceHash} {n1 n2 n1' n2' : Nonce}
    (e : nonceBytes use.tag n1 n2 = nonceBytes use'.tag n1' n2') : use = use' ∧ n1 = n1' ∧ n2 = n2' := by
  have len := congrArg List.length e
  rw [length_nonceBytes, length_nonceBytes, Nat.add_right_cancel_iff] at len
  obtain ⟨tags, nonces⟩ := nonceBytes_inj len e
  refine ⟨?_, nonces⟩
  revert tags
  cases use <;> cases use' <;> decide

/-- The authenticated encodings are injective and separated. With payloads below `2 ^ 32` bytes the input of the first
    HMAC of `derive_trajectory` determines the context, and it is no input of a sample's HMAC; with fewer than `2 ^ 32`
    symbols the input of a frame hash determines the domain, the epoch nonce, the symbols and the checksum; it is no
    input of `hash_nonces`, and those inputs determine their use and both nonces. -/
theorem authenticated_encodings_separated :
    (∀ ctx ctx' : Obg.TrajectoryContext, ctx.payload.length < 2 ^ 32 → ctx'.payload.length < 2 ^ 32 →
      ctx.message = ctx'.message →
      ctx.wavelength = ctx'.wavelength ∧ ctx.oam = ctx'.oam ∧ ctx.sequence = ctx'.sequence ∧
        ctx.payload = ctx'.payload) ∧
    (∀ (P : Obg.Platform) (secret : Obg.SharedSecret) (ctx ctx' : Obg.TrajectoryContext)
      (i : Fin Obg.trajectorySamples), ctx.message ≠ Obg.sampleMessage P secret ctx' i) ∧
    (∀ (domain domain' : RpcDomain) (epoch epoch' : UInt64) (symbols symbols' : List Symbol) (rpcTag rpcTag' : UInt32),
      symbols.length < 2 ^ 32 → symbols'.length < 2 ^ 32 →
      frameBytes domain epoch symbols rpcTag = frameBytes domain' epoch' symbols' rpcTag' →
      domain = domain' ∧ epoch = epoch' ∧ symbols = symbols' ∧ rpcTag = rpcTag') ∧
    (∀ (domain : RpcDomain) (epoch : UInt64) (symbols : List Symbol) (rpcTag : UInt32) (use : NonceHash)
      (n1 n2 : Nonce), frameBytes domain epoch symbols rpcTag ≠ nonceBytes use.tag n1 n2) ∧
    ∀ (use use' : NonceHash) (n1 n2 n1' n2' : Nonce),
      nonceBytes use.tag n1 n2 = nonceBytes use'.tag n1' n2' → use = use' ∧ n1 = n1' ∧ n2 = n2' := by
  refine ⟨?_, Obg.TrajectoryContext.message_ne_sampleMessage, ?_, ?_, ?_⟩
  · intro ctx ctx' short short' e
    obtain rfl := Obg.TrajectoryContext.message_inj short short' e
    exact ⟨rfl, rfl, rfl, rfl⟩
  · intro domain domain' epoch epoch' symbols symbols' rpcTag rpcTag' short short' e
    exact frameBytes_inj short short' e
  · intro domain epoch symbols rpcTag use n1 n2
    exact frameBytes_ne_nonceHash use n1 n2 domain epoch symbols rpcTag
  · intro use use' n1 n2 n1' n2' e
    exact NonceHash.bytes_inj e

/-- A heartbeat of two bytes on channel 40. -/
def heartbeatContext (sequence : UInt16) : Obg.TrajectoryContext :=
  ⟨Obg.channel40, Client.SchemaId.heartbeat.oamMode, sequence, [1, 2]⟩

theorem authenticated_encodings_separated_heartbeats :
    (heartbeatContext 1).message ≠ (heartbeatContext 2).message ∧
      (heartbeatContext 1).message ≠
        Obg.sampleMessage .quarterTurns (Vector.replicate 32 0x42) (heartbeatContext 1) Obg.firstSample ∧
      frameBytes .linkData 7 twoSymbols 1 ≠ frameBytes .controlPlane 7 twoSymbols 1 ∧
      frameBytes .linkData 7 twoSymbols 1 ≠ nonceBytes NonceHash.epoch.tag (plainKey 11) (plainKey 22) ∧
      nonceBytes NonceHash.helloR.tag (plainKey 11) (plainKey 22) ≠
        nonceBytes NonceHash.helloR.tag (plainKey 22) (plainKey 11) := by
  obtain ⟨contexts, samples, frames, framesOrNonces, nonces⟩ := authenticated_encodings_separated
  refine ⟨?_, samples _ _ _ _ _, ?_, framesOrNonces _ _ _ _ _ _ _, ?_⟩
  · intro e
    obtain ⟨-, -, sequence, -⟩ := contexts _ _ (by decide) (by decide) e
    exact absurd sequence (by decide)
  · intro e
    exact absurd (frames _ _ _ _ _ _ _ _ (by decide) (by decide) e).1 (by decide)
  · intro e
    exact absurd (nonces _ _ _ _ _ _ e).2.1 (by decide)

end Otap.D3
