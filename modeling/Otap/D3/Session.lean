import Otap.D3.Agreement

/-!
# Sealed frames

`crates/luxstream-otap-d3/src/session.rs` and `rpc.rs`: a session seals a list of symbols with a checksum and a
signature, and opens a frame of its peer.

A key signs in three places: in the two halves of the handshake, and in `seal`. `KeyUse` is a call of one of them and
`KeyUse.preimage` what it hashes for the signature. `seal_open_exact`: sealed frames open, and a frame that opens was
sealed, by the holder of the peer key, with the same epoch nonce, domain, symbols and checksum.
-/

namespace Otap.D3

open Otap.Lib

variable {P : Suite}

/-! ## The checksum -/

inductive Polarization
  | h
  | v
  | d
  | a
deriving DecidableEq

/-- The discriminant: `H = 1`, `V = 2`, `D = 3`, `A = 5`. -/
def Polarization.toU8 : Polarization → UInt8
  | h => 1
  | v => 2
  | d => 3
  | a => 5

structure Symbol where
  value : UInt16
  lambda : UInt8
  pol : Polarization
deriving DecidableEq

inductive RpcDomain
  | linkData
  | controlPlane
deriving DecidableEq

def RpcDomain.toU32 : RpcDomain → UInt32
  | linkData => 0
  | controlPlane => 1

def calculateRpc (symbols : List Symbol) (domain : UInt32) (epochNonce : UInt64) : UInt32 :=
  let prime : UInt64 := 7919
  let acc := symbols.foldl
    (fun acc s =>
      let w := s.lambda.toUInt64 * prime
      let p := s.pol.toU8.toUInt64
      let term := s.value.toUInt64 * w * p
      acc + term)
    (epochNonce + domain.toUInt64 * 31)
  (acc &&& 0xFFFFFFFF).toUInt32

/-! ## Sessions -/

structure AuthenticatedFrame where
  symbols : List Symbol
  rpcTag : UInt32
  d3Sig : Vector UInt8 sigLen
deriving DecidableEq

structure D3Session (P : Suite) where
  epochNonce : UInt64
  signingKey : P.SigningKey
  peerKey : P.VerifyingKey

/-- `[val_bytes[0], val_bytes[1], s.lambda, s.pol as u8]`. -/
def symbolBytes (s : Symbol) : Bytes :=
  toBE 2 s.value.toNat ++ [s.lambda, s.pol.toU8]

def frameTag : Bytes := ascii "LUXSTREAM-OTAP-D3-v1"

/-- What `canonical_preimage` hashes. -/
def frameBytes (domain : RpcDomain) (epochNonce : UInt64) (symbols : List Symbol) (rpcTag : UInt32) : Bytes :=
  frameTag ++ (toBE 4 domain.toU32.toNat ++ (toBE 8 epochNonce.toNat ++
    (toBE 4 (UInt32.ofNat symbols.length).toNat ++ (symbols.flatMap symbolBytes ++ toBE 4 rpcTag.toNat))))

def canonicalPreimage (H : Hash 32) (domain : RpcDomain) (epochNonce : UInt64) (symbols : List Symbol)
    (rpcTag : UInt32) : Bytes :=
  H.sum (frameBytes domain epochNonce symbols rpcTag)

namespace D3Session

def fromClientHandshake (established : EstablishedInitiator P) (ourSk : P.SigningKey) : D3Session P where
  epochNonce := established.epochNonce
  signingKey := ourSk
  peerKey := established.peerPk

def fromServerHandshake (established : EstablishedResponder P) (ourSk : P.SigningKey) : D3Session P where
  epochNonce := established.epochNonce
  signingKey := ourSk
  peerKey := established.peerPk

/-- `D3Session::seal`. -/
def sealFrame (self : D3Session P) (domain : RpcDomain) (symbols : List Symbol) : AuthenticatedFrame :=
  let rpcTag := calculateRpc symbols domain.toU32 self.epochNonce
  let preimage := canonicalPreimage P.sha256 domain self.epochNonce symbols rpcTag
  let sig := P.sign self.signingKey preimage
  { symbols, rpcTag, d3Sig := sig }

/-- `D3Session::open`. -/
def openFrame (self : D3Session P) (domain : RpcDomain) (frame : AuthenticatedFrame) : Except String (List Symbol) :=
  let preimage := canonicalPreimage P.sha256 domain self.epochNonce frame.symbols frame.rpcTag
  if P.verify self.peerKey preimage frame.d3Sig then
    let recomputed := calculateRpc frame.symbols domain.toU32 self.epochNonce
    if recomputed ≠ frame.rpcTag then .error "RPC: re-verification failed — sender bug or fault injection"
    else .ok frame.symbols
  else .error "D3: signature verification failed"

end D3Session

/-! ## The uses of a key -/

/-- A call that signs. -/
inductive KeyUse (P : Suite)
  | handleMsg1 (self : Responder P) (nonceR : Nonce) (msg1 : HsMsg1)
  | finish (self : InitiatorWaitMsg2 P) (msg2 : HsMsg2)
  | sealFrame (self : D3Session P) (domain : RpcDomain) (symbols : List Symbol)

namespace KeyUse

def signingKey : KeyUse P → P.SigningKey
  | .handleMsg1 self _ _ => self.sk
  | .finish self _ => self.sk
  | .sealFrame self _ _ => self.signingKey

/-- The signature that the call puts into its message, if it succeeds. -/
def signature : KeyUse P → Option (Vector UInt8 sigLen)
  | .handleMsg1 self nonceR msg1 =>
    match self.handleMsg1 nonceR msg1 with
    | .ok (_, msg2) => some msg2.sigR
    | .error _ => none
  | .finish self msg2 =>
    match self.finish msg2 with
    | .ok (_, msg3) => some msg3.sigI
    | .error _ => none
  | .sealFrame self domain symbols => some (self.sealFrame domain symbols).d3Sig

/-- The bytes whose hash the call signs. -/
def preimage : KeyUse P → Bytes
  | .handleMsg1 _ nonceR msg1 => nonceBytes helloR msg1.nonceI nonceR
  | .finish self msg2 => nonceBytes helloI msg2.nonceR self.nonceI
  | .sealFrame self domain symbols =>
    frameBytes domain self.epochNonce symbols (calculateRpc symbols domain.toU32 self.epochNonce)

/-- A list that is sealed has fewer than `2 ^ 32` symbols. -/
def Short : KeyUse P → Prop
  | .sealFrame _ _ symbols => symbols.length < 2 ^ 32
  | _ => True

/-- The signature of a call is the one over the hash of its preimage. -/
lemma signature_eq {u : KeyUse P} {sig : Vector UInt8 sigLen} (made : u.signature = some sig) :
    sig = P.sign u.signingKey (P.sha256.sum u.preimage) := by
  cases u with
  | handleMsg1 self nonceR msg1 =>
    simp only [signature] at made
    split at made
    case h_1 wait msg2 ok =>
      cases made
      obtain ⟨clientPk, -, -, rfl⟩ := Responder.handleMsg1_ok ok
      rfl
    case h_2 => cases made
  | finish self msg2 =>
    simp only [signature] at made
    split at made
    case h_1 established msg3 ok =>
      cases made
      obtain ⟨-, -, rfl⟩ := InitiatorWaitMsg2.finish_ok ok
      rfl
    case h_2 => cases made
  | sealFrame self domain symbols =>
    cases made
    rfl

end KeyUse

/-- The key has signed the message in one of the calls. -/
def Signed (uses : List (KeyUse P)) (key : P.VerifyingKey) (msg : Bytes) : Prop :=
  ∃ u ∈ uses, u.signature.isSome = true ∧ P.verifyingKey u.signingKey = key ∧ msg = P.sha256.sum u.preimage

/-! ## The preimage determines the frame -/

lemma Polarization.toU8_inj {p p' : Polarization} (e : p.toU8 = p'.toU8) : p = p' := by
  revert e
  cases p <;> cases p' <;> decide

lemma symbolBytes_inj : Function.Injective symbolBytes := by
  intro s s' e
  obtain ⟨value, rest⟩ := List.append_inj e (by rw [length_toBE, length_toBE])
  obtain ⟨lambda, pol⟩ := List.cons.inj rest
  have values : s.value.toNat = s'.value.toNat := toBE_inj s.value.toNat_lt s'.value.toNat_lt value
  cases s
  cases s'
  rw [Symbol.mk.injEq]
  exact ⟨UInt16.toNat_inj.mp values, lambda, Polarization.toU8_inj (List.cons.inj pol).1⟩

/-- Two frames with fewer than `2 ^ 32` symbols and the same bytes are the same. -/
lemma frameBytes_inj {domain domain' : RpcDomain} {epoch epoch' : UInt64} {symbols symbols' : List Symbol}
    {rpcTag rpcTag' : UInt32} (short : symbols.length < 2 ^ 32) (short' : symbols'.length < 2 ^ 32)
    (e : frameBytes domain epoch symbols rpcTag = frameBytes domain' epoch' symbols' rpcTag') :
    domain = domain' ∧ epoch = epoch' ∧ symbols = symbols' ∧ rpcTag = rpcTag' := by
  have numbers (size m n : Nat) : (toBE size m).length = (toBE size n).length := by
    rw [length_toBE, length_toBE]
  have e := List.append_cancel_left e
  obtain ⟨domains, e⟩ := List.append_inj e (numbers ..)
  obtain ⟨epochs, e⟩ := List.append_inj e (numbers ..)
  obtain ⟨lengths, e⟩ := List.append_inj e (numbers ..)
  have length : symbols.length = symbols'.length := by
    have eq := toBE_inj (UInt32.toNat_lt _) (UInt32.toNat_lt _) lengths
    rwa [UInt32.toNat_ofNat_of_lt' short, UInt32.toNat_ofNat_of_lt' short'] at eq
  have size (s : Symbol) : (symbolBytes s).length = 4 := by
    rw [symbolBytes, List.length_append, length_toBE]
    rfl
  obtain ⟨bodies, tags⟩ := List.append_inj' e (numbers ..)
  refine ⟨?_, ?_, flatMap_inj size symbolBytes_inj length bodies, ?_⟩
  · have eq := toBE_inj (UInt32.toNat_lt _) (UInt32.toNat_lt _) domains
    revert eq
    cases domain <;> cases domain' <;> decide
  · exact UInt64.toNat_inj.mp (toBE_inj (UInt64.toNat_lt _) (UInt64.toNat_lt _) epochs)
  · exact UInt32.toNat_inj.mp (toBE_inj (UInt32.toNat_lt _) (UInt32.toNat_lt _) tags)

/-- The three uses of `hash_nonces`. -/
inductive NonceHash
  | helloR
  | helloI
  | epoch
deriving DecidableEq

/-- The domain prefix of the use. -/
def NonceHash.tag : NonceHash → Bytes
  | helloR => D3.helloR
  | helloI => D3.helloI
  | epoch => ascii "OTAP-EPOCH-v1"

/-- The input of a frame hash starts with another byte than those of `hash_nonces`. -/
lemma frameBytes_ne_nonceHash (use : NonceHash) (n1 n2 : Nonce) (domain : RpcDomain) (epoch : UInt64)
    (symbols : List Symbol) (rpcTag : UInt32) :
    frameBytes domain epoch symbols rpcTag ≠ nonceBytes use.tag n1 n2 := by
  intro e
  have first := congrArg List.head? e
  cases use with
  | helloR => cases first
  | helloI => cases first
  | epoch => cases first

/-! ## Seal and open -/

/-- A frame opens in a session that has the epoch nonce and the key of the sealing one. -/
lemma D3Session.openFrame_sealFrame {a b : D3Session P} (key : P.verifyingKey a.signingKey = b.peerKey)
    (epoch : a.epochNonce = b.epochNonce) (domain : RpcDomain) (symbols : List Symbol) :
    b.openFrame domain (a.sealFrame domain symbols) = .ok symbols := by
  unfold openFrame sealFrame
  simp only [← key, ← epoch, P.verify_sign, if_true, ne_eq, not_true_eq_false, if_false]

/-- What a successful `open` has checked. -/
lemma D3Session.openFrame_ok {session : D3Session P} {domain : RpcDomain} {frame : AuthenticatedFrame}
    {symbols : List Symbol} (ok : session.openFrame domain frame = .ok symbols) :
    P.verify session.peerKey
        (canonicalPreimage P.sha256 domain session.epochNonce frame.symbols frame.rpcTag) frame.d3Sig = true ∧
      calculateRpc frame.symbols domain.toU32 session.epochNonce = frame.rpcTag ∧ symbols = frame.symbols := by
  unfold openFrame at ok
  simp only at ok
  split at ok
  case isTrue verified =>
    split at ok
    case isTrue => cases ok
    case isFalse same =>
      cases ok
      exact ⟨verified, not_not.mp same, rfl⟩
  case isFalse => cases ok

/-- What stands between a frame and one that was not sealed: its signature is not forged, SHA-256 does not collide on
    what was hashed for signatures and for the frame, and all lists have fewer than `2 ^ 32` symbols. -/
structure Secure (uses : List (KeyUse P)) (session : D3Session P) (domain : RpcDomain) (frame : AuthenticatedFrame) :
    Prop where
  unforged : P.verify session.peerKey
      (canonicalPreimage P.sha256 domain session.epochNonce frame.symbols frame.rpcTag) frame.d3Sig = true →
    Signed uses session.peerKey
      (canonicalPreimage P.sha256 domain session.epochNonce frame.symbols frame.rpcTag)
  collisionFree : ∀ u ∈ uses,
    P.sha256.sum (frameBytes domain session.epochNonce frame.symbols frame.rpcTag) = P.sha256.sum u.preimage →
      frameBytes domain session.epochNonce frame.symbols frame.rpcTag = u.preimage
  short : frame.symbols.length < 2 ^ 32
  shortUses : ∀ u ∈ uses, u.Short

/-- Seal and open are exact. Between sessions whose keys match and that share an epoch nonce, every frame opens to
    its symbols. After any calls that used keys, a frame opens in a session only if one of them was a `seal` with the
    peer's key, in a session with the same epoch nonce, of that domain and those symbols, and with that checksum. -/
theorem seal_open_exact :
    (∀ (a b : D3Session P) (domain : RpcDomain) (symbols : List Symbol),
      P.verifyingKey a.signingKey = b.peerKey → a.epochNonce = b.epochNonce →
      b.openFrame domain (a.sealFrame domain symbols) = .ok symbols) ∧
    ∀ (uses : List (KeyUse P)) (session : D3Session P) (domain : RpcDomain) (frame : AuthenticatedFrame)
      (symbols : List Symbol), Secure uses session domain frame → session.openFrame domain frame = .ok symbols →
      symbols = frame.symbols ∧ ∃ sealer : D3Session P, .sealFrame sealer domain frame.symbols ∈ uses ∧
        P.verifyingKey sealer.signingKey = session.peerKey ∧ sealer.epochNonce = session.epochNonce ∧
        (sealer.sealFrame domain frame.symbols).rpcTag = frame.rpcTag := by
  refine ⟨fun a b domain symbols key epoch => D3Session.openFrame_sealFrame key epoch domain symbols, ?_⟩
  intro uses session domain frame symbols secure ok
  obtain ⟨verified, -, rfl⟩ := D3Session.openFrame_ok ok
  obtain ⟨u, mem, -, key, sum⟩ := secure.unforged verified
  have bytes := secure.collisionFree u mem sum
  refine ⟨rfl, ?_⟩
  -- only a seal hashes the bytes of a frame
  cases u with
  | handleMsg1 self nonceR msg1 => exact (frameBytes_ne_nonceHash .helloR _ _ _ _ _ _ bytes).elim
  | finish self msg2 => exact (frameBytes_ne_nonceHash .helloI _ _ _ _ _ _ bytes).elim
  | sealFrame sealer domain' symbols' =>
    obtain ⟨rfl, epoch, rfl, tag⟩ := frameBytes_inj secure.short (secure.shortUses _ mem) bytes
    exact ⟨sealer, mem, key, epoch.symm, tag.symm⟩

def plainSession (key peer : UInt8) : D3Session .plain where
  epochNonce := 7
  signingKey := plainKey key
  peerKey := plainKey peer

def twoSymbols : List Symbol :=
  [⟨1023, 34, .h⟩, ⟨500, 34, .v⟩]

/-- Key 1 has finished a handshake and sealed a frame. -/
def plainUses : List (KeyUse .plain) :=
  [ .handleMsg1 ⟨plainKey 2, fun _ => true⟩ (plainKey 22) ⟨plainKey 1, plainKey 11⟩,
    .finish ⟨plainKey 1, plainKey 2, plainKey 11⟩
      ⟨plainKey 2, plainKey 22, plainSig (plainKey 2) helloR (plainKey 11) (plainKey 22)⟩,
    .sealFrame (plainSession 1 2) .linkData twoSymbols ]

theorem seal_open_exact_twoSymbols :
    (plainSession 2 1).openFrame .linkData ((plainSession 1 2).sealFrame .linkData twoSymbols) = .ok twoSymbols ∧
      ∃ sealer : D3Session .plain, .sealFrame sealer .linkData twoSymbols ∈ plainUses ∧
        Suite.plain.verifyingKey sealer.signingKey = plainKey 1 ∧ sealer.epochNonce = 7 := by
  have opened := seal_open_exact.1 (plainSession 1 2) (plainSession 2 1) .linkData twoSymbols rfl rfl
  have secure : Secure plainUses (plainSession 2 1) .linkData
      ((plainSession 1 2).sealFrame .linkData twoSymbols) := by
    constructor
    · exact fun _ => ⟨_, .tail _ (.tail _ (.head _)), rfl, rfl, rfl⟩
    · decide +kernel
    · decide
    · simp [plainUses, KeyUse.Short, twoSymbols]
  obtain ⟨-, sealer, mem, key, epoch, -⟩ := seal_open_exact.2 _ _ _ _ _ secure opened
  exact ⟨opened, sealer, mem, key, epoch⟩

end Otap.D3
