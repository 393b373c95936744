import Otap.Lib.Bytes

/-!
# The D3 handshake

`crates/luxstream-otap-d3/src/handshake.rs`: the three messages and the typed states of the two sides. `Suite` holds
what the code takes from libraries, Ed25519 and SHA-256; the nonce that a call draws is an argument. The signatures
cover the two nonces and nothing else.
-/

namespace Otap.D3

open Otap.Lib

/-- The bytes of an Ed25519 public key, -/
abbrev pubkeyLen : Nat := 32
/-- of a nonce -/
abbrev nonceLen : Nat := 32
/-- and of a signature. -/
abbrev sigLen : Nat := 64

/-- A nonce, which the code draws from the random number generator of the system. -/
abbrev Nonce := Vector UInt8 nonceLen

/-! ## Libraries -/

/-- Ed25519. A signature verifies under the key that made it, and the bytes of a key parse. -/
structure Ed25519 where
  SigningKey : Type
  VerifyingKey : Type
  verifyingKey : SigningKey → VerifyingKey
  sign : SigningKey → (msg : Bytes) → Vector UInt8 sigLen
  verify : VerifyingKey → (msg : Bytes) → Vector UInt8 sigLen → Bool
  asBytes : VerifyingKey → Vector UInt8 pubkeyLen
  fromBytes : Vector UInt8 pubkeyLen → Option VerifyingKey
  verify_sign : ∀ key msg, verify (verifyingKey key) msg (sign key msg) = true
  fromBytes_asBytes : ∀ key, fromBytes (asBytes key) = some key

/-- The two libraries. -/
structure Suite extends Ed25519 where
  sha256 : Hash 32

variable {P : Suite}

/-! ## Messages -/

/-- `HsError`. A message of the wrong length is malformed. -/
inductive HsError
  | malformed (expected got : Nat)
  | badServerSig
  | badClientSig
  | notAuthorized
  | transport (text : String)
deriving DecidableEq, Repr

/-- Client to server: its key and its nonce. -/
structure HsMsg1 where
  clientPk : Vector UInt8 pubkeyLen
  nonceI : Nonce
deriving DecidableEq

/-- Server to client: its key, its nonce and a signature over both nonces. -/
structure HsMsg2 where
  serverPk : Vector UInt8 pubkeyLen
  nonceR : Nonce
  sigR : Vector UInt8 sigLen
deriving DecidableEq

/-- Client to server: its key and its signature over both nonces. -/
structure HsMsg3 where
  clientPk : Vector UInt8 pubkeyLen
  sigI : Vector UInt8 sigLen
deriving DecidableEq

/-- What `hash_nonces` hashes. -/
def nonceBytes (tag : Bytes) (n1 n2 : Nonce) : Bytes :=
  tag ++ n1.toList ++ n2.toList

/-- `hash_nonces`. -/
def hashNonces (H : Hash 32) (tag : Bytes) (n1 n2 : Nonce) : Bytes :=
  H.sum (nonceBytes tag n1 n2)

/-- The tag of the signature of the server, -/
def helloR : Bytes := ascii "HELLO-R"
/-- and of the client. -/
def helloI : Bytes := ascii "HELLO-I"

/-- `derive_epoch_nonce`: the first eight bytes of the hash. -/
def deriveEpochNonce (H : Hash 32) (nonceI nonceR : Nonce) : UInt64 :=
  UInt64.ofNat (ofBE ((hashNonces H (ascii "OTAP-EPOCH-v1") nonceI nonceR).take 8))

/-! ## The initiator -/

/-- A client that knows the key of its server, -/
structure Initiator (P : Suite) where
  sk : P.SigningKey
  peerPk : P.VerifyingKey

/-- that has sent message 1, -/
structure InitiatorWaitMsg2 (P : Suite) where
  sk : P.SigningKey
  peerPk : P.VerifyingKey
  nonceI : Nonce

/-- and that has completed the handshake. -/
structure EstablishedInitiator (P : Suite) where
  epochNonce : UInt64
  peerPk : P.VerifyingKey

/-- `Initiator::start`, with the nonce that it draws. -/
def Initiator.start (self : Initiator P) (nonceI : Nonce) : InitiatorWaitMsg2 P × HsMsg1 :=
  let msg1 := { clientPk := P.asBytes (P.verifyingKey self.sk), nonceI }
  let wait := { sk := self.sk, peerPk := self.peerPk, nonceI }
  (wait, msg1)

/-- `InitiatorWaitMsg2::finish`: checks the signature of the server and answers with its own. -/
def InitiatorWaitMsg2.finish (self : InitiatorWaitMsg2 P) (msg2 : HsMsg2) :
    Except HsError (EstablishedInitiator P × HsMsg3) :=
  let digest := hashNonces P.sha256 helloR self.nonceI msg2.nonceR
  if P.verify self.peerPk digest msg2.sigR then
    let ourDigest := hashNonces P.sha256 helloI msg2.nonceR self.nonceI
    let sigI := P.sign self.sk ourDigest
    let epochNonce := deriveEpochNonce P.sha256 self.nonceI msg2.nonceR
    let established := { epochNonce, peerPk := self.peerPk }
    let msg3 := { clientPk := P.asBytes (P.verifyingKey self.sk), sigI }
    .ok (established, msg3)
  else .error .badServerSig

/-! ## The responder -/

/-- A server with the list of the clients it accepts, -/
structure Responder (P : Suite) where
  sk : P.SigningKey
  /-- `ClientAcl::is_authorized`. -/
  acl : Vector UInt8 pubkeyLen → Bool

/-- that has answered message 1, -/
structure ResponderWaitMsg3 (P : Suite) where
  sk : P.SigningKey
  clientPk : P.VerifyingKey
  nonceI : Nonce
  nonceR : Nonce

/-- and that has completed the handshake. -/
structure EstablishedResponder (P : Suite) where
  epochNonce : UInt64
  peerPk : P.VerifyingKey

/-- `Responder::handle_msg1`, with the nonce that it draws. -/
def Responder.handleMsg1 (self : Responder P) (nonceR : Nonce) (msg1 : HsMsg1) :
    Except HsError (ResponderWaitMsg3 P × HsMsg2) :=
  if !self.acl msg1.clientPk then .error .notAuthorized
  else
    match P.fromBytes msg1.clientPk with
    | none => .error .badClientSig
    | some clientPk =>
      let digest := hashNonces P.sha256 helloR msg1.nonceI nonceR
      let sigR := P.sign self.sk digest
      let msg2 := { serverPk := P.asBytes (P.verifyingKey self.sk), nonceR, sigR }
      let wait := { sk := self.sk, clientPk, nonceI := msg1.nonceI, nonceR }
      .ok (wait, msg2)

/-- `ResponderWaitMsg3::handle_msg3`: checks the signature of the client. -/
def ResponderWaitMsg3.handleMsg3 (self : ResponderWaitMsg3 P) (msg3 : HsMsg3) :
    Except HsError (EstablishedResponder P) :=
  let digest := hashNonces P.sha256 helloI self.nonceR self.nonceI
  if P.verify self.clientPk digest msg3.sigI then
    let epochNonce := deriveEpochNonce P.sha256 self.nonceI self.nonceR
    .ok { epochNonce, peerPk := self.clientPk }
  else .error .badClientSig

/-! ## What a call that succeeds has checked and made -/

/-- A client that finishes has checked the signature of the server and signs both nonces. -/
lemma InitiatorWaitMsg2.finish_ok {wait : InitiatorWaitMsg2 P} {msg2 : HsMsg2}
    {established : EstablishedInitiator P} {msg3 : HsMsg3} (ok : wait.finish msg2 = .ok (established, msg3)) :
    P.verify wait.peerPk (hashNonces P.sha256 helloR wait.nonceI msg2.nonceR) msg2.sigR = true ∧
      established = ⟨deriveEpochNonce P.sha256 wait.nonceI msg2.nonceR, wait.peerPk⟩ ∧
      msg3 = ⟨P.asBytes (P.verifyingKey wait.sk),
        P.sign wait.sk (hashNonces P.sha256 helloI msg2.nonceR wait.nonceI)⟩ := by
  unfold finish at ok
  simp only at ok
  split at ok
  case isTrue verified =>
    cases ok
    exact ⟨verified, rfl, rfl⟩
  case isFalse => cases ok

/-- A server that answers has parsed the key of the client and signs both nonces. -/
lemma Responder.handleMsg1_ok {self : Responder P} {nonceR : Nonce} {msg1 : HsMsg1}
    {wait : ResponderWaitMsg3 P} {msg2 : HsMsg2} (ok : self.handleMsg1 nonceR msg1 = .ok (wait, msg2)) :
    ∃ clientPk, P.fromBytes msg1.clientPk = some clientPk ∧ wait = ⟨self.sk, clientPk, msg1.nonceI, nonceR⟩ ∧
      msg2 = ⟨P.asBytes (P.verifyingKey self.sk), nonceR,
        P.sign self.sk (hashNonces P.sha256 helloR msg1.nonceI nonceR)⟩ := by
  unfold handleMsg1 at ok
  split at ok
  case isTrue => cases ok
  case isFalse =>
    split at ok
    case h_1 => cases ok
    case h_2 clientPk parsed =>
      cases ok
      exact ⟨clientPk, parsed, rfl, rfl⟩

/-- A server that completes has checked the signature of the client. -/
lemma ResponderWaitMsg3.handleMsg3_ok {wait : ResponderWaitMsg3 P} {msg3 : HsMsg3}
    {established : EstablishedResponder P} (ok : wait.handleMsg3 msg3 = .ok established) :
    P.verify wait.clientPk (hashNonces P.sha256 helloI wait.nonceR wait.nonceI) msg3.sigI = true ∧
      established = ⟨deriveEpochNonce P.sha256 wait.nonceI wait.nonceR, wait.clientPk⟩ := by
  unfold handleMsg3 at ok
  simp only at ok
  split at ok
  case isTrue verified =>
    cases ok
    exact ⟨verified, rfl⟩
  case isFalse => cases ok

end Otap.D3
