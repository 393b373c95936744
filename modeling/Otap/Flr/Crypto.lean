import Otap.Lib.Utf8
import Otap.Flr.Merkle

/-!
# The crypto engine

Embeds the signing part of `flr/internal/crypto/engine.go`, `schema.go` and `signbytes.go`: lease
tokens, Merkle commitments, schemas, and the encodings of signatures.

`Platform` holds what the code takes from libraries: SHA3-256, the JSON scalars, ECDSA with the PEM form
of its public keys, and the two sorts. Of ECDSA it assumes that a signature verifies under the key that
made it and that the PEM form of a key parses; what else a result assumes it states itself. What a call
reads from its surroundings (clock, random bytes, new IDs, failing stores) is an argument, `Env`. The
text of an error that wraps one of these libraries ends where theirs starts.

`CryptoEngine.signed` and `CryptoEngine.tokens` are not in the source: they record the byte strings that
have been signed, and the tokens among them.
-/

namespace Otap.Flr

open Otap.Lib

/-- The result of a call: a value, or an error with its text. -/
abbrev Result := Except Bytes

/-! ## Libraries and surroundings -/

/-- ECDSA on P-256; the components of a signature are below the order of the curve. -/
structure Ecdsa where
  PrivateKey : Type
  PublicKey : Type
  publicKey : PrivateKey → PublicKey
  sign : (key : PrivateKey) → (digest random : Bytes) → Option (Fin (256 ^ 32) × Fin (256 ^ 32))
  verify : (key : PublicKey) → (digest : Bytes) → (r s : Nat) → Bool
  verify_sign : ∀ {key digest random r s},
    sign key digest random = some (r, s) → verify (publicKey key) digest r s = true
  pem : PublicKey → Bytes
  parsePublicKey : Bytes → Option PublicKey
  pem_ne_nil : ∀ key, pem key ≠ []
  parse_pem : ∀ key, parsePublicKey (pem key) = some key

/-- A field of a schema as it is signed. -/
structure CanonicalFieldDef where
  name : Bytes
  offset : Int32
  length : Int32
  type : Int32
  deriving DecidableEq

/-- The comparison of `canonicalSchemaBytes`'s sort. -/
def lessOffset (a b : CanonicalFieldDef) : Prop :=
  a.offset < b.offset

structure Platform where
  sha3 : Hash 32
  enc : Encoding
  ecdsa : Ecdsa
  byID : SortSlice lessID
  byOffset : SortSlice lessOffset

/-- A scheme to run examples with: the signature is the digest. -/
def Ecdsa.plain : Ecdsa where
  PrivateKey := Unit
  PublicKey := Unit
  publicKey _ := ()
  sign _ digest _ :=
    if h : digest.length = 32 then some (⟨ofBE digest, h ▸ ofBE_lt digest⟩, 0) else none
  verify _ digest r _ := digest.length = 32 && r == ofBE digest
  verify_sign := by
    intro _ digest _ r s made
    split at made
    case isTrue h =>
      obtain ⟨rfl, -⟩ := Prod.mk.inj (Option.some.inj made)
      simp [h]
    case isFalse => cases made
  pem _ := [1]
  parsePublicKey _ := some ()
  pem_ne_nil _ := List.cons_ne_nil 1 []
  parse_pem _ := rfl

/-- Of the plain scheme a signature fits one digest only. -/
lemma Ecdsa.plain_binding {digest digest' random : Bytes} {r s : Fin (256 ^ 32)}
    (made : Ecdsa.plain.sign () digest random = some (r, s))
    (ok : Ecdsa.plain.verify () digest' r s = true) : digest' = digest := by
  unfold plain at made ok
  simp only at made
  split at made
  case isTrue h =>
    obtain ⟨rfl, -⟩ := Prod.mk.inj (Option.some.inj made)
    obtain ⟨len, eq⟩ := Bool.and_eq_true_iff.mp ok
    have h' : digest'.length = 32 := of_decide_eq_true len
    rw [← toBE_ofBE digest', ← toBE_ofBE digest, h, h', ← eq_of_beq eq]
  case isFalse => cases made

/-- A platform to run examples with. -/
def Platform.plain : Platform where
  sha3 := .positional 32
  enc := .plain
  ecdsa := .plain
  byID := sortByID
  byOffset := .byKey CanonicalFieldDef.offset Int32.le_total Int32.le_trans fun _ _ => Int32.not_lt.mpr

/-- What one call reads from its surroundings: its clock readings in order, the nonce (`none` if the
    random source fails), the randomness of the signature, a new UUID, and which of its store accesses
    fail. -/
structure Env where
  now : Nat → Time
  nonce : Option Bytes
  random : Bytes
  uuid : Bytes
  fails : Nat → Bool

variable {P : Platform}

/-! ## Signatures -/

/-- `marshalSignature`. -/
def marshalSignature (r s : Nat) : Bytes :=
  toBE 32 r ++ toBE 32 s

/-- `unmarshalSignature`; a signature of another length is refused (`signatureLengthError`). -/
def unmarshalSignature (sig : Bytes) : Option (Nat × Nat) :=
  if sig.length = 64 then some (ofBE (sig.take 32), ofBE (sig.drop 32)) else none

def signatureLengthError (sig : Bytes) : Bytes :=
  ascii "invalid signature length: expected 64, got " ++ decimal sig.length

lemma unmarshal_marshalSignature (r s : Fin (256 ^ 32)) :
    unmarshalSignature (marshalSignature r s) = some (r.val, s.val) := by
  rw [unmarshalSignature, marshalSignature, if_pos (by simp), List.take_left' (length_toBE 32 _),
    List.drop_left' (length_toBE 32 _), ofBE_toBE r.isLt, ofBE_toBE s.isLt]

/-- `crypto.Engine`. -/
structure CryptoEngine (P : Platform) where
  operatorID : Bytes
  privateKey : P.ecdsa.PrivateKey
  signed : List Bytes
  tokens : List LeaseToken

/-- Hashing, `ecdsa.Sign` and `marshalSignature`, as every signer does them. -/
def CryptoEngine.signDigest (e : CryptoEngine P) (random data : Bytes) :
    Result Bytes × CryptoEngine P :=
  match P.ecdsa.sign e.privateKey (P.sha3.sum data) random with
  | none => (.error (ascii "ECDSA sign failed"), e)
  | some (r, s) => (.ok (marshalSignature r s), { e with signed := data :: e.signed })

lemma CryptoEngine.signDigest_ok {e e' : CryptoEngine P} {random data sig : Bytes}
    (h : e.signDigest random data = (.ok sig, e')) :
    (∃ r s, P.ecdsa.sign e.privateKey (P.sha3.sum data) random = some (r, s) ∧
      sig = marshalSignature r s) ∧ e' = { e with signed := data :: e.signed } := by
  unfold signDigest at h
  split at h
  case h_1 => cases h
  case h_2 r s made =>
    obtain ⟨sig_eq, e_eq⟩ := Prod.mk.inj h
    exact ⟨⟨r, s, made, (Except.ok.inj sig_eq).symm⟩, e_eq.symm⟩

/-- `Engine.Sign`. -/
def CryptoEngine.sign (e : CryptoEngine P) (random data : Bytes) : Result Bytes × CryptoEngine P :=
  if data.length = 0 then (.error (ascii "data to sign cannot be empty"), e)
  else e.signDigest random data

/-- `Engine.SignBytes`. -/
def CryptoEngine.signBytes (e : CryptoEngine P) (random b : Bytes) : Result Bytes × CryptoEngine P :=
  if b.length = 0 then (.error (ascii "cannot sign empty bytes"), e)
  else e.signDigest random b

/-- The check every verifier ends with: the signature's format, then `ecdsa.Verify`. -/
def verifySignature (P : Platform) (key : P.ecdsa.PublicKey) (data sig : Bytes) : Result Unit :=
  match unmarshalSignature sig with
  | none => .error (ascii "invalid signature format: " ++ signatureLengthError sig)
  | some (r, s) =>
    if P.ecdsa.verify key (P.sha3.sum data) r s then .ok ()
    else .error (ascii "signature verification failed")

/-- `Verify`. -/
def verify (P : Platform) (pubKey data sig : Bytes) : Result Unit :=
  if pubKey.length = 0 then .error (ascii "public key cannot be empty")
  else if data.length = 0 then .error (ascii "data cannot be empty")
  else if sig.length = 0 then .error (ascii "signature cannot be empty")
  else
    match P.ecdsa.parsePublicKey pubKey with
    | none => .error (ascii "failed to parse public key")
    | some key => verifySignature P key data sig

/-- `Engine.GetPublicKey`. -/
def CryptoEngine.getPublicKey (e : CryptoEngine P) : Bytes :=
  P.ecdsa.pem (P.ecdsa.publicKey e.privateKey)

/-! ## Lease tokens -/

/-- `canonicalTokenFields`. -/
structure CanonicalTokenFields where
  version : Int32
  leaseID : Bytes
  operatorID : Bytes
  wavelength : Option Wavelength
  endpointID : Bytes
  startTime : Bytes
  endTime : Bytes
  nonce : Bytes
  deriving DecidableEq

/-- A wavelength in JSON; an infinite or undefined number is an error. -/
def marshalWavelength (enc : Encoding) : Option Wavelength → Option Bytes
  | none => some (ascii "null")
  | some w =>
    match enc.float w.lambdaNm, enc.float w.gridGHz with
    | some lambda, some grid =>
      some (jsonObject
        [ jsonField "lambda_nm" lambda,
          jsonField "channel_num" (decimalInt w.channelNum.toInt),
          jsonField "band" (decimalInt w.band.toInt),
          jsonField "grid_ghz" grid ])
    | _, _ => none

/-- `json.Marshal` of the token fields. -/
def CanonicalTokenFields.marshal (enc : Encoding) (cf : CanonicalTokenFields) : Option Bytes :=
  match marshalWavelength enc cf.wavelength with
  | none => none
  | some wavelength =>
    some (jsonObject
      [ jsonField "version" (decimalInt cf.version.toInt),
        jsonField "lease_id" (enc.string cf.leaseID),
        jsonField "operator_id" (enc.string cf.operatorID),
        jsonField "wavelength" wavelength,
        jsonField "endpoint_id" (enc.string cf.endpointID),
        jsonField "start_time" (enc.string cf.startTime),
        jsonField "end_time" (enc.string cf.endTime),
        jsonField "nonce" (enc.bytes cf.nonce) ])

/-- The fields of a token that its signature covers. -/
def LeaseToken.canonical (enc : Encoding) (token : LeaseToken) : CanonicalTokenFields where
  version := token.version
  leaseID := token.leaseID
  operatorID := token.operatorID
  wavelength := token.wavelength
  endpointID := token.endpointID
  startTime := enc.rfc3339Nano token.startTime
  endTime := enc.rfc3339Nano token.endTime
  nonce := token.nonce

/-- The bytes a token's signature covers. -/
def LeaseToken.message (enc : Encoding) (token : LeaseToken) : Option Bytes :=
  (token.canonical enc).marshal enc

/-- The third byte tells the messages apart: a token's JSON starts with its version. -/
lemma LeaseToken.message_third {enc : Encoding} {token : LeaseToken} {m : Bytes}
    (h : token.message enc = some m) : m[2]? = some 118 := by
  unfold message CanonicalTokenFields.marshal at h
  split at h
  case h_1 => cases h
  case h_2 =>
    rw [← Option.some.inj h]
    simp [jsonObject, jsonField, List.intercalate, ascii]

/-- `Engine.signToken`. -/
def CryptoEngine.signToken (e : CryptoEngine P) (random : Bytes) (token : LeaseToken) :
    Result Bytes × CryptoEngine P :=
  match token.message P.enc with
  | none => (.error (ascii "failed to marshal token fields"), e)
  | some data =>
    match e.signDigest random data with
    | (.error err, e) => (.error err, e)
    | (.ok sig, e) => (.ok sig, { e with tokens := token :: e.tokens })

/-- `Engine.GenerateLeaseToken`, with `issuedAt` its clock reading. -/
def CryptoEngine.generateLeaseToken (e : CryptoEngine P) (env : Env) (issuedAt : Time)
    (lease : Lease) : Result LeaseToken × CryptoEngine P :=
  match env.nonce with
  | none => (.error (ascii "failed to generate nonce"), e)
  | some nonce =>
    let token : LeaseToken :=
      { version := 1
        leaseID := lease.id
        operatorID := e.operatorID
        wavelength := lease.wavelength
        endpointID := lease.endpointID
        startTime := lease.startTime
        endTime := lease.endTime
        nonce := nonce
        signature := []
        issuedAt := issuedAt }
    match e.signToken env.random token with
    | (.error err, e) => (.error (ascii "failed to sign token: " ++ err), e)
    | (.ok sig, e) => (.ok { token with signature := sig }, e)

/-- `Engine.ValidateLeaseToken` of a token that is not nil. -/
def validateLeaseToken (P : Platform) (now : Time) (token : LeaseToken) (operatorPubKey : Bytes) :
    Result Unit :=
  if operatorPubKey.length = 0 then .error (ascii "operator public key cannot be empty")
  else if now > token.endTime then .error (ascii "token has expired")
  else
    match P.ecdsa.parsePublicKey operatorPubKey with
    | none => .error (ascii "invalid public key")
    | some key =>
      match token.message P.enc with
      | none => .error (ascii "failed to marshal token fields")
      | some data => verifySignature P key data token.signature

/-- The signature of the token verifies under the key. -/
def LeaseToken.SignedBy (P : Platform) (key : P.ecdsa.PublicKey) (token : LeaseToken) : Prop :=
  ∃ m sig, token.message P.enc = some m ∧ unmarshalSignature token.signature = some sig ∧
    P.ecdsa.verify key (P.sha3.sum m) sig.1 sig.2 = true

lemma verifySignature_ok_iff {key : P.ecdsa.PublicKey} {data sig : Bytes} :
    verifySignature P key data sig = .ok () ↔
      ∃ rs, unmarshalSignature sig = some rs ∧ P.ecdsa.verify key (P.sha3.sum data) rs.1 rs.2 = true := by
  rw [verifySignature]
  cases unmarshalSignature sig with
  | none => exact ⟨fun h => (by cases h), fun ⟨_, format, _⟩ => (by cases format)⟩
  | some rs =>
    dsimp only
    split
    case isTrue verified => exact ⟨fun _ => ⟨rs, rfl, verified⟩, fun _ => rfl⟩
    case isFalse refused =>
      refine ⟨fun h => (by cases h), fun ⟨rs', format, verified⟩ => ?_⟩
      cases format
      exact absurd verified refused

/-- A token is valid until its end, if it is signed. -/
lemma validateLeaseToken_ok_iff {now : Time} {token : LeaseToken} {key : P.ecdsa.PublicKey} :
    validateLeaseToken P now token (P.ecdsa.pem key) = .ok () ↔ now ≤ token.endTime ∧ token.SignedBy P key := by
  have present : (P.ecdsa.pem key).length ≠ 0 := mt List.length_eq_zero_iff.mp (P.ecdsa.pem_ne_nil key)
  rw [validateLeaseToken, if_neg present, LeaseToken.SignedBy]
  split
  case isTrue after => exact ⟨fun h => (by cases h), fun ⟨before, _⟩ => absurd after (not_lt.mpr before)⟩
  case isFalse before =>
    rw [P.ecdsa.parse_pem, and_iff_right (not_lt.mp before)]
    cases token.message P.enc with
    | none => exact ⟨fun h => (by cases h), fun ⟨_, _, message, _⟩ => (by cases message)⟩
    | some data =>
      refine verifySignature_ok_iff.trans ⟨fun ⟨sig, checked⟩ => ⟨data, sig, rfl, checked⟩, ?_⟩
      rintro ⟨m, sig, message, checked⟩
      cases message
      exact ⟨sig, checked⟩

/-! ## Merkle commitments -/

/-- The bytes a commitment's signature covers. -/
def MerkleCommitment.message (enc : Encoding) (c : MerkleCommitment) : Bytes :=
  jsonObject
    [ jsonField "operator_id" (enc.string c.operatorID),
      jsonField "root_hash" (enc.bytes c.rootHash),
      jsonField "timestamp" (enc.string (enc.rfc3339Nano c.timestamp)),
      jsonField "block_height" (decimalInt c.blockHeight.toInt),
      jsonField "lease_count" (decimalInt c.leaseCount.toInt) ]

/-- `Engine.SignMerkleCommitment`. -/
def CryptoEngine.signMerkleCommitment (e : CryptoEngine P) (env : Env) (root : Bytes)
    (blockHeight : Int64) : Result MerkleCommitment × CryptoEngine P :=
  if root.length = 0 then (.error (ascii "root hash cannot be empty"), e)
  else
    let commitment : MerkleCommitment :=
      { operatorID := e.operatorID
        rootHash := root
        timestamp := env.now 0
        signature := []
        leaseCount := 0
        blockHeight := blockHeight }
    match e.sign env.random (commitment.message P.enc) with
    | (.error err, e) => (.error (ascii "failed to sign commitment: " ++ err), e)
    | (.ok sig, e) => (.ok { commitment with signature := sig }, e)

/-- `VerifyMerkleCommitment` of a commitment that is not nil. -/
def verifyMerkleCommitment (P : Platform) (commitment : MerkleCommitment) (pubKey : Bytes) :
    Result Unit :=
  if pubKey.length = 0 then .error (ascii "public key cannot be empty")
  else if commitment.rootHash.length = 0 then .error (ascii "root hash cannot be empty")
  else verify P pubKey (commitment.message P.enc) commitment.signature

/-! ## Schemas -/

/-- What the signature of an `ApplicationSchema` covers; `layout` is nil or the list of its fields. -/
structure ApplicationSchema where
  id : Bytes
  oamMode : Int32
  payloadBytes : Int32
  name : Bytes
  version : Int32
  layout : Option (List CanonicalFieldDef)
  operatorID : Bytes
  createdAt : Time

/-- `canonicalSchemaBytes`. -/
def canonicalSchemaBytes (P : Platform) (s : ApplicationSchema) : Result Bytes :=
  match s.layout with
  | none => .error (ascii "schema layout is nil")
  | some fields =>
    let marshalField (f : CanonicalFieldDef) : Bytes :=
      jsonObject
        [ jsonField "name" (P.enc.string f.name),
          jsonField "offset" (decimalInt f.offset.toInt),
          jsonField "length" (decimalInt f.length.toInt),
          jsonField "type" (decimalInt f.type.toInt) ]
    .ok (jsonObject
      [ jsonField "id" (P.enc.string s.id),
        jsonField "oam_mode" (decimalInt s.oamMode.toInt),
        jsonField "payload_bytes" (decimalInt s.payloadBytes.toInt),
        jsonField "name" (P.enc.string s.name),
        jsonField "version" (decimalInt s.version.toInt),
        jsonField "fields" (ascii "[" ++
          [UInt8.ofNat 44].intercalate ((P.byOffset.sort fields).map marshalField) ++ ascii "]"),
        jsonField "operator_id" (P.enc.string s.operatorID),
        jsonField "created_at" (P.enc.string (P.enc.rfc3339Nano s.createdAt)) ])

/-- `Engine.SignSchema`. -/
def CryptoEngine.signSchema (e : CryptoEngine P) (random : Bytes) (s : ApplicationSchema) :
    Result Bytes × CryptoEngine P :=
  if s.operatorID ≠ e.operatorID then
    (.error (ascii "cannot sign schema owned by operator " ++ quoted s.operatorID ++ ascii " (this engine: " ++
      quoted e.operatorID ++ ascii ")"), e)
  else
    match canonicalSchemaBytes P s with
    | .error err => (.error (ascii "canonicalize schema: " ++ err), e)
    | .ok data => e.signDigest random data

/-- `commitmentSignableBytes`: what a schema commitment's signature covers. -/
def commitmentSignableBytes (c : MerkleCommitment) : Bytes :=
  ascii "OTAP-SCHEMA-COMMIT-v1" ++ [0] ++ c.operatorID ++ toBE 8 c.blockHeight.toUInt64.toNat ++
    c.rootHash

end Otap.Flr
