import Otap.D3.Session
import Otap.Lib.Layout
import Otap.Lib.Stream

/-!
# The handshake over a byte stream

`crates/luxstream-otap-d3/src/transport.rs` with the wire format of `handshake.rs`: `run_initiator` and `run_responder`
drive the two sides of the handshake over a TCP stream, with `write_all` and `read_exact` of messages of fixed sizes. A
call that returns drops its stream; a `read_exact` that meets the end of the stream fails with the text of the runtime.
Writes do not fail here: neither side ever writes to a stream whose other end has gone (`handshake_over_streams`).

The messages are those of `Otap.D3.Handshake`. `outcomes` is what the two calls return if the messages are handed over
as values; `handshake_over_streams` says that every fragmentation and every order of the calls' progress comes to the
same. `sessions_over_streams` is about one call whose peer is any program.
-/

namespace Otap.D3

open Otap.Lib

variable {P : Suite}

/-! ## The wire format -/

abbrev msg1Len : Nat := pubkeyLen + nonceLen
abbrev msg2Len : Nat := pubkeyLen + nonceLen + sigLen
abbrev msg3Len : Nat := pubkeyLen + sigLen

def HsMsg1.fields (self : HsMsg1) : List Placed :=
  [⟨0, self.clientPk.toList⟩, ⟨pubkeyLen, self.nonceI.toList⟩]

def HsMsg1.encode (self : HsMsg1) : Vector UInt8 msg1Len :=
  arrayOf msg1Len (assemble msg1Len self.fields)

def HsMsg1.decode (buf : Vector UInt8 msg1Len) : Except HsError HsMsg1 :=
  .ok {
    clientPk := arrayOf pubkeyLen (slice buf.toList 0 pubkeyLen)
    nonceI := arrayOf nonceLen (slice buf.toList pubkeyLen msg1Len) }

def HsMsg2.fields (self : HsMsg2) : List Placed :=
  [⟨0, self.serverPk.toList⟩, ⟨pubkeyLen, self.nonceR.toList⟩, ⟨pubkeyLen + nonceLen, self.sigR.toList⟩]

def HsMsg2.encode (self : HsMsg2) : Vector UInt8 msg2Len :=
  arrayOf msg2Len (assemble msg2Len self.fields)

def HsMsg2.decode (buf : Vector UInt8 msg2Len) : Except HsError HsMsg2 :=
  .ok {
    serverPk := arrayOf pubkeyLen (slice buf.toList 0 pubkeyLen)
    nonceR := arrayOf nonceLen (slice buf.toList pubkeyLen (pubkeyLen + nonceLen))
    sigR := arrayOf sigLen (slice buf.toList (pubkeyLen + nonceLen) msg2Len) }

def HsMsg3.fields (self : HsMsg3) : List Placed :=
  [⟨0, self.clientPk.toList⟩, ⟨pubkeyLen, self.sigI.toList⟩]

def HsMsg3.encode (self : HsMsg3) : Vector UInt8 msg3Len :=
  arrayOf msg3Len (assemble msg3Len self.fields)

def HsMsg3.decode (buf : Vector UInt8 msg3Len) : Except HsError HsMsg3 :=
  .ok {
    clientPk := arrayOf pubkeyLen (slice buf.toList 0 pubkeyLen)
    sigI := arrayOf sigLen (slice buf.toList pubkeyLen msg3Len) }

/-- A field that was placed is read back as the array that it was. -/
lemma arrayOf_slice_assemble {size n : Nat} {fields : List Placed} (laid : Laid size fields) {off hi : Nat}
    {v : Vector UInt8 n} (mem : ⟨off, v.toList⟩ ∈ fields) (stop : off + n = hi) :
    arrayOf n (slice (arrayOf size (assemble size fields)).toList off hi) = v := by
  rw [toList_arrayOf (length_assemble laid), slice_assemble laid mem (by rw [Vector.length_toList, stop]),
    arrayOf_toList]

lemma HsMsg1.laid (self : HsMsg1) : Laid msg1Len self.fields := by
  constructor
  · simp [fields, Placed.stop]
  · simp [fields, Placed.stop]

lemma HsMsg2.laid (self : HsMsg2) : Laid msg2Len self.fields := by
  constructor
  · simp [fields, Placed.stop]
  · simp only [fields, Placed.stop, List.forall_mem_cons, Vector.length_toList]
    decide

lemma HsMsg3.laid (self : HsMsg3) : Laid msg3Len self.fields := by
  constructor
  · simp [fields, Placed.stop]
  · simp [fields, Placed.stop]

lemma HsMsg1.decode_encode (self : HsMsg1) : decode self.encode = .ok self := by
  have clientPk : arrayOf pubkeyLen (slice self.encode.toList 0 pubkeyLen) = self.clientPk :=
    arrayOf_slice_assemble self.laid (.head _) rfl
  have nonceI : arrayOf nonceLen (slice self.encode.toList pubkeyLen msg1Len) = self.nonceI :=
    arrayOf_slice_assemble self.laid (.tail _ (.head _)) rfl
  rw [decode, clientPk, nonceI]

lemma HsMsg2.decode_encode (self : HsMsg2) : decode self.encode = .ok self := by
  have serverPk : arrayOf pubkeyLen (slice self.encode.toList 0 pubkeyLen) = self.serverPk :=
    arrayOf_slice_assemble self.laid (.head _) rfl
  have nonceR : arrayOf nonceLen (slice self.encode.toList pubkeyLen (pubkeyLen + nonceLen)) = self.nonceR :=
    arrayOf_slice_assemble self.laid (.tail _ (.head _)) rfl
  have sigR : arrayOf sigLen (slice self.encode.toList (pubkeyLen + nonceLen) msg2Len) = self.sigR :=
    arrayOf_slice_assemble self.laid (.tail _ (.tail _ (.head _))) rfl
  rw [decode, serverPk, nonceR, sigR]

lemma HsMsg3.decode_encode (self : HsMsg3) : decode self.encode = .ok self := by
  have clientPk : arrayOf pubkeyLen (slice self.encode.toList 0 pubkeyLen) = self.clientPk :=
    arrayOf_slice_assemble self.laid (.head _) rfl
  have sigI : arrayOf sigLen (slice self.encode.toList pubkeyLen msg3Len) = self.sigI :=
    arrayOf_slice_assemble self.laid (.tail _ (.head _)) rfl
  rw [decode, clientPk, sigI]

/-! ## The calls -/

/-- A call on a stream of bytes. -/
abbrev Transport (α : Type) := ExceptT HsError (Proc UInt8) α

/-- The text of the error that `read_exact` returns at the end of the stream. -/
def earlyEof : String := "early eof"

def writeAll {n : Nat} (buf : Vector UInt8 n) : Transport Unit :=
  ExceptT.mk ((Proc.writeAll buf.toList).bind fun _ => .ret (.ok ()))

def readExact (n : Nat) : Transport (Vector UInt8 n) :=
  ExceptT.mk ((Proc.readExact n).bind fun
    | some buf => .ret (.ok buf)
    | none => .ret (.error (.transport earlyEof)))

def runInitiator (clientSk : P.SigningKey) (serverPk : P.VerifyingKey) (nonceI : Nonce) : Transport (D3Session P) := do
  let (waitMsg2, msg1) := Initiator.start ⟨clientSk, serverPk⟩ nonceI
  writeAll msg1.encode
  let buf2 ← readExact msg2Len
  let msg2 ← HsMsg2.decode buf2
  let (established, msg3) ← waitMsg2.finish msg2
  writeAll msg3.encode
  return .fromClientHandshake established clientSk

def runResponder (serverSk : P.SigningKey) (acl : Vector UInt8 pubkeyLen → Bool) (nonceR : Nonce) :
    Transport (D3Session P) := do
  let buf1 ← readExact msg1Len
  let msg1 ← HsMsg1.decode buf1
  let (waitMsg3, msg2) ← Responder.handleMsg1 ⟨serverSk, acl⟩ nonceR msg1
  writeAll msg2.encode
  let buf3 ← readExact msg3Len
  let msg3 ← HsMsg3.decode buf3
  let established ← waitMsg3.handleMsg3 msg3
  return .fromServerHandshake established serverSk

/-! ## The calls as programs -/

variable {serverSk clientSk : P.SigningKey} {serverPk : P.VerifyingKey} {acl : Vector UInt8 pubkeyLen → Bool}
  {nonceI nonceR : Nonce} {msg1 : HsMsg1} {msg2 : HsMsg2}

lemma writeAll_bind {α : Type} {n : Nat} (buf : Vector UInt8 n) (f : Unit → Transport α) :
    writeAll buf >>= f = (Proc.writeAll buf.toList).bind f := by
  simp only [bind, ExceptT.bind, ExceptT.mk, writeAll, Proc.bind_assoc, Proc.ret_bind, ExceptT.bindCont]

/-- What follows a `read_exact`, for a stream that ended as well. -/
def orEof {α : Type} {n : Nat} (f : Vector UInt8 n → Transport α) : Option (Vector UInt8 n) → Transport α
  | some buf => f buf
  | none => .ret (.error (.transport earlyEof))

lemma readExact_bind {α : Type} {n : Nat} (f : Vector UInt8 n → Transport α) :
    readExact n >>= f = (Proc.readExact n).bind (orEof f) := by
  simp only [bind, ExceptT.bind, ExceptT.mk, readExact, Proc.bind_assoc]
  refine Proc.bind_congr _ fun received => ?_
  cases received with
  | none => rfl
  | some buf => rfl

lemma ok_bind {α β : Type} (a : α) (f : α → Transport β) :
    (liftM (Except.ok a : Except HsError α) : Transport α) >>= f = f a :=
  rfl

lemma error_bind {α β : Type} (e : HsError) (f : α → Transport β) :
    (liftM (Except.error e : Except HsError α) : Transport α) >>= f = .ret (.error e) :=
  rfl

/-- `run_initiator` from the message on that it waits for. -/
def initiatorRest (clientSk : P.SigningKey) (serverPk : P.VerifyingKey) (nonceI : Nonce) (buf2 : Vector UInt8 msg2Len) :
    Transport (D3Session P) := do
  let msg2 ← HsMsg2.decode buf2
  let (established, msg3) ← InitiatorWaitMsg2.finish ⟨clientSk, serverPk, nonceI⟩ msg2
  writeAll msg3.encode
  return .fromClientHandshake established clientSk

lemma runInitiator_eq (clientSk : P.SigningKey) (serverPk : P.VerifyingKey) (nonceI : Nonce) :
    runInitiator clientSk serverPk nonceI =
      (Proc.writeAll (Initiator.start ⟨clientSk, serverPk⟩ nonceI).2.encode.toList).bind fun _ =>
        (Proc.readExact msg2Len).bind (orEof (initiatorRest clientSk serverPk nonceI)) := by
  refine (writeAll_bind _ _).trans ?_
  refine Proc.bind_congr _ fun _ => ?_
  exact readExact_bind _

/-- `run_responder` after `handle_msg1`, and from the second message on that it waits for. -/
def responderLast (serverSk : P.SigningKey) (waitMsg3 : ResponderWaitMsg3 P) (buf3 : Vector UInt8 msg3Len) :
    Transport (D3Session P) := do
  let msg3 ← HsMsg3.decode buf3
  let established ← waitMsg3.handleMsg3 msg3
  return .fromServerHandshake established serverSk

def responderRest (serverSk : P.SigningKey) (acl : Vector UInt8 pubkeyLen → Bool) (nonceR : Nonce)
    (buf1 : Vector UInt8 msg1Len) : Transport (D3Session P) := do
  let msg1 ← HsMsg1.decode buf1
  let (waitMsg3, msg2) ← Responder.handleMsg1 ⟨serverSk, acl⟩ nonceR msg1
  writeAll msg2.encode
  let buf3 ← readExact msg3Len
  responderLast serverSk waitMsg3 buf3

lemma runResponder_eq (serverSk : P.SigningKey) (acl : Vector UInt8 pubkeyLen → Bool) (nonceR : Nonce) :
    runResponder serverSk acl nonceR = (Proc.readExact msg1Len).bind (orEof (responderRest serverSk acl nonceR)) :=
  readExact_bind _

lemma responderRest_ok {buf1 : Vector UInt8 msg1Len} {waitMsg3 : ResponderWaitMsg3 P}
    (decoded : HsMsg1.decode buf1 = .ok msg1)
    (ok : Responder.handleMsg1 ⟨serverSk, acl⟩ nonceR msg1 = .ok (waitMsg3, msg2)) :
    responderRest serverSk acl nonceR buf1 =
      (Proc.writeAll msg2.encode.toList).bind fun _ =>
        (Proc.readExact msg3Len).bind (orEof (responderLast serverSk waitMsg3)) := by
  rw [responderRest, decoded, ok_bind, ok, ok_bind]
  refine (writeAll_bind _ _).trans ?_
  refine Proc.bind_congr _ fun _ => ?_
  exact readExact_bind _

lemma responderRest_error {buf1 : Vector UInt8 msg1Len} {e : HsError} (decoded : HsMsg1.decode buf1 = .ok msg1)
    (error : Responder.handleMsg1 (P := P) ⟨serverSk, acl⟩ nonceR msg1 = .error e) :
    responderRest serverSk acl nonceR buf1 = .ret (.error e) := by
  rw [responderRest, decoded, ok_bind, error, error_bind]

lemma initiatorRest_ok {buf2 : Vector UInt8 msg2Len} {established : EstablishedInitiator P} {msg3 : HsMsg3}
    (decoded : HsMsg2.decode buf2 = .ok msg2)
    (ok : InitiatorWaitMsg2.finish ⟨clientSk, serverPk, nonceI⟩ msg2 = .ok (established, msg3)) :
    initiatorRest clientSk serverPk nonceI buf2 =
      (Proc.writeAll msg3.encode.toList).bind fun _ => .ret (.ok (.fromClientHandshake established clientSk)) := by
  rw [initiatorRest, decoded, ok_bind, ok, ok_bind]
  exact writeAll_bind _ _

lemma initiatorRest_error {buf2 : Vector UInt8 msg2Len} {e : HsError} (decoded : HsMsg2.decode buf2 = .ok msg2)
    (error : InitiatorWaitMsg2.finish (P := P) ⟨clientSk, serverPk, nonceI⟩ msg2 = .error e) :
    initiatorRest clientSk serverPk nonceI buf2 = .ret (.error e) := by
  rw [initiatorRest, decoded, ok_bind, error, error_bind]

lemma responderLast_eq {waitMsg3 : ResponderWaitMsg3 P} {buf3 : Vector UInt8 msg3Len}
    {msg3 : HsMsg3} (decoded : HsMsg3.decode buf3 = .ok msg3) :
    responderLast serverSk waitMsg3 buf3 =
      .ret ((waitMsg3.handleMsg3 msg3).map fun established => .fromServerHandshake established serverSk) := by
  rw [responderLast, decoded, ok_bind]
  cases waitMsg3.handleMsg3 msg3 with
  | ok established => rfl
  | error e => rfl

/-! ## The handshake by messages -/

/-- What the two calls return when the messages are handed over as values: a call whose peer fails meets the end of the
    stream. -/
def outcomes (clientSk : P.SigningKey) (serverPk : P.VerifyingKey) (serverSk : P.SigningKey)
    (acl : Vector UInt8 pubkeyLen → Bool) (nonceI nonceR : Nonce) :
    Except HsError (D3Session P) × Except HsError (D3Session P) :=
  let (waitMsg2, msg1) := Initiator.start ⟨clientSk, serverPk⟩ nonceI
  match Responder.handleMsg1 ⟨serverSk, acl⟩ nonceR msg1 with
  | .error e => (.error (.transport earlyEof), .error e)
  | .ok (waitMsg3, msg2) =>
    match waitMsg2.finish msg2 with
    | .error e => (.error e, .error (.transport earlyEof))
    | .ok (establishedI, msg3) =>
      (.ok (.fromClientHandshake establishedI clientSk),
        (waitMsg3.handleMsg3 msg3).map fun establishedR => .fromServerHandshake establishedR serverSk)

/-- The moves of all bytes of the three messages: written, delivered and read. -/
def moves : Nat := 3 * (msg1Len + msg2Len + msg3Len)

/-- One order of the moves ends with the outcome of the messages. -/
lemma steps_to_outcomes (clientSk : P.SigningKey) (serverPk : P.VerifyingKey) (serverSk : P.SigningKey)
    (acl : Vector UInt8 pubkeyLen → Bool) (nonceI nonceR : Nonce) :
    ∃ n ≤ moves, Steps Conn.step n
      (Conn.connect (runInitiator clientSk serverPk nonceI) (runResponder serverSk acl nonceR))
      (Conn.between .left (.ret (outcomes clientSk serverPk serverSk acl nonceI nonceR).1)
        (.ret (outcomes clientSk serverPk serverSk acl nonceI nonceR).2)) := by
  have waiting : (Initiator.start ⟨clientSk, serverPk⟩ nonceI).1 = ⟨clientSk, serverPk, nonceI⟩ := rfl
  rw [Conn.connect_eq, runInitiator_eq, runResponder_eq]
  have sent1 := Conn.exchange (e := .left) (Initiator.start ⟨clientSk, serverPk⟩ nonceI).2.encode
    (fun _ => (Proc.readExact msg2Len).bind (orEof (initiatorRest clientSk serverPk nonceI)))
    (orEof (responderRest serverSk acl nonceR))
  cases handled : Responder.handleMsg1 ⟨serverSk, acl⟩ nonceR (Initiator.start ⟨clientSk, serverPk⟩ nonceI).2 with
  | error e =>
    have outcome : outcomes clientSk serverPk serverSk acl nonceI nonceR =
        (.error (.transport earlyEof), .error e) := by
      simp only [outcomes, handled]
    rw [orEof, responderRest_error (HsMsg1.decode_encode _) handled, Conn.between_swap .left _ (.ret _)] at sent1
    have gone := Conn.hangUp (e := .right) (.error e) (by decide : 0 < msg2Len)
      (orEof (initiatorRest clientSk serverPk nonceI))
    rw [Conn.between_swap .right _ (orEof _ none)] at gone
    rw [outcome]
    exact ⟨3 * msg1Len + 1, by decide, sent1.trans gone⟩
  | ok made =>
    obtain ⟨waitMsg3, msg2⟩ := made
    rw [orEof, responderRest_ok (HsMsg1.decode_encode _) handled,
      Conn.between_swap .left ((Proc.readExact _).bind _)] at sent1
    have sent2 := Conn.exchange (e := .right) msg2.encode
      (fun _ => (Proc.readExact msg3Len).bind (orEof (responderLast serverSk waitMsg3)))
      (orEof (initiatorRest clientSk serverPk nonceI))
    cases finished : InitiatorWaitMsg2.finish ⟨clientSk, serverPk, nonceI⟩ msg2 with
    | error e =>
      have outcome : outcomes clientSk serverPk serverSk acl nonceI nonceR =
          (.error e, .error (.transport earlyEof)) := by
        simp only [outcomes, handled, waiting, finished]
      rw [orEof, initiatorRest_error (HsMsg2.decode_encode _) finished, Conn.between_swap .right _ (.ret _)] at sent2
      have gone := Conn.hangUp (e := .left) (.error e) (by decide : 0 < msg3Len)
        (orEof (responderLast serverSk waitMsg3))
      rw [outcome]
      exact ⟨3 * msg1Len + 3 * msg2Len + 1, by decide, (sent1.trans sent2).trans gone⟩
    | ok made =>
      obtain ⟨established, msg3⟩ := made
      have outcome : outcomes clientSk serverPk serverSk acl nonceI nonceR =
          (.ok (.fromClientHandshake established clientSk),
            (waitMsg3.handleMsg3 msg3).map fun established => .fromServerHandshake established serverSk) := by
        simp only [outcomes, handled, waiting, finished]
      rw [orEof, initiatorRest_ok (HsMsg2.decode_encode _) finished,
        Conn.between_swap .right ((Proc.readExact _).bind _)] at sent2
      have sent3 := Conn.exchange (e := .left) msg3.encode
        (fun _ => .ret (.ok (D3Session.fromClientHandshake established clientSk)))
        (orEof (responderLast serverSk waitMsg3))
      rw [orEof, responderLast_eq (HsMsg3.decode_encode _)] at sent3
      rw [outcome]
      exact ⟨3 * msg1Len + 3 * msg2Len + 3 * msg3Len, by decide, (sent1.trans sent2).trans sent3⟩

/-! ## What the outcome is -/

lemma Responder.handleMsg1_authorized {self : Responder P}
    {made : ResponderWaitMsg3 P × HsMsg2} (ok : self.handleMsg1 nonceR msg1 = .ok made) :
    self.acl msg1.clientPk = true := by
  unfold handleMsg1 at ok
  split at ok
  case isTrue => cases ok
  case isFalse authorized => simpa using authorized

/-- A client that the responder does not authorize. -/
lemma outcomes_unauthorized (clientSk : P.SigningKey) (serverPk : P.VerifyingKey) (serverSk : P.SigningKey)
    (acl : Vector UInt8 pubkeyLen → Bool) (nonceI nonceR : Nonce)
    (refused : acl (P.asBytes (P.verifyingKey clientSk)) = false) :
    outcomes clientSk serverPk serverSk acl nonceI nonceR =
      (.error (.transport earlyEof), .error .notAuthorized) := by
  simp [outcomes, Initiator.start, Responder.handleMsg1, refused]

/-- A client that the responder authorizes and that expects its key. -/
lemma outcomes_authorized (clientSk serverSk : P.SigningKey) (acl : Vector UInt8 pubkeyLen → Bool)
    (nonceI nonceR : Nonce) (authorized : acl (P.asBytes (P.verifyingKey clientSk)) = true) :
    outcomes clientSk (P.verifyingKey serverSk) serverSk acl nonceI nonceR =
      (.ok ⟨deriveEpochNonce P.sha256 nonceI nonceR, clientSk, P.verifyingKey serverSk⟩,
        .ok ⟨deriveEpochNonce P.sha256 nonceI nonceR, serverSk, P.verifyingKey clientSk⟩) := by
  simp [outcomes, Initiator.start, Responder.handleMsg1, authorized, P.fromBytes_asBytes, InitiatorWaitMsg2.finish,
    ResponderWaitMsg3.handleMsg3, P.verify_sign, Except.map, D3Session.fromClientHandshake,
    D3Session.fromServerHandshake]

/-! ## Every schedule -/

lemma stuck_of_outcomes (outcome : Except HsError (D3Session P) × Except HsError (D3Session P)) :
    Stuck Conn.step (Conn.between .left (.ret outcome.1) (.ret outcome.2) : Conn UInt8 _) :=
  Conn.stuck_of_returned outcome.1 outcome.2

/-- Enough rounds end with both results. -/
lemma rounds_complete (clientSk : P.SigningKey) (serverPk : P.VerifyingKey) (serverSk : P.SigningKey)
    (acl : Vector UInt8 pubkeyLen → Bool) (nonceI nonceR : Nonce) {rounds : List (List Move)}
    (enough : moves ≤ rounds.length) (full : ∀ round ∈ rounds, ∀ m, m ∈ round) :
    runSchedule Conn.step (Conn.connect (runInitiator clientSk serverPk nonceI) (runResponder serverSk acl nonceR))
        rounds.flatten =
      Conn.between .left (.ret (outcomes clientSk serverPk serverSk acl nonceI nonceR).1)
        (.ret (outcomes clientSk serverPk serverSk acl nonceI nonceR).2) := by
  obtain ⟨n, le, steps⟩ := steps_to_outcomes clientSk serverPk serverSk acl nonceI nonceR
  exact runSchedule_rounds Conn.commuting trivial steps (stuck_of_outcomes _) (le.trans enough)
    fun round mem _ _ m _ _ => full round mem m

/-- The handshake does not depend on how the bytes travel. In every schedule of the two calls and of the network, a call
    that returns returns the outcome of the messages; a connection in which nothing can happen any more has both
    results; nobody writes to an end that has returned; and as many rounds as there are moves are enough for both. An
    authorized client that expects the key of the responder and the responder then hold sessions that open each other's
    frames; with a client that is not authorized neither of them holds one. -/
theorem handshake_over_streams (clientSk : P.SigningKey) (serverPk : P.VerifyingKey) (serverSk : P.SigningKey)
    (acl : Vector UInt8 pubkeyLen → Bool) (nonceI nonceR : Nonce) :
    let start := Conn.connect (runInitiator clientSk serverPk nonceI) (runResponder serverSk acl nonceR)
    let outcome := outcomes clientSk serverPk serverSk acl nonceI nonceR
    (∀ schedule : List Move,
      let reached := runSchedule Conn.step start schedule
      (∀ result, reached.task .left = .ret result → result = outcome.1) ∧
      (∀ result, reached.task .right = .ret result → result = outcome.2) ∧
      (Stuck Conn.step reached → reached.task .left = .ret outcome.1 ∧ reached.task .right = .ret outcome.2) ∧
      (∀ e byte next, reached.task e = .send byte next → reached.closed e.other = false)) ∧
    (∀ rounds : List (List Move), moves ≤ rounds.length → (∀ round ∈ rounds, ∀ m, m ∈ round) →
      let reached := runSchedule Conn.step start rounds.flatten
      reached.task .left = .ret outcome.1 ∧ reached.task .right = .ret outcome.2) ∧
    (acl (P.asBytes (P.verifyingKey clientSk)) = true → serverPk = P.verifyingKey serverSk →
      ∃ client server : D3Session P, outcome = (.ok client, .ok server) ∧ client.epochNonce = server.epochNonce ∧
        ∀ (domain : RpcDomain) (symbols : List Symbol),
          server.openFrame domain (client.sealFrame domain symbols) = .ok symbols ∧
          client.openFrame domain (server.sealFrame domain symbols) = .ok symbols) ∧
    (acl (P.asBytes (P.verifyingKey clientSk)) = false →
      outcome = (.error (.transport earlyEof), .error .notAuthorized)) := by
  intro start outcome
  obtain ⟨n, -, steps⟩ := steps_to_outcomes clientSk serverPk serverSk acl nonceI nonceR
  refine ⟨fun schedule => ?_, fun rounds enough full => ?_, fun authorized expected => ?_, fun refused => ?_⟩
  · obtain ⟨m, -, rest⟩ := runSchedule_reaches Conn.commuting trivial steps (stuck_of_outcomes outcome) schedule
    refine ⟨fun result returned => ?_, fun result returned => ?_, fun ended => ?_,
      fun e byte next sends => Conn.heard rest sends⟩
    · cases Conn.task_of_returned returned rest
      rfl
    · cases Conn.task_of_returned returned rest
      rfl
    · rw [rest.eq_of_stuck ended]
      exact ⟨rfl, rfl⟩
  · intro reached
    have final : reached = _ := rounds_complete clientSk serverPk serverSk acl nonceI nonceR enough full
    rw [final]
    exact ⟨rfl, rfl⟩
  · subst expected
    refine ⟨_, _, outcomes_authorized clientSk serverSk acl nonceI nonceR authorized, rfl, fun domain symbols => ?_⟩
    constructor
    · apply D3Session.openFrame_sealFrame
      · rfl
      · rfl
    · apply D3Session.openFrame_sealFrame
      · rfl
      · rfl
  · exact outcomes_unauthorized clientSk serverPk serverSk acl nonceI nonceR refused

/-- Rounds in which everything is tried once. -/
def plainRounds : List (List Move) :=
  List.replicate moves [.poll .left, .poll .right, .deliver .left, .deliver .right]

lemma plainRounds_full : ∀ round ∈ plainRounds, ∀ m, m ∈ round := by
  intro round mem m
  rw [List.eq_of_mem_replicate mem]
  cases m with
  | poll e => cases e <;> simp
  | deliver e => cases e <;> simp

lemma plainRounds_enough : moves ≤ plainRounds.length :=
  List.length_replicate.symm.le

theorem handshake_over_streams_plain :
    let reached := runSchedule Conn.step
      (Conn.connect (runInitiator (P := .plain) (plainKey 1) (plainKey 2) (plainKey 11))
        (runResponder (plainKey 2) (fun key => key == plainKey 1) (plainKey 22))) plainRounds.flatten
    ∃ client server : D3Session .plain,
      reached.task .left = .ret (.ok client) ∧ reached.task .right = .ret (.ok server) ∧
      server.openFrame .linkData (client.sealFrame .linkData twoSymbols) = .ok twoSymbols := by
  obtain ⟨-, completes, opens, -⟩ := handshake_over_streams (P := .plain) (plainKey 1) (plainKey 2) (plainKey 2)
    (fun key => key == plainKey 1) (plainKey 11) (plainKey 22)
  obtain ⟨client, server, outcome, -, opens⟩ := opens (beq_self_eq_true _) rfl
  obtain ⟨left, right⟩ := completes _ plainRounds_enough plainRounds_full
  rw [outcome] at left right
  exact ⟨client, server, left, right, (opens _ _).1⟩

/-! ## One call against any peer -/

/-- What `run_responder` has checked when it returns a session, whatever it received. -/
lemma runResponder_ok {input : Bytes}
    {session : D3Session P} (ok : Proc.result (runResponder serverSk acl nonceR) input = .ok session) :
    ∃ clientPk nonceI sigI, acl clientPk = true ∧ P.fromBytes clientPk = some session.peerKey ∧
      P.verify session.peerKey (hashNonces P.sha256 helloI nonceR nonceI) sigI = true ∧
      session.epochNonce = deriveEpochNonce P.sha256 nonceI nonceR ∧ session.signingKey = serverSk := by
  rw [runResponder_eq] at ok
  obtain ⟨received, input, first⟩ :=
    Proc.result_bind (Proc.readExact msg1Len) (orEof (responderRest serverSk acl nonceR)) input
  rw [first] at ok
  cases received with
  | none => cases ok
  | some buf1 =>
    rw [orEof] at ok
    obtain ⟨msg1, decoded⟩ : ∃ msg1, HsMsg1.decode buf1 = .ok msg1 := ⟨_, rfl⟩
    cases handled : Responder.handleMsg1 ⟨serverSk, acl⟩ nonceR msg1 with
    | error e =>
      rw [responderRest_error decoded handled] at ok
      cases ok
    | ok made =>
      obtain ⟨waitMsg3, msg2⟩ := made
      rw [responderRest_ok decoded handled] at ok
      obtain ⟨-, input, second⟩ := Proc.result_bind (Proc.writeAll msg2.encode.toList)
        (fun _ => (Proc.readExact msg3Len).bind (orEof (responderLast serverSk waitMsg3))) input
      obtain ⟨received, input, third⟩ :=
        Proc.result_bind (Proc.readExact msg3Len) (orEof (responderLast serverSk waitMsg3)) input
      rw [second, third] at ok
      cases received with
      | none => cases ok
      | some buf3 =>
        rw [orEof] at ok
        obtain ⟨msg3, decoded3⟩ : ∃ msg3, HsMsg3.decode buf3 = .ok msg3 := ⟨_, rfl⟩
        rw [responderLast_eq decoded3, Proc.result] at ok
        cases done : waitMsg3.handleMsg3 msg3 with
        | error e =>
          rw [done] at ok
          cases ok
        | ok established =>
          rw [done] at ok
          cases ok
          obtain ⟨clientPk, parsed, rfl, -⟩ := Responder.handleMsg1_ok handled
          obtain ⟨verified, rfl⟩ := ResponderWaitMsg3.handleMsg3_ok done
          exact ⟨msg1.clientPk, msg1.nonceI, msg3.sigI, Responder.handleMsg1_authorized handled, parsed, verified,
            rfl, rfl⟩

lemma runInitiator_ok {input : Bytes}
    {session : D3Session P} (ok : Proc.result (runInitiator clientSk serverPk nonceI) input = .ok session) :
    ∃ nonceR sigR, P.verify serverPk (hashNonces P.sha256 helloR nonceI nonceR) sigR = true ∧
      session = ⟨deriveEpochNonce P.sha256 nonceI nonceR, clientSk, serverPk⟩ := by
  rw [runInitiator_eq] at ok
  obtain ⟨-, input, first⟩ := Proc.result_bind
    (Proc.writeAll (Initiator.start ⟨clientSk, serverPk⟩ nonceI).2.encode.toList)
    (fun _ => (Proc.readExact msg2Len).bind (orEof (initiatorRest clientSk serverPk nonceI))) input
  obtain ⟨received, input, second⟩ :=
    Proc.result_bind (Proc.readExact msg2Len) (orEof (initiatorRest clientSk serverPk nonceI)) input
  rw [first, second] at ok
  cases received with
  | none => cases ok
  | some buf2 =>
    rw [orEof] at ok
    obtain ⟨msg2, decoded⟩ : ∃ msg2, HsMsg2.decode buf2 = .ok msg2 := ⟨_, rfl⟩
    cases finished : InitiatorWaitMsg2.finish ⟨clientSk, serverPk, nonceI⟩ msg2 with
    | error e =>
      rw [initiatorRest_error decoded finished] at ok
      cases ok
    | ok made =>
      obtain ⟨established, msg3⟩ := made
      obtain ⟨-, input, third⟩ := Proc.result_bind (Proc.writeAll msg3.encode.toList)
        (fun _ => .ret (Except.ok (D3Session.fromClientHandshake established clientSk))) input
      rw [initiatorRest_ok decoded finished, third, Proc.result] at ok
      cases ok
      obtain ⟨verified, rfl, -⟩ := InitiatorWaitMsg2.finish_ok finished
      exact ⟨msg2.nonceR, msg2.sigR, verified, rfl⟩

/-- A session from a connection whose other end is any program, in any schedule. The responder has one only with a peer
    whose key is authorized and has signed the two nonces, of which one is its own; the initiator has one only with the
    key that it expects, which has signed its nonce. The epoch nonce is that of the nonces that were signed. -/
theorem sessions_over_streams (peer : Proc UInt8 (Except HsError (D3Session P))) (schedule : List Move)
    (session : D3Session P) :
    (∀ (serverSk : P.SigningKey) (acl : Vector UInt8 pubkeyLen → Bool) (nonceR : Nonce),
      (runSchedule Conn.step (Conn.connect peer (runResponder serverSk acl nonceR)) schedule).task .right =
          .ret (.ok session) →
      ∃ clientPk nonceI sigI, acl clientPk = true ∧ P.fromBytes clientPk = some session.peerKey ∧
        P.verify session.peerKey (hashNonces P.sha256 helloI nonceR nonceI) sigI = true ∧
        session.epochNonce = deriveEpochNonce P.sha256 nonceI nonceR ∧ session.signingKey = serverSk) ∧
    ∀ (clientSk : P.SigningKey) (serverPk : P.VerifyingKey) (nonceI : Nonce),
      (runSchedule Conn.step (Conn.connect (runInitiator clientSk serverPk nonceI) peer) schedule).task .left =
          .ret (.ok session) →
      ∃ nonceR sigR, P.verify serverPk (hashNonces P.sha256 helloR nonceI nonceR) sigR = true ∧
        session = ⟨deriveEpochNonce P.sha256 nonceI nonceR, clientSk, serverPk⟩ := by
  constructor
  · intro serverSk acl nonceR returned
    obtain ⟨received, ok⟩ := Conn.result_of_returned returned
    exact runResponder_ok ok
  · intro clientSk serverPk nonceI returned
    obtain ⟨received, ok⟩ := Conn.result_of_returned returned
    exact runInitiator_ok ok

theorem sessions_over_streams_plain : ∃ clientPk nonceI sigI, clientPk = plainKey 1 ∧
    Suite.plain.verify (plainKey 1) (hashNonces Suite.plain.sha256 helloI (plainKey 22) nonceI) sigI = true := by
  have authorized : (plainKey 1 == plainKey 1) = true := beq_self_eq_true _
  have outcome := outcomes_authorized (P := .plain) (plainKey 1) (plainKey 2) (fun key => key == plainKey 1)
    (plainKey 11) (plainKey 22) authorized
  have final := rounds_complete (P := .plain) (plainKey 1) (plainKey 2) (plainKey 2) (fun key => key == plainKey 1)
    (plainKey 11) (plainKey 22) plainRounds_enough plainRounds_full
  obtain ⟨clientPk, nonceI, sigI, accepted, -, verified, -⟩ := (sessions_over_streams (P := .plain)
      (runInitiator (plainKey 1) (plainKey 2) (plainKey 11)) plainRounds.flatten
      ⟨deriveEpochNonce Suite.plain.sha256 (plainKey 11) (plainKey 22), plainKey 2, plainKey 1⟩).1
    (plainKey 2) (fun key => key == plainKey 1) (plainKey 22) (by
      rw [final]
      exact congrArg (fun outcome => Proc.ret (Prod.snd outcome)) outcome)
  exact ⟨clientPk, nonceI, sigI, eq_of_beq accepted, verified⟩

end Otap.D3
