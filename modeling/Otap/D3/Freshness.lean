import Otap.D3.Agreement

/-!
# Freshness of the handshake

The runs are those of `Otap.D3.Agreement`. An event of a run is named by its position, and three relations say what
happens there: a session draws its nonce (`DrawsAt`), signs two nonces (`SignsAt`), or completes because a signature
over two nonces verifies (`CompletesAt`).

`Network.Unpredicted` adds to what the attacker cannot do: no nonce is received by a session before it is drawn.
`handshake_fresh` says that the signature that lets a session complete was made after the session drew its nonce, by a
session of the peer with the same nonces, and that a signature completes no second session.
-/

namespace Otap.D3

open Otap.Lib

variable {P : Suite} {honest : P.VerifyingKey → Prop} {events : List (Event P)}

/-! ## What happens at a position -/

/-- A session, by its position among the initiators or among the responders. -/
inductive Session
  | initiator (i : Nat)
  | responder (j : Nat)
deriving DecidableEq

/-- The two kinds of signatures. -/
inductive Hello
  | r
  | i
deriving DecidableEq

def Hello.tag : Hello → Bytes
  | r => helloR
  | i => helloI

/-- The network before the event at position `n`. -/
def Network.before (events : List (Event P)) (n : Nat) : Network P :=
  stateAt Network.step .empty events n

/-- The session draws its nonce. -/
inductive DrawsAt (events : List (Event P)) (n : Nat) : Session → Nonce → Prop
  | initiator {self : Initiator P} {nonceI : Nonce} (event : events[n]? = some (.start self nonceI)) :
    DrawsAt events n (.initiator (Network.before events n).initiators.length) nonceI
  | responder {self : Responder P} {nonceR : Nonce} {msg1 : HsMsg1} {wait : ResponderWaitMsg3 P} {msg2 : HsMsg2}
    (event : events[n]? = some (.msg1 self nonceR msg1)) (ok : self.handleMsg1 nonceR msg1 = .ok (wait, msg2)) :
    DrawsAt events n (.responder (Network.before events n).responders.length) nonceR

/-- The session signs two nonces: its key, the kind, the nonces and the signature. -/
inductive SignsAt (events : List (Event P)) (n : Nat) :
    Session → P.VerifyingKey → Hello → Nonce → Nonce → Vector UInt8 sigLen → Prop
  | responder {self : Responder P} {nonceR : Nonce} {msg1 : HsMsg1} {wait : ResponderWaitMsg3 P} {msg2 : HsMsg2}
    (event : events[n]? = some (.msg1 self nonceR msg1)) (ok : self.handleMsg1 nonceR msg1 = .ok (wait, msg2)) :
    SignsAt events n (.responder (Network.before events n).responders.length) (P.verifyingKey wait.sk) .r
      wait.nonceI wait.nonceR msg2.sigR
  | initiator {i : Nat} {msg2 : HsMsg2} {wait : InitiatorWaitMsg2 P} {established : EstablishedInitiator P}
    {msg3 : HsMsg3} (event : events[n]? = some (.msg2 i msg2))
    (waiting : (Network.before events n).initiators[i]? = some ⟨wait, none⟩)
    (ok : wait.finish msg2 = .ok (established, msg3)) :
    SignsAt events n (.initiator i) (P.verifyingKey wait.sk) .i msg2.nonceR wait.nonceI msg3.sigI

/-- The session completes: the peer's key, the kind and the nonces that it has verified the signature for, the
    signature, and the epoch nonce. -/
inductive CompletesAt (events : List (Event P)) (n : Nat) :
    Session → P.VerifyingKey → Hello → Nonce → Nonce → Vector UInt8 sigLen → UInt64 → Prop
  | initiator {i : Nat} {msg2 : HsMsg2} {wait : InitiatorWaitMsg2 P} {established : EstablishedInitiator P}
    {msg3 : HsMsg3} (event : events[n]? = some (.msg2 i msg2))
    (waiting : (Network.before events n).initiators[i]? = some ⟨wait, none⟩)
    (ok : wait.finish msg2 = .ok (established, msg3)) :
    CompletesAt events n (.initiator i) wait.peerPk .r wait.nonceI msg2.nonceR msg2.sigR established.epochNonce
  | responder {j : Nat} {msg3 : HsMsg3} {wait : ResponderWaitMsg3 P} {established : EstablishedResponder P}
    (event : events[n]? = some (.msg3 j msg3))
    (waiting : (Network.before events n).responders[j]? = some ⟨wait, none⟩)
    (ok : wait.handleMsg3 msg3 = .ok established) :
    CompletesAt events n (.responder j) wait.clientPk .i wait.nonceR wait.nonceI msg3.sigI established.epochNonce

/-! ## The attacker -/

/-- A session has received the nonce as the one of its peer. -/
def Network.Received (s : Network P) (nonce : Nonce) : Prop :=
  (∃ b ∈ s.responders, b.wait.nonceI = nonce) ∨ ∃ a ∈ s.initiators, ∃ r ∈ a.finished, r.1 = nonce

/-- The nonce that is drawn is unpredictable. -/
def Network.Unpredicted (s : Network P) : Event P → Prop
  | .start _ nonceI => ¬ s.Received nonceI
  | .msg1 _ nonceR _ => ¬ s.Received nonceR
  | _ => True

/-- What the attacker and the random generator cannot do. -/
def Network.AllowedFresh (honest : P.VerifyingKey → Prop) (s : Network P) (e : Event P) : Prop :=
  s.Allowed honest e ∧ s.Unpredicted e

instance (s : Network P) (nonce : Nonce) : Decidable (s.Received nonce) :=
  inferInstanceAs (Decidable ((∃ b ∈ _, _ = _) ∨ ∃ a ∈ _, ∃ r ∈ _, _ = _))

instance (s : Network P) : ∀ e, Decidable (s.Unpredicted e)
  | .start _ _ => inferInstanceAs (Decidable (¬ _))
  | .msg1 _ _ _ => inferInstanceAs (Decidable (¬ _))
  | .msg2 _ _ => inferInstanceAs (Decidable True)
  | .msg3 _ _ => inferInstanceAs (Decidable True)

instance [DecidableEq P.VerifyingKey] (honest : P.VerifyingKey → Prop) [DecidablePred honest] (s : Network P)
    (e : Event P) : Decidable (s.AllowedFresh honest e) :=
  inferInstanceAs (Decidable (_ ∧ _))

/-- No signature verifies for two of the digests that were signed. -/
def Network.Binding (s : Network P) : Prop :=
  ∀ key key' digest digest' sig, s.Signed key digest → s.Signed key' digest' →
    P.verify key digest sig = true → P.verify key' digest' sig = true → digest = digest'

/-! ## What a step does to a session -/

lemma Network.step_initiators (s : Network P) (e : Event P) (i : Nat) :
    (s.step e).initiators[i]? = s.initiators[i]? ∨
    (∃ self nonceI, e = .start self nonceI ∧ s.initiators.length = i ∧
      (s.step e).initiators[i]? = some ⟨(self.start nonceI).1, none⟩) ∨
    ∃ msg2 wait, e = .msg2 i msg2 ∧ s.initiators[i]? = some ⟨wait, none⟩ ∧
      (s.step e).initiators[i]? = some ⟨wait, some (msg2.nonceR, (wait.finish msg2).map Prod.fst)⟩ := by
  cases e with
  | start self nonceI =>
    refine (getElem?_concat_cases s.initiators _ i).imp_right fun ⟨last, new⟩ => ?_
    exact .inl ⟨self, nonceI, rfl, last, new⟩
  | msg1 self nonceR msg1 =>
    refine .inl ?_
    simp only [Network.step]
    split <;> rfl
  | msg2 k msg2 =>
    simp only [Network.step]
    split
    case h_1 wait got =>
      refine (getElem?_set_cases got _ i).imp_right ?_
      rintro ⟨rfl, new⟩
      exact .inr ⟨msg2, wait, rfl, got, new⟩
    case h_2 => exact .inl rfl
  | msg3 j msg3 =>
    refine .inl ?_
    simp only [Network.step]
    split <;> rfl

lemma Network.step_responders (s : Network P) (e : Event P) (j : Nat) :
    (s.step e).responders[j]? = s.responders[j]? ∨
    (∃ self nonceR msg1 wait msg2, e = .msg1 self nonceR msg1 ∧ self.handleMsg1 nonceR msg1 = .ok (wait, msg2) ∧
      s.responders.length = j ∧ (s.step e).responders[j]? = some ⟨wait, none⟩) ∨
    ∃ msg3 wait, e = .msg3 j msg3 ∧ s.responders[j]? = some ⟨wait, none⟩ ∧
      (s.step e).responders[j]? = some ⟨wait, some (wait.handleMsg3 msg3)⟩ := by
  cases e with
  | start self nonceI => exact .inl rfl
  | msg1 self nonceR msg1 =>
    simp only [Network.step]
    split
    case h_1 wait msg2 ok =>
      refine (getElem?_concat_cases s.responders _ j).imp_right ?_
      rintro ⟨last, new⟩
      exact .inl ⟨self, nonceR, msg1, wait, msg2, rfl, ok, last, new⟩
    case h_2 => exact .inl rfl
  | msg2 i msg2 =>
    refine .inl ?_
    simp only [Network.step]
    split <;> rfl
  | msg3 k msg3 =>
    simp only [Network.step]
    split
    case h_1 wait got =>
      refine (getElem?_set_cases got _ j).imp_right ?_
      rintro ⟨rfl, new⟩
      exact .inr ⟨msg3, wait, rfl, got, new⟩
    case h_2 => exact .inl rfl

/-! ## Sessions stay -/

/-- A session keeps what it waits with. -/
lemma Network.initiator_stays {m n i : Nat} {a : InitiatorSession P} (le : m ≤ n)
    (got : (before events m).initiators[i]? = some a) :
    ∃ finished, (before events n).initiators[i]? = some ⟨a.wait, finished⟩ := by
  refine stateAt_keeps (P := fun s : Network P => ∃ finished, s.initiators[i]? = some ⟨a.wait, finished⟩)
    ?_ le ⟨a.finished, got⟩
  rintro s e ⟨finished, got⟩
  rcases s.step_initiators e i with same | ⟨self, nonceI, -, last, -⟩ | ⟨msg2, wait, -, waiting, new⟩
  · exact ⟨finished, same.trans got⟩
  · rw [List.getElem?_eq_none last.le] at got
    cases got
  · cases got.symm.trans waiting
    exact ⟨_, new⟩

/-- A session that has finished keeps its result. -/
lemma Network.finished_stays {m n i : Nat} {wait : InitiatorWaitMsg2 P}
    {result : Nonce × Except HsError (EstablishedInitiator P)} (le : m ≤ n)
    (got : (before events m).initiators[i]? = some ⟨wait, some result⟩) :
    (before events n).initiators[i]? = some ⟨wait, some result⟩ := by
  refine stateAt_keeps (P := fun s : Network P => s.initiators[i]? = some ⟨wait, some result⟩) ?_ le got
  intro s e got
  rcases s.step_initiators e i with same | ⟨self, nonceI, -, last, -⟩ | ⟨msg2, wait', -, waiting, -⟩
  · exact same.trans got
  · rw [List.getElem?_eq_none last.le] at got
    cases got
  · cases got.symm.trans waiting

lemma Network.responder_stays {m n j : Nat} {b : ResponderSession P} (le : m ≤ n)
    (got : (before events m).responders[j]? = some b) :
    ∃ finished, (before events n).responders[j]? = some ⟨b.wait, finished⟩ := by
  refine stateAt_keeps (P := fun s : Network P => ∃ finished, s.responders[j]? = some ⟨b.wait, finished⟩)
    ?_ le ⟨b.finished, got⟩
  rintro s e ⟨finished, got⟩
  rcases s.step_responders e j with same | ⟨self, nonceR, msg1, wait, msg2, -, -, last, -⟩ |
    ⟨msg3, wait, -, waiting, new⟩
  · exact ⟨finished, same.trans got⟩
  · rw [List.getElem?_eq_none last.le] at got
    cases got
  · cases got.symm.trans waiting
    exact ⟨_, new⟩

/-! ## Where sessions and signatures come from -/

lemma Network.initiator_origin {n i : Nat} {a : InitiatorSession P}
    (got : (before events n).initiators[i]? = some a) :
    ∃ k < n, DrawsAt events k (.initiator i) a.wait.nonceI := by
  obtain ⟨k, lt, e, event, notYet, ⟨finished, now⟩⟩ := exists_step
    (P := fun s : Network P => ∃ finished, s.initiators[i]? = some ⟨a.wait, finished⟩)
    (fun ⟨_, h⟩ => nomatch h) ⟨a.finished, got⟩
  refine ⟨k, lt, ?_⟩
  rcases step_initiators (before events k) e i with same | ⟨self, nonceI, rfl, rfl, new⟩ | ⟨_, _, -, waiting, new⟩
  · exact absurd ⟨finished, same.symm.trans now⟩ notYet
  · have eq : a.wait = (self.start nonceI).1 := congrArg InitiatorSession.wait (Option.some.inj (now.symm.trans new))
    rw [eq]
    exact .initiator event
  · cases now.symm.trans new
    exact absurd ⟨_, waiting⟩ notYet

lemma Network.responder_origin {n j : Nat} {b : ResponderSession P}
    (got : (before events n).responders[j]? = some b) :
    ∃ k < n, DrawsAt events k (.responder j) b.wait.nonceR ∧
      ∃ sig, SignsAt events k (.responder j) b.key .r b.wait.nonceI b.wait.nonceR sig := by
  obtain ⟨k, lt, e, event, notYet, ⟨finished, now⟩⟩ := exists_step
    (P := fun s : Network P => ∃ finished, s.responders[j]? = some ⟨b.wait, finished⟩)
    (fun ⟨_, h⟩ => nomatch h) ⟨b.finished, got⟩
  refine ⟨k, lt, ?_⟩
  rcases step_responders (before events k) e j with same | ⟨self, nonceR, msg1, wait, msg2, rfl, ok, rfl, new⟩ |
    ⟨_, _, -, waiting, new⟩
  · exact absurd ⟨finished, same.symm.trans now⟩ notYet
  · have eq : b.wait = wait := congrArg ResponderSession.wait (Option.some.inj (now.symm.trans new))
    rw [ResponderSession.key, eq]
    have nonceR_eq : wait.nonceR = nonceR := by
      obtain ⟨clientPk, -, rfl, -⟩ := Responder.handleMsg1_ok ok
      rfl
    exact ⟨nonceR_eq ▸ .responder event ok, msg2.sigR, .responder event ok⟩
  · cases now.symm.trans new
    exact absurd ⟨_, waiting⟩ notYet

lemma Network.held_origin {n i : Nat} {a : InitiatorSession P} {nonceR : Nonce}
    (got : (before events n).initiators[i]? = some a) (held : a.held = some nonceR) :
    ∃ k < n, ∃ sig, SignsAt events k (.initiator i) a.key .i nonceR a.wait.nonceI sig := by
  obtain ⟨k, lt, e, event, notYet, now⟩ := exists_step
    (P := fun s : Network P => s.initiators[i]? = some a) (by simp [Network.empty]) got
  refine ⟨k, lt, ?_⟩
  rcases step_initiators (before events k) e i with same | ⟨_, _, -, -, new⟩ | ⟨msg2, wait, rfl, waiting, new⟩
  · exact absurd (same.symm.trans now) notYet
  · cases now.symm.trans new
    cases held
  · cases now.symm.trans new
    obtain ⟨rfl, established, msg3, ok⟩ := InitiatorWaitMsg2.finish_of_held held
    exact ⟨msg3.sigI, .initiator event waiting ok⟩

/-- What the sessions have signed was signed at some position. -/
lemma Network.Signed.origin {n : Nat} {key : P.VerifyingKey} {digest : Bytes}
    (signed : (before events n).Signed key digest) :
    ∃ m < n, ∃ signer kind n1 n2 sig, SignsAt events m signer key kind n1 n2 sig ∧
      digest = hashNonces P.sha256 kind.tag n1 n2 := by
  cases signed with
  | inl made =>
    obtain ⟨b, mem, rfl, rfl⟩ := made
    obtain ⟨j, got⟩ := List.mem_iff_getElem?.mp mem
    obtain ⟨m, lt, -, sig, signs⟩ := responder_origin got
    exact ⟨m, lt, _, _, _, _, sig, signs, rfl⟩
  | inr made =>
    obtain ⟨a, mem, rfl, nonceR, held, rfl⟩ := made
    obtain ⟨i, got⟩ := List.mem_iff_getElem?.mp mem
    obtain ⟨m, lt, sig, signs⟩ := held_origin got held
    exact ⟨m, lt, _, _, _, _, sig, signs, rfl⟩

/-! ## What is left of an event -/

/-- The initiator that has finished. -/
lemma Network.finish_stays {m n i : Nat} {msg2 : HsMsg2} {wait : InitiatorWaitMsg2 P}
    {established : EstablishedInitiator P} {msg3 : HsMsg3} (event : events[m]? = some (.msg2 i msg2))
    (waiting : (before events m).initiators[i]? = some ⟨wait, none⟩)
    (ok : wait.finish msg2 = .ok (established, msg3)) (lt : m < n) :
    (before events n).initiators[i]? = some ⟨wait, some (msg2.nonceR, .ok established)⟩ := by
  refine finished_stays lt ?_
  have after : before events (m + 1) = (before events m).step (.msg2 i msg2) := stateAt_succ event
  obtain ⟨inside, _⟩ := List.getElem?_eq_some_iff.mp waiting
  rw [after, Network.step, waiting]
  simp only [ok]
  exact List.getElem?_set_self inside

section

variable {k m n : Nat} {session signer : Session} {key : P.VerifyingKey} {kind : Hello} {n1 n2 nonce : Nonce}
  {sig : Vector UInt8 sigLen} {epoch : UInt64}

lemma SignsAt.initiator_stays {i : Nat} (signs : SignsAt events m (.initiator i) key kind n1 n2 sig) (lt : m < n) :
    kind = .i ∧ ∃ a, (Network.before events n).initiators[i]? = some a ∧ a.key = key ∧ a.held = some n1 ∧
      a.wait.nonceI = n2 ∧ ∃ r ∈ a.finished, r.1 = n1 := by
  cases signs with
  | initiator event waiting ok =>
    exact ⟨rfl, _, Network.finish_stays event waiting ok lt, rfl, rfl, rfl, _, rfl, rfl⟩

lemma SignsAt.responder_stays {j : Nat} (signs : SignsAt events m (.responder j) key kind n1 n2 sig) (lt : m < n) :
    kind = .r ∧ ∃ b, (Network.before events n).responders[j]? = some b ∧ b.key = key ∧ b.wait.nonceI = n1 ∧
      b.wait.nonceR = n2 := by
  cases signs with
  | @responder self nonceR msg1 wait msg2 event ok =>
    have after : Network.before events (m + 1) = (Network.before events m).step (.msg1 self nonceR msg1) :=
      stateAt_succ event
    have new : (Network.before events (m + 1)).responders[(Network.before events m).responders.length]? =
        some ⟨wait, none⟩ := by
      rw [after, Network.step, ok]
      exact List.getElem?_concat_length
    obtain ⟨finished, got⟩ := Network.responder_stays lt new
    exact ⟨rfl, _, got, rfl, rfl, rfl⟩

/-- The session that completes is there with its nonces. -/
lemma CompletesAt.stays (completes : CompletesAt events m session key kind n1 n2 sig epoch)
    (lt : m < n) :
    (kind = .r ∧ ∃ i a, session = .initiator i ∧ (Network.before events n).initiators[i]? = some a ∧
      a.wait.nonceI = n1 ∧ a.held = some n2) ∨
    kind = .i ∧ ∃ j b, session = .responder j ∧ (Network.before events n).responders[j]? = some b ∧
      b.wait.nonceR = n1 ∧ b.wait.nonceI = n2 := by
  cases completes with
  | initiator event waiting ok =>
    exact .inl ⟨rfl, _, _, rfl, Network.finish_stays event waiting ok lt, rfl, rfl⟩
  | responder event waiting ok =>
    obtain ⟨finished, got⟩ := Network.responder_stays lt.le waiting
    exact .inr ⟨rfl, _, _, rfl, got, rfl, rfl⟩

/-- What is signed and what is verified was hashed. -/
lemma SignsAt.hashed (signs : SignsAt events m signer key kind n1 n2 sig) (lt : m < n) :
    nonceBytes kind.tag n1 n2 ∈ (Network.before events n).hashed := by
  cases signer with
  | initiator i =>
    obtain ⟨rfl, a, got, -, held, rfl, -⟩ := signs.initiator_stays lt
    exact (Network.mem_hashed_initiator (List.mem_of_getElem? got) held).2
  | responder j =>
    obtain ⟨rfl, b, got, -, rfl, rfl⟩ := signs.responder_stays lt
    exact (Network.mem_hashed_responder (List.mem_of_getElem? got)).1

lemma CompletesAt.hashed (completes : CompletesAt events m session key kind n1 n2 sig epoch)
    (lt : m < n) : nonceBytes kind.tag n1 n2 ∈ (Network.before events n).hashed := by
  rcases completes.stays lt with ⟨rfl, i, a, -, got, rfl, held⟩ | ⟨rfl, j, b, -, got, rfl, rfl⟩
  · exact (Network.mem_hashed_initiator (List.mem_of_getElem? got) held).1
  · exact (Network.mem_hashed_responder (List.mem_of_getElem? got)).2

lemma SignsAt.signed (signs : SignsAt events m signer key kind n1 n2 sig) (lt : m < n) :
    (Network.before events n).Signed key (hashNonces P.sha256 kind.tag n1 n2) := by
  cases signer with
  | initiator i =>
    obtain ⟨rfl, a, got, key, held, rfl, -⟩ := signs.initiator_stays lt
    exact .inr ⟨a, List.mem_of_getElem? got, key, n1, held, rfl⟩
  | responder j =>
    obtain ⟨rfl, b, got, key, rfl, rfl⟩ := signs.responder_stays lt
    exact .inl ⟨b, List.mem_of_getElem? got, key, rfl⟩

lemma SignsAt.position (signs : SignsAt events m signer key kind n1 n2 sig) : m < events.length := by
  cases signs with
  | initiator event => exact (List.getElem?_eq_some_iff.mp event).1
  | responder event => exact (List.getElem?_eq_some_iff.mp event).1

lemma CompletesAt.position (completes : CompletesAt events m session key kind n1 n2 sig epoch) : m < events.length := by
  cases completes with
  | initiator event => exact (List.getElem?_eq_some_iff.mp event).1
  | responder event => exact (List.getElem?_eq_some_iff.mp event).1

/-! ## The order of events -/

lemma SignsAt.received (signs : SignsAt events m signer key kind n1 n2 sig) (lt : m < n) :
    (Network.before events n).Received n1 := by
  cases signer with
  | initiator i =>
    obtain ⟨-, a, got, -, -, -, finished⟩ := signs.initiator_stays lt
    exact .inr ⟨a, List.mem_of_getElem? got, finished⟩
  | responder j =>
    obtain ⟨-, b, got, -, nonceI, -⟩ := signs.responder_stays lt
    exact .inl ⟨b, List.mem_of_getElem? got, nonceI⟩

lemma DrawsAt.unpredicted (run : Along (Network.AllowedFresh honest) Network.step .empty events)
    (draws : DrawsAt events k session nonce) : ¬ (Network.before events k).Received nonce := by
  cases draws with
  | initiator event => exact (run.stateAt event).2
  | responder event => exact (run.stateAt event).2

/-- The first nonce of a verified signature is the one that the session drew. -/
lemma DrawsAt.nonce_eq (draws : DrawsAt events k session nonce)
    (completes : CompletesAt events n session key kind n1 n2 sig epoch) : nonce = n1 := by
  cases draws with
  | @initiator self _ event =>
    cases completes with
    | @initiator _ msg2 wait established msg3 event' waiting ok =>
      have lt : k < n := by
        by_contra ge
        obtain ⟨_, got⟩ := Network.initiator_stays (Nat.le_of_not_lt ge) waiting
        rw [List.getElem?_eq_none le_rfl] at got
        cases got
      have after : Network.before events (k + 1) = (Network.before events k).step (.start self nonce) :=
        stateAt_succ event
      have new : (Network.before events (k + 1)).initiators[(Network.before events k).initiators.length]? =
          some ⟨(self.start nonce).1, none⟩ := by
        rw [after]
        exact List.getElem?_concat_length
      obtain ⟨_, got⟩ := Network.initiator_stays lt new
      cases got.symm.trans waiting
      rfl
  | @responder self nonceR msg1 wait msg2 event ok =>
    cases completes with
    | @responder _ msg3 wait' established event' waiting ok' =>
      have lt : k < n := by
        by_contra ge
        obtain ⟨_, got⟩ := Network.responder_stays (Nat.le_of_not_lt ge) waiting
        rw [List.getElem?_eq_none le_rfl] at got
        cases got
      have signs : SignsAt events k _ _ _ _ _ _ := .responder event ok
      obtain ⟨-, b, got, -, -, nonceR_eq⟩ := signs.responder_stays lt
      cases got.symm.trans waiting
      obtain ⟨clientPk, -, rfl, -⟩ := Responder.handleMsg1_ok ok
      exact nonceR_eq.symm

/-- Nothing is signed in the event in which a session draws its nonce that the session could complete with. -/
lemma DrawsAt.position_ne (draws : DrawsAt events k session nonce)
    (completes : CompletesAt events n session key kind n1 n2 sig epoch)
    {key' : P.VerifyingKey} {sig' : Vector UInt8 sigLen} (signs : SignsAt events m signer key' kind n1 n2 sig') :
    m ≠ k := by
  rintro rfl
  cases draws with
  | initiator event =>
    obtain rfl : kind = .r := by cases completes; rfl
    cases signs with
    | responder event' => cases event.symm.trans event'
  | responder event =>
    obtain rfl : kind = .i := by cases completes; rfl
    cases signs with
    | initiator event' => cases event.symm.trans event'

/-- A signature for the nonces of a session that completes is made after the session drew its nonce. -/
lemma SignsAt.after_draw (run : Along (Network.AllowedFresh honest) Network.step .empty events)
    (draws : DrawsAt events k session nonce) (completes : CompletesAt events n session key kind n1 n2 sig epoch)
    {key' : P.VerifyingKey} {sig' : Vector UInt8 sigLen} (signs : SignsAt events m signer key' kind n1 n2 sig') :
    k < m := by
  by_contra ge
  have lt : m < k := Nat.lt_of_le_of_ne (Nat.le_of_not_lt ge) (draws.position_ne completes signs)
  have received := signs.received lt
  rw [← draws.nonce_eq completes] at received
  exact draws.unpredicted run received

/-! ## Signatures -/

lemma CompletesAt.verified (completes : CompletesAt events n session key kind n1 n2 sig epoch) :
    P.verify key (hashNonces P.sha256 kind.tag n1 n2) sig = true := by
  cases completes with
  | initiator event waiting ok => exact (InitiatorWaitMsg2.finish_ok ok).1
  | responder event waiting ok => exact (ResponderWaitMsg3.handleMsg3_ok ok).1

lemma SignsAt.verified (signs : SignsAt events m signer key kind n1 n2 sig) :
    P.verify key (hashNonces P.sha256 kind.tag n1 n2) sig = true := by
  cases signs with
  | responder event ok =>
    obtain ⟨clientPk, -, rfl, rfl⟩ := Responder.handleMsg1_ok ok
    exact P.verify_sign _ _
  | initiator event waiting ok =>
    obtain ⟨-, -, rfl⟩ := InitiatorWaitMsg2.finish_ok ok
    exact P.verify_sign _ _

/-- What is verified under an honest key was signed. -/
lemma CompletesAt.unforged (run : Along (Network.AllowedFresh honest) Network.step .empty events)
    (completes : CompletesAt events n session key kind n1 n2 sig epoch) (peer : honest key) :
    (Network.before events n).Signed key (hashNonces P.sha256 kind.tag n1 n2) := by
  have verified := completes.verified
  cases completes with
  | initiator event waiting ok => exact (run.stateAt event).1 _ waiting peer verified
  | responder event waiting ok => exact (run.stateAt event).1 _ waiting peer verified

lemma Hello.nonceBytes_inj {kind' : Hello} {n1' n2' : Nonce}
    (e : nonceBytes kind.tag n1 n2 = nonceBytes kind'.tag n1' n2') : kind = kind' ∧ n1 = n1' ∧ n2 = n2' := by
  have len (k : Hello) : k.tag.length = 7 := by cases k <;> rfl
  obtain ⟨tags, nonces⟩ := D3.nonceBytes_inj ((len kind).trans (len kind').symm) e
  refine ⟨?_, nonces⟩
  revert tags
  cases kind <;> cases kind' <;> decide

/-- The signature that lets a session complete with an honest peer. -/
lemma CompletesAt.signs (run : Along (Network.AllowedFresh honest) Network.step .empty events)
    (free : (Network.before events events.length).CollisionFree)
    (completes : CompletesAt events n session key kind n1 n2 sig epoch) (peer : honest key) :
    ∃ m < n, ∃ signer sig', SignsAt events m signer key kind n1 n2 sig' := by
  obtain ⟨m, lt, signer, kind', n1', n2', sig', signs, digest⟩ := (completes.unforged run peer).origin
  have bytes := free _ (completes.hashed completes.position) _ (signs.hashed signs.position) digest
  obtain ⟨rfl, rfl, rfl⟩ := Hello.nonceBytes_inj bytes
  exact ⟨m, lt, signer, sig', signs⟩

/-- A session that completes has drawn its nonce. -/
lemma CompletesAt.draws (completes : CompletesAt events n session key kind n1 n2 sig epoch) :
    ∃ k < n, DrawsAt events k session n1 := by
  cases completes with
  | initiator event waiting ok => exact Network.initiator_origin waiting
  | responder event waiting ok =>
    obtain ⟨k, lt, draws, -⟩ := Network.responder_origin waiting
    exact ⟨k, lt, draws⟩

/-- The epoch nonce is derived from the two nonces, the initiator's first. -/
lemma CompletesAt.epoch_eq (completes : CompletesAt events n session key kind n1 n2 sig epoch) :
    epoch = match kind with
      | .r => deriveEpochNonce P.sha256 n1 n2
      | .i => deriveEpochNonce P.sha256 n2 n1 := by
  cases completes with
  | initiator event waiting ok =>
    obtain ⟨-, rfl, -⟩ := InitiatorWaitMsg2.finish_ok ok
    rfl
  | responder event waiting ok =>
    obtain ⟨-, rfl⟩ := ResponderWaitMsg3.handleMsg3_ok ok
    rfl

/-! ## No second session -/

variable {n' : Nat} {session' : Session} {key' : P.VerifyingKey} {kind' : Hello} {n1' n2' : Nonce}
  {sig' : Vector UInt8 sigLen} {epoch' : UInt64}

/-- Sessions that have drawn the same nonce are the same. -/
lemma CompletesAt.session_eq (inv : (Network.before events events.length).Inv honest)
    (completes : CompletesAt events n session key kind n1 n2 sig epoch)
    (completes' : CompletesAt events n' session' key' kind n1 n2' sig' epoch') : session = session' := by
  rcases completes.stays completes.position with ⟨rfl, i, a, rfl, got, rfl, -⟩ | ⟨rfl, j, b, rfl, got, rfl, -⟩
  · rcases completes'.stays completes'.position with ⟨-, i', a', rfl, got', same, -⟩ | ⟨e, -⟩
    · rw [getElem?_inj_of_nodup_map inv.noncesI got got' same.symm]
    · cases e
  · rcases completes'.stays completes'.position with ⟨e, -⟩ | ⟨-, j', b', rfl, got', same, -⟩
    · cases e
    · rw [getElem?_inj_of_nodup_map inv.noncesR got got' same.symm]

lemma CompletesAt.once (inv : (Network.before events events.length).Inv honest)
    (free : (Network.before events events.length).CollisionFree)
    (completes : CompletesAt events n session key kind n1 n2 sig epoch)
    (completes' : CompletesAt events n' session' key' kind' n1' n2' sig' epoch')
    (digest : hashNonces P.sha256 kind.tag n1 n2 = hashNonces P.sha256 kind'.tag n1' n2') : session = session' := by
  have bytes := free _ (completes.hashed completes.position) _ (completes'.hashed completes'.position) digest
  obtain ⟨rfl, rfl, rfl⟩ := Hello.nonceBytes_inj bytes
  exact completes.session_eq inv completes'

/-- The signers of two initiators that hold the same nonce are the same session, which has one nonce of its peer. -/
lemma CompletesAt.msg2_once (run : Along (Network.AllowedFresh honest) Network.step .empty events)
    (inv : (Network.before events events.length).Inv honest)
    (free : (Network.before events events.length).CollisionFree)
    (completes : CompletesAt events n session key .r n1 n2 sig epoch)
    (completes' : CompletesAt events n' session' key' .r n1' n2 sig' epoch') (peer : honest key)
    (peer' : honest key') : session = session' := by
  obtain ⟨m, -, signer, _, signs⟩ := completes.signs run free peer
  obtain ⟨m', -, signer', _, signs'⟩ := completes'.signs run free peer'
  have nonceI : n1 = n1' := by
    cases signer with
    | initiator i => cases (signs.initiator_stays signs.position).1
    | responder j =>
      cases signer' with
      | initiator i => cases (signs'.initiator_stays signs'.position).1
      | responder j' =>
        obtain ⟨-, b, got, -, rfl, nonceR⟩ := signs.responder_stays signs.position
        obtain ⟨-, b', got', -, rfl, nonceR'⟩ := signs'.responder_stays signs'.position
        obtain rfl := getElem?_inj_of_nodup_map inv.noncesR got got' (nonceR.trans nonceR'.symm)
        cases got.symm.trans got'
        rfl
  subst nonceI
  exact completes.session_eq inv completes'

/-- With binding signatures, a session completes only with a signature over its own digest. -/
lemma CompletesAt.digest_eq (run : Along (Network.AllowedFresh honest) Network.step .empty events)
    (binding : (Network.before events events.length).Binding)
    (completes : CompletesAt events n session key kind n1 n2 sig epoch) (peer : honest key) {digest : Bytes}
    (signed : (Network.before events events.length).Signed key' digest)
    (verified : P.verify key' digest sig = true) : hashNonces P.sha256 kind.tag n1 n2 = digest := by
  have signed' : (Network.before events events.length).Signed key (hashNonces P.sha256 kind.tag n1 n2) := by
    obtain ⟨m, lt, signer, kind', n1', n2', sig', signs, eq⟩ := (completes.unforged run peer).origin
    rw [eq]
    exact signs.signed signs.position
  exact binding _ _ _ _ sig signed' signed completes.verified verified

end

/-! ## Freshness -/

/-- What holds of a run. -/
structure Freshness (honest : P.VerifyingKey → Prop) (events : List (Event P)) : Prop where
  /-- The signature that lets a session complete was made after the session drew its nonce, by a session with the
      expected key and with the same nonces in the same order. -/
  fresh : ∀ n session key kind n1 n2 sig epoch, CompletesAt events n session key kind n1 n2 sig epoch → honest key →
    ∃ k m signer sig', DrawsAt events k session n1 ∧ SignsAt events m signer key kind n1 n2 sig' ∧ k < m ∧ m < n
  /-- No session has signed these nonces before. -/
  unsigned : ∀ n session key kind n1 n2 sig epoch k nonce m signer key' sig',
    CompletesAt events n session key kind n1 n2 sig epoch → DrawsAt events k session nonce →
    SignsAt events m signer key' kind n1 n2 sig' → k < m
  /-- No signature lets two sessions complete: they verify signatures over different digests. -/
  once : ∀ n session key kind n1 n2 sig epoch n' session' key' kind' n1' n2' sig' epoch',
    CompletesAt events n session key kind n1 n2 sig epoch →
    CompletesAt events n' session' key' kind' n1' n2' sig' epoch' →
    hashNonces P.sha256 kind.tag n1 n2 = hashNonces P.sha256 kind'.tag n1' n2' → session = session'
  /-- A recorded Msg2 completes no second session: its nonce completes only one. -/
  msg2Once : ∀ n i key nonceI nonceR sig epoch n' i' key' nonceI' sig' epoch',
    CompletesAt events n (.initiator i) key .r nonceI nonceR sig epoch →
    CompletesAt events n' (.initiator i') key' .r nonceI' nonceR sig' epoch' → honest key → honest key' → i = i'
  /-- A recorded signature completes no later session, if signatures bind what they were made for: neither one that
      was made before the session drew its nonce, nor one that has completed another session. -/
  recorded : (events.foldl Network.step .empty).Binding →
    ∀ n session key kind n1 n2 sig epoch, CompletesAt events n session key kind n1 n2 sig epoch → honest key →
      (∀ k nonce m signer key' kind' n1' n2', DrawsAt events k session nonce →
        SignsAt events m signer key' kind' n1' n2' sig → k < m) ∧
      ∀ n' session' key' kind' n1' n2' epoch', CompletesAt events n' session' key' kind' n1' n2' sig epoch' →
        honest key' → session = session'
  /-- Completed sessions with the same nonces have the same epoch nonce. -/
  epochs : ∀ n i key nonceI nonceR sig epoch n' j key' sig' epoch',
    CompletesAt events n (.initiator i) key .r nonceI nonceR sig epoch →
    CompletesAt events n' (.responder j) key' .i nonceR nonceI sig' epoch' → epoch = epoch'

/-- Freshness of the handshake, in every run in which no signature of an honest key is forged, no nonce is drawn twice
    or received before it is drawn, and SHA-256 does not collide. -/
theorem handshake_fresh (run : Along (Network.AllowedFresh honest) Network.step Network.empty events)
    (free : (events.foldl Network.step Network.empty).CollisionFree) : Freshness honest events := by
  have final : Network.before events events.length = events.foldl Network.step .empty := stateAt_of_length_le le_rfl
  rw [← final] at free
  have inv : (Network.before events events.length).Inv honest := by
    rw [final]
    exact Along.inv (P := fun s : Network P => s.Inv honest) .empty
      (fun _ _ inv allowed => inv.step allowed.1) run
  constructor
  case fresh =>
    intro n session key kind n1 n2 sig epoch completes peer
    obtain ⟨k, -, draws⟩ := completes.draws
    obtain ⟨m, lt, signer, sig', signs⟩ := completes.signs run free peer
    exact ⟨k, m, signer, sig', draws, signs, signs.after_draw run draws completes, lt⟩
  case unsigned =>
    intro n session key kind n1 n2 sig epoch k nonce m signer key' sig' completes draws signs
    exact signs.after_draw run draws completes
  case once =>
    intro n session key kind n1 n2 sig epoch n' session' key' kind' n1' n2' sig' epoch' completes completes' digest
    exact completes.once inv free completes' digest
  case msg2Once =>
    intro n i key nonceI nonceR sig epoch n' i' key' nonceI' sig' epoch' completes completes' peer peer'
    exact Session.initiator.inj (completes.msg2_once run inv free completes' peer peer')
  case recorded =>
    intro binding n session key kind n1 n2 sig epoch completes peer
    rw [← final] at binding
    constructor
    · intro k nonce m signer key' kind' n1' n2' draws signs
      have digest := completes.digest_eq run binding peer (signs.signed signs.position) signs.verified
      have bytes := free _ (completes.hashed completes.position) _ (signs.hashed signs.position) digest
      obtain ⟨rfl, rfl, rfl⟩ := Hello.nonceBytes_inj bytes
      exact signs.after_draw run draws completes
    · intro n' session' key' kind' n1' n2' epoch' completes' peer'
      have signed := (completes'.unforged run peer').origin
      obtain ⟨m, -, signer, _, _, _, sig', signs, eq⟩ := signed
      have digest := completes.digest_eq run binding peer (signs.signed signs.position) (eq ▸ completes'.verified)
      exact completes.once inv free completes' (digest.trans eq.symm)
  case epochs =>
    intro n i key nonceI nonceR sig epoch n' j key' sig' epoch' completes completes'
    exact completes.epoch_eq.trans completes'.epoch_eq.symm

/-! ## A run -/

lemma Network.Signed.length_digest {s : Network P} {key : P.VerifyingKey} {digest : Bytes}
    (signed : s.Signed key digest) : digest.length = 32 := by
  rcases signed with ⟨_, _, _, rfl⟩ | ⟨_, _, _, _, _, rfl⟩
  · exact P.sha256.length_sum _
  · exact P.sha256.length_sum _

/-- The second half of a signature of the example suite is the digest. -/
lemma plain_binding (s : Network .plain) : s.Binding := by
  intro key key' digest digest' sig signed signed' verified verified'
  have same := ofFn_inj ((beq_iff_eq.mp verified).symm.trans (beq_iff_eq.mp verified'))
  have len := signed.length_digest
  have len' := signed'.length_digest
  have second (key : Vector UInt8 pubkeyLen) (digest : Bytes) (t : Nat) :
      (key.toList ++ digest).getD (32 + t) 0 = digest.getD t 0 := by
    rw [List.getD_eq_getElem?_getD,
      List.getElem?_append_right (by rw [Vector.length_toList]; exact Nat.le_add_right _ _), Vector.length_toList,
      Nat.add_sub_cancel_left, List.getD_eq_getElem?_getD]
  apply List.ext_getElem (len.trans len'.symm)
  intro t lt lt'
  have at_t := same ⟨32 + t, by omega⟩
  simpa only [second, List.getD_eq_getElem?_getD, List.getElem?_eq_getElem lt, List.getElem?_eq_getElem lt',
    Option.getD_some] using at_t

theorem handshake_fresh_undisturbed :
    undisturbedNetwork.initiators.map InitiatorSession.held = [some (plainKey 22)] ∧
      undisturbedNetwork.responders.map ResponderSession.completed = [true] ∧
      undisturbedNetwork.Binding ∧ Freshness plainHonest undisturbed :=
  ⟨undisturbed_completed.1, undisturbed_completed.2, plain_binding _,
    handshake_fresh (by decide +kernel) undisturbed_collisionFree⟩

end Otap.D3
