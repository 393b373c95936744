import Otap.Lib.Run
import Otap.D3.Handshake

/-!
# What the two sides of a handshake agree on

Any number of sessions run over a network that an attacker controls: every message that a session receives is an
input of the run. What the attacker cannot do is said per step by `Network.Allowed`: a signature that verifies under
an honest key was made by a session that uses the key, and sessions draw new nonces.

The signatures cover the nonces only. The two sides therefore agree on the nonces, and on each other's keys only as
far as the other side of the other session is honest as well (`Network.Agreement`); the agreement on the keys that one
would expect (`Network.InitiatorAgreement`, `Network.ResponderAgreement`) fails when the attacker puts its own key
into a message (`clientKeyReplaced`), or passes on the messages of a session that was meant for it (`passedOn`).
-/

namespace Otap.D3

open Otap.Lib

variable {P : Suite}

/-! ## Sessions -/

/-- A session of `Initiator` after `start`. `finish` consumes it: the nonce of the message and the result. -/
structure InitiatorSession (P : Suite) where
  wait : InitiatorWaitMsg2 P
  finished : Option (Nonce × Except HsError (EstablishedInitiator P))

/-- A session of `Responder` after a `handle_msg1` that succeeded, with the result of `handle_msg3`. -/
structure ResponderSession (P : Suite) where
  wait : ResponderWaitMsg3 P
  finished : Option (Except HsError (EstablishedResponder P))

structure Network (P : Suite) where
  initiators : List (InitiatorSession P)
  responders : List (ResponderSession P)

def Network.empty : Network P :=
  ⟨[], []⟩

/-- What the attacker makes happen: a session starts, or receives a message. -/
inductive Event (P : Suite)
  | start (self : Initiator P) (nonceI : Nonce)
  | msg1 (self : Responder P) (nonceR : Nonce) (msg1 : HsMsg1)
  | msg2 (session : Nat) (msg2 : HsMsg2)
  | msg3 (session : Nat) (msg3 : HsMsg3)

def Network.step (s : Network P) : Event P → Network P
  | .start self nonceI =>
    { s with initiators := s.initiators ++ [⟨(self.start nonceI).1, none⟩] }
  | .msg1 self nonceR msg1 =>
    match self.handleMsg1 nonceR msg1 with
    | .ok (wait, _) => { s with responders := s.responders ++ [⟨wait, none⟩] }
    | .error _ => s
  | .msg2 i msg2 =>
    match s.initiators[i]? with
    | some ⟨wait, none⟩ =>
      let result := (wait.finish msg2).map Prod.fst
      { s with initiators := s.initiators.set i ⟨wait, some (msg2.nonceR, result)⟩ }
    | _ => s
  | .msg3 j msg3 =>
    match s.responders[j]? with
    | some ⟨wait, none⟩ =>
      { s with responders := s.responders.set j ⟨wait, some (wait.handleMsg3 msg3)⟩ }
    | _ => s

/-- The responder's nonce of a session that has completed. -/
def InitiatorSession.held (a : InitiatorSession P) : Option Nonce :=
  match a.finished with
  | some (nonceR, .ok _) => some nonceR
  | _ => none

def ResponderSession.completed (b : ResponderSession P) : Bool :=
  match b.finished with
  | some (.ok _) => true
  | _ => false

def InitiatorSession.key (a : InitiatorSession P) : P.VerifyingKey :=
  P.verifyingKey a.wait.sk

def ResponderSession.key (b : ResponderSession P) : P.VerifyingKey :=
  P.verifyingKey b.wait.sk

/-! ## The attacker -/

/-- The digests that sessions with the key have signed: `handle_msg1` signs the nonces of the session, and `finish`
    does when it succeeds. -/
def Network.Signed (s : Network P) (key : P.VerifyingKey) (digest : Bytes) : Prop :=
  (∃ b ∈ s.responders, b.key = key ∧
    digest = hashNonces P.sha256 helloR b.wait.nonceI b.wait.nonceR) ∨
  ∃ a ∈ s.initiators, a.key = key ∧ ∃ nonceR ∈ a.held,
    digest = hashNonces P.sha256 helloI nonceR a.wait.nonceI

/-- The nonce was drawn by a session. -/
def Network.Drawn (s : Network P) (nonce : Nonce) : Prop :=
  (∃ a ∈ s.initiators, a.wait.nonceI = nonce) ∨ ∃ b ∈ s.responders, b.wait.nonceR = nonce

/-- What the attacker and the random generator cannot do. -/
def Network.Allowed (honest : P.VerifyingKey → Prop) (s : Network P) : Event P → Prop
  | .start _ nonceI => ¬ s.Drawn nonceI
  | .msg1 _ nonceR _ => ¬ s.Drawn nonceR
  | .msg2 i msg2 => ∀ a ∈ s.initiators[i]?, honest a.wait.peerPk →
    let digest := hashNonces P.sha256 helloR a.wait.nonceI msg2.nonceR
    P.verify a.wait.peerPk digest msg2.sigR = true → s.Signed a.wait.peerPk digest
  | .msg3 j msg3 => ∀ b ∈ s.responders[j]?, honest b.wait.clientPk →
    let digest := hashNonces P.sha256 helloI b.wait.nonceR b.wait.nonceI
    P.verify b.wait.clientPk digest msg3.sigI = true → s.Signed b.wait.clientPk digest

instance [DecidableEq P.VerifyingKey] (s : Network P) (key : P.VerifyingKey) (digest : Bytes) :
    Decidable (s.Signed key digest) :=
  inferInstanceAs (Decidable (_ ∨ _))

instance (s : Network P) (nonce : Nonce) : Decidable (s.Drawn nonce) :=
  inferInstanceAs (Decidable (_ ∨ _))

instance [DecidableEq P.VerifyingKey] (honest : P.VerifyingKey → Prop) [DecidablePred honest]
    (s : Network P) : ∀ e, Decidable (s.Allowed honest e)
  | .start _ nonceI => inferInstanceAs (Decidable (¬ s.Drawn nonceI))
  | .msg1 _ nonceR _ => inferInstanceAs (Decidable (¬ s.Drawn nonceR))
  | .msg2 _ _ => inferInstanceAs (Decidable (∀ a ∈ _, _ → _ → s.Signed _ _))
  | .msg3 _ _ => inferInstanceAs (Decidable (∀ b ∈ _, _ → _ → s.Signed _ _))

/-- The byte strings that the sessions have hashed for signatures. -/
def Network.hashed (s : Network P) : List Bytes :=
  s.initiators.flatMap (fun a =>
    match a.held with
    | some nonceR => [nonceBytes helloR a.wait.nonceI nonceR, nonceBytes helloI nonceR a.wait.nonceI]
    | none => []) ++
  s.responders.flatMap fun b =>
    [nonceBytes helloR b.wait.nonceI b.wait.nonceR, nonceBytes helloI b.wait.nonceR b.wait.nonceI]

/-- SHA-256 does not collide on them. -/
def Network.CollisionFree (s : Network P) : Prop :=
  ∀ x ∈ s.hashed, ∀ y ∈ s.hashed, P.sha256.sum x = P.sha256.sum y → x = y

/-! ## Agreement -/

/-- An initiator that completes with an honest peer agrees with a session of the peer on the nonces and both keys. -/
def Network.InitiatorAgreement (honest : P.VerifyingKey → Prop) (s : Network P) : Prop :=
  ∀ a ∈ s.initiators, ∀ nonceR ∈ a.held, honest a.key → honest a.wait.peerPk →
    ∃ b ∈ s.responders, b.key = a.wait.peerPk ∧ b.wait.clientPk = a.key ∧
      b.wait.nonceI = a.wait.nonceI ∧ b.wait.nonceR = nonceR

/-- A responder that completes with an honest client agrees with a session of the client on the nonces and both
    keys. -/
def Network.ResponderAgreement (honest : P.VerifyingKey → Prop) (s : Network P) : Prop :=
  ∀ b ∈ s.responders, b.completed = true → honest b.key → honest b.wait.clientPk →
    ∃ a ∈ s.initiators, a.key = b.wait.clientPk ∧ a.wait.peerPk = b.key ∧
      a.wait.nonceI = b.wait.nonceI ∧ a.held = some b.wait.nonceR

/-- Agreement on the nonces. The responder's client key is the initiator's once that session has completed and if it
    is honest; the initiator's peer key is the responder's if it is honest. -/
structure Network.Agreement (honest : P.VerifyingKey → Prop) (s : Network P) : Prop where
  initiator : ∀ a ∈ s.initiators, ∀ nonceR ∈ a.held, honest a.wait.peerPk →
    ∃ b ∈ s.responders, b.key = a.wait.peerPk ∧
      (b.completed = true → honest b.wait.clientPk → b.wait.clientPk = a.key) ∧
      b.wait.nonceI = a.wait.nonceI ∧ b.wait.nonceR = nonceR
  responder : ∀ b ∈ s.responders, b.completed = true → honest b.wait.clientPk →
    ∃ a ∈ s.initiators, a.key = b.wait.clientPk ∧
      (honest a.wait.peerPk → a.wait.peerPk = b.key) ∧
      a.wait.nonceI = b.wait.nonceI ∧ a.held = some b.wait.nonceR

/-! ## Sessions are only added and finished -/

structure Network.Grows (s s' : Network P) : Prop where
  initiators : ∀ a ∈ s.initiators, ∃ a' ∈ s'.initiators, a'.wait = a.wait ∧ ∀ n ∈ a.held, n ∈ a'.held
  responders : ∀ b ∈ s.responders, ∃ b' ∈ s'.responders, b'.wait = b.wait

lemma Network.Signed.mono {s s' : Network P} {key : P.VerifyingKey} {digest : Bytes}
    (signed : s.Signed key digest) (grows : s.Grows s') : s'.Signed key digest := by
  cases signed with
  | inl h =>
    obtain ⟨b, mem, rfl, eq⟩ := h
    obtain ⟨b', mem', wait⟩ := grows.responders b mem
    have key : b'.key = b.key := congrArg (fun w : ResponderWaitMsg3 P => P.verifyingKey w.sk) wait
    refine .inl ⟨b', mem', key, ?_⟩
    rw [wait]
    exact eq
  | inr h =>
    obtain ⟨a, mem, rfl, nonceR, held, eq⟩ := h
    obtain ⟨a', mem', wait, keeps⟩ := grows.initiators a mem
    have key : a'.key = a.key := congrArg (fun w : InitiatorWaitMsg2 P => P.verifyingKey w.sk) wait
    refine .inr ⟨a', mem', key, nonceR, keeps _ held, ?_⟩
    rw [wait]
    exact eq

/-! ## The invariant -/

/-- What a session has accepted under an honest key was signed, and no nonce was drawn twice. -/
structure Network.Inv (honest : P.VerifyingKey → Prop) (s : Network P) : Prop where
  heard : ∀ a ∈ s.initiators, ∀ nonceR ∈ a.held, honest a.wait.peerPk →
    s.Signed a.wait.peerPk (hashNonces P.sha256 helloR a.wait.nonceI nonceR)
  answered : ∀ b ∈ s.responders, b.completed = true → honest b.wait.clientPk →
    s.Signed b.wait.clientPk (hashNonces P.sha256 helloI b.wait.nonceR b.wait.nonceI)
  noncesI : (s.initiators.map (·.wait.nonceI)).Nodup
  noncesR : (s.responders.map (·.wait.nonceR)).Nodup

variable {honest : P.VerifyingKey → Prop} {s : Network P}

lemma Network.Inv.empty : (Network.empty : Network P).Inv honest where
  heard a mem := by cases mem
  answered b mem := by cases mem
  noncesI := List.nodup_nil
  noncesR := List.nodup_nil

lemma Network.Inv.start (inv : s.Inv honest) {wait : InitiatorWaitMsg2 P}
    (fresh : ¬ s.Drawn wait.nonceI) :
    ({ s with initiators := s.initiators ++ [⟨wait, none⟩] } : Network P).Inv honest := by
  have grows : s.Grows { s with initiators := s.initiators ++ [⟨wait, none⟩] } :=
    ⟨fun a mem => ⟨a, List.mem_append_left _ mem, rfl, fun _ => id⟩, fun b mem => ⟨b, mem, rfl⟩⟩
  constructor
  case heard =>
    intro a mem nonceR held peer
    cases List.mem_append.mp mem with
    | inl mem => exact (inv.heard a mem nonceR held peer).mono grows
    | inr mem =>
      rw [List.mem_singleton.mp mem] at held
      cases held
  case answered => exact fun b mem done client => (inv.answered b mem done client).mono grows
  case noncesI =>
    rw [List.map_append, List.map_singleton, ← List.concat_eq_append]
    apply List.Nodup.concat _ inv.noncesI
    intro mem
    obtain ⟨a, mem, eq⟩ := List.mem_map.mp mem
    exact fresh (.inl ⟨a, mem, eq⟩)
  case noncesR => exact inv.noncesR

lemma Network.Inv.msg1 (inv : s.Inv honest) {wait : ResponderWaitMsg3 P}
    (fresh : ¬ s.Drawn wait.nonceR) :
    ({ s with responders := s.responders ++ [⟨wait, none⟩] } : Network P).Inv honest := by
  have grows : s.Grows { s with responders := s.responders ++ [⟨wait, none⟩] } :=
    ⟨fun a mem => ⟨a, mem, rfl, fun _ => id⟩, fun b mem => ⟨b, List.mem_append_left _ mem, rfl⟩⟩
  constructor
  case heard => exact fun a mem nonceR held peer => (inv.heard a mem nonceR held peer).mono grows
  case answered =>
    intro b mem done client
    cases List.mem_append.mp mem with
    | inl mem => exact (inv.answered b mem done client).mono grows
    | inr mem =>
      rw [List.mem_singleton.mp mem] at done
      cases done
  case noncesI => exact inv.noncesI
  case noncesR =>
    rw [List.map_append, List.map_singleton, ← List.concat_eq_append]
    apply List.Nodup.concat _ inv.noncesR
    intro mem
    obtain ⟨b, mem, eq⟩ := List.mem_map.mp mem
    exact fresh (.inr ⟨b, mem, eq⟩)

/-- A session that holds the peer's nonce after a message has finished with it. -/
lemma InitiatorWaitMsg2.finish_of_held {wait : InitiatorWaitMsg2 P} {msg2 : HsMsg2} {nonceR : Nonce}
    (held : (⟨wait, some (msg2.nonceR, (wait.finish msg2).map Prod.fst)⟩ : InitiatorSession P).held = some nonceR) :
    nonceR = msg2.nonceR ∧ ∃ established msg3, wait.finish msg2 = .ok (established, msg3) := by
  unfold InitiatorSession.held at held
  cases finish : wait.finish msg2 with
  | error e =>
    rw [finish] at held
    cases held
  | ok result =>
    rw [finish] at held
    exact ⟨(Option.some.inj held).symm, result.1, result.2, rfl⟩

lemma ResponderWaitMsg3.handleMsg3_of_completed {wait : ResponderWaitMsg3 P} {msg3 : HsMsg3}
    (done : (⟨wait, some (wait.handleMsg3 msg3)⟩ : ResponderSession P).completed = true) :
    ∃ established, wait.handleMsg3 msg3 = .ok established := by
  unfold ResponderSession.completed at done
  cases result : wait.handleMsg3 msg3 with
  | error e =>
    rw [result] at done
    cases done
  | ok established => exact ⟨established, rfl⟩

lemma Network.Inv.msg2 (inv : s.Inv honest) {i : Nat} {wait : InitiatorWaitMsg2 P} {msg2 : HsMsg2}
    (got : s.initiators[i]? = some ⟨wait, none⟩) (allowed : s.Allowed honest (.msg2 i msg2)) :
    ({ s with
      initiators := s.initiators.set i
        ⟨wait, some (msg2.nonceR, (wait.finish msg2).map Prod.fst)⟩ } : Network P).Inv honest := by
  have grows : s.Grows { s with
      initiators := s.initiators.set i
        ⟨wait, some (msg2.nonceR, (wait.finish msg2).map Prod.fst)⟩ } := by
    refine ⟨?_, fun b mem => ⟨b, mem, rfl⟩⟩
    refine exists_mem_set (R := fun a a' : InitiatorSession P =>
      a'.wait = a.wait ∧ ∀ n ∈ a.held, n ∈ a'.held) (fun _ => ⟨rfl, fun _ => id⟩) got ⟨rfl, ?_⟩
    intro n held
    cases held
  constructor
  case heard =>
    intro a mem nonceR held peer
    cases List.mem_or_eq_of_mem_set mem with
    | inl mem => exact (inv.heard a mem nonceR held peer).mono grows
    | inr eq =>
      subst eq
      obtain ⟨rfl, established, msg3, ok⟩ := InitiatorWaitMsg2.finish_of_held held
      exact (allowed _ got peer (InitiatorWaitMsg2.finish_ok ok).1).mono grows
  case answered => exact fun b mem done client => (inv.answered b mem done client).mono grows
  case noncesI => exact Eq.subst (motive := List.Nodup) (map_set_self got (by rfl)).symm inv.noncesI
  case noncesR => exact inv.noncesR

lemma Network.Inv.msg3 (inv : s.Inv honest) {j : Nat} {wait : ResponderWaitMsg3 P} {msg3 : HsMsg3}
    (got : s.responders[j]? = some ⟨wait, none⟩) (allowed : s.Allowed honest (.msg3 j msg3)) :
    ({ s with responders := s.responders.set j ⟨wait, some (wait.handleMsg3 msg3)⟩ } :
      Network P).Inv honest := by
  have grows : s.Grows { s with
      responders := s.responders.set j ⟨wait, some (wait.handleMsg3 msg3)⟩ } := by
    refine ⟨fun a mem => ⟨a, mem, rfl, fun _ => id⟩, ?_⟩
    exact exists_mem_set (R := fun b b' : ResponderSession P => b'.wait = b.wait) (fun _ => rfl) got rfl
  constructor
  case heard => exact fun a mem nonceR held peer => (inv.heard a mem nonceR held peer).mono grows
  case answered =>
    intro b mem done client
    cases List.mem_or_eq_of_mem_set mem with
    | inl mem => exact (inv.answered b mem done client).mono grows
    | inr eq =>
      subst eq
      obtain ⟨established, ok⟩ := ResponderWaitMsg3.handleMsg3_of_completed done
      exact (allowed _ got client (ResponderWaitMsg3.handleMsg3_ok ok).1).mono grows
  case noncesI => exact inv.noncesI
  case noncesR => exact Eq.subst (motive := List.Nodup) (map_set_self got (by rfl)).symm inv.noncesR

lemma Network.Inv.step (inv : s.Inv honest) {e : Event P} (allowed : s.Allowed honest e) :
    (s.step e).Inv honest := by
  cases e with
  | start self nonceI => exact inv.start allowed
  | msg1 self nonceR msg1 =>
    simp only [Network.step]
    split
    case h_1 wait msg2 ok =>
      obtain ⟨clientPk, -, rfl, -⟩ := Responder.handleMsg1_ok ok
      exact inv.msg1 allowed
    case h_2 => exact inv
  | msg2 i msg2 =>
    simp only [Network.step]
    split
    case h_1 wait got => exact inv.msg2 got allowed
    case h_2 => exact inv
  | msg3 j msg3 =>
    simp only [Network.step]
    split
    case h_1 wait got => exact inv.msg3 got allowed
    case h_2 => exact inv

/-! ## Agreement from signatures -/

lemma nonceBytes_inj {tag tag' : Bytes} {n1 n2 n1' n2' : Nonce} (len : tag.length = tag'.length)
    (h : nonceBytes tag n1 n2 = nonceBytes tag' n1' n2') : tag = tag' ∧ n1 = n1' ∧ n2 = n2' := by
  unfold nonceBytes at h
  have len' : (tag ++ n1.toList).length = (tag' ++ n1'.toList).length := by
    rw [List.length_append, List.length_append, len, Vector.length_toList, Vector.length_toList]
  obtain ⟨front, last⟩ := List.append_inj h len'
  obtain ⟨tags, first⟩ := List.append_inj front len
  exact ⟨tags, Vector.toList_inj.mp first, Vector.toList_inj.mp last⟩

lemma Network.mem_hashed_initiator {a : InitiatorSession P} (mem : a ∈ s.initiators) {nonceR : Nonce}
    (held : nonceR ∈ a.held) :
    nonceBytes helloR a.wait.nonceI nonceR ∈ s.hashed ∧
      nonceBytes helloI nonceR a.wait.nonceI ∈ s.hashed := by
  have eq : a.held = some nonceR := held
  constructor
  · exact List.mem_append_left _ (List.mem_flatMap.mpr ⟨a, mem, by simp [eq]⟩)
  · exact List.mem_append_left _ (List.mem_flatMap.mpr ⟨a, mem, by simp [eq]⟩)

lemma Network.mem_hashed_responder {b : ResponderSession P} (mem : b ∈ s.responders) :
    nonceBytes helloR b.wait.nonceI b.wait.nonceR ∈ s.hashed ∧
      nonceBytes helloI b.wait.nonceR b.wait.nonceI ∈ s.hashed := by
  constructor
  · exact List.mem_append_right _ (List.mem_flatMap.mpr ⟨b, mem, by simp⟩)
  · exact List.mem_append_right _ (List.mem_flatMap.mpr ⟨b, mem, by simp⟩)

/-- A signed digest of the responder's kind comes from a responder session with the nonces. -/
lemma Network.Signed.responder {key : P.VerifyingKey} {nonceI nonceR : Nonce}
    (signed : s.Signed key (hashNonces P.sha256 helloR nonceI nonceR)) (free : s.CollisionFree)
    (mem : nonceBytes helloR nonceI nonceR ∈ s.hashed) :
    ∃ b ∈ s.responders, b.key = key ∧ b.wait.nonceI = nonceI ∧ b.wait.nonceR = nonceR := by
  cases signed with
  | inl h =>
    obtain ⟨b, memb, key, digest⟩ := h
    have bytes := free _ mem _ (mem_hashed_responder memb).1 digest
    obtain ⟨-, first, last⟩ := nonceBytes_inj rfl bytes
    exact ⟨b, memb, key, first.symm, last.symm⟩
  | inr h =>
    obtain ⟨a, mema, _, nonceR', held, digest⟩ := h
    have bytes := free _ mem _ (mem_hashed_initiator mema held).2 digest
    have tags : helloR = helloI := (nonceBytes_inj (by decide) bytes).1
    exact absurd tags (by decide)

/-- A signed digest of the initiator's kind comes from an initiator session that has completed with the nonces. -/
lemma Network.Signed.initiator {key : P.VerifyingKey} {nonceI nonceR : Nonce}
    (signed : s.Signed key (hashNonces P.sha256 helloI nonceR nonceI)) (free : s.CollisionFree)
    (mem : nonceBytes helloI nonceR nonceI ∈ s.hashed) :
    ∃ a ∈ s.initiators, a.key = key ∧ a.wait.nonceI = nonceI ∧ nonceR ∈ a.held := by
  cases signed with
  | inl h =>
    obtain ⟨b, memb, _, digest⟩ := h
    have bytes := free _ mem _ (mem_hashed_responder memb).1 digest
    have tags : helloI = helloR := (nonceBytes_inj (by decide) bytes).1
    exact absurd tags (by decide)
  | inr h =>
    obtain ⟨a, mema, key, nonceR', held, digest⟩ := h
    have bytes := free _ mem _ (mem_hashed_initiator mema held).2 digest
    obtain ⟨-, first, last⟩ := nonceBytes_inj rfl bytes
    exact ⟨a, mema, key, last.symm, first ▸ held⟩

lemma Network.Inv.agreement (inv : s.Inv honest) (free : s.CollisionFree) : s.Agreement honest := by
  have heard : ∀ a ∈ s.initiators, ∀ nonceR ∈ a.held, honest a.wait.peerPk →
      ∃ b ∈ s.responders, b.key = a.wait.peerPk ∧ b.wait.nonceI = a.wait.nonceI ∧
        b.wait.nonceR = nonceR := by
    intro a mem nonceR held peer
    exact (inv.heard a mem nonceR held peer).responder free (mem_hashed_initiator mem held).1
  have answered : ∀ b ∈ s.responders, b.completed = true → honest b.wait.clientPk →
      ∃ a ∈ s.initiators, a.key = b.wait.clientPk ∧ a.wait.nonceI = b.wait.nonceI ∧
        b.wait.nonceR ∈ a.held := by
    intro b mem done client
    exact (inv.answered b mem done client).initiator free (mem_hashed_responder mem).2
  constructor
  case initiator =>
    intro a mem nonceR held peer
    obtain ⟨b, memb, key, nonceI, eq⟩ := heard a mem nonceR held peer
    refine ⟨b, memb, key, ?_, nonceI, eq⟩
    intro done client
    obtain ⟨a', mem', key', nonceI', _⟩ := answered b memb done client
    have same : a' = a := List.inj_on_of_nodup_map inv.noncesI mem' mem (nonceI'.trans nonceI)
    rw [← key', same]
  case responder =>
    intro b mem done client
    obtain ⟨a, mema, key, nonceI, held⟩ := answered b mem done client
    refine ⟨a, mema, key, ?_, nonceI, held⟩
    intro peer
    obtain ⟨b', mem', key', _, nonceR⟩ := heard a mema b.wait.nonceR held peer
    have same : b' = b := List.inj_on_of_nodup_map inv.noncesR mem' mem nonceR
    rw [← key', same]

/-- Agreement of the handshake, in every run in which no signature of an honest key is forged, no nonce is drawn twice
    and SHA-256 does not collide. -/
theorem handshake_agreement {events : List (Event P)}
    (run : Along (Network.Allowed honest) Network.step Network.empty events)
    (reached : events.foldl Network.step Network.empty = s) (free : s.CollisionFree) :
    s.Agreement honest := by
  have inv : s.Inv honest := by
    rw [← reached]
    exact Along.inv (P := fun s : Network P => s.Inv honest) .empty
      (fun _ _ inv allowed => inv.step allowed) run
  exact inv.agreement free

/-! ## Runs -/

/-- A suite to run examples with: a signature is the key and the digest. -/
abbrev Suite.plain : Suite where
  SigningKey := Vector UInt8 pubkeyLen
  VerifyingKey := Vector UInt8 pubkeyLen
  verifyingKey := id
  sign key msg := Vector.ofFn fun i : Fin 64 => (key.toList ++ msg).getD i 0
  verify key msg sig := sig == Vector.ofFn fun i : Fin 64 => (key.toList ++ msg).getD i 0
  asBytes := id
  fromBytes := some
  verify_sign _ _ := beq_self_eq_true _
  fromBytes_asBytes _ := rfl
  sha256 := Hash.positional 32

instance : DecidableEq Suite.plain.VerifyingKey :=
  inferInstanceAs (DecidableEq (Vector UInt8 pubkeyLen))

/-- The key, or the nonce, of 32 equal bytes. -/
def plainKey (x : UInt8) : Vector UInt8 pubkeyLen :=
  Vector.replicate pubkeyLen x

/-- The keys 1 and 2 are honest. -/
def plainHonest (key : Suite.plain.VerifyingKey) : Prop :=
  key = plainKey 1 ∨ key = plainKey 2

instance : DecidablePred plainHonest :=
  fun _ => inferInstanceAs (Decidable (_ ∨ _))

/-- The signature over the nonces with the tag. -/
def plainSig (key : Vector UInt8 pubkeyLen) (tag : Bytes) (n1 n2 : Nonce) : Vector UInt8 sigLen :=
  Suite.plain.sign key (hashNonces Suite.plain.sha256 tag n1 n2)

/-- Key 1 completes a handshake with key 2. -/
def undisturbed : List (Event .plain) :=
  [ .start ⟨plainKey 1, plainKey 2⟩ (plainKey 11),
    .msg1 ⟨plainKey 2, fun _ => true⟩ (plainKey 22) ⟨plainKey 1, plainKey 11⟩,
    .msg2 0 ⟨plainKey 2, plainKey 22, plainSig (plainKey 2) helloR (plainKey 11) (plainKey 22)⟩,
    .msg3 0 ⟨plainKey 1, plainSig (plainKey 1) helloI (plainKey 22) (plainKey 11)⟩ ]

def undisturbedNetwork : Network .plain :=
  undisturbed.foldl Network.step .empty

/-- Both sides complete. -/
lemma undisturbed_completed :
    undisturbedNetwork.initiators.map InitiatorSession.held = [some (plainKey 22)] ∧
      undisturbedNetwork.responders.map ResponderSession.completed = [true] := by
  decide +kernel

lemma undisturbed_collisionFree : undisturbedNetwork.CollisionFree := by
  unfold Network.CollisionFree
  decide +kernel

theorem handshake_agreement_undisturbed :
    undisturbedNetwork.initiators.map InitiatorSession.held = [some (plainKey 22)] ∧
      undisturbedNetwork.responders.map ResponderSession.completed = [true] ∧
      undisturbedNetwork.Agreement plainHonest :=
  ⟨undisturbed_completed.1, undisturbed_completed.2,
    handshake_agreement (by decide +kernel) rfl undisturbed_collisionFree⟩

/-- The attacker, with key 3, puts its key into the first message of key 1 to key 2. -/
def clientKeyReplaced : List (Event .plain) :=
  [ .start ⟨plainKey 1, plainKey 2⟩ (plainKey 11),
    .msg1 ⟨plainKey 2, fun _ => true⟩ (plainKey 22) ⟨plainKey 3, plainKey 11⟩,
    .msg2 0 ⟨plainKey 2, plainKey 22, plainSig (plainKey 2) helloR (plainKey 11) (plainKey 22)⟩ ]

/-- The attacker passes the messages of a session of key 1 with key 3 on to key 2, and answers key 1 itself. -/
def passedOn : List (Event .plain) :=
  [ .start ⟨plainKey 1, plainKey 3⟩ (plainKey 11),
    .msg1 ⟨plainKey 2, fun _ => true⟩ (plainKey 22) ⟨plainKey 1, plainKey 11⟩,
    .msg2 0 ⟨plainKey 3, plainKey 22, plainSig (plainKey 3) helloR (plainKey 11) (plainKey 22)⟩,
    .msg3 0 ⟨plainKey 1, plainSig (plainKey 1) helloI (plainKey 22) (plainKey 11)⟩ ]

/-- The two sides do not agree on the keys: neither the initiator nor the responder. -/
theorem not_handshake_mutualAgreement :
    (¬ ∀ (P : Suite) (honest : P.VerifyingKey → Prop) (events : List (Event P)) (s : Network P),
      Along (Network.Allowed honest) Network.step Network.empty events →
      events.foldl Network.step Network.empty = s → s.CollisionFree →
      s.InitiatorAgreement honest) ∧
    ¬ ∀ (P : Suite) (honest : P.VerifyingKey → Prop) (events : List (Event P)) (s : Network P),
      Along (Network.Allowed honest) Network.step Network.empty events →
      events.foldl Network.step Network.empty = s → s.CollisionFree →
      s.ResponderAgreement honest := by
  constructor
  · intro h
    have agreement := h .plain plainHonest clientKeyReplaced _ (by decide +kernel) rfl
      (by unfold Network.CollisionFree; decide +kernel)
    unfold Network.InitiatorAgreement at agreement
    revert agreement
    decide +kernel
  · intro h
    have agreement := h .plain plainHonest passedOn _ (by decide +kernel) rfl
      (by unfold Network.CollisionFree; decide +kernel)
    unfold Network.ResponderAgreement at agreement
    revert agreement
    decide +kernel

end Otap.D3
