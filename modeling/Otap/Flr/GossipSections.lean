import Otap.Flr.Gossip

/-!
# The sections of a call

A section of `SyncWithOperator` reads endpoints and local leases, which no section writes, and writes a commitment or a
`LastSeen`. So it does the same to every manager with the same endpoints and leases (`resume_uniform`), two sections
commute unless both save (`Effect.comm`), and the sections of a call in a row are the call (`resumes_four`).
-/

namespace Otap.Flr

open Otap.Lib

variable {P : Platform}

/-! ## What a section reads and writes -/

/-- Two managers that no section tells apart: they have the same endpoints and the same leases. -/
structure SameView (m n : Federation P) : Prop where
  endpoints : ∀ id, (m.operators.get id).map Operator.endpoint = (n.operators.get id).map Operator.endpoint
  leases : (m.registry.map fun e => e.store.leases) = n.registry.map fun e => e.store.leases
  operatorID : m.operatorID = n.operatorID

lemma SameView.refl (m : Federation P) : SameView m m :=
  ⟨fun _ => rfl, rfl, rfl⟩

lemma SameView.symm {m n : Federation P} (view : SameView m n) : SameView n m :=
  ⟨fun id => (view.endpoints id).symm, view.leases.symm, view.operatorID.symm⟩

lemma SameView.trans {m n k : Federation P} (first : SameView m n) (second : SameView n k) : SameView m k :=
  ⟨fun id => (first.endpoints id).trans (second.endpoints id), first.leases.trans second.leases,
    first.operatorID.trans second.operatorID⟩

/-- What a section writes. -/
inductive Effect where
  | nothing
  | save (commitment : MerkleCommitment)
  | seen (operatorID : Bytes) (now : Time)

/-- The store with a commitment at its height and as the latest one. -/
def Store.hold (s : Store) (c : MerkleCommitment) : Store :=
  { s with commitments :=
      (s.commitments.set (heightKey c.operatorID c.blockHeight) c).set (latestKey c.operatorID) c }

namespace Effect

def apply (m : Federation P) : Effect → Federation P
  | nothing => m
  | save c => { m with registry := m.registry.map fun e => { e with store := e.store.hold c } }
  | seen operatorID now => m.seen operatorID now

/-- Two effects that can be exchanged. -/
def Compatible : Effect → Effect → Prop
  | save c, save c' => c.operatorID = c'.operatorID → c = c'
  | seen o _, seen o' _ => o ≠ o'
  | _, _ => True

lemma sameView (e : Effect) (m : Federation P) : SameView m (e.apply m) := by
  cases e with
  | nothing => exact .refl m
  | save c =>
    refine ⟨fun _ => rfl, ?_, rfl⟩
    rw [apply, Option.map_map]
    rfl
  | seen operatorID now =>
    rw [apply, Federation.seen]
    split
    case h_1 => exact .refl m
    case h_2 op found =>
      refine ⟨fun id => ?_, rfl, rfl⟩
      rw [KV.get_set]
      split
      case isTrue same =>
        rw [same, found]
        rfl
      case isFalse => rfl

end Effect

lemma Store.hold_comm (s : Store) {c c' : MerkleCommitment} (agree : c.operatorID = c'.operatorID → c = c') :
    (s.hold c).hold c' = (s.hold c').hold c := by
  by_cases same : c.operatorID = c'.operatorID
  case pos => rw [agree same]
  case neg =>
    have apart (e e' : Entry) : entryKey c.operatorID e ≠ entryKey c'.operatorID e' :=
      fun h => same (entryKey_inj.mp h).1
    have heights := apart (.height c.blockHeight) (.height c'.blockHeight)
    have latest := apart .latest .latest
    have first := apart (.height c.blockHeight) .latest
    have second := apart .latest (.height c'.blockHeight)
    simp only [entryKey_height, entryKey_latest] at heights latest first second
    simp only [hold, Store.mk.injEq, true_and]
    apply KV.ext_get
    intro k
    simp only [KV.get_set]
    grind

lemma Federation.seen_comm (m : Federation P) {o o' : Bytes} (ne : o ≠ o') (t t' : Time) :
    (m.seen o t).seen o' t' = (m.seen o' t').seen o t := by
  unfold seen
  cases found : m.operators.get o with
  | none =>
    cases found' : m.operators.get o' with
    | none => simp only [found]
    | some op' => simp only [found, KV.get_set_ne _ _ ne]
  | some op =>
    cases found' : m.operators.get o' with
    | none => simp only [found, found', KV.get_set_ne _ _ ne.symm]
    | some op' =>
      simp only [found, found', KV.get_set_ne _ _ ne, KV.get_set_ne _ _ ne.symm]
      rw [KV.set_comm _ ne]

lemma Effect.comm {e e' : Effect} (compatible : e.Compatible e') (m : Federation P) :
    e'.apply (e.apply m) = e.apply (e'.apply m) := by
  cases e with
  | nothing => rfl
  | save c =>
    cases e' with
    | nothing => rfl
    | save c' =>
      simp only [apply, Option.map_map]
      congr 2
      funext e
      simp only [Function.comp_apply, Store.hold_comm _ compatible]
    | seen o' t' =>
      simp only [apply, Federation.seen]
      split <;> rfl
  | seen o t =>
    cases e' with
    | nothing => rfl
    | save c' =>
      simp only [apply, Federation.seen]
      split <;> rfl
    | seen o' t' => exact m.seen_comm compatible t t'

/-- What the section of a call at some phase may write. -/
def Effect.Of (call : SyncCall) (operatorID : Bytes) (phase : SyncPhase) : Effect → Prop
  | nothing => True
  | save c => (∃ endpoint, phase = .fetched endpoint c) ∧ c.operatorID ≠ [] ∧ call.env.fails 0 = false
  | seen o _ => o = operatorID

lemma SameView.registry_none {m n : Federation P} (view : SameView m n) (none : m.registry = none) :
    n.registry = .none := by
  have leases := view.leases
  rw [none] at leases
  exact Option.map_eq_none_iff.mp leases.symm

lemma SameView.registry_some {m n : Federation P} (view : SameView m n) {e : Engine P} (some : m.registry = some e) :
    ∃ e', n.registry = .some e' ∧ e'.store.leases = e.store.leases := by
  have leases := view.leases
  rw [some] at leases
  exact Option.map_eq_some_iff.mp leases.symm

namespace Federation

variable {m m' : Federation P} {dec : Decoder} {call : SyncCall} {operatorID : Bytes} {phase next : SyncPhase}

/-- Whether a commitment is saved depends on the view only. -/
lemma saveCommitment_uniform (m : Federation P) (call : SyncCall) (operatorID endpoint : Bytes)
    (c : MerkleCommitment) :
    (∃ err, ∀ n, SameView m n → n.saveCommitment (call.env.fails 0) c = .error err) ∨
      ∃ e : Effect, e.Of call operatorID (.fetched endpoint c) ∧
        ∀ n, SameView m n → n.saveCommitment (call.env.fails 0) c = .ok (e.apply n) := by
  cases registry : m.registry with
  | none =>
    refine .inr ⟨.nothing, trivial, fun n view => ?_⟩
    rw [saveCommitment, view.registry_none registry]
    rfl
  | some e =>
    by_cases unnamed : c.operatorID = []
    case pos =>
      refine .inl ⟨ascii "operator ID cannot be empty", fun n view => ?_⟩
      obtain ⟨e', registry, -⟩ := view.registry_some registry
      rw [saveCommitment, registry]
      dsimp only
      rw [Store.saveCommitment, if_pos unnamed]
    case neg =>
      cases fails : call.env.fails 0 with
      | true =>
        refine .inl ⟨dbError, fun n view => ?_⟩
        obtain ⟨e', registry, -⟩ := view.registry_some registry
        rw [saveCommitment, registry]
        dsimp only
        rw [Store.saveCommitment, if_neg unnamed, if_pos rfl]
      | false =>
        refine .inr ⟨.save c, ⟨⟨endpoint, rfl⟩, unnamed, fails⟩, fun n view => ?_⟩
        obtain ⟨e', registry, -⟩ := view.registry_some registry
        rw [saveCommitment, registry]
        dsimp only
        rw [Store.saveCommitment, if_neg unnamed, if_neg Bool.false_ne_true, Effect.apply, registry]
        rfl

/-- A section does the same to every manager with the same view. -/
lemma exists_effect (ran : m.resume dec call operatorID phase = some (next, m')) :
    ∃ e : Effect, e.Of call operatorID phase ∧
      ∀ n, SameView m n → n.resume dec call operatorID phase = some (next, e.apply n) := by
  cases phase with
  | called =>
    refine ⟨.nothing, trivial, fun n view => ?_⟩
    have endpoint := view.endpoints operatorID
    unfold resume at ran ⊢
    dsimp only at ran ⊢
    split at ran
    case h_1 absent =>
      cases ran
      rw [absent] at endpoint
      rw [Option.map_eq_none_iff.mp endpoint.symm]
      rfl
    case h_2 op found =>
      rw [found] at endpoint
      obtain ⟨op', found', endpoint⟩ := Option.map_eq_some_iff.mp endpoint.symm
      rw [found']
      dsimp only
      rw [endpoint]
      split at ran <;> cases ran <;> rfl
  | fetched endpoint c =>
    unfold resume at ran ⊢
    dsimp only at ran ⊢
    rcases m.saveCommitment_uniform call operatorID endpoint c with ⟨err, fails⟩ | ⟨e, of, saves⟩
    · rw [fails m (.refl m)] at ran
      cases ran
      refine ⟨.nothing, trivial, fun n view => ?_⟩
      rw [fails n view]
      rfl
    · rw [saves m (.refl m)] at ran
      refine ⟨e, of, fun n view => ?_⟩
      rw [saves n view]
      dsimp only at ran ⊢
      split at ran <;> cases ran <;> rfl
  | leases peerLeases =>
    unfold resume at ran ⊢
    dsimp only at ran ⊢
    split at ran
    case h_1 => cases ran
    case h_2 e registry =>
      refine ⟨.nothing, trivial, fun n view => ?_⟩
      obtain ⟨e', registry', leases⟩ := view.registry_some registry
      rw [registry']
      dsimp only
      rw [Store.listLeases, leases, ← view.operatorID, ← Store.listLeases]
      split at ran
      case isTrue fails =>
        cases ran
        rw [if_pos fails]
        rfl
      case isFalse works =>
        rw [if_neg works]
        split at ran
        case h_1 => cases ran
        case h_2 =>
          cases ran
          rfl
  | compared =>
    cases ran
    exact ⟨.seen operatorID (call.env.now 0), rfl, fun _ _ => rfl⟩
  | returned result =>
    cases ran
    exact ⟨.nothing, trivial, fun _ _ => rfl⟩

lemma resume_uniform (ran : m.resume dec call operatorID phase = some (next, m')) :
    ∃ e : Effect, e.Of call operatorID phase ∧ m' = e.apply m ∧
      ∀ n, SameView m n → n.resume dec call operatorID phase = some (next, e.apply n) := by
  obtain ⟨e, of, uniform⟩ := exists_effect ran
  have here := uniform m (.refl m)
  rw [ran] at here
  cases here
  exact ⟨e, of, rfl, uniform⟩

/-! ## A call as its sections -/

/-- Some sections of a call in a row. -/
def resumes (dec : Decoder) (call : SyncCall) (operatorID : Bytes) :
    Nat → Federation P → SyncPhase → Option (SyncPhase × Federation P)
  | 0, m, phase => some (phase, m)
  | k + 1, m, phase =>
    match m.resume dec call operatorID phase with
    | none => none
    | some (next, m') => resumes dec call operatorID k m' next

lemma resumes_returned (m : Federation P) (k : Nat) (result : Result Unit) :
    resumes dec call operatorID k m (.returned result) = some (.returned result, m) := by
  induction k with
  | zero => rfl
  | succ k ih => exact ih

lemma resumes_add (k j : Nat) (m : Federation P) (phase : SyncPhase) :
    resumes dec call operatorID (k + j) m phase =
      (resumes dec call operatorID k m phase).bind fun p => resumes dec call operatorID j p.2 p.1 := by
  induction k generalizing m phase with
  | zero => rw [Nat.zero_add, resumes, Option.bind_some]
  | succ k ih =>
    rw [Nat.succ_add, resumes, resumes]
    cases m.resume dec call operatorID phase with
    | none => rfl
    | some p => exact ih p.2 p.1

/-- Four sections are the call. -/
lemma resumes_four {p : SyncPhase × Federation P} (ran : resumes dec call operatorID 4 m .called = some p) :
    p = (.returned (m.sync dec call operatorID).1, (m.sync dec call operatorID).2) := by
  unfold sync syncWithOperator
  rw [resumes] at ran
  cases found : m.operators.get operatorID with
  | none =>
    rw [resume, found] at ran
    dsimp only at ran
    rw [resumes_returned] at ran
    exact (Option.some.inj ran).symm
  | some op =>
    rw [resume, found] at ran
    dsimp only at ran ⊢
    cases fetched : getCommitment dec op.endpoint call.commitmentReply with
    | error err =>
      rw [fetched] at ran
      dsimp only at ran ⊢
      rw [resumes_returned] at ran
      exact (Option.some.inj ran).symm
    | ok c =>
      rw [fetched] at ran
      dsimp only at ran ⊢
      rw [resumes, resume] at ran
      cases saved : m.saveCommitment (call.env.fails 0) c with
      | error err =>
        rw [saved] at ran
        dsimp only at ran ⊢
        rw [resumes_returned] at ran
        exact (Option.some.inj ran).symm
      | ok n =>
        rw [saved] at ran
        dsimp only at ran ⊢
        cases got : getLeases dec op.endpoint call.leasesReply with
        | error err =>
          rw [got] at ran
          dsimp only at ran ⊢
          rw [resumes_returned] at ran
          exact (Option.some.inj ran).symm
        | ok peerLeases =>
          rw [got] at ran
          dsimp only at ran ⊢
          rw [resumes, resume] at ran
          cases registry : n.registry with
          | none =>
            rw [registry] at ran
            cases ran
          | some e =>
            rw [registry] at ran
            dsimp only at ran ⊢
            split at ran
            case h_1 => cases ran
            case h_2 next m' compared =>
              split at compared
              case isTrue fails =>
                cases compared
                rw [resumes_returned] at ran
                rw [if_pos fails]
                exact (Option.some.inj ran).symm
              case isFalse works =>
                rw [if_neg works]
                cases conflicts : findConflicts call.clock
                    ((e.store.listLeases { operatorID := n.operatorID, status := LeaseStatus.active }).map some)
                    peerLeases with
                | none =>
                  rw [conflicts] at compared
                  cases compared
                | some out =>
                  rw [conflicts] at compared
                  cases compared
                  exact (Option.some.inj ran).symm

/-- A call that has come to its end has come to its result. -/
lemma eq_of_resumes_returned {k : Nat} {result : Result Unit}
    (ran : resumes dec call operatorID k m .called = some (.returned result, m')) :
    result = (m.sync dec call operatorID).1 := by
  have longer : resumes dec call operatorID (4 + k) m .called = some (.returned result, m') := by
    rw [Nat.add_comm, resumes_add, ran, Option.bind_some, resumes_returned]
  rw [resumes_add] at longer
  obtain ⟨p, four, rest⟩ := Option.bind_eq_some_iff.mp longer
  rw [resumes_four four, resumes_returned] at rest
  cases rest
  rfl

/-- Sections keep the view, and come equally far from every manager that has it. -/
lemma resumes_uniform {k : Nat} (ran : resumes dec call operatorID k m phase = some (next, m')) :
    SameView m m' ∧ ∀ n, SameView m n → ∃ n', resumes dec call operatorID k n phase = some (next, n') := by
  induction k generalizing m phase with
  | zero =>
    cases ran
    exact ⟨.refl _, fun n _ => ⟨n, rfl⟩⟩
  | succ k ih =>
    rw [resumes] at ran
    split at ran
    case h_1 => cases ran
    case h_2 between m₁ first =>
      obtain ⟨e, -, rfl, same⟩ := resume_uniform first
      obtain ⟨view, others⟩ := ih ran
      refine ⟨(e.sameView m).trans view, fun n here => ?_⟩
      rw [resumes, same n here]
      exact others _ ((e.sameView m).symm.trans (here.trans (e.sameView n)))

end Federation

/-! ## Panics -/

/-- The peer sends no nil among its leases. -/
def Reply.NoNil (dec : Decoder) (reply : Reply) : Prop :=
  ∀ endpoint peerLeases, getLeases dec endpoint reply = .ok peerLeases → none ∉ peerLeases

/-- Without nil leases the scan does not panic. -/
lemma findConflicts_isSome (clock : ConflictClock) (L : List Lease) {remotes : List (Option Lease)}
    (noNil : none ∉ remotes) : ∃ out, findConflicts clock (L.map some) remotes = some out := by
  unfold findConflicts
  refine exists_bind_pure (exists_mapM ?_)
  rintro ⟨l, i⟩ mem
  obtain ⟨a, -, rfl⟩ := List.mem_map.mp (List.fst_mem_of_mem_zipIdx mem)
  dsimp only [Option.bind_eq_bind, Option.bind_some]
  split
  case isTrue => exact ⟨_, rfl⟩
  case isFalse =>
    refine exists_bind_pure (exists_mapM ?_)
    rintro ⟨r, j⟩ mem
    cases r with
    | none => exact absurd (List.fst_mem_of_mem_zipIdx mem) noNil
    | some b =>
      dsimp only [Option.bind_some]
      split
      case isTrue => exact ⟨_, rfl⟩
      case isFalse => exact ⟨_, rfl⟩

/-! ## The phases of a call -/

lemma SyncPhase.rank_eq_zero {phase : SyncPhase} (zero : phase.rank = 0) : ∃ result, phase = .returned result := by
  cases phase with
  | returned result => exact ⟨result, rfl⟩
  | _ => cases zero

/-- The phases that follow a phase. -/
lemma Federation.resume_cases {m m' : Federation P} {dec : Decoder} {call : SyncCall} {operatorID : Bytes}
    {phase next : SyncPhase} (ran : m.resume dec call operatorID phase = some (next, m')) :
    (∃ result, next = .returned result) ∨
    (∃ endpoint c, phase = .called ∧ next = .fetched endpoint c ∧
      getCommitment dec endpoint call.commitmentReply = .ok c) ∨
    (∃ endpoint c peerLeases, phase = .fetched endpoint c ∧ next = .leases peerLeases ∧
      getLeases dec endpoint call.leasesReply = .ok peerLeases) ∨
    ∃ peerLeases, phase = .leases peerLeases ∧ next = .compared := by
  cases phase with
  | called =>
    unfold resume at ran
    dsimp only at ran
    split at ran
    case h_1 =>
      cases ran
      exact .inl ⟨_, rfl⟩
    case h_2 op found =>
      split at ran
      case h_1 =>
        cases ran
        exact .inl ⟨_, rfl⟩
      case h_2 c fetched =>
        cases ran
        exact .inr (.inl ⟨op.endpoint, c, rfl, rfl, fetched⟩)
  | fetched endpoint c =>
    unfold resume at ran
    dsimp only at ran
    split at ran
    case h_1 =>
      cases ran
      exact .inl ⟨_, rfl⟩
    case h_2 =>
      split at ran
      case h_1 =>
        cases ran
        exact .inl ⟨_, rfl⟩
      case h_2 peerLeases fetched =>
        cases ran
        exact .inr (.inr (.inl ⟨endpoint, c, peerLeases, rfl, rfl, fetched⟩))
  | leases peerLeases =>
    unfold resume at ran
    dsimp only at ran
    split at ran
    case h_1 => cases ran
    case h_2 =>
      split at ran
      case isTrue =>
        cases ran
        exact .inl ⟨_, rfl⟩
      case isFalse =>
        split at ran
        case h_1 => cases ran
        case h_2 =>
          cases ran
          exact .inr (.inr (.inr ⟨peerLeases, rfl, rfl⟩))
  | compared =>
    cases ran
    exact .inl ⟨_, rfl⟩
  | returned result =>
    cases ran
    exact .inl ⟨_, rfl⟩

lemma Federation.rank_resume {m m' : Federation P} {dec : Decoder} {call : SyncCall} {operatorID : Bytes}
    {phase next : SyncPhase} (live : phase.rank ≠ 0)
    (ran : m.resume dec call operatorID phase = some (next, m')) : next.rank < phase.rank := by
  rcases resume_cases ran with ⟨_, rfl⟩ | ⟨_, _, rfl, rfl, -⟩ | ⟨_, _, _, rfl, rfl, -⟩ | ⟨_, rfl, rfl⟩
  · exact Nat.pos_of_ne_zero live
  · exact Nat.lt_succ_self 3
  · exact Nat.lt_succ_self 2
  · exact Nat.lt_succ_self 1

end Otap.Flr
