import Otap.Flr.GossipSections

/-!
# Every schedule of a round

Whatever the schedule, a goroutine has come as far as its call alone would have (`Traced`), so what a call returns does
not depend on the others. The store that a round leaves is independent of the schedule if and only if no two peers send
different commitments of one operator (`gossip_interleavings`).
-/

namespace Otap.Flr

open Otap.Lib

variable {P : Platform}

/-! ## Runs of a round -/

namespace Round

variable {m : Federation P} {dec : Decoder} {calls : Bytes → SyncCall} {ops : List Bytes} {s s' : Round P}
  {operatorID : Bytes}

/-- What a step does: the goroutine that continues has not returned, and panics or comes to its next phase. -/
lemma step_eq_some_iff : s.step dec calls operatorID = some s' ↔
    s.crashed = false ∧ ∃ phase, s.tasks operatorID = some phase ∧ phase.rank ≠ 0 ∧
      (s.manager.resume dec (calls operatorID) operatorID phase = none ∧ s' = { s with crashed := true } ∨
        ∃ next m, s.manager.resume dec (calls operatorID) operatorID phase = some (next, m) ∧
          s' = { s with manager := m, tasks := Function.update s.tasks operatorID (some next) }) := by
  unfold step
  cases s.crashed with
  | true => simp
  | false =>
    rw [if_neg Bool.false_ne_true]
    cases s.tasks operatorID with
    | none => simp
    | some phase =>
      by_cases ended : phase.rank = 0
      case pos => simp [ended]
      case neg =>
        dsimp only
        rw [if_neg ended]
        constructor
        · intro fired
          refine ⟨rfl, phase, rfl, ended, ?_⟩
          split at fired
          case h_1 panic => exact .inl ⟨panic, (Option.some.inj fired).symm⟩
          case h_2 next m ran => exact .inr ⟨next, m, ran, (Option.some.inj fired).symm⟩
        · rintro ⟨-, _, task, -, ⟨panic, rfl⟩ | ⟨next, m, ran, rfl⟩⟩
          · cases task
            rw [panic]
          · cases task
            rw [ran]

lemma task_of_result {r : Result Unit} (returned : s.result operatorID = some r) :
    s.tasks operatorID = some (.returned r) := by
  unfold result at returned
  split at returned
  case h_1 r' task =>
    cases returned
    exact task
  case h_2 => cases returned

/-- What holds in a round whatever it meets: every goroutine has come as far as its call alone would have. -/
structure Traced (m : Federation P) (dec : Decoder) (calls : Bytes → SyncCall) (ops : List Bytes) (s : Round P) :
    Prop where
  known : ∀ {id phase}, s.tasks id = some phase → id ∈ ops
  started : ∀ id ∈ ops, (s.tasks id).isSome
  view : SameView m s.manager
  path : ∀ {id phase}, s.tasks id = some phase →
    ∃ k m', Federation.resumes dec (calls id) id k m .called = some (phase, m')

/-- A goroutine has started for each of the operators, and for no other one. -/
lemma tasks_start (m : Federation P) (ops : List Bytes) (id : Bytes) :
    id ∈ ops ∧ (start m ops).tasks id = some .called ∨ id ∉ ops ∧ (start m ops).tasks id = none := by
  rw [start]
  by_cases here : id ∈ ops
  · exact .inl ⟨here, if_pos (List.elem_eq_true_of_mem here)⟩
  · exact .inr ⟨here, if_neg fun elem => here (List.mem_of_elem_eq_true elem)⟩

lemma called_of_mem (m : Federation P) {id : Bytes} (here : id ∈ ops) : (start m ops).tasks id = some .called :=
  ((tasks_start m ops id).resolve_right fun other => other.1 here).2

/-- It holds at the start. -/
lemma Traced.start (m : Federation P) (dec : Decoder) (calls : Bytes → SyncCall) (ops : List Bytes) :
    Traced m dec calls ops (start m ops) := by
  refine ⟨fun {id phase} task => ?_, fun id here => ?_, .refl m, fun {id phase} task => ?_⟩
  · obtain ⟨here, -⟩ | ⟨-, none⟩ := tasks_start m ops id
    · exact here
    · cases none.symm.trans task
  · rw [called_of_mem m here]
    rfl
  · obtain ⟨-, called⟩ | ⟨-, none⟩ := tasks_start m ops id
    · cases called.symm.trans task
      exact ⟨0, m, rfl⟩
    · cases none.symm.trans task

lemma Traced.step (traced : Traced m dec calls ops s) (fired : s.step dec calls operatorID = some s') :
    Traced m dec calls ops s' := by
  obtain ⟨-, phase, task, -, ⟨-, rfl⟩ | ⟨next, m₁, ran, rfl⟩⟩ := step_eq_some_iff.mp fired
  case inl => exact ⟨traced.known, traced.started, traced.view, traced.path⟩
  case inr =>
    obtain ⟨e, -, rfl, uniform⟩ := Federation.resume_uniform ran
    refine ⟨fun {id phase'} task' => ?_, fun id here => ?_, traced.view.trans (e.sameView _),
      fun {id phase'} task' => ?_⟩
    · dsimp only at task'
      rw [Function.update_apply] at task'
      split at task'
      case isTrue same => exact same ▸ traced.known task
      case isFalse => exact traced.known task'
    · dsimp only
      rw [Function.update_apply]
      split
      case isTrue => rfl
      case isFalse => exact traced.started id here
    dsimp only at task'
    rw [Function.update_apply] at task'
    split at task'
    case isTrue same =>
      subst id
      cases task'
      obtain ⟨k, m', path⟩ := traced.path task
      have view : SameView s.manager m' := traced.view.symm.trans (Federation.resumes_uniform path).1
      refine ⟨k + 1, e.apply m', ?_⟩
      rw [Federation.resumes_add, path, Option.bind_some, Federation.resumes, uniform m' view]
      rfl
    case isFalse => exact traced.path task'

/-- What a goroutine has returned is what its call alone would have. -/
lemma Traced.result_eq (traced : Traced m dec calls ops s) {r : Result Unit} (returned : s.result operatorID = some r) :
    r = (m.sync dec (calls operatorID) operatorID).1 := by
  obtain ⟨k, m', path⟩ := traced.path (task_of_result returned)
  exact Federation.eq_of_resumes_returned path

/-- The phase of a goroutine, other than the first one, came from a section. -/
lemma Traced.came (traced : Traced m dec calls ops s) {phase : SyncPhase} (task : s.tasks operatorID = some phase) :
    phase = .called ∨ ∃ (n n' : Federation P) (before : SyncPhase),
      n.resume dec (calls operatorID) operatorID before = some (phase, n') := by
  obtain ⟨k, m', path⟩ := traced.path task
  cases k with
  | zero =>
    cases path
    exact .inl rfl
  | succ k =>
    rw [Federation.resumes_add] at path
    obtain ⟨⟨before, n⟩, -, last⟩ := Option.bind_eq_some_iff.mp path
    rw [Federation.resumes] at last
    split at last
    case h_1 => cases last
    case h_2 next n' ran =>
      cases last
      exact .inr ⟨n, _, before, ran⟩

lemma Traced.fetched (traced : Traced m dec calls ops s) {endpoint : Bytes} {c : MerkleCommitment}
    (task : s.tasks operatorID = some (.fetched endpoint c)) :
    getCommitment dec endpoint (calls operatorID).commitmentReply = .ok c := by
  rcases traced.came task with first | ⟨n, n', before, ran⟩
  · cases first
  · rcases Federation.resume_cases ran with ⟨_, eq⟩ | ⟨_, _, -, eq, got⟩ | ⟨_, _, _, -, eq, -⟩ | ⟨_, -, eq⟩
    all_goals cases eq
    exact got

lemma Traced.leases (traced : Traced m dec calls ops s) {peerLeases : List (Option Lease)}
    (task : s.tasks operatorID = some (.leases peerLeases)) :
    ∃ endpoint, getLeases dec endpoint (calls operatorID).leasesReply = .ok peerLeases := by
  rcases traced.came task with first | ⟨n, n', before, ran⟩
  · cases first
  · rcases Federation.resume_cases ran with ⟨_, eq⟩ | ⟨_, _, -, eq, -⟩ | ⟨endpoint, _, _, -, eq, got⟩ | ⟨_, -, eq⟩
    all_goals cases eq
    exact ⟨endpoint, got⟩

/-- What a section of a goroutine saves is what its call saves. -/
lemma Traced.saves (traced : Traced m dec calls ops s) (hasRegistry : m.registry.isSome) {phase : SyncPhase}
    (task : s.tasks operatorID = some phase) {c : MerkleCommitment}
    (of : (Effect.save c).Of (calls operatorID) operatorID phase) :
    m.Saves dec (calls operatorID).env (calls operatorID).commitmentReply c := by
  obtain ⟨⟨endpoint, rfl⟩, ne, works⟩ := of
  exact ⟨getCommitment_ok.mp (traced.fetched task), hasRegistry, ne, works⟩

end Round

/-- A round in which nothing panics: there is a registry, and no peer sends a nil lease. -/
structure Calm (m : Federation P) (dec : Decoder) (calls : Bytes → SyncCall) (ops : List Bytes) : Prop where
  registry : m.registry.isSome
  noNil : ∀ id ∈ ops, (calls id).leasesReply.NoNil dec

/-- No two peers send different commitments of one operator. -/
def Agreeing (m : Federation P) (dec : Decoder) (calls : Bytes → SyncCall) (ops : List Bytes) : Prop :=
  ∀ id ∈ ops, ∀ id' ∈ ops, ∀ c c', m.Saves dec (calls id).env (calls id).commitmentReply c →
    m.Saves dec (calls id').env (calls id').commitmentReply c' → c.operatorID = c'.operatorID → c = c'

namespace Round

/-- The sections that a goroutine has left. -/
def rankOf (s : Round P) (operatorID : Bytes) : Nat :=
  match s.tasks operatorID with
  | none => 0
  | some phase => phase.rank

lemma rankOf_of_task {s : Round P} {operatorID : Bytes} {phase : SyncPhase} (task : s.tasks operatorID = some phase) :
    s.rankOf operatorID = phase.rank := by
  rw [rankOf, task]

/-- A round that has not crashed. -/
structure Safe (m : Federation P) (dec : Decoder) (calls : Bytes → SyncCall) (ops : List Bytes) (s : Round P) : Prop
    extends Traced m dec calls ops s where
  running : s.crashed = false

section Calm

variable {m : Federation P} {dec : Decoder} {calls : Bytes → SyncCall} {ops : List Bytes} {s s' : Round P}
  {operatorID : Bytes} (calm : Calm m dec calls ops)

include calm

/-- A goroutine that has not returned can continue. -/
lemma Safe.resume (safe : Safe m dec calls ops s) {phase : SyncPhase} (task : s.tasks operatorID = some phase) :
    ∃ next m', s.manager.resume dec (calls operatorID) operatorID phase = some (next, m') := by
  cases phase with
  | called =>
    unfold Federation.resume
    dsimp only
    split
    case h_1 => exact ⟨_, _, rfl⟩
    case h_2 => split <;> exact ⟨_, _, rfl⟩
  | fetched endpoint c =>
    unfold Federation.resume
    dsimp only
    split
    case h_1 => exact ⟨_, _, rfl⟩
    case h_2 => split <;> exact ⟨_, _, rfl⟩
  | leases peerLeases =>
    obtain ⟨e, registry⟩ := Option.isSome_iff_exists.mp calm.registry
    obtain ⟨e', registry', -⟩ := safe.view.registry_some registry
    obtain ⟨endpoint, got⟩ := safe.leases task
    have noNil := calm.noNil operatorID (safe.known task) endpoint peerLeases got
    unfold Federation.resume
    dsimp only
    rw [registry']
    dsimp only
    split
    case isTrue => exact ⟨_, _, rfl⟩
    case isFalse =>
      obtain ⟨out, found⟩ := findConflicts_isSome (calls operatorID).clock
        (e'.store.listLeases { operatorID := s.manager.operatorID, status := .active }) noNil
      rw [found]
      exact ⟨_, _, rfl⟩
  | compared => exact ⟨_, _, rfl⟩
  | returned result => exact ⟨_, _, rfl⟩

/-- What a step of a safe round does. -/
lemma Safe.cases_step (safe : Safe m dec calls ops s) (fired : s.step dec calls operatorID = some s') :
    ∃ phase next m', s.tasks operatorID = some phase ∧ phase.rank ≠ 0 ∧
      s.manager.resume dec (calls operatorID) operatorID phase = some (next, m') ∧
      s' = { s with manager := m', tasks := Function.update s.tasks operatorID (some next) } := by
  obtain ⟨-, phase, task, live, ⟨panic, -⟩ | ⟨next, m', ran, after⟩⟩ := step_eq_some_iff.mp fired
  · obtain ⟨next, m', ran⟩ := safe.resume calm task
    cases panic.symm.trans ran
  · exact ⟨phase, next, m', task, live, ran, after⟩

lemma Safe.step (safe : Safe m dec calls ops s) (fired : s.step dec calls operatorID = some s') :
    Safe m dec calls ops s' := by
  obtain ⟨_, _, _, -, -, -, after⟩ := safe.cases_step calm fired
  refine ⟨safe.toTraced.step fired, ?_⟩
  rw [after]
  exact safe.running

lemma Safe.rankOf_le (safe : Safe m dec calls ops s) (fired : s.step dec calls operatorID = some s') (id : Bytes) :
    s'.rankOf id ≤ s.rankOf id := by
  obtain ⟨phase, next, m', task, live, ran, rfl⟩ := safe.cases_step calm fired
  by_cases here : id = operatorID
  case pos =>
    subst here
    rw [rankOf_of_task task, rankOf_of_task (Function.update_self ..)]
    exact (Federation.rank_resume live ran).le
  case neg =>
    unfold rankOf
    dsimp only
    rw [Function.update_of_ne here]

lemma Safe.rankOf_lt (safe : Safe m dec calls ops s) (left : 0 < s.rankOf operatorID) :
    ∃ s', s.step dec calls operatorID = some s' ∧ s'.rankOf operatorID < s.rankOf operatorID := by
  cases task : s.tasks operatorID with
  | none =>
    rw [rankOf, task] at left
    cases left
  | some phase =>
    rw [rankOf_of_task task] at left ⊢
    obtain ⟨next, m', ran⟩ := safe.resume calm task
    refine ⟨_, step_eq_some_iff.mpr ⟨safe.running, phase, task, left.ne', .inr ⟨next, m', ran, rfl⟩⟩, ?_⟩
    rw [rankOf_of_task (Function.update_self ..)]
    exact Federation.rank_resume left.ne' ran

/-- The sections of different goroutines commute if the peers agree. -/
lemma commuting (agree : Agreeing m dec calls ops) :
    Commuting (Safe m dec calls ops) (Round.step (P := P) dec calls) := by
  refine ⟨fun safe fired => safe.step calm fired, @fun s a b id id' safe ne first second => ?_⟩
  obtain ⟨phase, next, m₁, task, live, ran, rfl⟩ := safe.cases_step calm first
  obtain ⟨phase', next', m₂, task', live', ran', rfl⟩ := safe.cases_step calm second
  obtain ⟨e, of, rfl, same⟩ := Federation.resume_uniform ran
  obtain ⟨e', of', rfl, same'⟩ := Federation.resume_uniform ran'
  have compatible : e.Compatible e' := by
    cases e with
    | nothing => trivial
    | save c =>
      cases e' with
      | save c' =>
        exact agree id (safe.known task) id' (safe.known task') c c' (safe.saves calm.registry task of)
          (safe.saves calm.registry task' of')
      | _ => trivial
    | seen o t =>
      cases e' with
      | seen o' t' =>
        cases of
        cases of'
        exact ne
      | _ => trivial
  refine ⟨{ s with manager := e'.apply (e.apply s.manager),
                   tasks := Function.update (Function.update s.tasks id (some next)) id' (some next') }, ?_, ?_⟩
  · refine step_eq_some_iff.mpr ⟨safe.running, phase', ?_, live', .inr ⟨next', _, same' _ (e.sameView _), rfl⟩⟩
    rw [← task']
    exact Function.update_of_ne ne.symm _ _
  · refine step_eq_some_iff.mpr ⟨safe.running, phase, ?_, live, .inr ⟨next, _, same _ (e'.sameView _), ?_⟩⟩
    · rw [← task]
      exact Function.update_of_ne ne _ _
    · rw [Effect.comm compatible, Function.update_comm ne]

/-- The sections of one goroutine in a row are steps. -/
lemma Safe.steps (k : Nat) (safe : Safe m dec calls ops s) {phase : SyncPhase}
    (task : s.tasks operatorID = some phase) :
    ∃ next m' n, Federation.resumes dec (calls operatorID) operatorID k s.manager phase = some (next, m') ∧
      Steps (Round.step dec calls) n s
        { s with manager := m', tasks := Function.update s.tasks operatorID (some next) } := by
  induction k generalizing s phase with
  | zero =>
    refine ⟨phase, s.manager, 0, rfl, ?_⟩
    rw [← task, Function.update_eq_self]
    exact .refl s
  | succ k ih =>
    by_cases live : phase.rank = 0
    case pos =>
      obtain ⟨result, rfl⟩ := SyncPhase.rank_eq_zero live
      refine ⟨.returned result, s.manager, 0, Federation.resumes_returned _ _ _, ?_⟩
      rw [← task, Function.update_eq_self]
      exact .refl s
    case neg =>
      obtain ⟨between, m₁, ran⟩ := safe.resume calm task
      have fired := step_eq_some_iff.mpr ⟨safe.running, phase, task, live, .inr ⟨between, m₁, ran, rfl⟩⟩
      obtain ⟨next, m', n, rest, steps⟩ := ih (safe.step calm fired) (Function.update_self ..)
      refine ⟨next, m', n + 1, ?_, .cons fired ?_⟩
      · rw [Federation.resumes, ran]
        exact rest
      · rw [Function.update_idem] at steps
        exact steps

/-- A call that is not interrupted. -/
lemma Safe.call (safe : Safe m dec calls ops s) (task : s.tasks operatorID = some .called) :
    ∃ n, Steps (Round.step dec calls) n s
      { s with manager := (s.manager.sync dec (calls operatorID) operatorID).2,
               tasks := Function.update s.tasks operatorID
                 (some (.returned (s.manager.sync dec (calls operatorID) operatorID).1)) } := by
  obtain ⟨next, m', n, ran, steps⟩ := safe.steps calm 4 task
  cases Federation.resumes_four ran
  exact ⟨n, steps⟩

/-- One call after the other is a run of the round. -/
lemma Safe.sequential {order : List Bytes} (nodup : order.Nodup) (safe : Safe m dec calls ops s)
    (called : ∀ id ∈ order, s.tasks id = some .called) :
    ∃ n, Steps (Round.step dec calls) n s
      { s with manager := s.manager.syncAll dec calls order,
               tasks := fun id =>
                 if id ∈ order then some (.returned (m.sync dec (calls id) id).1) else s.tasks id } := by
  induction order generalizing s with
  | nil =>
    refine ⟨0, ?_⟩
    simp only [List.not_mem_nil, if_false]
    exact .refl s
  | cons first order ih =>
    obtain ⟨new, nodup⟩ := List.nodup_cons.mp nodup
    obtain ⟨n, steps⟩ := safe.call calm (called first List.mem_cons_self)
    have after := steps.keeps (fun safe fired => safe.step calm fired) safe
    have result : (s.manager.sync dec (calls first) first).1 = (m.sync dec (calls first) first).1 := by
      apply after.toTraced.result_eq
      rw [Round.result]
      dsimp only
      rw [Function.update_self]
    obtain ⟨k, rest⟩ := ih nodup after fun id mem => by
      have other : id ≠ first := fun same => new (same ▸ mem)
      dsimp only
      rw [Function.update_of_ne other]
      exact called id (List.mem_cons_of_mem _ mem)
    have tasks : (fun id => if id ∈ first :: order then some (.returned (m.sync dec (calls id) id).1) else s.tasks id) =
        fun id => if id ∈ order then some (.returned (m.sync dec (calls id) id).1)
          else Function.update s.tasks first (some (.returned (s.manager.sync dec (calls first) first).1)) id := by
      funext id
      by_cases here : id = first
      case pos =>
        subst here
        rw [if_pos List.mem_cons_self, if_neg new, Function.update_self, result]
      case neg => simp [here]
    rw [tasks]
    exact ⟨n + k, steps.trans rest⟩

end Calm

/-- All goroutines have returned. -/
def Done (s : Round P) : Prop :=
  ∀ id phase, s.tasks id = some phase → phase.rank = 0

lemma Done.stuck {dec : Decoder} {calls : Bytes → SyncCall} {s : Round P} (done : s.Done) :
    Stuck (Round.step dec calls) s := by
  intro id
  by_contra enabled
  obtain ⟨s', fired⟩ := Option.ne_none_iff_exists'.mp enabled
  obtain ⟨-, phase, task, live, -⟩ := step_eq_some_iff.mp fired
  exact live (done id phase task)

lemma Safe.start (m : Federation P) (dec : Decoder) (calls : Bytes → SyncCall) (ops : List Bytes) :
    Safe m dec calls ops (start m ops) :=
  ⟨.start m dec calls ops, rfl⟩

end Round

/-! ## Every schedule -/

namespace Federation

variable {m : Federation P} {dec : Decoder} {calls : Bytes → SyncCall}

lemma nodup_activeIDs (m : Federation P) : m.activeIDs.Nodup :=
  m.operators.nodup_keys _

lemma registered_of_active {id : Bytes} (active : id ∈ m.activeIDs) : ∃ op, m.operators.get id = some op := by
  obtain ⟨e, mem, rfl⟩ := List.mem_map.mp active
  exact ⟨e.2, KV.get_of_mem (List.mem_of_mem_filter mem)⟩

section Calm

variable (calm : Calm m dec calls m.activeIDs)

include calm

lemma synced_safe (schedule : List Bytes) : Round.Safe m dec calls m.activeIDs (m.synced dec calls schedule) :=
  runSchedule_keeps (fun safe fired => safe.step calm fired) (.start m dec calls m.activeIDs) schedule

/-- Four turns end a call. -/
lemma synced_done {schedule : List Bytes} (turns : ∀ id ∈ m.activeIDs, 4 ≤ schedule.count id) :
    (m.synced dec calls schedule).Done := by
  intro id phase task
  have active := (synced_safe calm schedule).known task
  have start := Round.rankOf_of_task (Round.called_of_mem m active)
  have rank : (m.synced dec calls schedule).rankOf id ≤
      (Round.start m m.activeIDs).rankOf id - schedule.count id :=
    @runSchedule_rank _ _ (Round.Safe m dec calls m.activeIDs) (Round.step dec calls) _ id _ _ (fun s => s.rankOf id)
      (fun safe fired => safe.step calm fired) (fun safe fired => safe.rankOf_le calm fired id)
      (fun safe left => safe.rankOf_lt calm left) (.start m dec calls m.activeIDs) schedule
  have enough := turns id active
  rw [start, Round.rankOf_of_task task, SyncPhase.rank] at rank
  omega

/-- One call after the other, in any order of the ACTIVE operators, is a schedule that ends every call. -/
lemma exists_sequential {order : List Bytes} (nodup : order.Nodup) (all : ∀ id, id ∈ order ↔ id ∈ m.activeIDs) :
    ∃ (n : Nat) (t : Round P), Steps (Round.step dec calls) n (.start m m.activeIDs) t ∧ t.Done ∧
      t.manager = m.syncAll dec calls order := by
  have safe := Round.Safe.start m dec calls m.activeIDs
  obtain ⟨n, steps⟩ := safe.sequential calm nodup fun id mem => Round.called_of_mem m ((all id).mp mem)
  refine ⟨n, _, steps, fun id phase task => ?_, rfl⟩
  dsimp only at task
  split at task
  case isTrue =>
    cases task
    rfl
  case isFalse other => exact absurd ((all id).mpr (safe.known task)) other

/-- The last one of two calls that save commitments of one operator is found to be the latest. -/
lemma latest_syncAll {order : List Bytes} {id : Bytes} (nodup : (order ++ [id]).Nodup)
    (all : ∀ x ∈ order ++ [id], x ∈ m.activeIDs) {c : MerkleCommitment}
    (saves : m.Saves dec (calls id).env (calls id).commitmentReply c) :
    (m.syncAll dec calls (order ++ [id])).entry c.operatorID .latest = some c := by
  have safe := Round.Safe.start m dec calls m.activeIDs
  have before : SameView m (m.syncAll dec calls order) := by
    obtain ⟨n, steps⟩ := safe.sequential calm (List.nodup_append.mp nodup).1
      fun x mem => Round.called_of_mem m (all x (List.mem_append_left _ mem))
    exact (steps.keeps (fun safe fired => Round.Safe.step calm safe fired) safe).view
  obtain ⟨op, registered⟩ := registered_of_active (all id (List.mem_append_right _ List.mem_cons_self))
  have endpoint := before.endpoints id
  rw [registered] at endpoint
  obtain ⟨op', registered', -⟩ := Option.map_eq_some_iff.mp endpoint.symm
  obtain ⟨e, registry⟩ := Option.isSome_iff_exists.mp calm.registry
  obtain ⟨e', registry', -⟩ := before.registry_some registry
  have saves' : (m.syncAll dec calls order).Saves dec (calls id).env (calls id).commitmentReply c :=
    ⟨saves.1, by rw [registry']; rfl, saves.2.2⟩
  rw [syncAll, List.foldl_append, ← syncAll]
  exact (entry_sync_of_saves registered' saves' c.operatorID .latest).trans (if_pos ⟨rfl, .inr rfl⟩)

end Calm

end Federation

/-! ## Main result -/

/-- In every interleaving of the goroutines of a round nothing panics, and a call that returns returns what it would
    have alone; once each of them has been scheduled four times all have returned. The manager is then the one that the
    calls would leave one after the other if and only if no two peers send different commitments of one operator. -/
theorem gossip_interleavings (m : Federation P) (dec : Decoder) (calls : Bytes → SyncCall)
    (calm : Calm m dec calls m.activeIDs) :
    (∀ schedule, (m.synced dec calls schedule).crashed = false ∧
      ∀ id r, (m.synced dec calls schedule).result id = some r → r = (m.sync dec (calls id) id).1) ∧
    (∀ schedule : List Bytes, (∀ id ∈ m.activeIDs, 4 ≤ schedule.count id) → (m.synced dec calls schedule).Done) ∧
    ((∀ schedule, (m.synced dec calls schedule).Done →
        (m.synced dec calls schedule).manager = m.syncAll dec calls m.activeIDs) ↔
      Agreeing m dec calls m.activeIDs) := by
  refine ⟨fun schedule => ?_, fun schedule turns => Federation.synced_done calm turns, ?_, ?_⟩
  · have safe := Federation.synced_safe calm schedule
    exact ⟨safe.running, fun id r returned => safe.toTraced.result_eq returned⟩
  · intro independent id active id' active' c c' saves saves' same
    by_contra ne
    have apart : id ≠ id' := by
      rintro rfl
      obtain ⟨⟨body, reply, decoded⟩, -⟩ := saves
      obtain ⟨⟨body', reply', decoded'⟩, -⟩ := saves'
      cases reply.symm.trans reply'
      exact ne (Except.ok.inj (decoded.symm.trans decoded'))
    -- the two calls last, in both orders
    have latest {x y : Bytes} (ofX : x ∈ m.activeIDs) (ofY : y ∈ m.activeIDs) (xy : x ≠ y) {d : MerkleCommitment}
        (saves : m.Saves dec (calls y).env (calls y).commitmentReply d) :
        (m.syncAll dec calls m.activeIDs).entry d.operatorID .latest = some d := by
      have perm : ((m.activeIDs.erase y).erase x ++ [x] ++ [y]).Perm m.activeIDs := by
        have inner := List.perm_cons_erase ((List.mem_erase_of_ne xy).mpr ofX)
        exact (List.perm_append_singleton ..).trans
          ((((List.perm_append_singleton ..).trans inner.symm).cons y).trans (List.perm_cons_erase ofY).symm)
      have nodup := perm.nodup_iff.mpr m.nodup_activeIDs
      obtain ⟨n, t, steps, done, final⟩ := Federation.exists_sequential calm nodup fun id => perm.mem_iff
      obtain ⟨schedule, rfl⟩ := steps.exists_schedule
      rw [← independent schedule done]
      exact final ▸ Federation.latest_syncAll calm nodup (fun id => perm.mem_iff.mp) saves
    have first := latest active active' apart saves'
    have second := latest active' active apart.symm saves
    rw [← same, second] at first
    exact ne (Option.some.inj first)
  · intro agree schedule done
    obtain ⟨n, t, steps, ended, final⟩ :=
      Federation.exists_sequential calm m.nodup_activeIDs fun id => Iff.rfl
    obtain ⟨k, -, rest⟩ := runSchedule_reaches (Round.commuting calm agree) (.start m dec calls m.activeIDs) steps
      ended.stuck schedule
    rw [← final, ← rest.eq_of_stuck done.stuck, Federation.synced]

/-- The manager of operator `op` with two peers. -/
def pairedFederation : Federation .plain :=
  let pair : Operator := ⟨ascii "pair", ascii "Pair", [1], ascii "http://pair", .active, 0, 0⟩
  { peeredFederation with operators := peeredFederation.operators.set pair.id pair }

/-- A commitment of operator `op` is its root in the body. -/
def rootDecoder : Decoder where
  commitment body := .ok { ownCommitment with rootHash := body }
  leases _ := .ok []

/-- Each peer sends its own name as the root. -/
def disputedCalls (operatorID : Bytes) : SyncCall where
  env := plainEnv 7 []
  clock := .steady 7
  commitmentReply := .response statusOK operatorID
  leasesReply := .response statusOK []

lemma disputed_calm : Calm pairedFederation rootDecoder disputedCalls pairedFederation.activeIDs := by
  refine ⟨rfl, fun id _ endpoint peerLeases got => ?_⟩
  cases got
  exact List.not_mem_nil

/-- The latest commitment of operator `op` depends on the schedule. -/
theorem gossip_interleavings_disputed :
    Calm pairedFederation rootDecoder disputedCalls pairedFederation.activeIDs ∧
    ∃ schedule, (pairedFederation.synced rootDecoder disputedCalls schedule).Done ∧
      (pairedFederation.synced rootDecoder disputedCalls schedule).manager ≠
        pairedFederation.syncAll rootDecoder disputedCalls pairedFederation.activeIDs := by
  refine ⟨disputed_calm, ?_⟩
  by_contra none
  push Not at none
  have agree := (gossip_interleavings _ _ _ disputed_calm).2.2.mp none
  have same := agree (ascii "peer") (by decide +kernel) (ascii "pair") (by decide +kernel) _ _
    ⟨⟨_, rfl, rfl⟩, rfl, by decide, rfl⟩ ⟨⟨_, rfl, rfl⟩, rfl, by decide, rfl⟩ rfl
  exact absurd (congrArg MerkleCommitment.rootHash same) (by decide)

end Otap.Flr
