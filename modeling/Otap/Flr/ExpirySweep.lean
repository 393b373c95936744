import Otap.Flr.Lifecycle

/-!
# The expiry sweep

`Engine.ExpireLeases` of `flr/internal/registry/engine.go`, which returns the number of the leases that it has changed
also when an update fails.

`Swept` is the one shape of what a sweep writes, and `expireLoop_spec` says that it writes it for a prefix of the leases
that it visits, for all of them if no update fails. Those are the leases that are due, so the sweep is exact
(`sweepExact_of_named`). It needs that the engine has an operator ID: in a `LeaseFilter` an empty one admits the leases
of every operator (`sweepExact_iff`). `flrd` makes no such engine, since it gives the same ID to `crypto.NewEngine`,
which refuses an empty one.
-/

namespace Otap.Flr

open Otap.Lib

variable {P : Platform}

/-! ## The store -/

/-- Every lease is stored under its own ID, and no ID is empty. -/
def Store.Keyed (s : Store) : Prop :=
  ∀ id lease, s.leases.get id = some lease → lease.id = id ∧ id ≠ []

lemma Store.keyed_empty : Store.empty.Keyed := by
  intro id lease found
  cases found

lemma Store.Keyed.set {s : Store} (keyed : s.Keyed) (lease : Lease) (named : lease.id ≠ []) :
    (s.setLease lease).Keyed := by
  intro id lease' found
  rw [Store.setLease, KV.get_set] at found
  split at found
  case isTrue eq =>
    cases found
    exact ⟨eq.symm, eq ▸ named⟩
  case isFalse => exact keyed id lease' found

/-- The calls of the store keep leases under their own IDs. -/
lemma Store.Keyed.createLease {s s' : Store} (keyed : s.Keyed) {fails : Bool} {lease : Lease}
    (ok : s.createLease fails lease = .ok s') : s'.Keyed := by
  obtain ⟨named, -, rfl⟩ := Store.createLease_ok ok
  exact keyed.set lease named

lemma Store.updateLease_named {s s' : Store} {fails : Bool} {now : Time} {lease lease' : Lease}
    (ok : s.updateLease fails now lease = .ok (s', lease')) : lease.id ≠ [] := by
  unfold updateLease at ok
  split at ok
  case isTrue => cases ok
  case isFalse named => exact named

lemma Store.Keyed.updateLease {s s' : Store} (keyed : s.Keyed) {fails : Bool} {now : Time} {lease lease' : Lease}
    (ok : s.updateLease fails now lease = .ok (s', lease')) : s'.Keyed := by
  have named := Store.updateLease_named ok
  obtain ⟨rfl, rfl⟩ := Store.updateLease_ok ok
  exact keyed.set { lease with updatedAt := now } named

/-- The leases of a store have different IDs. -/
lemma Store.Keyed.nodup {s : Store} (keyed : s.Keyed) : (s.leases.values.map fun lease => lease.id).Nodup := by
  have ids : (s.leases.values.map fun lease => lease.id) = s.leases.entries.map Prod.fst := by
    rw [KV.values, List.map_map]
    exact List.map_congr_left fun entry mem => (keyed _ _ (KV.get_of_mem mem)).1
  rw [ids, List.nodup_iff_pairwise_ne, List.pairwise_map]
  refine s.leases.sorted.imp ?_
  intro a b lt eq
  rw [eq] at lt
  exact List.lt_irrefl _ lt

lemma Store.Keyed.get_of_mem {s : Store} (keyed : s.Keyed) {lease : Lease} (mem : lease ∈ s.leases.values) :
    s.leases.get lease.id = some lease := by
  obtain ⟨id, found⟩ := KV.mem_values.mp mem
  rwa [(keyed id lease found).1]

/-! ## What a sweep writes -/

/-- The leases are EXPIRED, with some `UpdatedAt`, and nothing else is changed. -/
structure Swept (leases leases' : KV Lease) (swept : List Lease) : Prop where
  expired : ∀ lease ∈ swept, ∃ updatedAt, leases'.get lease.id = some (lease.marked updatedAt)
  kept : ∀ id, id ∉ swept.map (fun lease => lease.id) → leases'.get id = leases.get id

lemma Swept.nil (leases : KV Lease) : Swept leases leases [] where
  expired _ mem := absurd mem List.not_mem_nil
  kept _ _ := rfl

/-- One more lease is marked first. -/
lemma Swept.cons {s : Store} {leases' : KV Lease} {lease : Lease} {swept : List Lease} {now : Time}
    (rest : Swept (s.setLease (lease.marked now)).leases leases' swept)
    (fresh : lease.id ∉ swept.map fun l => l.id) : Swept s.leases leases' (lease :: swept) where
  expired := by
    refine List.forall_mem_cons.mpr ⟨⟨now, ?_⟩, rest.expired⟩
    rw [rest.kept lease.id fresh]
    exact KV.get_set_self _ _ _
  kept id absent := by
    rw [List.map_cons, List.mem_cons, not_or] at absent
    rw [rest.kept id absent.2]
    exact KV.get_set_ne _ _ absent.1

/-- The leases among the listed ones that the loop updates. -/
def visited (now : Time) (leases : List Lease) : List Lease :=
  leases.filter fun lease => now > lease.endTime

lemma visited_cons (now : Time) (lease : Lease) (leases : List Lease) :
    visited now (lease :: leases) =
      if now > lease.endTime then lease :: visited now leases else visited now leases := by
  rw [visited, List.filter_cons]
  by_cases past : now > lease.endTime
  · rw [if_pos past, if_pos (decide_eq_true past), visited]
  · rw [if_neg past, if_neg fun h => past (of_decide_eq_true h), visited]

section Loop

variable {env : Env} {now : Time} {lease : Lease} {leases : List Lease} {i count : Nat} {s : Store}

lemma expireLoop_skip (future : ¬ now > lease.endTime) :
    expireLoop env now (lease :: leases) i s count = expireLoop env now leases i s count := by
  rw [expireLoop, if_neg future]

/-- An update that fails ends the loop. -/
lemma expireLoop_failed (leases : List Lease) (count : Nat) (past : now > lease.endTime) {err : Bytes}
    (failed : s.updateLease (env.fails i) (env.now i) (lease.marked now) = .error err) :
    ∃ err', expireLoop env now (lease :: leases) i s count = ((count, some err'), s) := by
  rw [expireLoop, if_pos past]
  simp only [failed]
  exact ⟨_, rfl⟩

lemma expireLoop_updated (past : now > lease.endTime) {s' : Store} {lease' : Lease}
    (updated : s.updateLease (env.fails i) (env.now i) (lease.marked now) = .ok (s', lease')) :
    expireLoop env now (lease :: leases) i s count =
      expireLoop env now leases (i + 1) (s.setLease (lease.marked (env.now i))) (count + 1) := by
  obtain ⟨rfl, rfl⟩ := Store.updateLease_ok updated
  rw [expireLoop, if_pos past]
  simp only [updated]
  rfl

/-- Without a failing access a stored lease is updated. -/
lemma updateLease_marked (now t : Time) (named : lease.id ≠ []) (stored : s.leases.get lease.id = some lease) :
    ∃ updated, s.updateLease false t (lease.marked now) = .ok updated := by
  have storedMarked : s.leases.get (lease.marked now).id = some lease := stored
  have namedMarked : (lease.marked now).id ≠ [] := named
  rw [Store.updateLease, if_neg namedMarked, storedMarked]
  exact ⟨_, rfl⟩

lemma get_setLease_marked (t : Time) {l : Lease} (ne : l.id ≠ lease.id) :
    (s.setLease (lease.marked t)).leases.get l.id = s.leases.get l.id :=
  KV.get_set_ne _ _ ne

end Loop

/-- The loop marks a prefix of the leases that it visits, counts them, and reports an error unless it has marked all of
    them. It reports none if no store access fails. -/
lemma expireLoop_spec (env : Env) (now : Time) {leases : List Lease} (i : Nat) {s : Store} (count : Nat)
    (distinct : (leases.map fun lease => lease.id).Nodup)
    (stored : ∀ lease ∈ leases, s.leases.get lease.id = some lease) :
    (∃ swept, swept <+: visited now leases ∧ (expireLoop env now leases i s count).1.1 = count + swept.length ∧
      Swept s.leases (expireLoop env now leases i s count).2.leases swept ∧
      ((expireLoop env now leases i s count).1.2 = none → swept = visited now leases)) ∧
    ((∀ i, env.fails i = false) → (∀ lease ∈ leases, lease.id ≠ []) →
      (expireLoop env now leases i s count).1.2 = none) := by
  induction leases generalizing i s count with
  | nil => exact ⟨⟨[], List.prefix_rfl, rfl, .nil _, fun _ => rfl⟩, fun _ _ => rfl⟩
  | cons lease leases ih =>
    rw [List.map_cons, List.nodup_cons] at distinct
    obtain ⟨here, rest⟩ := List.forall_mem_cons.mp stored
    have other {l : Lease} (mem : l ∈ leases) : l.id ≠ lease.id :=
      fun eq => distinct.1 (eq ▸ List.mem_map_of_mem mem)
    rw [visited_cons]
    by_cases past : now > lease.endTime
    case neg =>
      rw [expireLoop_skip past, if_neg past]
      obtain ⟨marks, returns⟩ := ih i count distinct.2 rest
      exact ⟨marks, fun works named => returns works fun l mem => named l (List.mem_cons_of_mem _ mem)⟩
    case pos =>
      rw [if_pos past]
      cases updated : s.updateLease (env.fails i) (env.now i) (lease.marked now) with
      | error err =>
        obtain ⟨err', failed⟩ := expireLoop_failed leases count past updated
        rw [failed]
        refine ⟨⟨[], List.nil_prefix, rfl, .nil _, fun succeeded => absurd succeeded (Option.some_ne_none err')⟩, ?_⟩
        intro works named
        obtain ⟨_, succeeds⟩ := updateLease_marked now (env.now i) (named lease List.mem_cons_self) here
        rw [works, succeeds] at updated
        cases updated
      | ok changed =>
        rw [expireLoop_updated past updated]
        obtain ⟨⟨swept, pre, counted, marked, all⟩, returns⟩ := ih (i + 1) (count + 1) distinct.2
          fun l mem => (get_setLease_marked (env.now i) (other mem)).trans (rest l mem)
        refine ⟨⟨lease :: swept, List.cons_prefix_cons.mpr ⟨rfl, pre⟩, ?_, marked.cons ?_, fun succeeded => ?_⟩, ?_⟩
        · rw [List.length_cons, counted]
          omega
        · intro mem
          obtain ⟨l, hl, eq⟩ := List.mem_map.mp mem
          exact other (List.mem_of_mem_filter (pre.subset hl)) eq
        · rw [all succeeded]
        · exact fun works named => returns works fun l mem => named l (List.mem_cons_of_mem _ mem)

/-! ## The leases that are due -/

/-- ACTIVE, of the operator, and past its end. -/
def Lease.Due (operatorID : Bytes) (t : Time) (lease : Lease) : Prop :=
  lease.operatorID = operatorID ∧ lease.status = .active ∧ lease.endTime < t

instance (operatorID : Bytes) (t : Time) (lease : Lease) : Decidable (lease.Due operatorID t) :=
  inferInstanceAs (Decidable (_ ∧ _ ∧ _))

namespace Engine

/-- The leases that a sweep at `t` should mark. -/
def due (e : Engine P) (t : Time) : List Lease :=
  e.store.leases.values.filter fun lease => lease.Due e.operatorID t

/-- A sweep at `t` that succeeds marks the leases that are due and returns their number; one that fails has marked some
    of them and returns how many; and after a later sweep that succeeds they are all marked. Nothing else changes. -/
structure SweepExact (e : Engine P) (t : Time) : Prop where
  success : ∀ env, env.now 0 = t → (e.expireLeases env).1.2 = none →
    (e.expireLeases env).1.1 = (e.due t).length ∧ Swept e.store.leases (e.expireLeases env).2.store.leases (e.due t)
  failure : ∀ env, env.now 0 = t → (e.expireLeases env).1.2 ≠ none →
    ∃ swept, swept.Sublist (e.due t) ∧ (e.expireLeases env).1.1 = swept.length ∧
      Swept e.store.leases (e.expireLeases env).2.store.leases swept
  completes : ∀ env env', env.now 0 = t → t ≤ env'.now 0 → ((e.expireLeases env).2.expireLeases env').1.2 = none →
    ∀ lease ∈ e.due t, ∃ updatedAt,
      ((e.expireLeases env).2.expireLeases env').2.store.leases.get lease.id = some (lease.marked updatedAt)

variable {e : Engine P}

lemma mem_visited {t : Time} {lease : Lease} : lease ∈ visited t e.activeLeases ↔
    lease ∈ e.store.leases.values ∧ (e.operatorID = [] ∨ lease.operatorID = e.operatorID) ∧
      lease.status = .active ∧ lease.endTime < t := by
  simp only [visited, activeLeases, Store.listLeases, LeaseFilter.admits, List.mem_filter, Bool.and_eq_true,
    Bool.or_eq_true, beq_iff_eq, decide_eq_true_eq, true_or, and_true, reduceCtorEq, false_or, and_assoc]

lemma mem_due {t : Time} {lease : Lease} : lease ∈ e.due t ↔
    lease ∈ e.store.leases.values ∧ lease.Due e.operatorID t := by
  rw [due, List.mem_filter, decide_eq_true_eq]

lemma visited_sublist (e : Engine P) (t : Time) : (visited t e.activeLeases).Sublist e.store.leases.values :=
  List.filter_sublist.trans List.filter_sublist

/-- The operator's leases are told from others. -/
def Separates (e : Engine P) (t : Time) : Prop :=
  e.operatorID ≠ [] ∨
    ∀ lease ∈ e.store.leases.values, lease.status = .active → lease.endTime < t → lease.operatorID = e.operatorID

lemma visited_eq_due {t : Time} (separates : e.Separates t) : visited t e.activeLeases = e.due t := by
  rw [visited, activeLeases, Store.listLeases, List.filter_filter, due]
  refine List.filter_congr fun lease listed => Bool.eq_iff_iff.mpr ?_
  simp only [LeaseFilter.admits, Bool.and_eq_true, Bool.or_eq_true, beq_iff_eq, decide_eq_true_eq, true_or, and_true,
    reduceCtorEq, false_or]
  constructor
  · rintro ⟨past, owner, active⟩
    refine ⟨?_, active, past⟩
    rcases separates with named | own
    · exact owner.resolve_left named
    · exact own lease listed active past
  · rintro ⟨owner, active, past⟩
    exact ⟨past, .inr owner, active⟩

/-- What a call of the sweep does. -/
lemma sweep_spec (keyed : e.store.Keyed) (env : Env) :
    ∃ swept, swept <+: visited (env.now 0) e.activeLeases ∧ (e.expireLeases env).1.1 = swept.length ∧
      Swept e.store.leases (e.expireLeases env).2.store.leases swept ∧
      ((e.expireLeases env).1.2 = none → swept = visited (env.now 0) e.activeLeases) := by
  unfold expireLeases
  split
  case isTrue => exact ⟨[], List.nil_prefix, rfl, .nil _, fun succeeded => absurd succeeded (Option.some_ne_none _)⟩
  case isFalse =>
    have sub : e.activeLeases.Sublist e.store.leases.values := List.filter_sublist
    obtain ⟨⟨swept, pre, counted, marked, all⟩, -⟩ := expireLoop_spec env (env.now 0) 1 0
      (keyed.nodup.sublist (sub.map _)) fun lease mem => keyed.get_of_mem (sub.subset mem)
    rw [Nat.zero_add] at counted
    exact ⟨swept, pre, counted, marked, all⟩

lemma sweep_operatorID (env : Env) : (e.expireLeases env).2.operatorID = e.operatorID := by
  unfold expireLeases
  split
  case isTrue => rfl
  case isFalse => rfl

lemma sweep_keyed (keyed : e.store.Keyed) (env : Env) : (e.expireLeases env).2.store.Keyed := by
  obtain ⟨swept, pre, -, marked, -⟩ := sweep_spec keyed env
  intro id lease' found
  by_cases listed : id ∈ swept.map fun lease => lease.id
  · obtain ⟨lease, mem, rfl⟩ := List.mem_map.mp listed
    have stored := keyed.get_of_mem ((visited_sublist e _).subset (pre.subset mem))
    obtain ⟨updatedAt, eq⟩ := marked.expired lease mem
    cases eq.symm.trans found
    exact ⟨rfl, (keyed _ _ stored).2⟩
  · rw [marked.kept id listed] at found
    exact keyed id lease' found

/-- Without failing store accesses a sweep succeeds. -/
lemma sweep_none (keyed : e.store.Keyed) {env : Env} (works : ∀ i, env.fails i = false) :
    (e.expireLeases env).1.2 = none := by
  have sub : e.activeLeases.Sublist e.store.leases.values := List.filter_sublist
  rw [expireLeases, works 0, if_neg Bool.false_ne_true]
  have stored : ∀ lease ∈ e.activeLeases, e.store.leases.get lease.id = some lease :=
    fun lease mem => keyed.get_of_mem (sub.subset mem)
  exact (expireLoop_spec env (env.now 0) 1 0 (keyed.nodup.sublist (sub.map _)) stored).2 works
    fun lease mem => (keyed _ _ (stored lease mem)).2

/-- A lease that was due is marked by the first of two sweeps, or still listed for the second. -/
lemma sweep_completes (keyed : e.store.Keyed) {t : Time} {env env' : Env} (later : t ≤ env'.now 0)
    (done : ((e.expireLeases env).2.expireLeases env').1.2 = none) {lease : Lease} (due : lease ∈ e.due t) :
    ∃ updatedAt, ((e.expireLeases env).2.expireLeases env').2.store.leases.get lease.id =
      some (lease.marked updatedAt) := by
  obtain ⟨listed, owner, active, past⟩ := mem_due.mp due
  obtain ⟨swept, pre, -, marked, -⟩ := sweep_spec keyed env
  obtain ⟨swept', pre', -, marked', all⟩ := sweep_spec (sweep_keyed keyed env) env'
  have ids := keyed.nodup
  by_cases first : lease ∈ swept
  · obtain ⟨updatedAt, expired⟩ := marked.expired lease first
    refine ⟨updatedAt, (marked'.kept lease.id fun again => ?_).trans expired⟩
    -- what the second sweep visits is ACTIVE
    obtain ⟨lease', mem, same⟩ := List.mem_map.mp again
    obtain ⟨stored, -, active', -⟩ := mem_visited.mp (pre'.subset mem)
    have found := (sweep_keyed keyed env).get_of_mem stored
    rw [same, expired] at found
    rw [← Option.some.inj found] at active'
    cases active'
  · have kept : lease.id ∉ swept.map fun l => l.id := by
      intro mem
      obtain ⟨lease', mem, same⟩ := List.mem_map.mp mem
      have stored' := (visited_sublist e _).subset (pre.subset mem)
      exact first (List.inj_on_of_nodup_map ids stored' listed same ▸ mem)
    have found : (e.expireLeases env).2.store.leases.get lease.id = some lease :=
      (marked.kept lease.id kept).trans (keyed.get_of_mem listed)
    refine marked'.expired lease ?_
    rw [all done, mem_visited, sweep_operatorID]
    exact ⟨KV.mem_values.mpr ⟨lease.id, found⟩, .inr owner, active, lt_of_lt_of_le past later⟩

/-- The sweep of a store at `t` is exact if the engine has an operator ID, or all ACTIVE leases that are past their end
    are its own; and otherwise it is not. -/
theorem sweepExact_iff (e : Engine P) (keyed : e.store.Keyed) (t : Time) : e.SweepExact t ↔ e.Separates t := by
  constructor
  · intro sweepExact
    by_contra mixed
    obtain ⟨unnamed, foreign⟩ := not_or.mp mixed
    push Not at unnamed foreign
    obtain ⟨lease, listed, active, past, other⟩ := foreign
    let env : Env := { now := fun _ => t, nonce := none, random := [], uuid := [], fails := fun _ => false }
    have succeeded : (e.expireLeases env).1.2 = none := sweep_none keyed fun _ => rfl
    obtain ⟨swept, -, -, marked, all⟩ := sweep_spec keyed env
    have mem : lease ∈ swept := by
      rw [all succeeded]
      exact mem_visited.mpr ⟨listed, .inl unnamed, active, past⟩
    obtain ⟨updatedAt, expired⟩ := marked.expired lease mem
    have absent : lease.id ∉ (e.due t).map fun l => l.id := by
      intro mem
      obtain ⟨lease', mem, same⟩ := List.mem_map.mp mem
      obtain ⟨listed', owner, -⟩ := mem_due.mp mem
      exact other (List.inj_on_of_nodup_map keyed.nodup listed' listed same ▸ owner)
    have kept := (sweepExact.success env rfl succeeded).2.kept lease.id absent
    rw [expired, keyed.get_of_mem listed] at kept
    rw [← Option.some.inj kept] at active
    cases active
  · intro separates
    refine ⟨?_, ?_, ?_⟩
    · rintro env rfl succeeded
      obtain ⟨swept, -, counted, marked, all⟩ := sweep_spec keyed env
      rw [all succeeded, visited_eq_due separates] at counted marked
      exact ⟨counted, marked⟩
    · rintro env rfl -
      obtain ⟨swept, pre, counted, marked, -⟩ := sweep_spec keyed env
      exact ⟨swept, visited_eq_due separates ▸ pre.sublist, counted, marked⟩
    · intro env env' _ later done lease due
      exact sweep_completes keyed later done due

/-- Expiry sweeps are exact: over every store whose leases stand under their own IDs, at every clock reading, for
    every engine with an operator ID. -/
theorem sweepExact_of_named (e : Engine P) (keyed : e.store.Keyed) (named : e.operatorID ≠ []) (t : Time) :
    e.SweepExact t :=
  (sweepExact_iff e keyed t).mpr (.inl named)

/-- A lease of operator `op-b`; both end at 10. -/
def leaseOfB : Lease :=
  { leaseA with id := ascii "b", operatorID := ascii "op-b" }

/-- The engine of `op` over a store with a lease of its own and one of `op-b`. -/
def overBoth : Engine .plain :=
  { plainEngine with store := (Store.empty.setLease leaseA).setLease leaseOfB }

theorem sweepExact_of_named_both : overBoth.due 20 = [leaseA] ∧ overBoth.SweepExact 20 :=
  ⟨by decide, sweepExact_of_named overBoth ((Store.keyed_empty.set leaseA (by decide)).set leaseOfB (by decide))
    (by decide) 20⟩

end Engine

end Otap.Flr
