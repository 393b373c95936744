import Otap.Flr.Lifecycle

/-!
# The lease state machine

The transition table of `flr/DESIGN.md` (5.1) for stored leases, and how far the engine keeps to it. Two calls do
not look at what the table asks for: `RenewLease` extends an ACTIVE lease without comparing the clock with its
end, and `RevokeLease` refuses only a lease that is REVOKED already, so that it changes EXPIRED ones.

`Registry.Changed` says all that a step does to the lease stored under an ID. `lease_state_machine`: in runs in
which no ended lease is renewed and no EXPIRED lease is revoked, every change is one of the table.
-/

namespace Otap.Flr

open Otap.Lib

variable {P : Platform}

/-! ## The table -/

/-- The transitions of the table, for a call with the clock readings of `env`: a renewal updates the store at
    reading 2, a sweep compares reading 0. -/
inductive LeaseTransition (env : Env) : Option Lease → Option Lease → Prop where
  | allocate {l} : l.status = .active → LeaseTransition env none (some l)
  | renew {l extension updatedAt tokenHash} : l.status = .active → 0 < extension →
      env.now 2 ≤ l.endTime →
      LeaseTransition env (some l) (some (l.renewed extension updatedAt tokenHash))
  | revoke {l updatedAt} : l.status = .active →
      LeaseTransition env (some l) (some { l with status := .revoked, updatedAt })
  | expire {l updatedAt} : l.status = .active → l.endTime < env.now 0 →
      LeaseTransition env (some l) (some { l with status := .expired, updatedAt })

/-- The states without a way out. -/
def LeaseStatus.Terminal (s : LeaseStatus) : Prop :=
  s = .expired ∨ s = .revoked

lemma LeaseTransition.not_terminal {env : Env} {l : Lease} {o : Option Lease}
    (h : LeaseTransition env (some l) o) : ¬ l.status.Terminal := by
  have active : l.status = .active := by
    cases h with
    | renew active => exact active
    | revoke active => exact active
    | expire active => exact active
  rintro (expired | revoked)
  · cases active.symm.trans expired
  · cases active.symm.trans revoked

/-- A transition that leaves a lease ACTIVE happens before the lease ends. -/
lemma LeaseTransition.now_le {env : Env} {l l' : Lease} (h : LeaseTransition env (some l) (some l'))
    (active : l'.status = .active) : env.now 2 ≤ l.endTime := by
  cases h with
  | renew _ _ le => exact le
  | revoke => cases active
  | expire => cases active

/-! ## What a step does to a lease -/

/-- The lease stored under an ID. -/
def Registry.lease (r : Registry P) (id : Bytes) : Option Lease :=
  r.engine.store.leases.get id

/-- All that a step can do to the lease stored under an ID. -/
inductive Registry.Changed (r : Registry P) (i : Input) (id : Bytes) :
    Option Lease → Option Lease → Prop where
  | kept {o} : Changed r i id o o
  | allocated {l} : l.id = id → l.status = .active → Changed r i id none (some l)
  | renewed {l extension updatedAt tokenHash} : i.call = .renewLease id extension →
      l.status = .active → 0 < extension →
      Changed r i id (some l) (some (l.renewed extension updatedAt tokenHash))
  | revoked {l updatedAt} : i.call = .revokeLease id → l.status ≠ .revoked →
      Changed r i id (some l) (some { l with status := .revoked, updatedAt })
  | expired {l updatedAt} : l.status = .active → l.endTime < (r.env i).now 0 →
      Changed r i id (some l) (some { l with status := .expired, updatedAt })

/-- Leases stand under their own IDs, in one of the three states the engine uses. -/
def Registry.Lawful (r : Registry P) : Prop :=
  ∀ id l, r.lease id = some l → l.id = id ∧ (l.status = .active ∨ l.status.Terminal)

/-- A sweep leaves the lease under an ID as it is, or marks one of the listed leases. -/
lemma expireLoop_get {env : Env} {now : Time} (leases : List Lease) (i : Nat) (s : Store) (count : Nat)
    (id : Bytes) :
    (expireLoop env now leases i s count).2.leases.get id = s.leases.get id ∨
      ∃ l ∈ leases, ∃ updatedAt, l.id = id ∧ l.endTime < now ∧
        (expireLoop env now leases i s count).2.leases.get id = some (l.marked updatedAt) := by
  induction leases generalizing i s count with
  | nil => exact .inl rfl
  | cons lease leases ih =>
    unfold expireLoop
    split
    case isTrue ended =>
      simp only
      split
      case h_1 => exact .inl rfl
      case h_2 store lease' updated =>
        obtain ⟨lease_eq, store_eq⟩ := Store.updateLease_ok updated
        cases ih (i + 1) store (count + 1) with
        | inr marked =>
          obtain ⟨l, mem, rest⟩ := marked
          exact .inr ⟨l, List.mem_cons_of_mem _ mem, rest⟩
        | inl same =>
          rw [same, store_eq, KV.get_set]
          split
          case isTrue eq =>
            exact .inr ⟨lease, List.mem_cons_self, env.now i, eq.symm, ended, congrArg some lease_eq⟩
          case isFalse => exact .inl rfl
    case isFalse =>
      refine (ih i s count).imp_right fun marked => ?_
      obtain ⟨l, mem, rest⟩ := marked
      exact ⟨l, List.mem_cons_of_mem _ mem, rest⟩

lemma Registry.lease_of_mem_activeLeases {r : Registry P} (lawful : r.Lawful) {l : Lease}
    (mem : l ∈ r.engine.activeLeases) : r.lease l.id = some l ∧ l.status = .active := by
  obtain ⟨value, admits⟩ := List.mem_filter.mp mem
  obtain ⟨id, found⟩ := KV.mem_values.mp value
  obtain rfl := (lawful id l found).1
  refine ⟨found, ?_⟩
  rw [LeaseFilter.admits, Bool.and_eq_true, Bool.or_eq_true] at admits
  rcases admits.2 with unfiltered | active
  · cases unfiltered
  · exact eq_of_beq active

/-- Storing a lease changes what stands under its own ID only. -/
lemma Registry.Changed.setLease {r : Registry P} {i : Input} {l : Lease}
    (changed : r.Changed i l.id (r.lease l.id) (some l)) (id : Bytes) :
    r.Changed i id (r.lease id) ((r.engine.store.setLease l).leases.get id) := by
  simp only [Store.setLease, KV.get_set]
  split
  case isTrue eq =>
    rw [eq]
    exact changed
  case isFalse => exact .kept

lemma Registry.changed {r : Registry P} (lawful : r.Lawful) (i : Input) (id : Bytes) :
    r.Changed i id (r.lease id) ((r.step i).lease id) := by
  -- what is left of a step is the lease map of the engine that `run` returns
  change r.Changed i id (r.lease id) ((r.run i).2.store.leases.get id)
  unfold Registry.run
  cases call : i.call with
  | allocateLease wavelength endpointID duration =>
    simp only
    cases h : r.engine.allocateLease (r.env i) wavelength endpointID duration with
    | mk result engine =>
      obtain ⟨_, _, rfl⟩ | ⟨_, _, _, _, _, _, rfl⟩ | ⟨w, l, token, _, _, allocated⟩ :=
        Engine.allocateLease_cases h
      · exact .kept
      · exact .kept
      · obtain ⟨crypto, _, rfl⟩ := allocated.engine
        apply Changed.setLease
        rw [lease, allocated.free]
        exact .allocated rfl allocated.status
  | renewLease leaseID extension =>
    simp only
    cases h : r.engine.renewLease (r.env i) leaseID extension with
    | mk result engine =>
      obtain ⟨_, _, rfl⟩ | ⟨old, token, crypto, regranted, ⟨_, _, rfl⟩ | ⟨l, _, rfl, rfl⟩⟩ :=
        Engine.renewLease_cases h
      · exact .kept
      · exact .kept
      · obtain rfl : old.id = leaseID := (lawful leaseID old regranted.found).1
        apply Changed.setLease
        change r.Changed i old.id (r.engine.store.leases.get old.id) _
        rw [regranted.found]
        exact .renewed call regranted.status regranted.positive
  | revokeLease leaseID =>
    simp only
    cases h : r.engine.revokeLease (r.env i) leaseID with
    | mk result engine =>
      obtain rfl | ⟨old, found, status, rfl⟩ := Engine.revokeLease_cases h
      · exact .kept
      · obtain rfl : old.id = leaseID := (lawful leaseID old found).1
        apply Changed.setLease
        rw [lease, found]
        exact .revoked call status
  | expireLeases =>
    simp only [Engine.expireLeases]
    split
    case isTrue => exact .kept
    case isFalse =>
      cases expireLoop_get r.engine.activeLeases 1 r.engine.store 0 id with
      | inl same =>
        rw [same]
        exact .kept
      | inr marked =>
        obtain ⟨l, mem, updatedAt, rfl, ended, marked⟩ := marked
        obtain ⟨found, active⟩ := lease_of_mem_activeLeases lawful mem
        rw [marked, found]
        exact .expired active ended
  | commitMerkleTree =>
    simp only
    rw [(r.engine.commitMerkleTree_other (r.env i)).1]
    exact .kept
  | signSchema schema => exact .kept
  | signSchemaCommitment commitment => exact .kept

lemma Registry.Lawful.start (key : P.ecdsa.PrivateKey) (operatorID : Bytes) (clock : Time) :
    (Registry.start P key operatorID clock).Lawful :=
  fun _ _ found => nomatch found

lemma Registry.Lawful.step {r : Registry P} (lawful : r.Lawful) (i : Input) : (r.step i).Lawful := by
  intro id l after
  have changed := r.changed lawful i id
  rw [after] at changed
  generalize before : r.lease id = o at changed
  cases changed with
  | kept => exact lawful id l before
  | allocated own active => exact ⟨own, .inl active⟩
  | renewed _ active => exact ⟨(lawful id _ before).1, .inl active⟩
  | revoked => exact ⟨(lawful id _ before).1, .inr (.inr rfl)⟩
  | expired => exact ⟨(lawful id _ before).1, .inr (.inl rfl)⟩

/-! ## Runs -/

/-- The call renews no lease that has ended and revokes no lease that is EXPIRED. A renewal that is refused for its
    extension or for the status of the lease may come at any time. -/
def Registry.TimelyCall (r : Registry P) (i : Input) : Call → Prop
  | .renewLease leaseID extension =>
    0 < extension → ∀ l ∈ r.lease leaseID, l.status = .active → (r.env i).now 2 ≤ l.endTime
  | .revokeLease leaseID => ∀ l ∈ r.lease leaseID, l.status ≠ .expired
  | _ => True

def Registry.Timely (r : Registry P) (i : Input) : Prop :=
  r.TimelyCall i i.call

instance (r : Registry P) (i : Input) : ∀ call, Decidable (r.TimelyCall i call)
  | .renewLease leaseID extension =>
    inferInstanceAs (Decidable (0 < extension → ∀ l ∈ r.lease leaseID, _ → (r.env i).now 2 ≤ l.endTime))
  | .revokeLease leaseID => inferInstanceAs (Decidable (∀ l ∈ r.lease leaseID, _ ≠ _))
  | .allocateLease _ _ _ => .isTrue trivial
  | .expireLeases => .isTrue trivial
  | .commitMerkleTree => .isTrue trivial
  | .signSchema _ => .isTrue trivial
  | .signSchemaCommitment _ => .isTrue trivial

instance (r : Registry P) (i : Input) : Decidable (r.Timely i) :=
  inferInstanceAs (Decidable (r.TimelyCall i i.call))

/-- Every lease is as it was before the step, or has made a transition of the table. -/
def Registry.Follows (r : Registry P) (i : Input) : Prop :=
  ∀ id, (r.step i).lease id = r.lease id ∨
    LeaseTransition (r.env i) (r.lease id) ((r.step i).lease id)

lemma Registry.follows {r : Registry P} (lawful : r.Lawful) {i : Input} (timely : r.Timely i) :
    r.Follows i := by
  intro id
  have changed := r.changed lawful i id
  generalize before : r.lease id = o at changed
  generalize (r.step i).lease id = o' at changed
  cases changed with
  | kept => exact .inl rfl
  | allocated _ active => exact .inr (.allocate active)
  | renewed call active positive =>
    rw [Timely, call] at timely
    exact .inr (.renew active positive (timely positive _ before active))
  | @revoked l _ call status =>
    rw [Timely, call] at timely
    have active : l.status = .active := by
      obtain active | expired | revoked := (lawful id l before).2
      · exact active
      · exact absurd expired (timely l before)
      · exact absurd revoked status
    exact .inr (.revoke active)
  | expired active ended => exact .inr (.expire active ended)

/-- A lease that has ended its life is not changed by any further step. -/
lemma Registry.terminal_kept {r : Registry P} (lawful : r.Lawful) {inputs : List Input}
    (run : Along Registry.Timely Registry.step r inputs) {id : Bytes} {l : Lease}
    (found : r.lease id = some l) (terminal : l.status.Terminal) :
    (inputs.foldl Registry.step r).lease id = some l := by
  have inv : (inputs.foldl Registry.step r).Lawful ∧
      (inputs.foldl Registry.step r).lease id = some l := by
    refine Along.inv (P := fun r : Registry P => r.Lawful ∧ r.lease id = some l) ⟨lawful, found⟩ ?_ run
    intro r i inv timely
    refine ⟨inv.1.step i, ?_⟩
    cases r.follows inv.1 timely id with
    | inl same => rw [same, inv.2]
    | inr transition =>
      rw [inv.2] at transition
      exact absurd terminal transition.not_terminal
  exact inv.2

/-- The documented state machine: in every run from an empty store whose steps are timely, every step
    follows the table, and EXPIRED and REVOKED leases never change again. -/
theorem lease_state_machine {key : P.ecdsa.PrivateKey} {operatorID : Bytes} {clock : Time}
    {inputs : List Input}
    (run : Along Registry.Timely Registry.step (Registry.start P key operatorID clock) inputs) :
    (∀ before i after, inputs = before ++ i :: after →
      (before.foldl Registry.step (Registry.start P key operatorID clock)).Follows i) ∧
    ∀ before after, inputs = before ++ after → ∀ id l,
      (before.foldl Registry.step (Registry.start P key operatorID clock)).lease id = some l →
      l.status.Terminal →
      (inputs.foldl Registry.step (Registry.start P key operatorID clock)).lease id = some l := by
  have lawful (before : List Input) :
      (before.foldl Registry.step (Registry.start P key operatorID clock)).Lawful :=
    run_inv (P := Registry.Lawful) before (.start key operatorID clock) fun _ i lawful => lawful.step i
  refine ⟨?_, ?_⟩
  case refine_1 =>
    rintro before i after rfl
    obtain ⟨-, timely, -⟩ := Along.append.mp run
    exact Registry.follows (lawful before) timely
  case refine_2 =>
    rintro before after rfl id l found terminal
    obtain ⟨-, rest⟩ := Along.append.mp run
    rw [List.foldl_append]
    exact Registry.terminal_kept (lawful before) rest found terminal

/-- A lease is allocated for 10 ns, renewed for 5 ns, refused a renewal for 0 ns after its end, and swept; another one
    is revoked. -/
def fullLife : List Input :=
  [ plainInput 0 (ascii "a") (.allocateLease (some channel33) (ascii "ep") 10),
    plainInput 5 [] (.renewLease (ascii "a") 5),
    plainInput 20 [] (.renewLease (ascii "a") 0),
    plainInput 0 [] .expireLeases,
    plainInput 0 (ascii "b") (.allocateLease (some channel33) (ascii "ep") 10),
    plainInput 1 [] (.revokeLease (ascii "b")),
    plainInput 1 [] (.revokeLease (ascii "b")) ]

theorem lease_state_machine_fullLife :
    (∀ before i after, fullLife = before ++ i :: after →
      (before.foldl Registry.step (Registry.start .plain () (ascii "op") 0)).Follows i) ∧
    ∀ before after, fullLife = before ++ after → ∀ id l,
      (before.foldl Registry.step (Registry.start .plain () (ascii "op") 0)).lease id = some l →
      l.status.Terminal →
      (fullLife.foldl Registry.step (Registry.start .plain () (ascii "op") 0)).lease id = some l :=
  lease_state_machine (by decide +kernel)

/-- A lease for 10 ns. -/
def allocatedOnce : List Input :=
  [plainInput 0 (ascii "a") (.allocateLease (some channel33) (ascii "ep") 10)]

/-- The lease is renewed 20 ns after its allocation; and it is revoked after a sweep has marked it. -/
theorem not_lease_state_machine :
    (¬ ∀ (P : Platform) (key : P.ecdsa.PrivateKey) (operatorID : Bytes) (clock : Time)
      (before : List Input) (i : Input),
      (before.foldl Registry.step (Registry.start P key operatorID clock)).Follows i) ∧
    ¬ ∀ (P : Platform) (key : P.ecdsa.PrivateKey) (operatorID : Bytes) (clock : Time)
      (before after : List Input) (id : Bytes) (l : Lease),
      (before.foldl Registry.step (Registry.start P key operatorID clock)).lease id = some l →
      l.status.Terminal →
      ((before ++ after).foldl Registry.step (Registry.start P key operatorID clock)).lease id =
        some l := by
  refine ⟨fun follows => ?_, fun kept => ?_⟩
  case refine_1 =>
    have follows := follows .plain () (ascii "op") 0 allocatedOnce
      (plainInput 20 [] (.renewLease (ascii "a") 100)) (ascii "a")
    have ended : ((allocatedOnce.foldl Registry.step (.start .plain () (ascii "op") 0)).lease
        (ascii "a")).map Lease.endTime = some 10 := by decide +kernel
    have renewed : (((allocatedOnce.foldl Registry.step (.start .plain () (ascii "op") 0)).step
        (plainInput 20 [] (.renewLease (ascii "a") 100))).lease (ascii "a")).map
          (fun l => (l.endTime, l.status)) = some (110, .active) := by decide +kernel
    obtain ⟨l, found, endTime⟩ := Option.map_eq_some_iff.mp ended
    obtain ⟨l', found', eq⟩ := Option.map_eq_some_iff.mp renewed
    obtain ⟨endTime', active⟩ := Prod.mk.inj eq
    rw [found, found'] at follows
    cases follows with
    | inl same =>
      cases same
      exact absurd (endTime.symm.trans endTime') (by decide)
    | inr transition => exact absurd (endTime ▸ transition.now_le active) (by decide +kernel)
  case refine_2 =>
    have swept : (((allocatedOnce ++ [plainInput 20 [] .expireLeases]).foldl Registry.step
        (.start .plain () (ascii "op") 0)).lease (ascii "a")).map Lease.status = some .expired := by
      decide +kernel
    obtain ⟨l, found, expired⟩ := Option.map_eq_some_iff.mp swept
    have kept := kept .plain () (ascii "op") 0 _ [plainInput 0 [] (.revokeLease (ascii "a"))] _ l found
      (.inl expired)
    have revoked := congrArg (Option.map Lease.status) kept
    rw [Option.map_some, expired] at revoked
    revert revoked
    decide +kernel

end Otap.Flr
