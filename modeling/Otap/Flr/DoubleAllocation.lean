import Otap.Flr.Lifecycle

/-!
# Double allocation

Whether two leases of one wavelength can be verified at one instant. The conflict check of an allocation
compares `now < EndTime` and `VerifyLease` rejects `now > EndTime`, so at the instant a lease ends a second
one can be allocated while the first still verifies. And `RenewLease` makes no conflict check and does not
look at the clock, so a lease that has ended but was not swept yet can be renewed after its wavelength went
to another one.

`no_double_allocation`: in runs in which neither happens, no two leases of one wavelength ever have tokens
that verify at one instant.
-/

namespace Otap.Flr

open Otap.Lib

variable {P : Platform}

/-- The leases have wavelengths with one key. -/
def Lease.SameKey (l l' : Lease) : Prop :=
  l.wavelength.isSome ∧ l.wavelength.map Wavelength.toKey = l'.wavelength.map Wavelength.toKey

instance (l l' : Lease) : Decidable (l.SameKey l') :=
  inferInstanceAs (Decidable (_ ∧ _))

lemma Lease.SameKey.symm {l l' : Lease} (h : l.SameKey l') : l'.SameKey l := by
  refine ⟨?_, h.2.symm⟩
  have some := congrArg Option.isSome h.2
  rw [Option.isSome_map, Option.isSome_map] at some
  exact some ▸ h.1

/-- At no instant from now on do the latest tokens of two leases of one wavelength both verify. -/
def Registry.NoDoubleAllocation (r : Registry P) : Prop :=
  ∀ t, r.clock ≤ t → ∀ id id' l l' token token', id ≠ id' →
    r.engine.store.leases.get id = some l → r.engine.store.leases.get id' = some l' → l.SameKey l' →
    r.latestToken id = some token → r.latestToken id' = some token' →
    ¬ (r.Accepts t token ∧ r.Accepts t token')

/-- The call does not allocate a wavelength at the instant at which a lease of it ends, and does not
    renew a lease into the future while another lease of its wavelength is running. -/
def Registry.SeparateCall (r : Registry P) (i : Input) : Call → Prop
  | .allocateLease (some w) _ _ =>
    ∀ l ∈ r.engine.activeLeases, l.wavelength.map Wavelength.toKey = some w.toKey →
      l.endTime ≠ (r.env i).now 1
  | .renewLease leaseID extension =>
    ∀ old ∈ r.engine.activeLeases, old.id = leaseID → ∀ l ∈ r.engine.activeLeases, l.id ≠ leaseID →
      old.SameKey l → old.endTime + extension < r.clockAfter i ∨ l.endTime < r.clockAfter i
  | _ => True

def Registry.Separate (r : Registry P) (i : Input) : Prop :=
  r.SeparateCall i i.call

instance (r : Registry P) (i : Input) : ∀ call, Decidable (r.SeparateCall i call)
  | .allocateLease (some _) _ _ => inferInstanceAs (Decidable (∀ l ∈ _, _ → _))
  | .renewLease _ _ =>
    inferInstanceAs (Decidable (∀ old ∈ _, _ → ∀ l ∈ _, _ → _ → _))
  | .allocateLease none _ _ => .isTrue trivial
  | .revokeLease _ => .isTrue trivial
  | .expireLeases => .isTrue trivial
  | .commitMerkleTree => .isTrue trivial
  | .signSchema _ => .isTrue trivial
  | .signSchemaCommitment _ => .isTrue trivial

instance (r : Registry P) (i : Input) : Decidable (r.Separate i) :=
  inferInstanceAs (Decidable (r.SeparateCall i i.call))

/-- The store accesses of the call succeed. -/
def Input.StoreWorks (i : Input) : Prop :=
  ∀ n, i.fails n = false

/-- Of two active leases of one wavelength, one has ended. -/
def Registry.Apart (r : Registry P) : Prop :=
  ∀ id id' l l', id ≠ id' → r.engine.store.Active id l → r.engine.store.Active id' l' →
    l.SameKey l' → l.endTime < r.clock ∨ l'.endTime < r.clock

/-- An allocation that found no conflict: every other lease of the wavelength had ended, or ended at the
    instant of the check. -/
lemma Engine.Allocated.endTime_le {r : Registry P} {env : Env} (wf : r.Wf) {w : Wavelength}
    {lease l : Lease} {token : LeaseToken} {engine : Engine P} {id : Bytes}
    (allocated : r.engine.Allocated env w lease token engine) (works : env.fails 0 = false)
    (active : r.engine.store.Active id l) (same : lease.SameKey l) : l.endTime ≤ env.now 1 := by
  have none := allocated.noConflict
  simp only [checkConflictLocked, works, if_neg Bool.false_ne_true] at none
  have noConflict := List.find?_eq_none.mp none l (wf.mem_activeLeases active)
  have key : l.wavelength.map Wavelength.toKey = some w.toKey := by
    rw [← same.2, allocated.wavelength, Option.map_some]
  have id_ne : (l.id != []) = true := bne_iff_ne.mpr (wf.id_ne active)
  rw [key, id_ne, beq_self_eq_true, Bool.true_and, Bool.true_and, decide_eq_true_eq] at noConflict
  exact not_lt.mp noConflict

/-- A lease that a step made, and an active lease from before the step. -/
lemma Registry.apart_new {r : Registry P} (wf : r.Wf) {i : Input} (works : i.StoreWorks)
    (separate : r.Separate i) {id id' : Bytes} {l l' : Lease} (ne : id ≠ id')
    (after : r.ActiveAfter i id l) (old : r.engine.store.Active id' l')
    (apart : r.Apart) (same : l.SameKey l') :
    l.endTime < r.clockAfter i ∨ l'.endTime < r.clockAfter i := by
  cases after with
  | kept active =>
    exact (apart id id' l l' ne active old same).imp (lt_of_lt_of_le · (r.clock_le_clockAfter i))
      (lt_of_lt_of_le · (r.clock_le_clockAfter i))
  | @allocated w _ _ _ _ call allocated _ =>
    right
    have le := allocated.endTime_le wf (works 0) old same
    rw [Separate, call, SeparateCall] at separate
    have key : l'.wavelength.map Wavelength.toKey = some w.toKey := by
      rw [← same.2, allocated.wavelength, Option.map_some]
    have lt := lt_of_le_of_ne le (separate l' (wf.mem_activeLeases old) key)
    exact lt_of_lt_of_le lt (r.now_le_clockAfter i one_le_two)
  | @renewed leaseID extension before _ _ call regranted lease idEq =>
    rw [Separate, call, SeparateCall] at separate
    subst lease
    have idBefore := wf.keyed regranted.active
    exact separate before (wf.mem_activeLeases regranted.active) idBefore l'
      (wf.mem_activeLeases old) (by rw [wf.keyed old, ← idBefore, ← idEq]; exact ne.symm) same

lemma Registry.Apart.step {r : Registry P} (wf : r.Wf) (apart : r.Apart) {i : Input}
    (works : i.StoreWorks) (separate : r.Separate i) : (r.step i).Apart := by
  intro id id' l l' ne h h' same
  have after := activeAfter h
  have after' := activeAfter h'
  cases after' with
  | kept active => exact apart_new wf works separate ne after active apart same
  | allocated call' allocated' id_eq' =>
    cases after with
    | kept active =>
      exact (apart_new wf works separate ne.symm (.allocated call' allocated' id_eq') active apart
        same.symm).symm
    | allocated call allocated id_eq =>
      exact absurd (by rw [id_eq, id_eq', allocated.id, allocated'.id]) ne
    | renewed call => cases call.symm.trans call'
  | renewed call' regranted' lease' id_eq' =>
    cases after with
    | kept active =>
      exact (apart_new wf works separate ne.symm (.renewed call' regranted' lease' id_eq') active
        apart same.symm).symm
    | allocated call => cases call.symm.trans call'
    | renewed call regranted lease id_eq =>
      cases call.symm.trans call'
      have eq := regranted.active.unique regranted'.active
      exact absurd (by rw [id_eq, id_eq', eq]) ne

/-- No double allocation: in every run from an empty store in which the store works and every step is
    separate, no two leases of one wavelength ever have latest tokens that verify at one instant. -/
theorem no_double_allocation {key : P.ecdsa.PrivateKey} {operatorID : Bytes} {clock : Time}
    {inputs : List Input}
    (run : Along (fun r i => i.StoreWorks ∧ Registry.Separate r i) Registry.step
      (Registry.start P key operatorID clock) inputs) :
    (inputs.foldl Registry.step (Registry.start P key operatorID clock)).NoDoubleAllocation := by
  have inv : (inputs.foldl Registry.step (Registry.start P key operatorID clock)).Wf ∧
      (inputs.foldl Registry.step (Registry.start P key operatorID clock)).Apart := by
    refine Along.inv (P := fun r : Registry P => r.Wf ∧ r.Apart) ⟨.start .., ?_⟩ ?_ run
    · intro id id' l l' _ h
      cases h.1
    · intro r i inv ok
      exact ⟨inv.1.step i, inv.2.step inv.1 ok.1 ok.2⟩
  generalize inputs.foldl Registry.step _ = r at inv
  intro t le id id' l l' token token' ne got got' same latest latest' accepted
  obtain ⟨m, active, notEnded⟩ := accepted.1.active
  obtain ⟨m', active', notEnded'⟩ := accepted.2.active
  rw [Registry.leaseID_latestToken latest] at active
  rw [Registry.leaseID_latestToken latest'] at active'
  obtain rfl := Option.some.inj (got.symm.trans active.1)
  obtain rfl := Option.some.inj (got'.symm.trans active'.1)
  cases inv.2 id id' l l' ne active active' same with
  | inl ended => exact absurd (lt_of_lt_of_le ended le) (not_lt.mpr notEnded)
  | inr ended => exact absurd (lt_of_lt_of_le ended le) (not_lt.mpr notEnded')

/-- The wavelength is allocated for 10 ns, and again 20 ns later. -/
def allocatedTwice : List Input :=
  [ plainInput 0 (ascii "a") (.allocateLease (some channel33) (ascii "ep") 10),
    plainInput 20 (ascii "b") (.allocateLease (some channel33) (ascii "ep") 10) ]

/-- The run in which the wavelength is allocated again after it has ended. -/
theorem no_double_allocation_again :
    (allocatedTwice.foldl Registry.step (.start .plain () (ascii "op") 0)).NoDoubleAllocation :=
  no_double_allocation
    ⟨⟨fun _ => rfl, by decide +kernel⟩, ⟨fun _ => rfl, by decide +kernel⟩, trivial⟩

/-- Two stored leases of one wavelength whose latest tokens verify at `t`. -/
def Registry.bothVerify (r : Registry P) (t : Time) (id id' : Bytes) : Bool :=
  match r.engine.store.leases.get id, r.engine.store.leases.get id', r.latestToken id,
    r.latestToken id' with
  | some l, some l', some token, some token' =>
    decide (l.SameKey l') && decide (r.Accepts t token) && decide (r.Accepts t token')
  | _, _, _, _ => false

lemma Registry.NoDoubleAllocation.not_bothVerify {r : Registry P} (no : r.NoDoubleAllocation)
    (t : Time) (id id' : Bytes) (le : r.clock ≤ t) (ne : id ≠ id') :
    r.bothVerify t id id' = false := by
  unfold bothVerify
  split
  case h_1 l l' token token' got got' latest latest' =>
    by_contra both
    simp only [Bool.not_eq_false, Bool.and_eq_true, decide_eq_true_eq] at both
    exact no t le id id' l l' token token' ne got got' both.1.1 latest latest'
      ⟨both.1.2, both.2⟩
  case h_2 => rfl

/-- The first lease, which has ended but was not swept, is renewed after the wavelength was allocated
    again: at that instant both leases verify. -/
theorem not_no_double_allocation :
    ¬ ∀ (P : Platform) (key : P.ecdsa.PrivateKey) (operatorID : Bytes) (clock : Time)
      (inputs : List Input), (∀ i ∈ inputs, i.StoreWorks) →
      (inputs.foldl Registry.step (Registry.start P key operatorID clock)).NoDoubleAllocation := by
  intro h
  have works : ∀ i ∈ allocatedTwice ++ [plainInput 0 [] (.renewLease (ascii "a") 100)],
      i.StoreWorks := by
    intro i mem
    simp only [allocatedTwice, List.cons_append, List.nil_append, List.mem_cons,
      List.not_mem_nil, or_false] at mem
    obtain rfl | rfl | rfl := mem
    · exact fun _ => rfl
    · exact fun _ => rfl
    · exact fun _ => rfl
  have no := (h .plain () (ascii "op") 0 _ works).not_bothVerify 20 (ascii "a")
    (ascii "b") (by decide +kernel) (by decide)
  revert no
  decide +kernel

end Otap.Flr
