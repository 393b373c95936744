import Otap.Flr.InvalidityProofs

/-!
# Conflict detection

`findConflicts` of `flr/internal/federation/conflict.go`, at one clock reading.

* `findConflicts_doubles`: the double allocations that are reported for two lists of leases are, with multiplicity, the
  pairs of them that are in conflict. That the time windows overlap follows from both having started and not ended.
* `DoubleAllocation.symm`: a conflict is one from both sides.
* `handle_reported`: the handler of proofs accepts the proof of every pair that is reported.
-/

namespace Otap.Flr

open Otap.Lib

variable {P : Platform} {a b : Lease} {t : Time}

/-! ## The code -/

/-- All clock readings are `t`. -/
def ConflictClock.steady (t : Time) : ConflictClock where
  now := t
  localExpiry _ := t
  remoteExpiry _ := t
  overlap _ _ := t

/-- The proof that `DetectConflicts` builds from a pair. -/
def ConflictPair.proof (c : ConflictPair) (timestamp : Time) : ProofOfInvalidity where
  type := c.type
  leaseA := c.localLease
  leaseB := c.remote
  commitment := none
  merkleProof := []
  timestamp := timestamp

/-- The pair as the other operator sees it. -/
def ConflictPair.swap (c : ConflictPair) : ConflictPair where
  localLease := c.remote
  remote := c.localLease
  type := c.type

def ConflictPair.isDouble (c : ConflictPair) : Bool :=
  c.type == invalidityDoubleAllocation

namespace Federation

end Federation

/-! ## What a conflict is -/

/-- Two ACTIVE leases of one wavelength that have started and not ended. -/
structure DoubleAllocation (t : Time) (a b : Lease) : Prop where
  active : a.status = .active ∧ b.status = .active
  wavelength : a.SameWavelength b
  time : a.ActiveAt t ∧ b.ActiveAt t

lemma Lease.SameWavelength.symm (same : a.SameWavelength b) : b.SameWavelength a := by
  obtain ⟨w, v, ofA, ofB, lambda, channel, band⟩ := same
  exact ⟨v, w, ofB, ofA, (Float64.equal_comm ..).trans lambda, channel.symm, band.symm⟩

lemma DoubleAllocation.symm (conflict : DoubleAllocation t a b) : DoubleAllocation t b a where
  active := conflict.active.symm
  wavelength := conflict.wavelength.symm
  time := conflict.time.symm

lemma doubleAllocation_comm : DoubleAllocation t a b ↔ DoubleAllocation t b a :=
  ⟨.symm, .symm⟩

/-- Leases that are both active at `t` overlap there, so the last check of the source is implied. -/
lemma checkDoubleAllocation_some :
    checkDoubleAllocation t (some a) (some b) = true ↔ a.SameWavelength b ∧ a.ActiveAt t ∧ b.ActiveAt t := by
  rw [checkDoubleAllocation_iff]
  constructor
  · rintro ⟨same, active, -⟩
    exact ⟨same, active⟩
  · rintro ⟨same, activeA, activeB⟩
    exact ⟨same, ⟨activeA, activeB⟩, activeB.1.le.trans activeA.2, activeA.1.le.trans activeB.2⟩

lemma scanned_iff {a : Lease} :
    scanned t a = true ↔ a.wavelength.isSome ∧ a.status = .active ∧ t ≤ a.endTime := by
  rw [scanned, Bool.and_eq_true, Bool.and_eq_true, beq_iff_eq, Bool.not_eq_true', decide_eq_false_iff_not, not_lt,
    and_assoc]

/-- What the scan skips is in no conflict, so the two loops and the check together test for one. -/
lemma scanned_and_check :
    (scanned t a && (scanned t b && checkDoubleAllocation t (some a) (some b))) = true ↔ DoubleAllocation t a b := by
  rw [Bool.and_eq_true, Bool.and_eq_true, scanned_iff, scanned_iff, checkDoubleAllocation_some]
  constructor
  · rintro ⟨⟨-, activeA, -⟩, ⟨-, activeB, -⟩, same, time⟩
    exact ⟨⟨activeA, activeB⟩, same, time⟩
  · rintro ⟨⟨activeA, activeB⟩, same, time⟩
    obtain ⟨w, v, ofA, ofB, -⟩ := id same
    exact ⟨⟨by rw [ofA]; rfl, activeA, time.1.2⟩, ⟨by rw [ofB]; rfl, activeB, time.2.2⟩, same, time⟩

instance (t : Time) (a b : Lease) : Decidable (DoubleAllocation t a b) :=
  decidable_of_iff _ scanned_and_check

/-! ## What is reported -/

/-- The double allocations among what is reported, in order. -/
def doubles (out : List ConflictPair) : List ConflictPair :=
  out.filter ConflictPair.isDouble

/-- The pair that is reported for two leases. -/
def reported (pair : Lease × Lease) : ConflictPair where
  localLease := some pair.1
  remote := some pair.2
  type := invalidityDoubleAllocation

/-- The pairs of two lists that are in conflict. -/
def conflicting (t : Time) (L R : List Lease) : List (Lease × Lease) :=
  (L ×ˢ R).filter fun pair => DoubleAllocation t pair.1 pair.2

lemma flatMap_conflicting (t : Time) (L R : List Lease) :
    L.flatMap (fun a => (R.filter (DoubleAllocation t a)).map fun b => reported (a, b)) =
      (conflicting t L R).map reported := by
  have row : ∀ a, (R.map (Prod.mk a)).filter (fun pair => DoubleAllocation t pair.1 pair.2) =
      (R.filter (DoubleAllocation t a)).map (Prod.mk a) := fun a => List.filter_map ..
  have product : L ×ˢ R = L.flatMap fun a => R.map (Prod.mk a) := rfl
  rw [conflicting, product, List.filter_flatMap, List.map_flatMap]
  simp only [row, List.map_map]
  rfl

lemma flatten_ite {α β : Type} (p : α → Prop) [DecidablePred p] (f : α → β) (l : List α) :
    (l.map fun a => if p a then [f a] else []).flatten = (l.filter p).map f := by
  induction l with
  | nil => rfl
  | cons a l ih =>
    rw [List.map_cons, List.flatten_cons, ih, List.filter_cons]
    by_cases kept : p a <;> simp [kept]

/-- At one clock reading the scan reports all pairs in conflict, after what has expired. -/
lemma findConflicts_steady (t : Time) (L R : List Lease) :
    ∃ expired, (∀ c ∈ expired, c.isDouble = false) ∧
      findConflicts (.steady t) (L.map some) (R.map some) = some (expired ++ (conflicting t L R).map reported) := by
  unfold findConflicts
  rw [mapM_pointers (g := fun a => (R.filter (DoubleAllocation t a)).map fun b => reported (a, b))]
  · refine ⟨_, ?_, congrArg some (congrArg _ (flatMap_conflicting t L R))⟩
    intro c mem
    rcases List.mem_append.mp mem with mem | mem
    all_goals
      obtain ⟨p, -, rfl⟩ := List.mem_map.mp mem
      rfl
  · intro a i
    cases kept : scanned t a with
    | false =>
      have nothing : R.filter (DoubleAllocation t a) = [] := by
        rw [List.filter_eq_nil_iff]
        intro b _ conflict
        have := scanned_and_check.mpr (of_decide_eq_true conflict)
        rw [kept, Bool.false_and] at this
        cases this
      rw [nothing]
      exact if_pos (by rw [ConflictClock.steady, kept]; rfl)
    | true =>
      refine (if_neg (by rw [ConflictClock.steady, kept]; decide)).trans ?_
      rw [mapM_pointers (g := fun b => if DoubleAllocation t a b then [reported (a, b)] else [])]
      · exact congrArg some (flatten_ite ..)
      · intro b j
        have check := scanned_and_check (t := t) (a := a) (b := b)
        rw [kept, Bool.true_and] at check
        by_cases conflict : DoubleAllocation t a b
        · rw [if_pos conflict]
          exact if_pos (check.mpr conflict)
        · rw [if_neg conflict]
          exact if_neg (mt check.mp conflict)

/-- The double allocations that are reported, with multiplicity and in order. -/
lemma findConflicts_doubles (t : Time) (L R : List Lease) :
    ∃ out, findConflicts (.steady t) (L.map some) (R.map some) = some out ∧
      doubles out = (conflicting t L R).map reported := by
  obtain ⟨expired, not, found⟩ := findConflicts_steady t L R
  refine ⟨_, found, ?_⟩
  have all : ∀ c ∈ (conflicting t L R).map reported, c.isDouble = true := by
    intro c mem
    obtain ⟨pair, -, rfl⟩ := List.mem_map.mp mem
    rfl
  rw [doubles, List.filter_append, List.filter_eq_self.mpr all,
    List.filter_eq_nil_iff.mpr fun c mem => Bool.not_eq_true _ ▸ not c mem, List.nil_append]

/-- With the lists exchanged the pairs are. -/
lemma conflicting_swap (t : Time) (L R : List Lease) :
    (conflicting t R L).Perm ((conflicting t L R).map Prod.swap) := by
  have product : (R ×ˢ L).Perm ((L ×ˢ R).map Prod.swap) := by
    rw [← Multiset.coe_eq_coe, ← Multiset.map_coe, ← Multiset.coe_product, ← Multiset.coe_product,
      Multiset.map_swap_product]
  have swapped : ∀ pair : Lease × Lease, decide (DoubleAllocation t pair.swap.1 pair.swap.2) =
      decide (DoubleAllocation t pair.1 pair.2) := fun pair => decide_eq_decide.mpr doubleAllocation_comm
  refine (product.filter _).trans ?_
  rw [List.filter_map, conflicting]
  simp only [Function.comp_def, swapped]
  exact .rfl

/-! ## What the handler of proofs makes of it -/

/-- The handler accepts the proof of a pair that passes its check at its clock reading. -/
lemma handle_reported (check : checkDoubleAllocation t (some a) (some b) = true)
    (m : Manager) (timestamp now : Time) :
    ∃ entry, m.handleProofOfInvalidity t now (some ((reported (a, b)).proof timestamp)) = .ok entry :=
  handle_ok_iff.mpr (.doubleAllocation rfl rfl rfl check)

/-- A double allocation that is reported, for lists that may hold nil, has passed the check. -/
lemma findConflicts_sound {locals remotes : List (Option Lease)} {out : List ConflictPair} {c : ConflictPair}
    (found : findConflicts (.steady t) locals remotes = some out) (mem : c ∈ out) (double : c.isDouble = true) :
    ∃ a b, c = reported (a, b) ∧ checkDoubleAllocation t (some a) (some b) = true := by
  unfold findConflicts at found
  obtain ⟨rows, scan, made⟩ := Option.bind_eq_some_iff.mp found
  cases made
  rcases List.mem_append.mp mem with expired | mem
  case inl =>
    rcases List.mem_append.mp expired with expired | expired
    all_goals
      obtain ⟨p, -, rfl⟩ := List.mem_map.mp expired
      cases double
  case inr =>
    obtain ⟨row, ofRows, mem⟩ := List.mem_flatten.mp mem
    obtain ⟨⟨l, i⟩, -, outer⟩ := (of_mapM scan).2 _ ofRows
    obtain ⟨a, rfl, outer⟩ := Option.bind_eq_some_iff.mp outer
    split at outer
    case isTrue =>
      cases outer
      cases mem
    case isFalse =>
      obtain ⟨cells, scan, made⟩ := Option.bind_eq_some_iff.mp outer
      cases made
      obtain ⟨cell, ofCells, mem⟩ := List.mem_flatten.mp mem
      obtain ⟨⟨r, j⟩, -, inner⟩ := (of_mapM scan).2 _ ofCells
      obtain ⟨b, rfl, inner⟩ := Option.bind_eq_some_iff.mp inner
      split at inner
      case isTrue check =>
        cases inner
        exact ⟨a, b, List.mem_singleton.mp mem, (Bool.and_eq_true_iff.mp check).2⟩
      case isFalse =>
        cases inner
        cases mem

/-! ## Main result -/

/-- Conflict detection is exact and symmetric at one clock reading, and what either side builds of it is accepted. -/
theorem conflictDetection_exact (t : Time) (L R : List Lease) :
    ∃ out out', findConflicts (.steady t) (L.map some) (R.map some) = some out ∧
      findConflicts (.steady t) (R.map some) (L.map some) = some out' ∧
      doubles out = (conflicting t L R).map reported ∧
      (doubles out').Perm ((doubles out).map ConflictPair.swap) ∧
      ∀ c ∈ doubles out ++ doubles out', ∀ (m : Manager) (timestamp now : Time),
        ∃ entry, m.handleProofOfInvalidity t now (some (c.proof timestamp)) = .ok entry := by
  obtain ⟨out, found, exact⟩ := findConflicts_doubles t L R
  obtain ⟨out', found', exact'⟩ := findConflicts_doubles t R L
  refine ⟨out, out', found, found', exact, ?_, ?_⟩
  · have swapped : ConflictPair.swap ∘ reported = reported ∘ Prod.swap := rfl
    rw [exact, exact', List.map_map, swapped, ← List.map_map]
    exact (conflicting_swap t L R).map reported
  · intro c mem m timestamp now
    rcases List.mem_append.mp mem with mem | mem
    · obtain ⟨a, b, rfl, check⟩ := findConflicts_sound found (List.mem_of_mem_filter mem) (List.of_mem_filter mem)
      exact handle_reported check m timestamp now
    · obtain ⟨a, b, rfl, check⟩ := findConflicts_sound found' (List.mem_of_mem_filter mem) (List.of_mem_filter mem)
      exact handle_reported check m timestamp now

/-- A lease that is listed twice is reported twice. -/
example : (selfConflict.leaseA.map fun a => (conflicting 5 [a, a] [a]).length) = some 2 := by
  decide +kernel

end Otap.Flr
