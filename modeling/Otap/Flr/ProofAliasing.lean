import Otap.Lib.GoSlice
import Otap.Flr.Merkle

/-!
# Merkle proofs in shared memory

`VerifyMerkleProof` again, now over the heap of the caller: a sibling is a slice, which may share its array with others
and may have spare capacity. The digest of a step is joined behind a sibling that is not greater, by `append` on the
caller's slice. With room behind the sibling that writes the digest into the caller's array, where a later sibling may
stand.

`verifyStep_spec` says what one step does, to the memory of the caller and to the digest; `verify_keepsAll` and
`verify_answer` follow it along the proof.
-/

namespace Otap.Flr

open Otap.Lib Otap.Lib.Merkle

/-! ## The verifier over a heap -/

section Verifier

variable (H : Hash 32) (fresh : Nat → Bytes)

/-- What a round hashes: the greater one is appended to the other. -/
def combine (h : Heap UInt8) (hash sibling : Slice) : Heap UInt8 × Slice :=
  if hash.elements h < sibling.elements h then hash.appendSlice fresh h (sibling.elements h)
  else sibling.appendSlice fresh h (hash.elements h)

/-- One sibling. The digest is `none` after `return false`. -/
def verifyStep (state : Heap UInt8 × Option Slice) (sibling : Slice) : Heap UInt8 × Option Slice :=
  match state with
  | (h, none) => (h, none)
  | (h, some hash) =>
    if sibling.len = 0 then (h, none)
    else
      let (h, combined) := combine fresh h hash sibling
      let (h, hash) := Slice.ofArray h (H.sum (combined.elements h))
      (h, some hash)

/-- `VerifyMerkleProof`, with the memory after the call. -/
def verifyMerkleProofIn (h : Heap UInt8) (leafHash rootHash : Slice) (proof : List Slice) : Heap UInt8 × Bool :=
  if leafHash.len = 0 ∨ rootHash.len = 0 then (h, false)
  else
    let (h, hash) := leafHash.clone h
    match proof.foldl (verifyStep H fresh) (h, some hash) with
    | (h, none) => (h, false)
    | (h, some hash) => (h, hash.elements h == rootHash.elements h)

end Verifier

/-- The arguments of a call, and the memory they are in. -/
structure ProofCall where
  memory : Heap UInt8
  leafHash : Slice
  rootHash : Slice
  proof : List Slice
  leaf_valid : leafHash.InBounds memory
  root_valid : rootHash.InBounds memory
  proof_valid : ∀ sibling ∈ proof, sibling.InBounds memory

namespace ProofCall

variable (H : Hash 32) (fresh : Nat → Bytes)

/-- The call on the first `n` siblings: what it has done after as many rounds. -/
def after (c : ProofCall) (n : Nat) : Heap UInt8 × Bool :=
  verifyMerkleProofIn H fresh c.memory c.leafHash c.rootHash (c.proof.take n)

/-- At no moment is an array of the caller other than it was, and the answer is that for the bytes the arguments showed
    when the call was made. -/
def NoSideEffects (c : ProofCall) : Prop :=
  (∀ n, c.memory <+: (c.after H fresh n).1) ∧
  (c.after H fresh c.proof.length).2 = verifyMerkleProof H (c.leafHash.elements c.memory)
    (c.rootHash.elements c.memory) (c.proof.map (·.elements c.memory))

end ProofCall

/-! ## What a step may write -/

/-- The sibling does not take the digest: it is greater, has no room for the digest within its capacity, or already
    has it right behind its end. -/
def Keeps (mem : Heap UInt8) (digest : Bytes) (sibling : Slice) : Prop :=
  ¬ digest < sibling.elements mem → sibling.len + digest.length ≤ sibling.cap →
    sibling.behind mem digest.length = digest

/-- Every sibling up to the first empty one keeps its place, when it meets the digest of those before it. -/
def KeepsAll (H : Hash 32) (mem : Heap UInt8) : Bytes → List Slice → Prop
  | _, [] => True
  | digest, sibling :: proof =>
    sibling.len ≠ 0 →
      Keeps mem digest sibling ∧ KeepsAll H mem (climbStep H digest (sibling.elements mem)) proof

/-- The loop has not returned, the memory of the caller is as it was, and `hash` is a slice of its own. -/
structure Going (mem h : Heap UInt8) (hash : Slice) (digest : Bytes) : Prop where
  kept : mem <+: h
  valid : hash.InBounds h
  shows : hash.elements h = digest
  full : hash.cap = hash.len
  nonempty : digest ≠ []

section Steps

variable {H : Hash 32} {fresh : Nat → Bytes} {mem h : Heap UInt8} {hash sibling : Slice} {digest : Bytes}

/-- A slice of the caller shows what it did. -/
lemma Going.elements (going : Going mem h hash digest) {s : Slice} (valid : s.InBounds mem) :
    s.elements h = s.elements mem ∧ s.InBounds h := by
  obtain ⟨new, rfl⟩ := going.kept
  exact ⟨s.elements_append valid new, valid.append_heap new⟩

/-- Once the loop has returned, nothing happens. -/
lemma foldl_verifyStep_none (h : Heap UInt8) (proof : List Slice) :
    proof.foldl (verifyStep H fresh) (h, none) = (h, none) := by
  induction proof with
  | nil => rfl
  | cons sibling proof ih => exact ih

lemma verifyStep_empty (empty : sibling.len = 0) : verifyStep H fresh (h, some hash) sibling = (h, none) := by
  rw [verifyStep, if_pos empty]

lemma verifyStep_eq (nonempty : sibling.len ≠ 0) : verifyStep H fresh (h, some hash) sibling =
    let next := Slice.ofArray (combine fresh h hash sibling).1 (H.sum (Slice.shown (combine fresh h hash sibling)))
    (next.1, some next.2) := by
  rw [verifyStep, if_neg nonempty]
  rfl

/-- The two are joined in order, as values. -/
lemma shown_combine (going : Going mem h hash digest) (valid : sibling.InBounds mem) :
    Slice.shown (combine fresh h hash sibling) = sortedPair digest (sibling.elements mem) := by
  obtain ⟨same, valid'⟩ := going.elements valid
  rw [combine, going.shows, same, ← ite_lt_eq_sortedPair]
  split
  case isTrue => rw [Slice.shown_appendSlice going.valid, going.shows]
  case isFalse => rw [Slice.shown_appendSlice valid', same]

/-- The digest has no room behind it, so only an append to the sibling can write into the memory of the caller. -/
lemma prefix_combine (going : Going mem h hash digest) (valid : sibling.InBounds mem) (nonempty : sibling.len ≠ 0) :
    mem <+: (combine fresh h hash sibling).1 ↔ Keeps mem digest sibling := by
  obtain ⟨same, -⟩ := going.elements valid
  rw [combine, going.shows, same, Keeps]
  split
  case isTrue lt =>
    have full : hash.cap < hash.len + (sibling.elements mem).length := by
      rw [going.full, Slice.length_elements valid]
      omega
    rw [Slice.appendSlice_full full]
    exact iff_of_true (going.kept.trans (List.prefix_append _ _)) fun not => absurd lt not
  case isFalse not =>
    rw [Slice.prefix_appendSlice going.kept valid going.nonempty]
    exact ⟨fun keeps _ => keeps, fun keeps => keeps not⟩

lemma Going.length_le_combine (going : Going mem h hash digest) (sibling : Slice) :
    mem.length ≤ (combine fresh h hash sibling).1.length := by
  refine going.kept.length_le.trans ?_
  unfold combine
  split
  case isTrue => exact Slice.length_le_appendSlice ..
  case isFalse => exact Slice.length_le_appendSlice ..

/-- One step keeps the memory of the caller exactly if the sibling keeps its place, and then goes on with the next
    digest. -/
lemma verifyStep_spec (going : Going mem h hash digest) (valid : sibling.InBounds mem) (nonempty : sibling.len ≠ 0) :
    ∃ h' hash', verifyStep H fresh (h, some hash) sibling = (h', some hash') ∧
      (mem <+: h' ↔ Keeps mem digest sibling) ∧
      (mem <+: h' → Going mem h' hash' (climbStep H digest (sibling.elements mem))) := by
  have shown : Slice.shown (combine fresh h hash sibling) = _ := shown_combine going valid
  have le : mem.length ≤ (combine fresh h hash sibling).1.length := going.length_le_combine sibling
  refine ⟨_, _, verifyStep_eq nonempty, ?_, fun kept => ?_⟩
  · exact (Slice.prefix_ofArray le _).trans (prefix_combine going valid nonempty)
  · rw [shown] at kept ⊢
    exact
      { kept := kept
        valid := Slice.inBounds_ofArray _ _
        shows := Slice.shown_ofArray _ _
        full := rfl
        nonempty := List.ne_nil_of_length_pos (by rw [climbStep, H.length_sum]; decide) }

/-- The rounds of the loop: the memory of the caller stays as it was throughout exactly if the siblings all keep their
    places. -/
lemma verify_keepsAll (going : Going mem h hash digest) {proof : List Slice}
    (valid : ∀ sibling ∈ proof, sibling.InBounds mem) :
    (∀ n, mem <+: ((proof.take n).foldl (verifyStep H fresh) (h, some hash)).1) ↔ KeepsAll H mem digest proof := by
  induction proof generalizing h hash digest with
  | nil =>
    refine iff_of_true (fun n => ?_) trivial
    rw [List.take_nil]
    exact going.kept
  | cons sibling proof ih =>
    rw [List.forall_mem_cons] at valid
    by_cases empty : sibling.len = 0
    · refine iff_of_true (fun n => ?_) fun nonempty => absurd empty nonempty
      cases n with
      | zero => exact going.kept
      | succ n =>
        rw [List.take_succ_cons, List.foldl_cons, verifyStep_empty empty, foldl_verifyStep_none]
        exact going.kept
    · obtain ⟨h', hash', step, kept, next⟩ := verifyStep_spec (H := H) going valid.1 empty
      have rounds (n : Nat) : ((sibling :: proof).take (n + 1)).foldl (verifyStep H fresh) (h, some hash) =
          (proof.take n).foldl (verifyStep H fresh) (h', some hash') := by
        rw [List.take_succ_cons, List.foldl_cons, step]
      constructor
      · intro always _
        have first : mem <+: h' := by
          have once := always 1
          rwa [rounds, List.take_zero] at once
        refine ⟨kept.mp first, (ih (next first) valid.2).mp fun n => ?_⟩
        rw [← rounds]
        exact always (n + 1)
      · intro keepsAll n
        obtain ⟨keeps, rest⟩ := keepsAll empty
        cases n with
        | zero => exact going.kept
        | succ n =>
          rw [rounds]
          exact (ih (next (kept.mpr keeps)) valid.2).mpr rest n

/-- The digest the loop has reached, unless it has returned. -/
def reached (state : Heap UInt8 × Option Slice) : Option Bytes :=
  state.2.map fun hash => hash.elements state.1

/-- Along siblings that keep their places the loop computes what it does on values. -/
lemma verify_answer (going : Going mem h hash digest) {proof : List Slice}
    (valid : ∀ sibling ∈ proof, sibling.InBounds mem) (keepsAll : KeepsAll H mem digest proof) :
    verifyLoop H (proof.map (·.elements mem)) digest =
      reached (proof.foldl (verifyStep H fresh) (h, some hash)) := by
  induction proof generalizing h hash digest with
  | nil => exact congrArg some going.shows.symm
  | cons sibling proof ih =>
    rw [List.forall_mem_cons] at valid
    rw [List.map_cons, verifyLoop, Slice.length_elements valid.1, List.foldl_cons]
    by_cases empty : sibling.len = 0
    · rw [if_pos empty, verifyStep_empty empty, foldl_verifyStep_none]
      rfl
    · obtain ⟨keeps, rest⟩ := keepsAll empty
      obtain ⟨h', hash', step, kept, next⟩ := verifyStep_spec (H := H) going valid.1 empty
      rw [if_neg empty, step, ite_lt_eq_sortedPair]
      exact ih (next (kept.mpr keeps)) valid.2 rest

/-- The siblings one by one, each with the digest of those before it. -/
lemma keepsAll_iff {proof : List Slice} : KeepsAll H mem digest proof ↔
    ∀ before sibling after, proof = before ++ sibling :: after → (∀ s ∈ before ++ [sibling], s.len ≠ 0) →
      Keeps mem (climb H digest (before.map (·.elements mem))) sibling := by
  induction proof generalizing digest with
  | nil => exact iff_of_true trivial fun before sibling after split => absurd split (by simp)
  | cons s proof ih =>
    rw [KeepsAll, ih]
    constructor
    · intro keepsAll before sibling after split nonempty
      cases before with
      | nil =>
        obtain ⟨rfl, -⟩ := List.cons.inj split
        exact (keepsAll (nonempty s List.mem_cons_self)).1
      | cons b before =>
        obtain ⟨rfl, rest⟩ := List.cons.inj split
        rw [List.cons_append, List.forall_mem_cons] at nonempty
        exact (keepsAll nonempty.1).2 before sibling after rest nonempty.2
    · intro all nonempty
      refine ⟨all [] s proof rfl (by simpa using nonempty), fun before sibling after split rest => ?_⟩
      refine all (s :: before) sibling after (congrArg (s :: ·) split) ?_
      rw [List.cons_append, List.forall_mem_cons]
      exact ⟨nonempty, rest⟩

end Steps

/-! ## Calls -/

namespace ProofCall

variable {H : Hash 32} {fresh : Nat → Bytes}

/-- No sibling that the loop reaches takes the digest of those before it. -/
def LeavesSiblings (H : Hash 32) (c : ProofCall) : Prop :=
  ∀ before sibling after, c.proof = before ++ sibling :: after → (∀ s ∈ before ++ [sibling], s.len ≠ 0) →
    Keeps c.memory (climb H (c.leafHash.elements c.memory) (before.map (·.elements c.memory))) sibling

/-- The loop starts with a copy of the leaf hash. -/
lemma going (c : ProofCall) (nonempty : c.leafHash.len ≠ 0) :
    Going c.memory (c.leafHash.clone c.memory).1 (c.leafHash.clone c.memory).2 (c.leafHash.elements c.memory) where
  kept := List.prefix_append _ _
  valid := c.leaf_valid.clone
  shows := Slice.shown_clone c.leaf_valid
  full := rfl
  nonempty := by
    rw [← List.length_pos_iff, Slice.length_elements c.leaf_valid]
    omega

/-- The loop after `n` siblings. -/
def rounds (H : Hash 32) (fresh : Nat → Bytes) (c : ProofCall) (n : Nat) : Heap UInt8 × Option Slice :=
  (c.proof.take n).foldl (verifyStep H fresh) ((c.leafHash.clone c.memory).1, some (c.leafHash.clone c.memory).2)

lemma after_eq (c : ProofCall) (n : Nat) (leaf : c.leafHash.len ≠ 0) (root : c.rootHash.len ≠ 0) :
    c.after H fresh n = ((c.rounds H fresh n).1,
      ((reached (c.rounds H fresh n)).map (· == c.rootHash.elements (c.rounds H fresh n).1)).getD false) := by
  have loop : c.after H fresh n = match c.rounds H fresh n with
      | (h, none) => (h, false)
      | (h, some hash) => (h, hash.elements h == c.rootHash.elements h) := by
    rw [after, verifyMerkleProofIn, if_neg (not_or.mpr ⟨leaf, root⟩)]
    rfl
  rw [loop]
  generalize c.rounds H fresh n = state
  obtain ⟨h, hash⟩ := state
  cases hash with
  | none => rfl
  | some hash => rfl

/-- The answer to a call whose siblings all keep their places. -/
lemma answer_eq (c : ProofCall) (leaf : c.leafHash.len ≠ 0) (root : c.rootHash.len ≠ 0)
    (keepsAll : KeepsAll H c.memory (c.leafHash.elements c.memory) c.proof) :
    (c.after H fresh c.proof.length).2 = verifyMerkleProof H (c.leafHash.elements c.memory)
      (c.rootHash.elements c.memory) (c.proof.map (·.elements c.memory)) := by
  have kept : c.memory <+: (c.rounds H fresh c.proof.length).1 :=
    (verify_keepsAll (c.going leaf) c.proof_valid).mpr keepsAll c.proof.length
  have value : verifyLoop H (c.proof.map (·.elements c.memory)) (c.leafHash.elements c.memory) =
      reached (c.rounds H fresh c.proof.length) := by
    rw [rounds, List.take_length]
    exact verify_answer (c.going leaf) c.proof_valid keepsAll
  obtain ⟨new, grown⟩ := kept
  rw [c.after_eq _ leaf root, verifyMerkleProof, Slice.length_elements c.leaf_valid,
    Slice.length_elements c.root_valid, if_neg (not_or.mpr ⟨leaf, root⟩), value, ← grown,
    c.rootHash.elements_append c.root_valid]
  cases reached (c.rounds H fresh c.proof.length) with
  | none => rfl
  | some hash => rfl

end ProofCall

/-- Verification has no side effects exactly if a hash is empty or no sibling that it reaches takes the digest of those
    before it into the cells behind it. -/
theorem no_side_effects_iff (H : Hash 32) (fresh : Nat → Bytes) (c : ProofCall) :
    c.NoSideEffects H fresh ↔ c.leafHash.len = 0 ∨ c.rootHash.len = 0 ∨ c.LeavesSiblings H := by
  by_cases early : c.leafHash.len = 0 ∨ c.rootHash.len = 0
  · have returned (n : Nat) : c.after H fresh n = (c.memory, false) := if_pos early
    refine iff_of_true ⟨fun n => ?_, ?_⟩ (or_assoc.mp (.inl early))
    · rw [returned]
    · rw [returned, verifyMerkleProof, Slice.length_elements c.leaf_valid, Slice.length_elements c.root_valid,
        if_pos early]
  · obtain ⟨leaf, root⟩ := not_or.mp early
    have kept : (∀ n, c.memory <+: (c.after H fresh n).1) ↔ c.LeavesSiblings H := by
      rw [ProofCall.LeavesSiblings, ← keepsAll_iff, ← verify_keepsAll (c.going leaf) c.proof_valid]
      simp only [c.after_eq _ leaf root]
      rfl
    rw [or_iff_right leaf, or_iff_right root, ← kept]
    refine ⟨fun pure => pure.1, fun always => ⟨always, ?_⟩⟩
    exact c.answer_eq leaf root (keepsAll_iff.mpr (kept.mp always))

/-- Siblings without spare capacity, as `findMerkleProof` returns them, leave nothing to write into. -/
lemma ProofCall.leavesSiblings_of_full {H : Hash 32} {c : ProofCall} (full : ∀ s ∈ c.proof, s.cap = s.len) :
    c.LeavesSiblings H := by
  intro before sibling after split _ _ room
  have mem : sibling ∈ c.proof := by simp [split]
  have none : (climb H (c.leafHash.elements c.memory) (before.map (·.elements c.memory))).length = 0 := by
    have := full sibling mem
    omega
  rw [none, List.length_eq_zero_iff.mp none]
  exact List.take_zero

/-! ## Siblings in one buffer -/

/-- The digests of a proof: a leaf, and two siblings in a buffer of 64 bytes. -/
def sharedLeaf : Bytes := List.replicate 32 5
def sharedLeft : Bytes := List.replicate 32 1
def sharedRight : Bytes := List.replicate 32 9

/-- Both siblings are sub-slices of the buffer; the first reaches with its capacity over the second. -/
def sharedBuffer : ProofCall where
  memory := [sharedLeaf, climb (.positional 32) sharedLeaf [sharedLeft, sharedRight], sharedLeft ++ sharedRight]
  leafHash := { array := 0, offset := 0, len := 32, cap := 32, len_le := le_rfl }
  rootHash := { array := 1, offset := 0, len := 32, cap := 32, len_le := le_rfl }
  proof :=
    [ { array := 2, offset := 0, len := 32, cap := 64, len_le := by decide },
      { array := 2, offset := 32, len := 32, cap := 32, len_le := le_rfl } ]
  leaf_valid := .inr ⟨_, rfl, by decide⟩
  root_valid := .inr ⟨_, rfl, by decide +kernel⟩
  proof_valid := by
    simp only [List.forall_mem_cons]
    exact ⟨.inr ⟨_, rfl, by decide⟩, .inr ⟨_, rfl, by decide⟩, by simp⟩

/-- A correct proof is refused, and the buffer of the caller is overwritten. -/
theorem shared_buffer_overwritten :
    ¬ sharedBuffer.NoSideEffects (.positional 32) (fun _ => []) ∧
    (sharedBuffer.after (.positional 32) (fun _ => []) 2).1[2]? = some (sharedLeft ++ sharedLeaf) ∧
    sharedBuffer.memory[2]? = some (sharedLeft ++ sharedRight) ∧
    (sharedBuffer.after (.positional 32) (fun _ => []) 2).2 = false ∧
    verifyMerkleProof (.positional 32) sharedLeaf (climb (.positional 32) sharedLeaf [sharedLeft, sharedRight])
      [sharedLeft, sharedRight] = true := by
  have refused : (sharedBuffer.after (.positional 32) (fun _ => []) 2).2 = false := by decide +kernel
  have correct : verifyMerkleProof (.positional 32) sharedLeaf
      (climb (.positional 32) sharedLeaf [sharedLeft, sharedRight]) [sharedLeft, sharedRight] = true := by
    decide +kernel
  refine ⟨fun pure => ?_, by decide +kernel, rfl, refused, correct⟩
  have same := refused.symm.trans pure.2
  exact absurd same (by decide +kernel)

end Otap.Flr
