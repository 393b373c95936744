import Otap.Lib.Run
import Otap.Bitweave.Buffered

/-!
# Pooled queries

Embeds `ConflictPool` of `flr/internal/bitweave/conflict_pool.go`. Goroutines take turns in any order; each has a stack
of `Query` calls, since a callback may query the pool again, and a turn of its innermost call is one access to what
they share: `Get`, the read of `*bufPtr`, one `append` of the scan, the write of `*bufPtr`, `Put`. The scan only reads
the index, which does not change, so what it has to append is known when it starts.

`sync.Pool` hands out a pointer that was put and not handed out since, or calls `New`, and may drop what it holds.
`make` and a growing `append` give a new array, also where it has no cells.

* `advance_query`: a call that is not interrupted scans as `CheckConflictsBuf` does.
* `pool_isolated`: in every interleaving the callbacks see what `CheckConflicts` returns, in arrays of their own.
  Every array belongs to the pointer it was allocated for, and every pointer to one call at most (`Inv`).
-/

namespace Otap.Bitweave
open Otap.Lib

/-! ## The code -/

/-- The arguments of `Query`, of an index that calls of `Insert` and `Remove` reach. -/
structure PoolQuery where
  idx : LeaseIndex
  reached : ∃ cs : List IndexCall, idx = cs.foldl LeaseIndex.step newLeaseIndex
  attributes : Attributes
  excludeSlot : Int

/-- What `CheckConflicts` returns for the query. -/
def PoolQuery.conflicts (q : PoolQuery) : List Conflict :=
  q.idx.checkConflicts q.attributes q.excludeSlot

/-- What the loops of `extractConflicts` append, in order. -/
def PoolQuery.scan (regs : Registers) (q : PoolQuery) : List Conflict :=
  (List.range ((q.idx.count + 63) / 64)).flatMap
    (q.idx.wordConflicts (q.idx.computeConflictMasks false regs q.attributes q.excludeSlot))

/-- Where a call of `Query` is. -/
inductive QueryPhase where
  /-- It has its pointer. -/
  | fetched
  /-- It is in the scan, with the slice so far and what is still to be appended. -/
  | scanning (results : Slice) (todo : List Conflict)
  /-- It has written the slice back. -/
  | captured (conflicts : Slice)
  /-- Its callback runs. -/
  | running (conflicts : Slice)
  /-- Its callback has returned. -/
  | returned

structure QueryFrame where
  query : PoolQuery
  bufPtr : Nat
  phase : QueryPhase

/-- The heap of conflict arrays, the pointers that `New` has made with what they point to, those that the pool holds,
    and the calls of each goroutine, the innermost one first. -/
structure PoolState where
  heap : Heap Conflict
  made : Nat
  buffers : Nat → Slice
  idle : List Nat
  calls : Nat → List QueryFrame

/-- A new pool, before any query. -/
def newConflictPool : PoolState where
  heap := []
  made := 0
  buffers _ := .nil
  idle := []
  calls _ := []

/-- A turn. `get` names the pointer that the pool hands out, if it does not call `New`; `advance` carries the cells
    that a growing `append` leaves free. -/
inductive PoolTurn where
  | get (g : Nat) (q : PoolQuery) (handed : Option Nat)
  | advance (g : Nat) (fresh : Nat → List Conflict)
  | callbackReturns (g : Nat)
  | callbackPanics (g : Nat)
  | dropped (p : Nat)

namespace PoolState

def setStack (s : PoolState) (g : Nat) (stack : List QueryFrame) : PoolState :=
  { s with calls := Function.update s.calls g stack }

/-- Outside of any call, or in a callback. -/
def mayQuery : List QueryFrame → Bool
  | [] => true
  | f :: _ =>
    match f.phase with
    | .running _ => true
    | _ => false

/-- `NewConflictPool(initialCap).pool.New`, for a capacity that `make` accepts. -/
def newBuffer (initialCap : Nat) (blank : Conflict) (s : PoolState) : PoolState :=
  let b := Slice.make s.heap (List.replicate initialCap blank)
  { s with heap := b.1, made := s.made + 1, buffers := Function.update s.buffers s.made b.2 }

/-- `cp.pool.Get()` at the start of a `Query`. A negative capacity makes `New` panic. -/
def get (initialCap : Int) (blank : Conflict) (s : PoolState) (g : Nat) (q : PoolQuery) (handed : Option Nat) :
    PoolState :=
  if mayQuery (s.calls g) then
    match handed with
    | some p =>
      if p ∈ s.idle then { s with idle := s.idle.erase p }.setStack g (⟨q, p, .fetched⟩ :: s.calls g) else s
    | none =>
      if initialCap < 0 then s
      else (s.newBuffer initialCap.toNat blank).setStack g (⟨q, s.made, .fetched⟩ :: s.calls g)
  else s

/-- The next action of the innermost call. -/
def advance (regs : Registers) (s : PoolState) (g : Nat) (fresh : Nat → List Conflict) : PoolState :=
  match s.calls g with
  | [] => s
  | ⟨q, p, phase⟩ :: below =>
    match phase with
    -- `CheckConflictsBuf` is called with `*bufPtr`
    | .fetched => s.setStack g (⟨q, p, .scanning (s.buffers p).truncate (q.scan regs)⟩ :: below)
    | .scanning results (c :: todo) =>
      let appended := Slice.append fresh s.heap results c
      { s with heap := appended.1 }.setStack g (⟨q, p, .scanning appended.2 todo⟩ :: below)
    -- `*bufPtr = conflicts`
    | .scanning results [] =>
      { s with buffers := Function.update s.buffers p results }.setStack g (⟨q, p, .captured results⟩ :: below)
    | .captured conflicts => s.setStack g (⟨q, p, .running conflicts⟩ :: below)
    | .running _ => s
    -- `cp.pool.Put(bufPtr)`
    | .returned => { s.setStack g below with idle := p :: s.idle }

/-- The innermost callback returns. -/
def callbackReturns (s : PoolState) (g : Nat) : PoolState :=
  match s.calls g with
  | ⟨q, p, .running _⟩ :: below => s.setStack g (⟨q, p, .returned⟩ :: below)
  | _ => s

/-- The innermost callback panics: its call ends without `Put`. -/
def callbackPanics (s : PoolState) (g : Nat) : PoolState :=
  match s.calls g with
  | ⟨_, _, .running _⟩ :: below => s.setStack g below
  | _ => s

def step (initialCap : Int) (blank : Conflict) (regs : Registers) (s : PoolState) : PoolTurn → PoolState
  | .get g q handed => s.get initialCap blank g q handed
  | .advance g fresh => s.advance regs g fresh
  | .callbackReturns g => s.callbackReturns g
  | .callbackPanics g => s.callbackPanics g
  | .dropped p => { s with idle := s.idle.erase p }

end PoolState

/-! ## A call alone -/

namespace PoolState

variable {regs : Registers} {s : PoolState} {g p : Nat} {q : PoolQuery} {below : List QueryFrame}
  {fresh : Nat → List Conflict}

/-- The appends of the scan, one after the other. -/
lemma advance_scanning {results : Slice} {todo : List Conflict}
    (top : s.calls g = ⟨q, p, .scanning results todo⟩ :: below) :
    (fun s => s.advance regs g fresh)^[todo.length] s =
      { s with heap := (Slice.appendAll fresh (s.heap, results) todo).1 }.setStack g
        (⟨q, p, .scanning (Slice.appendAll fresh (s.heap, results) todo).2 []⟩ :: below) := by
  induction todo generalizing s results with
  | nil =>
    rw [List.length_nil, Function.iterate_zero, id, setStack, Slice.appendAll, List.foldl_nil, ← top,
      Function.update_eq_self]
  | cons c todo ih =>
    rw [List.length_cons, Function.iterate_succ_apply, advance, top]
    dsimp only
    rw [ih (Function.update_self ..)]
    simp only [setStack, Function.update_idem]
    rfl

/-- A call that is not interrupted runs its callback on what `CheckConflictsBuf` makes of its buffer. -/
lemma advance_query (top : s.calls g = ⟨q, p, .fetched⟩ :: below) {out : Heap Conflict × Slice}
    (scan : q.idx.checkConflictsBuf false regs fresh q.attributes q.excludeSlot s.heap (s.buffers p) = out) :
    (fun s => s.advance regs g fresh)^[2 + (q.scan regs).length + 1] s =
      { s with heap := out.1, buffers := Function.update s.buffers p out.2 }.setStack g
        (⟨q, p, .running out.2⟩ :: below) := by
  have started : s.advance regs g fresh =
      s.setStack g (⟨q, p, .scanning (s.buffers p).truncate (q.scan regs)⟩ :: below) := by rw [advance, top]
  have appended : Slice.appendAll fresh (s.heap, (s.buffers p).truncate) (q.scan regs) = out := by
    rw [← scan, LeaseIndex.checkConflictsBuf, extractConflicts_eq]
    rfl
  rw [Function.iterate_succ_apply, started, Function.iterate_add_apply, advance_scanning (Function.update_self ..)]
  simp only [setStack, Function.update_idem, appended, Function.iterate_succ, Function.iterate_zero, Function.comp,
    advance, Function.update_self, id]

end PoolState

/-! ## The invariant -/

namespace PoolState

/-- What a call that has a slice has: the slice, and what is still missing in it. -/
def view : QueryPhase → Option (Slice × List Conflict)
  | .fetched => none
  | .scanning results todo => some (results, todo)
  | .captured conflicts => some (conflicts, [])
  | .running conflicts => some (conflicts, [])
  | .returned => none

/-- The slice of a call is in an array of its pointer and will show the conflicts of its query. -/
def Holds (owner : Nat → Nat) (heap : Heap Conflict) (f : QueryFrame) : Prop :=
  ∀ r todo, view f.phase = some (r, todo) →
    Slice.Owned owner heap f.bufPtr r ∧ r.elements heap ++ todo = f.query.conflicts

/-- Every pointer is held by the pool or by one call at most. -/
structure Inv (owner : Nat → Nat) (s : PoolState) : Prop where
  buffers : ∀ p < s.made, Slice.Owned owner s.heap p (s.buffers p)
  idle_lt : ∀ p ∈ s.idle, p < s.made
  idle_nodup : s.idle.Nodup
  held : ∀ g, ∀ f ∈ s.calls g, f.bufPtr < s.made ∧ f.bufPtr ∉ s.idle
  holds : ∀ g, ∀ f ∈ s.calls g, Holds owner s.heap f
  nested : ∀ g, (s.calls g).Pairwise fun f f' => f.bufPtr ≠ f'.bufPtr
  apart : ∀ g g', g ≠ g' → ∀ f ∈ s.calls g, ∀ f' ∈ s.calls g', f.bufPtr ≠ f'.bufPtr

variable {owner owner' : Nat → Nat} {heap' : Heap Conflict} {s : PoolState} {g p : Nat} {f f' : QueryFrame}
  {below : List QueryFrame}

lemma inv_new (owner : Nat → Nat) : Inv owner newConflictPool where
  buffers _ lt := by cases lt
  idle_lt _ mem := by cases mem
  idle_nodup := List.nodup_nil
  held _ _ mem := by cases mem
  holds _ _ mem := by cases mem
  nested _ := List.Pairwise.nil
  apart _ _ _ _ mem := by cases mem

/-- A call keeps its slice while another pointer's arrays are written. -/
lemma Holds.moves (holds : Holds owner s.heap f) (moves : Slice.Moves p owner s.heap owner' heap')
    (other : f.bufPtr ≠ p) : Holds owner' heap' f := by
  intro r todo has
  obtain ⟨owned, shows⟩ := holds r todo has
  exact ⟨owned.moves moves, by rw [owned.elements_moves moves other]; exact shows⟩

/-- The calls of a state after one stack was replaced. -/
lemma mem_calls {stack : List QueryFrame} {g' : Nat} (mem : f ∈ (s.setStack g stack).calls g') :
    g' = g ∧ f ∈ stack ∨ g' ≠ g ∧ f ∈ s.calls g' := by
  by_cases same : g' = g
  case pos =>
    subst same
    exact .inl ⟨rfl, (Function.update_self g' stack s.calls) ▸ mem⟩
  case neg => exact .inr ⟨same, (Function.update_of_ne same stack s.calls) ▸ mem⟩

/-- Replacing the stack of a goroutine. -/
lemma Inv.setStack (inv : Inv owner s) {stack : List QueryFrame}
    (held : ∀ f ∈ stack, f.bufPtr < s.made ∧ f.bufPtr ∉ s.idle) (holds : ∀ f ∈ stack, Holds owner s.heap f)
    (nested : stack.Pairwise fun f f' => f.bufPtr ≠ f'.bufPtr)
    (apart : ∀ g', g' ≠ g → ∀ f' ∈ s.calls g', ∀ f ∈ stack, f.bufPtr ≠ f'.bufPtr) :
    Inv owner (s.setStack g stack) := by
  refine ⟨inv.buffers, inv.idle_lt, inv.idle_nodup, ?_, ?_, ?_, ?_⟩
  · intro g' f mem
    rcases mem_calls mem with ⟨-, new⟩ | ⟨-, old⟩
    · exact held f new
    · exact inv.held g' f old
  · intro g' f mem
    rcases mem_calls mem with ⟨-, new⟩ | ⟨-, old⟩
    · exact holds f new
    · exact inv.holds g' f old
  · exact (Function.forall_update_iff s.calls fun _ fs => fs.Pairwise fun f f' => f.bufPtr ≠ f'.bufPtr).mpr
      ⟨nested, fun g' _ => inv.nested g'⟩
  · intro g₁ g₂ ne f₁ mem₁ f₂ mem₂
    rcases mem_calls mem₁ with ⟨rfl, new₁⟩ | ⟨ne₁, old₁⟩
    · rcases mem_calls mem₂ with ⟨rfl, -⟩ | ⟨ne₂, old₂⟩
      · exact absurd rfl ne
      · exact apart g₂ ne₂ f₂ old₂ f₁ new₁
    · rcases mem_calls mem₂ with ⟨-, new₂⟩ | ⟨-, old₂⟩
      · exact (apart g₁ ne₁ f₁ old₁ f₂ new₂).symm
      · exact inv.apart g₁ g₂ ne f₁ old₁ f₂ old₂

/-- A pointer that neither the pool nor a call holds. -/
structure Free (s : PoolState) (p : Nat) : Prop where
  made : p < s.made
  idle : p ∉ s.idle
  calls : ∀ g, ∀ f ∈ s.calls g, f.bufPtr ≠ p

/-- A call gets a free pointer, -/
lemma Inv.push (inv : Inv owner s) (free : s.Free f.bufPtr) (holds : Holds owner s.heap f) (g : Nat) :
    Inv owner (s.setStack g (f :: s.calls g)) := by
  refine inv.setStack ?_ ?_ (List.pairwise_cons.mpr ⟨fun a mem => (free.calls g a mem).symm, inv.nested g⟩) ?_
  · intro a mem
    cases mem with
    | head => exact ⟨free.made, free.idle⟩
    | tail _ mem => exact inv.held g a mem
  · intro a mem
    cases mem with
    | head => exact holds
    | tail _ mem => exact inv.holds g a mem
  · intro g' ne b called a mem
    cases mem with
    | head => exact (free.calls g' b called).symm
    | tail _ mem => exact inv.apart g g' ne.symm a mem b called

/-- and leaves it behind. -/
lemma Inv.pop (inv : Inv owner s) (top : s.calls g = f :: below) :
    Inv owner (s.setStack g below) ∧ (s.setStack g below).Free f.bufPtr := by
  have mem : f ∈ s.calls g := top ▸ List.mem_cons_self
  have rest : ∀ a ∈ below, a ∈ s.calls g := fun a mem => top ▸ List.mem_cons_of_mem f mem
  have nested := inv.nested g
  rw [top, List.pairwise_cons] at nested
  constructor
  · exact inv.setStack (fun a mem => inv.held g a (rest a mem)) (fun a mem => inv.holds g a (rest a mem)) nested.2
      fun g' ne b called a mem => inv.apart g g' ne.symm a (rest a mem) b called
  · refine ⟨(inv.held g f mem).1, (inv.held g f mem).2, fun g' a called => ?_⟩
    rcases mem_calls called with ⟨-, new⟩ | ⟨ne, old⟩
    · exact (nested.1 a new).symm
    · exact inv.apart g' g ne a old f mem

/-- The pool gives up a pointer, -/
lemma Inv.erase (inv : Inv owner s) (p : Nat) : Inv owner { s with idle := s.idle.erase p } where
  buffers := inv.buffers
  idle_lt q mem := inv.idle_lt q (List.mem_of_mem_erase mem)
  idle_nodup := inv.idle_nodup.erase p
  held g f mem := ⟨(inv.held g f mem).1, fun idle => (inv.held g f mem).2 (List.mem_of_mem_erase idle)⟩
  holds := inv.holds
  nested := inv.nested
  apart := inv.apart

/-- which is then free, -/
lemma Inv.free_erase (inv : Inv owner s) (mem : p ∈ s.idle) : Free { s with idle := s.idle.erase p } p where
  made := inv.idle_lt p mem
  idle := inv.idle_nodup.not_mem_erase
  calls g f called same := (inv.held g f called).2 (same ▸ mem)

/-- or takes a free one. -/
lemma Inv.put (inv : Inv owner s) (free : s.Free p) : Inv owner { s with idle := p :: s.idle } where
  buffers := inv.buffers
  idle_lt q mem := by
    cases mem with
    | head => exact free.made
    | tail _ mem => exact inv.idle_lt q mem
  idle_nodup := List.nodup_cons.mpr ⟨free.idle, inv.idle_nodup⟩
  held g f mem := by
    refine ⟨(inv.held g f mem).1, fun idle => ?_⟩
    rcases List.mem_cons.mp idle with same | idle
    · exact free.calls g f mem same
    · exact (inv.held g f mem).2 idle
  holds := inv.holds
  nested := inv.nested
  apart := inv.apart

/-- What the holder of a pointer does to its arrays, while it is in no list. -/
lemma Inv.write (inv : Inv owner s) (free : s.Free p) (moves : Slice.Moves p owner s.heap owner' heap') {b : Slice}
    (owned : Slice.Owned owner' heap' p b) :
    Inv owner' { s with heap := heap', buffers := Function.update s.buffers p b } where
  buffers := by
    refine (Function.forall_update_iff s.buffers fun q b => q < s.made → Slice.Owned owner' heap' q b).mpr
      ⟨fun _ => owned, fun q _ lt => (inv.buffers q lt).moves moves⟩
  idle_lt := inv.idle_lt
  idle_nodup := inv.idle_nodup
  held := inv.held
  holds g f mem := (inv.holds g f mem).moves moves (free.calls g f mem)
  nested := inv.nested
  apart := inv.apart

/-- An action of the innermost call: it writes arrays of its pointer, or what the pointer points to. -/
lemma Inv.setTop (inv : Inv owner s) (top : s.calls g = f :: below) (f' : QueryFrame) (same : f'.bufPtr = f.bufPtr)
    (moves : Slice.Moves f.bufPtr owner s.heap owner' heap') {b : Slice}
    (owned : Slice.Owned owner' heap' f.bufPtr b) (holds : Holds owner' heap' f') :
    Inv owner' ({ s with heap := heap', buffers := Function.update s.buffers f.bufPtr b }.setStack g
      (f' :: below)) := by
  obtain ⟨popped, free⟩ := inv.pop top
  have written := popped.write free moves owned
  have pushed := written.push (by rw [same]; exact ⟨free.made, free.idle, free.calls⟩) holds g
  simpa only [PoolState.setStack, Function.update_self, Function.update_idem] using pushed

/-- An action that writes nothing. -/
lemma Inv.setPhase (inv : Inv owner s) (top : s.calls g = f :: below) (f' : QueryFrame)
    (same : f'.bufPtr = f.bufPtr) (holds : Holds owner s.heap f') : Inv owner (s.setStack g (f' :: below)) := by
  obtain ⟨popped, free⟩ := inv.pop top
  have pushed := popped.push (same ▸ free) holds g
  simpa only [PoolState.setStack, Function.update_self, Function.update_idem] using pushed

/-- `New` makes a free pointer to an array of its own. -/
lemma Inv.newBuffer (inv : Inv owner s) (initialCap : Nat) (blank : Conflict) :
    Inv (Function.update owner s.heap.length s.made) (s.newBuffer initialCap blank) ∧
      (s.newBuffer initialCap blank).Free s.made := by
  have moves : Slice.Moves s.made owner s.heap (Function.update owner s.heap.length s.made)
      (s.newBuffer initialCap blank).heap := Slice.moves_allocate s.heap _ s.made
  have unheld : ∀ g, ∀ f ∈ s.calls g, f.bufPtr ≠ s.made := fun g f mem => (inv.held g f mem).1.ne
  constructor
  · refine ⟨?_, fun p mem => Nat.lt_succ_of_lt (inv.idle_lt p mem), inv.idle_nodup,
      fun g f mem => ⟨Nat.lt_succ_of_lt (inv.held g f mem).1, (inv.held g f mem).2⟩,
      fun g f mem => (inv.holds g f mem).moves moves (unheld g f mem), inv.nested, inv.apart⟩
    refine (Function.forall_update_iff s.buffers fun p b => p < s.made + 1 → Slice.Owned _ _ p b).mpr
      ⟨fun _ => Slice.owned_make s.heap _, fun p ne lt => ?_⟩
    exact (inv.buffers p (by omega)).moves moves
  · exact ⟨Nat.lt_succ_self _, fun mem => (inv.idle_lt _ mem).false, unheld⟩

/-! ## Turns keep it -/

lemma Inv.get (inv : Inv owner s) (initialCap : Int) (blank : Conflict) (g : Nat) (q : PoolQuery)
    (handed : Option Nat) : ∃ owner', Inv owner' (s.get initialCap blank g q handed) := by
  have fetched : ∀ owner heap p, Holds owner heap ⟨q, p, .fetched⟩ := by
    intro owner heap p r todo has
    cases has
  unfold PoolState.get
  split
  case isFalse => exact ⟨owner, inv⟩
  case isTrue =>
    split
    case h_1 p =>
      split
      case isTrue mem => exact ⟨owner, (inv.erase p).push (inv.free_erase mem) (fetched _ _ _) g⟩
      case isFalse => exact ⟨owner, inv⟩
    case h_2 =>
      split
      case isTrue => exact ⟨owner, inv⟩
      case isFalse =>
        obtain ⟨made, free⟩ := inv.newBuffer initialCap.toNat blank
        exact ⟨_, made.push free (fetched _ _ _) g⟩

lemma scan_eq (regs : Registers) (q : PoolQuery) : q.scan regs = q.conflicts :=
  flatMap_wordConflicts q.idx regs q.attributes q.excludeSlot

/-- One append of a scan. -/
lemma Inv.append (inv : Inv owner s) {q : PoolQuery} {results : Slice} {c : Conflict} {todo : List Conflict}
    (top : s.calls g = ⟨q, p, .scanning results (c :: todo)⟩ :: below) (fresh : Nat → List Conflict) :
    Inv (Function.update owner s.heap.length p)
      ({ s with heap := (Slice.append fresh s.heap results c).1 }.setStack g
        (⟨q, p, .scanning (Slice.append fresh s.heap results c).2 todo⟩ :: below)) := by
  have mem : ⟨q, p, .scanning results (c :: todo)⟩ ∈ s.calls g := top ▸ List.mem_cons_self
  obtain ⟨owned, shows⟩ := inv.holds g _ mem results (c :: todo) rfl
  obtain ⟨moves, owned'⟩ : Slice.Moves p owner s.heap (Function.update owner s.heap.length p)
      (Slice.append fresh s.heap results c).1 ∧ _ := owned.append c
  have next : Holds (Function.update owner s.heap.length p) (Slice.append fresh s.heap results c).1
      ⟨q, p, .scanning (Slice.append fresh s.heap results c).2 todo⟩ := by
    intro r rest has
    cases has
    have shown : (Slice.append fresh s.heap results c).2.elements (Slice.append fresh s.heap results c).1 =
        results.elements s.heap ++ [c] := Slice.shown_append owned.valid c
    exact ⟨owned', by rw [shown, List.append_assoc]; exact shows⟩
  have buffer := (inv.buffers p (inv.held g _ mem).1).moves moves
  have moved := inv.setTop top ⟨q, p, .scanning (Slice.append fresh s.heap results c).2 todo⟩ rfl moves buffer next
  rwa [Function.update_eq_self] at moved

lemma Inv.advance (inv : Inv owner s) (regs : Registers) (g : Nat) (fresh : Nat → List Conflict) :
    ∃ owner', Inv owner' (s.advance regs g fresh) := by
  unfold PoolState.advance
  split
  case h_1 => exact ⟨owner, inv⟩
  case h_2 q p phase below top =>
    have mem : ⟨q, p, phase⟩ ∈ s.calls g := top ▸ List.mem_cons_self
    have holds := inv.holds g _ mem
    have lt : p < s.made := (inv.held g _ mem).1
    cases phase with
    | fetched =>
      refine ⟨owner, inv.setPhase top ⟨q, p, .scanning (s.buffers p).truncate (q.scan regs)⟩ rfl ?_⟩
      intro r todo has
      cases has
      refine ⟨(inv.buffers p lt).truncate, ?_⟩
      rw [Slice.elements_truncate, List.nil_append, scan_eq]
    | scanning results todo =>
      cases todo with
      | nil => exact ⟨owner, inv.setTop top ⟨q, p, .captured results⟩ rfl .rfl (holds results [] rfl).1 holds⟩
      | cons c todo => exact ⟨_, inv.append top fresh⟩
    | captured conflicts =>
      exact ⟨owner, inv.setPhase top ⟨q, p, .running conflicts⟩ rfl holds⟩
    | running conflicts => exact ⟨owner, inv⟩
    | returned =>
      obtain ⟨popped, free⟩ := inv.pop top
      exact ⟨owner, popped.put free⟩

lemma Inv.callbackReturns (inv : Inv owner s) (g : Nat) : Inv owner (s.callbackReturns g) := by
  unfold PoolState.callbackReturns
  split
  case h_1 q p conflicts below top =>
    refine inv.setPhase top ⟨q, p, .returned⟩ rfl ?_
    intro r todo has
    cases has
  case h_2 => exact inv

lemma Inv.callbackPanics (inv : Inv owner s) (g : Nat) : Inv owner (s.callbackPanics g) := by
  unfold PoolState.callbackPanics
  split
  case h_1 q p conflicts below top => exact (inv.pop top).1
  case h_2 => exact inv

lemma Inv.step (inv : Inv owner s) (initialCap : Int) (blank : Conflict) (regs : Registers) (turn : PoolTurn) :
    ∃ owner', Inv owner' (s.step initialCap blank regs turn) := by
  cases turn with
  | get g q handed => exact inv.get initialCap blank g q handed
  | advance g fresh => exact inv.advance regs g fresh
  | callbackReturns g => exact ⟨owner, inv.callbackReturns g⟩
  | callbackPanics g => exact ⟨owner, inv.callbackPanics g⟩
  | dropped p => exact ⟨owner, inv.erase p⟩

end PoolState

/-! ## Main result -/

/-- Callbacks that run see the conflicts of their queries, in arrays of their own. -/
structure PoolState.Isolated (s : PoolState) : Prop where
  sees : ∀ g, ∀ f ∈ s.calls g, ∀ c, f.phase = .running c → c.elements s.heap = f.query.conflicts
  nested : ∀ g, (s.calls g).Pairwise fun f f' =>
    ∀ c c', f.phase = .running c → f'.phase = .running c' → c.array ≠ c'.array
  apart : ∀ g g', g ≠ g' → ∀ f ∈ s.calls g, ∀ f' ∈ s.calls g',
    ∀ c c', f.phase = .running c → f'.phase = .running c' → c.array ≠ c'.array

lemma PoolState.Inv.isolated {owner : Nat → Nat} {s : PoolState} (inv : Inv owner s) : s.Isolated := by
  have runs : ∀ g, ∀ f ∈ s.calls g, ∀ c, f.phase = .running c →
      Slice.Owned owner s.heap f.bufPtr c ∧ c.elements s.heap ++ [] = f.query.conflicts := by
    intro g f mem c running
    exact inv.holds g f mem c [] (by rw [running]; rfl)
  have arrays : ∀ g g', ∀ f ∈ s.calls g, ∀ f' ∈ s.calls g', f.bufPtr ≠ f'.bufPtr →
      ∀ c c', f.phase = .running c → f'.phase = .running c' → c.array ≠ c'.array := by
    intro g g' f mem f' mem' ne c c' running running' same
    have owned := (runs g f mem c running).1.belongs
    have owned' := (runs g' f' mem' c' running').1.belongs
    exact ne (owned.symm.trans ((congrArg owner same).trans owned'))
  refine ⟨fun g f mem c running => ?_, fun g => ?_, fun g g' ne f mem f' mem' => ?_⟩
  · rw [← (runs g f mem c running).2, List.append_nil]
  · exact (inv.nested g).imp_of_mem fun mem mem' ne => arrays g g _ mem _ mem' ne
  · exact arrays g g' f mem f' mem' (inv.apart g g' ne f mem f' mem')

/-- Pooled queries are isolated, whatever the capacity, in every interleaving. -/
theorem pool_isolated (initialCap : Int) (blank : Conflict) (regs : Registers) (turns : List PoolTurn) :
    (turns.foldl (PoolState.step initialCap blank regs) newConflictPool).Isolated := by
  have inv : ∃ owner, PoolState.Inv owner (turns.foldl (PoolState.step initialCap blank regs) newConflictPool) := by
    refine run_inv (P := fun s => ∃ owner, PoolState.Inv owner s) turns ⟨fun _ => 0, PoolState.inv_new _⟩ ?_
    rintro s turn ⟨owner, inv⟩
    exact inv.step initialCap blank regs turn
  obtain ⟨owner, inv⟩ := inv
  exact inv.isolated

/-- A query with four conflicts. -/
def crowdedQuery : PoolQuery where
  idx := [.insert "a" fullQuery, .insert "b" fullQuery].foldl LeaseIndex.step newLeaseIndex
  reached := ⟨_, rfl⟩
  attributes := fullQuery
  excludeSlot := -1

/-- A goroutine queries up to its callback. -/
def queryTurns (g : Nat) : List PoolTurn :=
  .get g crowdedQuery none :: List.replicate 7 (.advance g fun _ => [])

/-- Callbacks that run at the same time: one, one nested in it, and one of another goroutine. -/
example :
    [0, 1].map (fun g => ((queryTurns 0 ++ queryTurns 1 ++ queryTurns 0).foldl
        (PoolState.step 1 ⟨.lambdaCollision, "", 0⟩ clearRegisters) newConflictPool).calls g |>.map fun f =>
          (PoolState.view f.phase).map fun v => v.1.len) = [[some 4, some 4], [some 4]] := by
  decide +kernel

end Otap.Bitweave
