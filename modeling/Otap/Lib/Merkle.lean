import Otap.Lib.Bytes

/-!
# Merkle trees with sorted pairs

Trees whose leaves are hashes of data or padding, the digests of their nodes, and membership proofs that
carry no directions: a proof is the list of siblings from the leaf up, and every step joins the digest
reached so far with the next sibling in lexicographic order.

`Opening.climb` is completeness: the siblings along a path lead from the leaf to the root.
`extract_sound` is soundness without an assumption on the hash: from any proof that leads from the hash
of long data to the root, `extract` computes a collision, a preimage of the padding, or a preimage of the
first or last bytes of some leaf's data, unless the data is at a leaf. The last one is there because
leaves and nodes are hashed alike.

The last two sections are about trees that are built otherwise: pairs joined as they stand, and levels of odd length.
-/

namespace Otap.Lib.Merkle

variable {n : Nat}

inductive HashTree where
  | data (d : Bytes)
  | pad
  | node (left right : HashTree)

/-- The data at the leaves. -/
def HashTree.leaves : HashTree → List Bytes
  | .data d => [d]
  | .pad => []
  | .node l r => l.leaves ++ r.leaves

/-- The digest that stands for a missing leaf. -/
def padDigest (n : Nat) : Bytes :=
  List.replicate n 0

/-- The digest of the root. -/
def HashTree.root (H : Hash n) : HashTree → Bytes
  | .data d => H.sum d
  | .pad => padDigest n
  | .node l r => H.sum (sortedPair (l.root H) (r.root H))

@[simp] lemma HashTree.length_root (H : Hash n) (t : HashTree) : (t.root H).length = n := by
  cases t with
  | data d => exact H.length_sum d
  | pad => exact List.length_replicate
  | node l r => exact H.length_sum _

/-- One step of a proof: join with the sibling and hash. -/
def climbStep (H : Hash n) (h sibling : Bytes) : Bytes :=
  H.sum (sortedPair h sibling)

/-- The digest a proof leads to. -/
def climb (H : Hash n) (h : Bytes) (proof : List Bytes) : Bytes :=
  proof.foldl (climbStep H) h

/-! ## Building level by level -/

/-- One level up: join neighbours. An odd number of nodes has no next level. -/
def pairUp {α : Type} (join : α → α → α) : List α → Option (List α)
  | [] => some []
  | [_] => none
  | a :: b :: l => (pairUp join l).map (join a b :: ·)

/-- One level up: join neighbours, and take the last of an odd number of nodes up as it is. -/
def promoteUp {α : Type} (join : α → α → α) : List α → List α
  | [] => []
  | [a] => [a]
  | a :: b :: l => join a b :: promoteUp join l

/-- Joins neighbours until one node is left, looking at no more than `fuel` levels. -/
def reduceLevels {α : Type} (join : α → α → α) : Nat → List α → Option α
  | 0, _ => none
  | fuel + 1, l =>
    if l.length = 1 then l.head? else (pairUp join l).bind (reduceLevels join fuel)

/-- Goes up level by level while there is more than one node, looking at no more than `fuel` levels. -/
def promoteLevels {α : Type} (join : α → α → α) : Nat → List α → Option α
  | 0, _ => none
  | fuel + 1, l => if l.length > 1 then promoteLevels join fuel (promoteUp join l) else l.head?

section Levels

variable {α β : Type} {f : α → α → α} {g : β → β → β} {R : α → β → Prop} {l : List α} {m : List β} {a : α}
  {fuel : Nat}

lemma length_promoteUp (l : List α) : (promoteUp f l).length = (l.length + 1) / 2 := by
  induction l using promoteUp.induct with
  | case1 => simp [promoteUp]
  | case2 a => simp [promoteUp]
  | case3 a b l ih =>
    rw [promoteUp, List.length_cons, ih, List.length_cons, List.length_cons]
    omega

/-- The levels end in one node. -/
lemma promoteLevels_some (nonempty : l ≠ []) (enough : l.length ≤ fuel) :
    ∃ a, promoteLevels f fuel l = some a := by
  have pos := List.length_pos_iff.mpr nonempty
  induction fuel generalizing l with
  | zero => omega
  | succ fuel ih =>
    rw [promoteLevels]
    split
    case isTrue more =>
      have len := length_promoteUp (f := f) l
      have pos' : 0 < (promoteUp f l).length := by omega
      exact ih (List.length_pos_iff.mp pos') (by omega) pos'
    case isFalse => exact ⟨_, List.head?_eq_some_head nonempty⟩

/-- Related levels have related next levels, when joining keeps the relation. -/
lemma promoteUp_rel (join : ∀ {a b c d}, R a b → R c d → R (f a c) (g b d))
    (rel : List.Forall₂ R l m) : List.Forall₂ R (promoteUp f l) (promoteUp g m) := by
  induction l using promoteUp.induct generalizing m with
  | case1 =>
    cases rel
    exact .nil
  | case2 a =>
    cases rel with
    | cons ra rel =>
      cases rel
      exact .cons ra .nil
  | case3 a b l ih =>
    cases rel with
    | cons ra rel =>
      cases rel with
      | cons rb rel => exact .cons (join ra rb) (ih rel)

lemma promoteLevels_rel (join : ∀ {a b c d}, R a b → R c d → R (f a c) (g b d))
    (rel : List.Forall₂ R l m) (e : promoteLevels f fuel l = some a) :
    ∃ b, promoteLevels g fuel m = some b ∧ R a b := by
  induction fuel generalizing l m with
  | zero => cases e
  | succ fuel ih =>
    rw [promoteLevels] at e ⊢
    rw [← rel.length_eq]
    split at e
    case isTrue more =>
      rw [if_pos more]
      exact ih (promoteUp_rel join rel) e
    case isFalse single =>
      rw [if_neg single]
      cases rel with
      | nil => cases e
      | cons rx rel =>
        cases e
        exact ⟨_, rfl, rx⟩

lemma flatMap_promoteUp {held : α → List β} (join : ∀ a b, held (f a b) = held a ++ held b) (l : List α) :
    (promoteUp f l).flatMap held = l.flatMap held := by
  induction l using promoteUp.induct with
  | case1 => rfl
  | case2 a => rfl
  | case3 a b l ih =>
    rw [promoteUp, List.flatMap_cons, List.flatMap_cons, List.flatMap_cons, ih, join, List.append_assoc]

/-- The root holds what the leaves hold, in order. -/
lemma flatMap_promoteLevels {held : α → List β} (join : ∀ a b, held (f a b) = held a ++ held b)
    (e : promoteLevels f fuel l = some a) : held a = l.flatMap held := by
  induction fuel generalizing l with
  | zero => cases e
  | succ fuel ih =>
    rw [promoteLevels] at e
    split at e
    case isTrue => rw [ih e, flatMap_promoteUp join]
    case isFalse single =>
      match l, e with
      | [b], rfl => exact (List.append_nil _).symm
      | _ :: _ :: _, _ => simp at single

/-- Where the level has even length, no node is taken up as it is. -/
lemma pairUp_eq (l : List α) : pairUp f l = if l.length % 2 = 0 then some (promoteUp f l) else none := by
  induction l using pairUp.induct with
  | case1 => rfl
  | case2 a => rfl
  | case3 a b l ih =>
    rw [pairUp, ih, promoteUp, List.length_cons, List.length_cons, Nat.add_assoc, Nat.add_mod_right]
    split <;> rfl

lemma pairUp_some {l l' : List α} (e : pairUp f l = some l') : l.length % 2 = 0 ∧ promoteUp f l = l' := by
  rw [pairUp_eq] at e
  split at e
  case isTrue even => exact ⟨even, Option.some.inj e⟩
  case isFalse => cases e

/-- A level of even length has a next one of half the length. -/
lemma pairUp_even {k : Nat} (len : l.length = 2 * k) :
    ∃ l', pairUp f l = some l' ∧ l'.length = k := by
  refine ⟨promoteUp f l, ?_, ?_⟩
  · rw [pairUp_eq, if_pos (by omega)]
  · rw [length_promoteUp]
    omega

/-- A power of two of nodes has a root. -/
lemma reduceLevels_pow {k fuel : Nat} (len : l.length = 2 ^ k) (hk : k < fuel) :
    ∃ a, reduceLevels f fuel l = some a := by
  induction k generalizing fuel l with
  | zero =>
    obtain ⟨fuel, rfl⟩ := Nat.exists_eq_succ_of_ne_zero hk.ne'
    obtain ⟨a, rfl⟩ := List.length_eq_one_iff.mp len
    exact ⟨a, rfl⟩
  | succ k ih =>
    obtain ⟨fuel, rfl⟩ := Nat.exists_eq_succ_of_ne_zero (Nat.zero_lt_of_lt hk).ne'
    obtain ⟨l', e, len'⟩ := pairUp_even (f := f) (len.trans (Nat.pow_succ' ..))
    obtain ⟨a, ha⟩ := ih len' (Nat.lt_of_succ_lt_succ hk)
    have two : l.length ≠ 1 := by
      rw [len]
      exact (Nat.one_lt_two_pow (Nat.succ_ne_zero k)).ne'
    exact ⟨a, by rw [reduceLevels, if_neg two, e]; exact ha⟩

/-- A tree without odd levels is the one that takes odd nodes up. -/
lemma promoteLevels_of_reduceLevels (e : reduceLevels f fuel l = some a) :
    promoteLevels f fuel l = some a := by
  induction fuel generalizing l with
  | zero => cases e
  | succ fuel ih =>
    rw [reduceLevels] at e
    rw [promoteLevels]
    split at e
    case isTrue one =>
      rw [if_neg one.le.not_gt]
      exact e
    case isFalse several =>
      obtain ⟨l', el, e⟩ := Option.bind_eq_some_iff.mp e
      obtain ⟨-, rfl⟩ := pairUp_some el
      split
      case isTrue => exact ih e
      case isFalse few =>
        obtain rfl : l = [] := List.length_eq_zero_iff.mp (by omega)
        cases fuel with
        | zero => cases e
        | succ fuel => cases ih e

/-- Related lists of a power of two of leaves have related roots. -/
lemma reduceLevels_related (join : ∀ {a b c d}, R a b → R c d → R (f a c) (g b d)) {k : Nat}
    (rel : List.Forall₂ R l m) (len : m.length = 2 ^ k) :
    ∃ a b, reduceLevels f l.length l = some a ∧ reduceLevels g m.length m = some b ∧ R a b := by
  have len' : l.length = 2 ^ k := rel.length_eq.trans len
  obtain ⟨a, ea⟩ := reduceLevels_pow (f := f) len' Nat.lt_two_pow_self
  obtain ⟨b, eb⟩ := reduceLevels_pow (f := g) len Nat.lt_two_pow_self
  obtain ⟨b', promoted, related⟩ := promoteLevels_rel join rel (promoteLevels_of_reduceLevels ea)
  cases (promoteLevels_of_reduceLevels eb).symm.trans promoted
  exact ⟨a, b, len'.symm ▸ ea, len.symm ▸ eb, related⟩

/-- Leaves related one by one are related with their padding. -/
lemma forall₂_padded {ι : Type*} {leaf : ι → α} {leaf' : ι → β} (leaves : ∀ i, R (leaf i) (leaf' i)) {pad : α}
    {pad' : β} (padding : R pad pad') (l : List ι) (n : Nat) :
    List.Forall₂ R (l.map leaf ++ List.replicate n pad) (l.map leaf' ++ List.replicate n pad') := by
  apply List.rel_append
  · rw [List.forall₂_map_left_iff, List.forall₂_map_right_iff, List.forall₂_same]
    exact fun i _ => leaves i
  · exact List.forall₂_iff_get.mpr ⟨by simp, fun i _ _ => by simpa using padding⟩

lemma flatMap_reduceLevels {held : α → List β} (join : ∀ a b, held (f a b) = held a ++ held b)
    (e : reduceLevels f fuel l = some a) : held a = l.flatMap held :=
  flatMap_promoteLevels join (promoteLevels_of_reduceLevels e)

end Levels

variable {t : HashTree} {h : Bytes}

/-! ## Completeness -/

/-- The siblings `p` on the path from a leaf with digest `h` to the root. -/
inductive Opening (H : Hash n) : HashTree → Bytes → List Bytes → Prop where
  | data {d} : Opening H (.data d) (H.sum d) []
  | pad : Opening H .pad (padDigest n) []
  | left {l r h p} : Opening H l h p → Opening H (.node l r) h (p ++ [r.root H])
  | right {l r h p} : Opening H r h p → Opening H (.node l r) h (p ++ [l.root H])

/-- A path leads to the root. -/
lemma Opening.climb {H : Hash n} {p : List Bytes} (o : Opening H t h p) :
    climb H h p = t.root H := by
  induction o with
  | data => rfl
  | pad => rfl
  | left _ ih => rw [Merkle.climb, List.foldl_concat, ← Merkle.climb, ih, climbStep, HashTree.root]
  | right _ ih =>
    rw [Merkle.climb, List.foldl_concat, ← Merkle.climb, ih, climbStep, HashTree.root, sortedPair_comm]

lemma Opening.length_sibling {H : Hash n} {p : List Bytes} (o : Opening H t h p) : ∀ s ∈ p, s.length = n := by
  induction o with
  | data => exact fun _ mem => (List.not_mem_nil mem).elim
  | pad => exact fun _ mem => (List.not_mem_nil mem).elim
  | left _ ih | right _ ih =>
    intro s mem
    cases List.mem_append.mp mem with
    | inl mem => exact ih s mem
    | inr mem => rw [List.mem_singleton.mp mem, HashTree.length_root]

/-! ## Soundness -/

/-- What a proof that leads to the root gives. -/
inductive Evidence where
  | member (d : Bytes)
  | collision (x y : Bytes)
  | padPreimage (x : Bytes)
  | halfPreimage (x d : Bytes)

/-- The evidence is a weakness of the hash, for a tree with the given leaves. -/
def Evidence.Breaks (H : Hash n) (leaves : List Bytes) : Evidence → Prop
  | .member _ => False
  | .collision x y => H.Collision x y
  | .padPreimage x => H.sum x = padDigest n
  | .halfPreimage x d => d ∈ leaves ∧ (H.sum x = d.take n ∨ H.sum x = d.drop (d.length - n))

lemma Evidence.Breaks.mono {H : Hash n} {l l' : List Bytes} {e : Evidence} (sub : l ⊆ l')
    (v : e.Breaks H l) : e.Breaks H l' := by
  cases e with
  | member d => exact v
  | collision x y => exact v
  | padPreimage x => exact v
  | halfPreimage x d => exact ⟨sub v.1, v.2⟩

/-- What the digest reached from `a` is the hash of; the siblings are listed from the top down. -/
def climbInput (H : Hash n) (a : Bytes) : List Bytes → Bytes
  | [] => a
  | s :: p => sortedPair (H.sum (climbInput H a p)) s

lemma sum_climbInput (H : Hash n) (a : Bytes) (p : List Bytes) :
    H.sum (climbInput H a p) = climb H (H.sum a) p.reverse := by
  induction p with
  | nil => rfl
  | cons s p ih =>
    rw [climbInput, ih, List.reverse_cons, climb, climb, List.foldl_concat, climbStep]

/-- Walks down the tree along the proof, from the root, as long as the hashed inputs agree. -/
def extract (H : Hash n) (a : Bytes) : HashTree → List Bytes → Evidence
  | .pad, path => .padPreimage (climbInput H a path)
  | .data d, path =>
    if climbInput H a path = d then
      match path with
      | [] => .member d
      | _ :: p => .halfPreimage (climbInput H a p) d
    else .collision (climbInput H a path) d
  | .node l r, path =>
    if climbInput H a path = sortedPair (l.root H) (r.root H) then
      match path with
      | [] => .collision a (sortedPair (l.root H) (r.root H))
      | _ :: p => if H.sum (climbInput H a p) = l.root H then extract H a l p else extract H a r p
    else .collision (climbInput H a path) (sortedPair (l.root H) (r.root H))

/-- A proof that ends in a leaf: the input is the leaf's data, or the two collide. -/
lemma extract_data {H : Hash n} {a d : Bytes} {path : List Bytes}
    (e : H.sum (climbInput H a path) = H.sum d) :
    a = d ∨ (extract H a (.data d) path).Breaks H [d] := by
  unfold extract
  split
  case isTrue eq =>
    cases path with
    | nil => exact .inl eq
    | cons s p =>
      refine .inr ⟨List.mem_singleton_self d, ?_⟩
      have half := sortedPair_half (H.sum (climbInput H a p)) s
      rw [← climbInput, eq, H.length_sum] at half
      exact half
  case isFalse ne => exact .inr ⟨ne, e⟩

/-- From every proof that leads from the hash of data longer than two digests to the root, `extract`
    computes a weakness of the hash, unless the data is at a leaf. -/
theorem extract_sound {H : Hash n} {a : Bytes} (long : 2 * n < a.length) {t : HashTree}
    {path : List Bytes} (e : H.sum (climbInput H a path) = t.root H) :
    a ∈ t.leaves ∨ (extract H a t path).Breaks H t.leaves := by
  induction t generalizing path with
  | data d =>
    cases extract_data e with
    | inl eq => exact .inl (List.mem_singleton.mpr eq)
    | inr breaks => exact .inr breaks
  | pad => exact .inr e
  | node l r ihl ihr =>
    unfold extract
    split
    case isFalse ne => exact .inr ⟨ne, e⟩
    case isTrue eq =>
      cases path with
      | nil =>
        -- a pair of digests is too short to be the data
        have len := congrArg List.length eq
        rw [climbInput, length_sortedPair, HashTree.length_root, HashTree.length_root] at len
        omega
      | cons s p =>
        have half : H.sum (climbInput H a p) = l.root H ∨ H.sum (climbInput H a p) = r.root H :=
          sortedPair_mem (H.length_sum _) (l.length_root H) (r.length_root H) eq
        simp only
        split
        case isTrue el =>
          exact (ihl el).imp (List.mem_append_left _) (.mono (List.subset_append_left _ _))
        case isFalse nl =>
          exact (ihr (half.resolve_left nl)).imp (List.mem_append_right _)
            (.mono (List.subset_append_right _ _))

/-! ## Trees whose pairs are joined as they stand

A builder that does not sort the pair under a node and a verifier that does. -/

section Unsorted

variable (H : Hash n)

/-- The digest of the root when every pair is joined in the order of its nodes. -/
def HashTree.plainRoot : HashTree → Bytes
  | .data d => H.sum d
  | .pad => padDigest n
  | .node l r => H.sum (l.plainRoot ++ r.plainRoot)

/-- The digests of the leaves. -/
def HashTree.digests : HashTree → List Bytes
  | .data d => [H.sum d]
  | .pad => [padDigest n]
  | .node l r => l.digests ++ r.digests

/-- The siblings from the first leaf with digest `h` up. -/
def HashTree.path (h : Bytes) : HashTree → List Bytes
  | .data _ | .pad => []
  | .node l r =>
    if h ∈ l.digests H then l.path h ++ [r.plainRoot H] else r.path h ++ [l.plainRoot H]

/-- At every node above the first leaf with digest `h`, the two digests are in order. -/
def HashTree.InOrder (h : Bytes) : HashTree → Prop
  | .data _ | .pad => True
  | .node l r =>
    l.plainRoot H ≤ r.plainRoot H ∧ if h ∈ l.digests H then l.InOrder h else r.InOrder h

/-- What the builder hashes at the nodes. -/
def HashTree.joined : HashTree → List Bytes
  | .data _ | .pad => []
  | .node l r => (l.plainRoot H ++ r.plainRoot H) :: (l.joined ++ r.joined)

/-- What a verifier hashes that climbs a proof. -/
def climbed (h : Bytes) : List Bytes → List Bytes
  | [] => []
  | s :: p => sortedPair h s :: climbed (climbStep H h s) p

/-- What is hashed at the nodes, and by a verifier on the path from the first leaf with digest `h`. -/
def HashTree.hashed (h : Bytes) (t : HashTree) : List Bytes :=
  t.joined H ++ climbed H h (t.path H h)

variable {H}

@[simp] lemma HashTree.length_plainRoot (t : HashTree) : (t.plainRoot H).length = n := by
  cases t with
  | data d => exact H.length_sum d
  | pad => exact List.length_replicate
  | node l r => exact H.length_sum _

lemma HashTree.length_digest (mem : h ∈ t.digests H) : h.length = n := by
  induction t with
  | data d =>
    rw [List.mem_singleton.mp mem]
    exact H.length_sum d
  | pad =>
    rw [List.mem_singleton.mp mem]
    exact List.length_replicate
  | node l r ihl ihr => exact (List.mem_append.mp mem).elim ihl ihr

lemma HashTree.length_path : ∀ s ∈ t.path H h, s.length = n := by
  induction t with
  | data d => exact fun _ mem => (List.not_mem_nil mem).elim
  | pad => exact fun _ mem => (List.not_mem_nil mem).elim
  | node l r ihl ihr =>
    intro s mem
    rw [path] at mem
    split at mem
    all_goals
      cases List.mem_append.mp mem with
      | inl mem => exact (by assumption : ∀ s ∈ _, s.length = n) s mem
      | inr mem => rw [List.mem_singleton.mp mem, length_plainRoot]

@[simp] lemma climb_concat (h : Bytes) (p : List Bytes) (s : Bytes) :
    climb H h (p ++ [s]) = H.sum (sortedPair (climb H h p) s) :=
  List.foldl_concat ..

lemma length_climb (len : h.length = n) (p : List Bytes) : (climb H h p).length = n := by
  induction p using List.reverseRecOn with
  | nil => exact len
  | append_singleton p s _ => rw [climb_concat, H.length_sum]

lemma climbed_concat (h : Bytes) (p : List Bytes) (s : Bytes) :
    climbed H h (p ++ [s]) = climbed H h p ++ [sortedPair (climb H h p) s] := by
  induction p generalizing h with
  | nil => rfl
  | cons s' p ih => exact congrArg (sortedPair h s' :: ·) (ih _)

/-- Where the pairs above a leaf are in order, its path leads to the root. -/
lemma HashTree.InOrder.climb (mem : h ∈ t.digests H) (ord : t.InOrder H h) :
    climb H h (t.path H h) = t.plainRoot H := by
  induction t with
  | data d => exact List.mem_singleton.mp mem
  | pad => exact List.mem_singleton.mp mem
  | node l r ihl ihr =>
    obtain ⟨le, ord⟩ := ord
    rw [path, plainRoot]
    split at ord
    case isTrue meml =>
      rw [if_pos meml, climb_concat, ihl meml ord]
      exact congrArg H.sum (if_pos le)
    case isFalse notl =>
      have memr := (List.mem_append.mp mem).resolve_left notl
      rw [if_neg notl, climb_concat, ihr memr ord, sortedPair_comm]
      exact congrArg H.sum (if_pos le)

/-- What is hashed for a leaf on the left of a node is hashed for it in the left tree, or at the node. -/
lemma HashTree.hashed_left {l r : HashTree} (mem : h ∈ l.digests H) :
    l.hashed H h ⊆ (HashTree.node l r).hashed H h := by
  intro x hx
  rw [hashed, joined, path, if_pos mem, climbed_concat]
  rcases List.mem_append.mp hx with joined | climbed
  · exact List.mem_append_left _ (List.mem_cons_of_mem _ (List.mem_append_left _ joined))
  · exact List.mem_append_right _ (List.mem_append_left _ climbed)

lemma HashTree.hashed_right {l r : HashTree} (notMem : h ∉ l.digests H) :
    r.hashed H h ⊆ (HashTree.node l r).hashed H h := by
  intro x hx
  rw [hashed, joined, path, if_neg notMem, climbed_concat]
  rcases List.mem_append.mp hx with joined | climbed
  · exact List.mem_append_left _ (List.mem_cons_of_mem _ (List.mem_append_right _ joined))
  · exact List.mem_append_right _ (List.mem_append_left _ climbed)

/-- Without a collision, that is the only way the path leads to the root. -/
lemma HashTree.inOrder_of_climb (mem : h ∈ t.digests H)
    (free : H.CollisionFree (t.hashed H h)) (reached : Merkle.climb H h (t.path H h) = t.plainRoot H) :
    t.InOrder H h := by
  induction t with
  | data d => trivial
  | pad => trivial
  | node l r ihl ihr =>
    have len := length_climb (H := H) (length_digest mem)
    have built : l.plainRoot H ++ r.plainRoot H ∈ (HashTree.node l r).hashed H h := by
      simp [hashed, joined]
    rw [InOrder]
    by_cases meml : h ∈ l.digests H
    · have below := free.mono (hashed_left meml)
      rw [hashed, path, if_pos meml, climbed_concat] at free built
      rw [path, if_pos meml, climb_concat, plainRoot, free.sum_inj (by simp) built,
        sortedPair_eq_append_left l.length_plainRoot r.length_plainRoot (len _)] at reached
      refine ⟨reached.2, ?_⟩
      rw [if_pos meml]
      exact ihl meml below reached.1
    · have below := free.mono (hashed_right meml)
      have memr := (List.mem_append.mp mem).resolve_left meml
      rw [hashed, path, if_neg meml, climbed_concat] at free built
      rw [path, if_neg meml, climb_concat, plainRoot, free.sum_inj (by simp) built,
        sortedPair_eq_append_right l.length_plainRoot r.length_plainRoot (len _)] at reached
      refine ⟨reached.2, ?_⟩
      rw [if_neg meml]
      exact ihr memr below reached.1

end Unsorted

/-! ## Trees of any number of leaves

Where a level of odd length takes its last node up as it is, the tree depends on the number of leaves, and a root gives
the tree back: where two trees with one root differ, `clash` finds two inputs that the hash does not tell apart. Since
leaves and nodes are hashed alike, the data must not be as long as two digests. -/

section Clash

variable {H : Hash n}

/-- No padding, and no data that two digests could be mistaken for. -/
def HashTree.Solid (n : Nat) : HashTree → Prop
  | .data d => d.length ≠ 2 * n
  | .pad => False
  | .node l r => l.Solid n ∧ r.Solid n

/-- The first inputs to differ, on the way down both trees. -/
def HashTree.clash (H : Hash n) : HashTree → HashTree → Option (Bytes × Bytes)
  | .data d, .data d' => if d = d' then none else some (d, d')
  | .data d, .node l r => some (d, l.plainRoot H ++ r.plainRoot H)
  | .node l r, .data d => some (l.plainRoot H ++ r.plainRoot H, d)
  | .node l r, .node l' r' =>
    if l.plainRoot H ++ r.plainRoot H = l'.plainRoot H ++ r'.plainRoot H then
      (l.clash H l').or (r.clash H r')
    else some (l.plainRoot H ++ r.plainRoot H, l'.plainRoot H ++ r'.plainRoot H)
  | .pad, _ | _, .pad => none

/-- Trees with one root are the same, or `clash` finds a collision. -/
lemma HashTree.clash_sound {t t' : HashTree} (solid : t.Solid n) (solid' : t'.Solid n)
    (same : t.plainRoot H = t'.plainRoot H) :
    t.clash H t' = none ∧ t = t' ∨ ∃ x y, t.clash H t' = some (x, y) ∧ H.Collision x y := by
  -- data is no pair of digests
  have apart {d : Bytes} {l r : HashTree} (len : d.length ≠ 2 * n) : d ≠ l.plainRoot H ++ r.plainRoot H := by
    rintro rfl
    rw [List.length_append, length_plainRoot, length_plainRoot] at len
    omega
  induction t generalizing t' with
  | pad => exact solid.elim
  | data d =>
    cases t' with
    | pad => exact solid'.elim
    | data d' =>
      rw [clash]
      split
      case isTrue eq => exact .inl ⟨rfl, congrArg _ eq⟩
      case isFalse ne => exact .inr ⟨d, d', rfl, ne, same⟩
    | node l r => exact .inr ⟨_, _, rfl, apart solid, same⟩
  | node l r ihl ihr =>
    cases t' with
    | pad => exact solid'.elim
    | data d => exact .inr ⟨_, _, rfl, (apart solid').symm, same⟩
    | node l' r' =>
      rw [clash]
      split
      case isFalse ne => exact .inr ⟨_, _, rfl, ne, same⟩
      case isTrue eq =>
        obtain ⟨sameL, sameR⟩ := List.append_inj eq (by rw [length_plainRoot, length_plainRoot])
        rcases ihl solid.1 solid'.1 sameL with ⟨none, rfl⟩ | ⟨x, y, found, collision⟩
        · rw [none, Option.none_or]
          exact (ihr solid.2 solid'.2 sameR).imp_left fun ⟨none, eq⟩ => ⟨none, congrArg _ eq⟩
        · exact .inr ⟨x, y, by rw [found, Option.some_or], collision⟩

end Clash

end Otap.Lib.Merkle
