import Mathlib.Tactic

/-!
# Slices

Go slices over a heap of arrays. A slice is a window of an array: `append` writes the next cell of the window in
place while there is capacity, and otherwise moves the elements to a new array. How many cells the new array has
behind the elements, and what they hold, is left open (`fresh`). `shown_appendAll` says what a slice shows after
a run of appends, whatever the array behind it held before; `sortIn_clone`, that sorting a copy writes nothing that
was there before; `prefix_appendSlice`, when an append of several elements writes into an array that others may see.

The last section is about parties that share a heap and own arrays of it. What a party does with its slices (`Moves`)
leaves the slices of the others as they are (`Owned.moves`, `Owned.elements_moves`).
-/

namespace Otap.Lib

variable {α : Type*}

/-- The arrays that have been allocated, in order. -/
abbrev Heap (α : Type*) := List (List α)

structure Slice where
  array : Nat
  offset : Nat
  len : Nat
  cap : Nat
  len_le : len ≤ cap

namespace Slice

/-- The nil slice. -/
def nil : Slice where
  array := 0
  offset := 0
  len := 0
  cap := 0
  len_le := le_rfl

/-- The cells of the slice are cells of its array; the nil slice has none. -/
def InBounds (h : Heap α) (s : Slice) : Prop :=
  s.cap = 0 ∨ ∃ a, h[s.array]? = some a ∧ s.offset + s.cap ≤ a.length

/-- What the slice shows. -/
def elements (h : Heap α) (s : Slice) : List α :=
  ((h[s.array]?.getD []).drop s.offset).take s.len

/-- What a slice shows that a call returns together with the heap after it. -/
def shown (out : Heap α × Slice) : List α :=
  out.2.elements out.1

/-- `s[:0]`. -/
def truncate (s : Slice) : Slice :=
  { s with len := 0, len_le := Nat.zero_le _ }

/-- `append(s, x)`. -/
def append (fresh : Nat → List α) (h : Heap α) (s : Slice) (x : α) : Heap α × Slice :=
  if lt : s.len < s.cap then
    (h.modify s.array fun a => a.set (s.offset + s.len) x, { s with len := s.len + 1, len_le := lt })
  else
    (h ++ [s.elements h ++ x :: fresh (s.len + 1)],
      { array := h.length
        offset := 0
        len := s.len + 1
        cap := s.len + 1 + (fresh (s.len + 1)).length
        len_le := Nat.le_add_right _ _ })

/-- A run of appends. -/
def appendAll (fresh : Nat → List α) (out : Heap α × Slice) (xs : List α) : Heap α × Slice :=
  xs.foldl (fun out x => append fresh out.1 out.2 x) out

variable {fresh : Nat → List α} {h : Heap α} {s : Slice}

lemma inBounds_nil : nil.InBounds h :=
  .inl rfl

lemma InBounds.truncate (valid : s.InBounds h) : s.truncate.InBounds h :=
  valid

@[simp] lemma elements_truncate : s.truncate.elements h = [] :=
  List.take_zero

lemma length_elements (valid : s.InBounds h) : (s.elements h).length = s.len := by
  have le := s.len_le
  rw [elements, List.length_take, List.length_drop]
  rcases valid with zero | ⟨a, ha, inside⟩
  · omega
  · rw [ha, Option.getD_some]
    omega

/-- The window of an array after its next cell is written. -/
lemma take_drop_set {a : List α} {i n : Nat} (x : α) (lt : i + n < a.length) :
    ((a.set (i + n) x).drop i).take (n + 1) = (a.drop i).take n ++ [x] := by
  rw [List.drop_set, if_neg (by omega), Nat.add_sub_cancel_left, List.take_add_one, List.take_set_of_le le_rfl,
    List.getElem?_set_self (by rw [List.length_drop]; omega)]
  rfl

lemma InBounds.append (valid : s.InBounds h) (x : α) :
    (append fresh h s x).2.InBounds (append fresh h s x).1 := by
  have len := length_elements valid
  unfold Slice.append
  split
  case isTrue lt =>
    rcases valid with zero | ⟨a, ha, inside⟩
    · omega
    · refine .inr ⟨a.set (s.offset + s.len) x, ?_, by rwa [List.length_set]⟩
      rw [List.getElem?_modify, ha]
      simp
  case isFalse =>
    refine .inr ⟨_, List.getElem?_concat_length, ?_⟩
    simp only [List.length_append, List.length_cons, len]
    omega

/-- An append adds its element at the end. -/
lemma shown_append (valid : s.InBounds h) (x : α) :
    shown (append fresh h s x) = s.elements h ++ [x] := by
  have len := length_elements valid
  unfold shown Slice.append
  split
  case isTrue lt =>
    rcases valid with zero | ⟨a, ha, inside⟩
    · omega
    · simp only [elements, List.getElem?_modify, ha, Option.map_eq_map, Option.map_some, if_true, Option.getD_some]
      exact take_drop_set x (by omega)
  case isFalse =>
    have window : (s.elements h ++ [x]).length = s.len + 1 := by rw [List.length_append, len, List.length_singleton]
    rw [elements, List.getElem?_concat_length, Option.getD_some, List.drop_zero,
      List.append_cons (s.elements h) x]
    exact List.take_left' window

/-- A run of appends adds its elements in order. -/
lemma shown_appendAll (valid : s.InBounds h) (xs : List α) :
    shown (appendAll fresh (h, s) xs) = s.elements h ++ xs := by
  induction xs generalizing h s with
  | nil => exact (List.append_nil _).symm
  | cons x xs ih =>
    have first : (append fresh h s x).2.elements (append fresh h s x).1 = s.elements h ++ [x] :=
      shown_append valid x
    rw [appendAll, List.foldl_cons, ← appendAll, ih (valid.append x), first, List.append_assoc]
    rfl

/-! ## Sorted copies -/

/-- `t := make([]T, len(s)); copy(t, s)`. -/
def clone (h : Heap α) (s : Slice) : Heap α × Slice :=
  (h ++ [s.elements h],
    { array := h.length
      offset := 0
      len := s.len
      cap := s.len
      len_le := le_rfl })

/-- `sort.Slice(s, less)`: the sorted elements take the place of the old ones. -/
def sortIn (sort : List α → List α) (h : Heap α) (s : Slice) : Heap α :=
  h.modify s.array fun a => a.take s.offset ++ sort (s.elements h) ++ a.drop (s.offset + s.len)

/-- A slice shows the same after other arrays have been allocated. -/
lemma elements_append (valid : s.InBounds h) (arrays : Heap α) : s.elements (h ++ arrays) = s.elements h := by
  rcases valid with zero | ⟨a, ha, -⟩
  · have len : s.len = 0 := Nat.le_zero.mp (zero ▸ s.len_le)
    rw [elements, elements, len, List.take_zero, List.take_zero]
  · have lt : s.array < h.length := (List.getElem?_eq_some_iff.mp ha).1
    rw [elements, elements, List.getElem?_append_left lt]

lemma InBounds.append_heap (valid : s.InBounds h) (arrays : Heap α) : s.InBounds (h ++ arrays) := by
  rcases valid with zero | ⟨a, ha, inside⟩
  · exact .inl zero
  · have lt : s.array < h.length := (List.getElem?_eq_some_iff.mp ha).1
    exact .inr ⟨a, by rwa [List.getElem?_append_left lt], inside⟩

lemma shown_clone (valid : s.InBounds h) : shown (s.clone h) = s.elements h := by
  rw [shown, elements, clone, List.getElem?_concat_length, Option.getD_some, List.drop_zero]
  exact List.take_of_length_le (length_elements valid).le

lemma modify_concat {β : Type*} (l : List β) (x : β) (f : β → β) :
    (l ++ [x]).modify l.length f = l ++ [f x] := by
  induction l with
  | nil => rfl
  | cons y l ih => rw [List.cons_append, List.length_cons, List.modify_succ_cons, ih, List.cons_append]

/-- Sorting a copy allocates the sorted elements, and writes nothing that was there before. -/
lemma sortIn_clone (valid : s.InBounds h) {sort : List α → List α} (length : ∀ l, (sort l).length = l.length) :
    (s.clone h).2.sortIn sort (s.clone h).1 = h ++ [sort (s.elements h)] ∧
      (s.clone h).2.elements (h ++ [sort (s.elements h)]) = sort (s.elements h) := by
  have copied : (s.clone h).2.elements (s.clone h).1 = s.elements h := shown_clone valid
  have len := length_elements valid
  constructor
  · rw [sortIn, copied, clone]
    simp only [List.take_zero, List.nil_append, Nat.zero_add, modify_concat]
    rw [List.drop_of_length_le len.le, List.append_nil]
  · rw [elements, clone]
    simp only [List.getElem?_concat_length, Option.getD_some, List.drop_zero]
    exact List.take_of_length_le (by rw [length, len])

/-! ## Appends of several elements -/

/-- The array with other elements from a position on. -/
def overwrite (a : List α) (i : Nat) (xs : List α) : List α :=
  a.take i ++ (xs ++ a.drop (i + xs.length))

/-- `append(s, xs...)`: in place when there is room for all of them. -/
def appendSlice (fresh : Nat → List α) (h : Heap α) (s : Slice) (xs : List α) : Heap α × Slice :=
  if le : s.len + xs.length ≤ s.cap then
    (h.modify s.array fun a => overwrite a (s.offset + s.len) xs,
      { s with len := s.len + xs.length, len_le := le })
  else
    (h ++ [s.elements h ++ xs ++ fresh (s.len + xs.length)],
      { array := h.length
        offset := 0
        len := s.len + xs.length
        cap := s.len + xs.length + (fresh (s.len + xs.length)).length
        len_le := Nat.le_add_right _ _ })

/-- The cells right behind the slice. -/
def behind (h : Heap α) (s : Slice) (n : Nat) : List α :=
  ((h[s.array]?.getD []).drop (s.offset + s.len)).take n

/-- `a[:]` of a new array. -/
def ofArray (h : Heap α) (a : List α) : Heap α × Slice :=
  (h ++ [a],
    { array := h.length
      offset := 0
      len := a.length
      cap := a.length
      len_le := le_rfl })

lemma InBounds.clone (h : Heap α) (valid : s.InBounds h) : (s.clone h).2.InBounds (s.clone h).1 :=
  .inr ⟨_, List.getElem?_concat_length, ((Nat.zero_add _).trans (length_elements valid).symm).le⟩

lemma inBounds_ofArray (h : Heap α) (a : List α) : (ofArray h a).2.InBounds (ofArray h a).1 :=
  .inr ⟨a, List.getElem?_concat_length, (Nat.zero_add _).le⟩

lemma shown_ofArray (h : Heap α) (a : List α) : shown (ofArray h a) = a := by
  rw [shown, elements, ofArray, List.getElem?_concat_length, Option.getD_some, List.drop_zero, List.take_length]

/-- A new array is no change of the old ones. -/
lemma prefix_ofArray {mem : Heap α} (le : mem.length ≤ h.length) (a : List α) :
    mem <+: (ofArray h a).1 ↔ mem <+: h := by
  refine ⟨fun kept => ?_, fun kept => kept.trans (List.prefix_append _ _)⟩
  exact List.prefix_of_prefix_length_le kept (List.prefix_append _ _) le

section Overwrite

variable {a xs : List α} {i n : Nat}

/-- What is read back where an array was overwritten. -/
lemma take_drop_overwrite (inside : i ≤ a.length) : ((overwrite a i xs).drop i).take xs.length = xs := by
  rw [overwrite, List.drop_left' (List.length_take_of_le inside), List.take_left' rfl]

/-- The window of an array after the cells behind it are written. -/
lemma window_overwrite (inside : i + n ≤ a.length) :
    ((overwrite a (i + n) xs).drop i).take (n + xs.length) = (a.drop i).take n ++ xs := by
  have front : ((a.take (i + n)).drop i).length = n := by
    rw [List.length_drop, List.length_take_of_le inside]
    omega
  rw [overwrite, List.drop_append_of_le_length (by rw [List.length_take_of_le inside]; omega), ← List.append_assoc,
    List.take_left' (by rw [List.length_append, front]), List.drop_take, Nat.add_sub_cancel_left]

lemma overwrite_eq_self (inside : i + xs.length ≤ a.length) :
    overwrite a i xs = a ↔ (a.drop i).take xs.length = xs := by
  constructor
  · intro same
    have written : ((overwrite a i xs).drop i).take xs.length = xs :=
      take_drop_overwrite (Nat.le_of_add_right_le inside)
    rwa [same] at written
  · intro there
    calc overwrite a i xs = a.take i ++ ((a.drop i).take xs.length ++ (a.drop i).drop xs.length) := by
          rw [overwrite, there, List.drop_drop]
      _ = a := by rw [List.take_append_drop, List.take_append_drop]

end Overwrite

section AppendSlice

variable {mem : Heap α} {xs : List α}

lemma appendSlice_full (full : s.cap < s.len + xs.length) :
    (appendSlice fresh h s xs).1 = h ++ [s.elements h ++ xs ++ fresh (s.len + xs.length)] := by
  rw [appendSlice, dif_neg (by omega)]

lemma length_le_appendSlice (h : Heap α) (s : Slice) (xs : List α) :
    h.length ≤ (appendSlice fresh h s xs).1.length := by
  unfold appendSlice
  split
  case isTrue => exact (List.length_modify ..).ge
  case isFalse => exact (List.prefix_append _ _).length_le

/-- An append adds its elements at the end. -/
lemma shown_appendSlice (valid : s.InBounds h) (xs : List α) :
    shown (appendSlice fresh h s xs) = s.elements h ++ xs := by
  have len := length_elements valid
  have le := s.len_le
  unfold shown appendSlice
  split
  case isTrue room =>
    rcases valid with zero | ⟨a, got, inside⟩
    · obtain rfl : xs = [] := List.length_eq_zero_iff.mp (by omega)
      have empty : s.len = 0 := by omega
      simp only [elements, empty, List.length_nil, Nat.add_zero, List.take_zero, List.append_nil]
    · simp only [elements, List.getElem?_modify, got, Option.map_eq_map, Option.map_some, if_true, Option.getD_some]
      exact window_overwrite (by omega)
  case isFalse =>
    rw [elements, List.getElem?_concat_length, Option.getD_some, List.drop_zero]
    exact List.take_left' (by rw [List.length_append, len])

/-- A change of one array changes nothing exactly if it keeps that array. -/
lemma modify_eq_self {β : Type*} {l : List β} {x : β} {i : Nat} {f : β → β} (got : l[i]? = some x) :
    l.modify i f = l ↔ f x = x := by
  constructor
  · intro same
    have changed : (l.modify i f)[i]? = some (f x) := by
      rw [List.getElem?_modify, got]
      simp
    rw [same, got] at changed
    exact (Option.some.inj changed).symm
  · intro same
    apply List.ext_getElem?
    intro j
    rw [List.getElem?_modify]
    by_cases eq : i = j
    · subst eq
      simp [got, same]
    · simp [eq]

lemma modify_append {β : Type*} {l : List β} {i : Nat} (lt : i < l.length) (l' : List β) (f : β → β) :
    (l ++ l').modify i f = l.modify i f ++ l' := by
  induction l generalizing i with
  | nil => exact absurd lt (Nat.not_lt_zero i)
  | cons x l ih =>
    cases i with
    | zero => rfl
    | succ i =>
      rw [List.cons_append, List.modify_succ_cons, List.modify_succ_cons, ih (Nat.lt_of_succ_lt_succ lt),
        List.cons_append]

/-- An append leaves the old arrays alone exactly if there is no room behind the slice, or if the cells there already
    hold the elements. -/
lemma prefix_appendSlice (kept : mem <+: h) (valid : s.InBounds mem) (nonempty : xs ≠ []) :
    mem <+: (appendSlice fresh h s xs).1 ↔ (s.len + xs.length ≤ s.cap → s.behind mem xs.length = xs) := by
  by_cases room : s.len + xs.length ≤ s.cap
  · have pos := List.length_pos_iff.mpr nonempty
    obtain ⟨a, got, inside⟩ : ∃ a, mem[s.array]? = some a ∧ s.offset + s.cap ≤ a.length :=
      valid.resolve_left (by omega)
    have lt : s.array < mem.length := (List.getElem?_eq_some_iff.mp got).1
    have same : s.behind mem xs.length = xs ↔
        (mem.modify s.array fun a => overwrite a (s.offset + s.len) xs) = mem := by
      rw [behind, got, Option.getD_some, ← overwrite_eq_self (by omega)]
      exact (modify_eq_self (f := fun a => overwrite a (s.offset + s.len) xs) got).symm
    obtain ⟨new, rfl⟩ := kept
    rw [appendSlice, dif_pos room, modify_append lt, same]
    constructor
    · intro kept _
      have old := List.prefix_of_prefix_length_le kept (List.prefix_append _ _) (List.length_modify ..).ge
      exact (old.eq_of_length (List.length_modify ..).symm).symm
    · intro same
      rw [same room]
      exact List.prefix_append _ _
  · rw [appendSlice_full (by omega)]
    exact iff_of_true (kept.trans (List.prefix_append _ _)) fun fits => absurd fits room

end AppendSlice

/-! ## Ownership -/

/-- `make([]T, 0, n)`, with the `n` cells of the new array. -/
def make (h : Heap α) (cells : List α) : Heap α × Slice :=
  (h ++ [cells],
    { array := h.length
      offset := 0
      len := 0
      cap := cells.length
      len_le := Nat.zero_le _ })

section Ownership

variable {ι : Type*} {owner owner' : Nat → ι} {h' : Heap α} {p q : ι}

/-- The array of the slice belongs to `p`. -/
structure Owned (owner : Nat → ι) (h : Heap α) (p : ι) (s : Slice) : Prop where
  valid : s.InBounds h
  allocated : s.array < h.length
  belongs : owner s.array = p

/-- What `p` may do: write the arrays that it owns, and allocate others. -/
structure Moves (p : ι) (owner : Nat → ι) (h : Heap α) (owner' : Nat → ι) (h' : Heap α) : Prop where
  grows : h.length ≤ h'.length
  cells : ∀ (i : Nat) (a : List α), h[i]? = some a → ∃ a' : List α, h'[i]? = some a' ∧ a'.length = a.length
  owners : ∀ i < h.length, owner' i = owner i
  others : ∀ i < h.length, owner i ≠ p → h'[i]? = h[i]?

lemma Moves.rfl : Moves p owner h owner h where
  grows := le_rfl
  cells _ a got := ⟨a, got, Eq.refl _⟩
  owners _ _ := Eq.refl _
  others _ _ _ := Eq.refl _

/-- Slices stay with their owners. -/
lemma Owned.moves (owned : Owned owner h q s) (moves : Moves p owner h owner' h') : Owned owner' h' q s where
  valid := by
    rcases owned.valid with zero | ⟨a, got, inside⟩
    · exact .inl zero
    · obtain ⟨a', got', same⟩ := moves.cells _ _ got
      exact .inr ⟨a', got', same ▸ inside⟩
  allocated := owned.allocated.trans_le moves.grows
  belongs := (moves.owners _ owned.allocated).trans owned.belongs

/-- The slices of the others show what they showed. -/
lemma Owned.elements_moves (owned : Owned owner h q s) (moves : Moves p owner h owner' h') (other : q ≠ p) :
    s.elements h' = s.elements h := by
  have same := moves.others _ owned.allocated (owned.belongs ▸ other)
  rw [elements, elements, same]

/-- New arrays are given to `p`. -/
lemma moves_allocate (h : Heap α) (a : List α) (p : ι) :
    Moves p owner h (Function.update owner h.length p) (h ++ [a]) where
  grows := by rw [List.length_append]; exact Nat.le_add_right _ _
  cells i a got := ⟨a, (List.getElem?_append_left (List.getElem?_eq_some_iff.mp got).1).trans got, Eq.refl _⟩
  owners _ lt := Function.update_of_ne lt.ne _ _
  others _ lt _ := List.getElem?_append_left lt

lemma owned_make (h : Heap α) (cells : List α) :
    Owned (Function.update owner h.length p) (make h cells).1 p (make h cells).2 where
  valid := .inr ⟨cells, List.getElem?_concat_length, (Nat.zero_add _).le⟩
  allocated := by rw [make, List.length_append]; exact Nat.lt_succ_self _
  belongs := Function.update_self _ _ _

lemma Owned.truncate (owned : Owned owner h p s) : Owned owner h p s.truncate :=
  ⟨owned.valid.truncate, owned.allocated, owned.belongs⟩

/-- An append is a move of the owner, who owns its result. -/
lemma Owned.append (owned : Owned owner h p s) (x : α) :
    Moves p owner h (Function.update owner h.length p) (append fresh h s x).1 ∧
      Owned (Function.update owner h.length p) (append fresh h s x).1 p (append fresh h s x).2 := by
  have valid : (Slice.append fresh h s x).2.InBounds (Slice.append fresh h s x).1 := owned.valid.append x
  unfold Slice.append at valid ⊢
  split at valid
  case isTrue lt =>
    rw [dif_pos lt]
    have array : ∀ i, (h.modify s.array fun a => a.set (s.offset + s.len) x)[i]? =
        if s.array = i then h[i]?.map fun a => a.set (s.offset + s.len) x else h[i]? := fun i => by
      rw [List.getElem?_modify]
      split <;> simp
    have old : ∀ i < h.length, Function.update owner h.length p i = owner i := fun i lt =>
      Function.update_of_ne lt.ne _ _
    refine ⟨⟨(List.length_modify ..).ge, fun i a got => ?_, old, fun i _ other => ?_⟩, valid, ?_, ?_⟩
    · rw [array, got]
      split
      case isTrue => exact ⟨_, Eq.refl _, List.length_set⟩
      case isFalse => exact ⟨a, Eq.refl _, Eq.refl _⟩
    · refine (array i).trans (if_neg ?_)
      rintro rfl
      exact other owned.belongs
    · rw [List.length_modify]
      exact owned.allocated
    · exact (old _ owned.allocated).trans owned.belongs
  case isFalse full =>
    rw [dif_neg full]
    refine ⟨moves_allocate h _ p, valid, ?_, Function.update_self _ _ _⟩
    rw [List.length_append]
    exact Nat.lt_succ_self _

end Ownership

end Slice

end Otap.Lib
