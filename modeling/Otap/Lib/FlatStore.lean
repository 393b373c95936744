import Otap.Lib.KV

/-!
# Many maps in one ordered store

A store maps byte strings to byte strings and iterates in byte order. A program that keeps several typed maps
in it writes a value, marshalled, under a string computed from the abstract key. `Represents` says that the
store holds a family of abstract cells: under each abstract key it has bytes that are read as the value of the
cell, or nothing. If different abstract keys are stored under different strings, a write or a delete changes one cell
(`Represents.set`, `Represents.delete`).

Cells whose strings are a common start followed by an ID are an ordered map by ID, and iterating over the
start lists that map (`scan_entries`), since the strings with a common start stand together.
-/

namespace Otap.Lib

variable {α β ε : Type}

/-! ## Results of the store and of its abstraction -/

/-- Both fail with one error, or both succeed with related values. -/
inductive Matches (R : α → β → Prop) : Except ε α → Except ε β → Prop where
  | error (e : ε) : Matches R (.error e) (.error e)
  | ok {a b} : R a b → Matches R (.ok a) (.ok b)

lemma Matches.map {γ : Type} {R : α → β → Prop} {S : α → γ → Prop} {r : Except ε α} {r' : Except ε β}
    (h : Matches R r r') {f : β → γ} (rel : ∀ a b, R a b → S a (f b)) : Matches S r (r'.map f) := by
  cases h with
  | error e => exact .error e
  | ok related => exact .ok (rel _ _ related)

/-- Both return the error of one check. -/
lemma Matches.guard {R : α → β → Prop} {p : Prop} [Decidable p] {e : ε} {r : Except ε α} {r' : Except ε β}
    (passed : ¬ p → Matches R r r') : Matches R (if p then .error e else r) (if p then .error e else r') := by
  split
  case isTrue => exact .error e
  case isFalse passes => exact passed passes

/-! ## Typed cells -/

/-- Writing and reading the values of one type; both can fail, with a message. -/
structure Codec (α : Type) where
  marshal : α → Except Bytes Bytes
  unmarshal : Bytes → Except Bytes α

/-- If the value is written, it is read back. -/
def Codec.RoundTrips (c : Codec α) (v : α) : Prop :=
  ∀ ⦃b⦄, c.marshal v = .ok b → c.unmarshal b = .ok v

/-- Byte strings that are stored as they are. -/
def Codec.raw : Codec Bytes where
  marshal := .ok
  unmarshal := .ok

/-- A codec to run examples with: the values of a list, by their positions. -/
def Codec.ofList [DecidableEq α] (values : List α) : Codec α where
  marshal v :=
    match values.idxOf? v with
    | none => .error (ascii "not in the list")
    | some i => .ok (List.replicate i 0)
  unmarshal b :=
    match values[b.length]? with
    | none => .error (ascii "not a position")
    | some v => .ok v

lemma Codec.ofList_roundTrips [DecidableEq α] (values : List α) (v : α) : (Codec.ofList values).RoundTrips v := by
  intro b written
  simp only [ofList] at written ⊢
  split at written
  case h_1 => cases written
  case h_2 i at_i =>
    cases written
    obtain ⟨lt, found, -⟩ := List.idxOf?_eq_some_iff.mp at_i
    rw [List.length_replicate, List.getElem?_eq_getElem lt, found]

/-- What is stored for a cell, and the content of the cell that it is read as. -/
inductive Codec.Cell (c : Codec α) : Option Bytes → Option α → Prop where
  | absent : c.Cell none none
  | present {v b} : c.unmarshal b = .ok v → c.Cell (some b) (some v)

lemma Codec.Cell.raw_eq {b v : Option Bytes} (cell : Codec.raw.Cell b v) : b = v := by
  cases cell with
  | absent => rfl
  | present read => rw [Except.ok.inj read]

section Represents

variable {κ : Type} [DecidableEq κ] {Value : κ → Type}

/-- The store holds the cells, each under the string of its key. -/
def Represents (codec : ∀ k, Codec (Value k)) (stored : κ → Bytes) (db : KV Bytes)
    (m : ∀ k, Option (Value k)) : Prop :=
  ∀ k, (codec k).Cell (db.get (stored k)) (m k)

variable {codec : ∀ k, Codec (Value k)} {stored : κ → Bytes} {db : KV Bytes} {m : ∀ k, Option (Value k)}

lemma Represents.set (rep : Represents codec stored db m) (inj : Function.Injective stored) {k : κ}
    {v : Value k} {b : Bytes} (read : (codec k).unmarshal b = .ok v) :
    Represents codec stored (db.set (stored k) b) (Function.update m k (some v)) := by
  intro k'
  by_cases same : k' = k
  · subst same
    rw [KV.get_set_self, Function.update_self]
    exact .present read
  · rw [KV.get_set_ne _ _ fun e => same (inj e), Function.update_of_ne same]
    exact rep k'

lemma Represents.delete (rep : Represents codec stored db m) (inj : Function.Injective stored) (k : κ) :
    Represents codec stored (db.delete (stored k)) (Function.update m k none) := by
  intro k'
  rw [KV.get_delete]
  by_cases same : k' = k
  · subst same
    rw [if_pos rfl, Function.update_self]
    exact .absent
  · rw [if_neg fun e => same (inj e), Function.update_of_ne same]
    exact rep k'

end Represents

/-! ## Iterating over a common start -/

/-- Between a string and one that starts with it, every string starts with it. -/
lemma isPrefix_of_between {p k k' : Bytes} (lo : ¬ k < p) (lt : k < k') (start : p <+: k') : p <+: k := by
  induction p generalizing k k' with
  | nil => exact List.nil_prefix
  | cons x p ih =>
    obtain ⟨t, rfl⟩ := start
    cases k with
    | nil => exact absurd (List.nil_lt_cons x p) lo
    | cons y k =>
      rw [List.cons_append, List.cons_lt_cons_iff] at lt
      rw [List.cons_lt_cons_iff, not_or, not_and] at lo
      have same : y = x := by
        rcases lt with lt | ⟨same, -⟩
        · exact absurd lt lo.1
        · exact same
      subst same
      have below : k < p ++ t := (lt.resolve_left (UInt8.lt_irrefl y)).2
      exact List.cons_prefix_cons.mpr ⟨rfl, ih (lo.2 rfl) below (List.prefix_append p t)⟩

/-- What an iterator yields that seeks `p` and goes on as long as the keys start with `p`. -/
def KV.scan (m : KV α) (p : Bytes) : List (Bytes × α) :=
  (m.entries.dropWhile fun e => e.1 < p).takeWhile fun e => p.isPrefixOf e.1

/-- Those are all entries whose keys start with `p`. -/
lemma KV.scan_eq_filter (m : KV α) (p : Bytes) : m.scan p = m.entries.filter fun e => p.isPrefixOf e.1 := by
  have sorted := m.sorted.sublist (List.dropWhile_sublist fun e : Bytes × α => decide (e.1 < p))
  have above : ∀ e ∈ m.entries.dropWhile fun e => e.1 < p, ¬ e.1 < p := by
    rw [dropWhile_eq_filter m.sorted]
    exact fun e mem => of_decide_eq_true (List.mem_filter.mp mem).2
  have closed : (m.entries.dropWhile fun e => e.1 < p).Pairwise fun a b =>
      p.isPrefixOf b.1 = true → p.isPrefixOf a.1 = true := by
    refine sorted.imp_of_mem fun memA _ lt start => ?_
    exact List.isPrefixOf_iff_prefix.mpr
      (isPrefix_of_between (above _ memA) lt (List.isPrefixOf_iff_prefix.mp start))
  rw [scan, takeWhile_eq_filter closed, dropWhile_eq_filter m.sorted, List.filter_filter]
  refine List.filter_congr fun e _ => ?_
  by_cases start : p.isPrefixOf e.1
  · have le : ¬ e.1 < p := List.not_lt.mpr (List.isPrefixOf_iff_prefix.mp start).le
    simp [start, le]
  · simp [start]

lemma KV.mem_scan {m : KV α} {p : Bytes} {e : Bytes × α} :
    e ∈ m.scan p ↔ m.get e.1 = some e.2 ∧ p <+: e.1 := by
  rw [scan_eq_filter, List.mem_filter, List.isPrefixOf_iff_prefix, ← mem_entries]

/-- The keys under a common start are the keys of the map of its cells, in the same order. -/
lemma KV.scan_keys {c : Codec α} {db : KV Bytes} {p : Bytes} {m : KV α}
    (rep : ∀ id, c.Cell (db.get (p ++ id)) (m.get id)) :
    (db.scan p).map Prod.fst = m.entries.map fun e => p ++ e.1 := by
  have sortedScan : ((db.scan p).map Prod.fst).Pairwise (· < ·) := by
    rw [scan_eq_filter, List.pairwise_map]
    exact db.sorted.filter _
  have sortedIds : (m.entries.map fun e => p ++ e.1).Pairwise (· < ·) := by
    rw [List.pairwise_map]
    exact m.sorted.imp fun lt => List.append_left_lt lt
  refine List.Pairwise.eq_of_mem_iff sortedScan sortedIds fun k => ?_
  simp only [List.mem_map]
  constructor
  · rintro ⟨e, mem, rfl⟩
    obtain ⟨found, id, start⟩ := mem_scan.mp mem
    have cell := rep id
    rw [start, found] at cell
    generalize content : m.get id = v at cell
    cases cell with
    | present => exact ⟨(id, _), mem_entries.mpr content, start⟩
  · rintro ⟨e, mem, rfl⟩
    have cell := rep e.1
    rw [get_of_mem mem] at cell
    generalize content : db.get (p ++ e.1) = b at cell
    cases cell with
    | present => exact ⟨(p ++ e.1, _), mem_scan.mpr ⟨content, List.prefix_append p e.1⟩, rfl⟩

/-- What stands under a common start is read as the values of the map of its cells. -/
lemma KV.scan_entries {c : Codec α} {db : KV Bytes} {p : Bytes} {m : KV α}
    (rep : ∀ id, c.Cell (db.get (p ++ id)) (m.get id)) :
    List.Forall₂ (fun b v => c.unmarshal b = .ok v) ((db.scan p).map Prod.snd) m.values := by
  have keys := scan_keys rep
  rw [values, List.forall₂_map_left_iff, List.forall₂_map_right_iff]
  rw [← List.forall₂_eq_eq_eq, List.forall₂_map_left_iff, List.forall₂_map_right_iff] at keys
  refine List.forall₂_iff_zip.mpr ⟨keys.length_eq, fun {e e'} mem => ?_⟩
  obtain ⟨mem₁, mem₂⟩ := List.of_mem_zip mem
  have cell := rep e'.1
  rw [← (List.forall₂_iff_zip.mp keys).2 mem, (mem_scan.mp mem₁).1, get_of_mem mem₂] at cell
  cases cell with
  | present read => exact read

end Otap.Lib
