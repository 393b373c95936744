import Otap.Lib.Bytes

/-!
# Ordered maps from byte strings

A map with byte strings as keys, kept as the list of its entries in the order of their keys, as a store
with byte-ordered iteration keeps them. The order is a field of `KV`, so every map has one entry for a
key and lists its values in key order.
-/

namespace Otap.Lib

variable {α : Type} {k : Bytes} {v : α} {l : List (Bytes × α)}

/-- Puts an entry in its place, over an entry with the same key. -/
def insertEntry (k : Bytes) (v : α) : List (Bytes × α) → List (Bytes × α)
  | [] => [(k, v)]
  | e :: l =>
    if k < e.1 then (k, v) :: e :: l
    else if k = e.1 then (k, v) :: l
    else e :: insertEntry k v l

lemma mem_insertEntry {x : Bytes × α} (mem : x ∈ insertEntry k v l) : x = (k, v) ∨ x ∈ l := by
  induction l with
  | nil => exact .inl (List.mem_singleton.mp mem)
  | cons e l ih =>
    rw [insertEntry] at mem
    split at mem
    case isTrue => exact List.mem_cons.mp mem
    case isFalse =>
      split at mem
      case isTrue => exact (List.mem_cons.mp mem).imp id (List.mem_cons_of_mem _)
      case isFalse =>
        cases List.mem_cons.mp mem with
        | inl eq => exact .inr (eq ▸ List.mem_cons_self)
        | inr mem => exact (ih mem).imp id (List.mem_cons_of_mem _)

lemma pairwise_insertEntry (k : Bytes) (v : α) (sorted : l.Pairwise fun a b => a.1 < b.1) :
    (insertEntry k v l).Pairwise fun a b => a.1 < b.1 := by
  induction l with
  | nil => exact List.pairwise_singleton _ _
  | cons e l ih =>
    obtain ⟨head, tail⟩ := List.pairwise_cons.mp sorted
    rw [insertEntry]
    split
    case isTrue lt =>
      refine List.pairwise_cons.mpr ⟨fun x mem => ?_, sorted⟩
      cases List.mem_cons.mp mem with
      | inl eq => exact eq ▸ lt
      | inr mem => exact List.lt_trans lt (head x mem)
    case isFalse nlt =>
      split
      case isTrue eq => exact List.pairwise_cons.mpr ⟨fun x mem => eq ▸ head x mem, tail⟩
      case isFalse ne =>
        have gt : e.1 < k := by
          by_contra ngt
          exact ne (List.le_antisymm (List.not_lt.mp ngt) (List.not_lt.mp nlt))
        refine List.pairwise_cons.mpr ⟨fun x mem => ?_, ih tail⟩
        cases mem_insertEntry mem with
        | inl eq => exact eq ▸ gt
        | inr mem => exact head x mem

def lookupEntry (k : Bytes) : List (Bytes × α) → Option α
  | [] => none
  | e :: l => if k = e.1 then some e.2 else lookupEntry k l

lemma lookup_insertEntry (k k' : Bytes) (v : α) (l : List (Bytes × α)) :
    lookupEntry k' (insertEntry k v l) = if k' = k then some v else lookupEntry k' l := by
  induction l with
  | nil => rfl
  | cons e l ih =>
    rw [insertEntry]
    split
    case isTrue => rfl
    case isFalse =>
      split
      case isTrue eq =>
        rw [lookupEntry, lookupEntry, ← eq]
        split
        case isTrue => rfl
        case isFalse => rfl
      case isFalse ne =>
        rw [lookupEntry, lookupEntry, ih]
        split
        case isTrue h => rw [if_neg fun e => ne (e.symm.trans h)]
        case isFalse => rfl

lemma length_insertEntry (new : lookupEntry k l = none) :
    (insertEntry k v l).length = l.length + 1 := by
  induction l with
  | nil => rfl
  | cons e l ih =>
    rw [lookupEntry] at new
    split at new
    case isTrue => cases new
    case isFalse ne =>
      rw [insertEntry]
      split
      case isTrue => rfl
      case isFalse => rw [List.length_cons, ih new, List.length_cons]

lemma lookup_filter (k k' : Bytes) (l : List (Bytes × α)) :
    lookupEntry k' (l.filter fun e => e.1 ≠ k) = if k' = k then none else lookupEntry k' l := by
  induction l with
  | nil => rw [List.filter_nil, lookupEntry, ite_self]
  | cons e l ih =>
    rw [List.filter_cons]
    split
    case isTrue keep =>
      rw [lookupEntry, lookupEntry, ih]
      split
      case isTrue eq => rw [if_neg fun h => of_decide_eq_true keep (eq.symm.trans h)]
      case isFalse => rfl
    case isFalse drop =>
      have eq : e.1 = k := not_not.mp fun ne => drop (decide_eq_true ne)
      rw [ih, lookupEntry, eq]
      split
      case isTrue => rfl
      case isFalse => rfl

lemma length_filter_of_lookupEntry
    (sorted : l.Pairwise fun a b => a.1 < b.1) (found : lookupEntry k l = some v) :
    (l.filter fun e => e.1 ≠ k).length + 1 = l.length := by
  induction l with
  | nil => cases found
  | cons e l ih =>
    obtain ⟨head, tail⟩ := List.pairwise_cons.mp sorted
    rw [lookupEntry] at found
    split at found
    case isTrue eq =>
      have above : (l.filter fun e => e.1 ≠ k) = l := by
        refine List.filter_eq_self.mpr fun x mem => decide_eq_true fun same => ?_
        have lt := head x mem
        rw [same, eq] at lt
        exact List.lt_irrefl _ lt
      rw [List.filter_cons_of_neg (by simp [eq]), above, List.length_cons]
    case isFalse ne =>
      rw [List.filter_cons_of_pos (by simp [Ne.symm ne]), List.length_cons, ih tail found, List.length_cons]

lemma mem_of_lookupEntry (found : lookupEntry k l = some v) : (k, v) ∈ l := by
  induction l with
  | nil => cases found
  | cons e l ih =>
    rw [lookupEntry] at found
    split at found
    case isTrue eq =>
      cases found
      exact eq ▸ List.mem_cons_self
    case isFalse => exact List.mem_cons_of_mem _ (ih found)

lemma dropWhile_eq_filter (sorted : l.Pairwise fun a b => a.1 < b.1) (k : Bytes) :
    (l.dropWhile fun e => e.1 < k) = l.filter fun e => ¬ e.1 < k := by
  induction l with
  | nil => rfl
  | cons e l ih =>
    obtain ⟨head, tail⟩ := List.pairwise_cons.mp sorted
    by_cases lt : e.1 < k
    case pos => simp [lt, ih tail]
    case neg =>
      have above : ∀ x ∈ l, ¬ x.1 < k := fun x mem lt' => lt (List.lt_trans (head x mem) lt')
      have all : (l.filter fun e => ¬ e.1 < k) = l :=
        List.filter_eq_self.mpr fun x mem => decide_eq_true (above x mem)
      rw [List.dropWhile_cons_of_neg (by simp [lt]), List.filter_cons_of_pos (by simp [lt]), all]

/-- Nothing follows after the end of a run, if every entry before one of the run is of the run. -/
lemma takeWhile_eq_filter {l : List α} {p : α → Bool} (closed : l.Pairwise fun a b => p b = true → p a = true) :
    l.takeWhile p = l.filter p := by
  induction l with
  | nil => rfl
  | cons e l ih =>
    obtain ⟨head, tail⟩ := List.pairwise_cons.mp closed
    by_cases start : p e = true
    case pos => rw [List.takeWhile_cons_of_pos start, List.filter_cons_of_pos start, ih tail]
    case neg =>
      have none : l.filter p = [] := List.filter_eq_nil_iff.mpr fun x mem later => start (head x mem later)
      rw [List.takeWhile_cons_of_neg start, List.filter_cons_of_neg start, none]

/-- An ordered map. -/
structure KV (α : Type) where
  entries : List (Bytes × α)
  sorted : entries.Pairwise fun a b => a.1 < b.1

namespace KV

variable {m : KV α}

def empty : KV α where
  entries := []
  sorted := .nil

def get (m : KV α) (k : Bytes) : Option α :=
  lookupEntry k m.entries

def set (m : KV α) (k : Bytes) (v : α) : KV α where
  entries := insertEntry k v m.entries
  sorted := pairwise_insertEntry k v m.sorted

def delete (m : KV α) (k : Bytes) : KV α where
  entries := m.entries.filter fun e => e.1 ≠ k
  sorted := m.sorted.filter _

/-- The values, in the order of their keys. -/
def values (m : KV α) : List α :=
  m.entries.map Prod.snd

/-- The entries from the first key that is not below `lo` up to the last one that is not above `hi`: what an
    iterator yields that seeks `lo` and stops above `hi`. -/
def range (m : KV α) (lo hi : Bytes) : List (Bytes × α) :=
  (m.entries.dropWhile fun e => e.1 < lo).takeWhile fun e => !decide (hi < e.1)

@[simp] lemma get_empty (k : Bytes) : (empty : KV α).get k = none := rfl

lemma get_set (m : KV α) (k k' : Bytes) (v : α) :
    (m.set k v).get k' = if k' = k then some v else m.get k' :=
  lookup_insertEntry k k' v m.entries

@[simp] lemma get_set_self (m : KV α) (k : Bytes) (v : α) : (m.set k v).get k = some v := by
  rw [get_set, if_pos rfl]

lemma get_set_ne (m : KV α) {k k' : Bytes} (v : α) (ne : k' ≠ k) :
    (m.set k v).get k' = m.get k' := by
  rw [get_set, if_neg ne]

/-- A new key adds an entry. -/
lemma length_set (new : m.get k = none) :
    (m.set k v).entries.length = m.entries.length + 1 :=
  length_insertEntry new

/-- Deleting a key that is there takes one entry away. -/
lemma length_delete (found : m.get k = some v) :
    (m.delete k).entries.length + 1 = m.entries.length :=
  length_filter_of_lookupEntry m.sorted found

lemma get_delete (m : KV α) (k k' : Bytes) :
    (m.delete k).get k' = if k' = k then none else m.get k' :=
  lookup_filter k k' m.entries

lemma get_set_eq_update (m : KV α) (k : Bytes) (v : α) :
    (m.set k v).get = Function.update m.get k (some v) := by
  funext k'
  rw [get_set, Function.update_apply]

lemma get_delete_eq_update (m : KV α) (k : Bytes) :
    (m.delete k).get = Function.update m.get k none := by
  funext k'
  rw [get_delete, Function.update_apply]

/-- Every entry is what its key gives: a key has one entry. -/
lemma get_of_mem {e : Bytes × α} (mem : e ∈ m.entries) : m.get e.1 = some e.2 := by
  obtain ⟨l, sorted⟩ := m
  induction l with
  | nil => cases mem
  | cons x l ih =>
    obtain ⟨head, tail⟩ := List.pairwise_cons.mp sorted
    rw [get, lookupEntry]
    cases List.mem_cons.mp mem with
    | inl eq => rw [if_pos (congrArg Prod.fst eq), eq]
    | inr mem =>
      have ne : e.1 ≠ x.1 := by
        intro eq
        have lt := head e mem
        rw [eq] at lt
        exact List.lt_irrefl _ lt
      rw [if_neg ne]
      exact ih tail mem

lemma mem_entries : (k, v) ∈ m.entries ↔ m.get k = some v :=
  ⟨get_of_mem, mem_of_lookupEntry⟩

/-- The keys of some of the entries are different. -/
lemma nodup_keys (m : KV α) (p : Bytes × α → Bool) : ((m.entries.filter p).map Prod.fst).Nodup := by
  refine List.pairwise_map.mpr (List.Pairwise.imp (fun lt same => ?_) (m.sorted.filter p))
  rw [same] at lt
  exact List.lt_irrefl _ lt

/-- A map is what its keys give: the order of the entries is that of their keys. -/
lemma ext_get {m m' : KV α} (same : ∀ k, m.get k = m'.get k) : m = m' := by
  have nodup (m : KV α) : m.entries.Nodup := by
    have keys := m.nodup_keys fun _ => true
    rw [List.filter_true] at keys
    exact keys.of_map
  have perm : m.entries.Perm m'.entries := by
    refine (List.perm_ext_iff_of_nodup (nodup m) (nodup m')).mpr fun e => ?_
    rw [← Prod.mk.eta (p := e), mem_entries, mem_entries, same]
  have entries : m.entries = m'.entries :=
    perm.eq_of_pairwise (fun a b _ _ lt gt => absurd (List.lt_trans lt gt) (List.lt_irrefl _)) m.sorted m'.sorted
  obtain ⟨l, sorted⟩ := m
  cases entries
  rfl

lemma set_comm (m : KV α) {k k' : Bytes} (ne : k ≠ k') (v v' : α) : (m.set k v).set k' v' = (m.set k' v').set k v := by
  apply ext_get
  intro x
  simp only [get_set]
  split
  case isTrue here => rw [if_neg fun h => ne (h.symm.trans here)]
  case isFalse => rfl

lemma sorted_range (m : KV α) (lo hi : Bytes) : (m.range lo hi).Pairwise fun a b => a.1 < b.1 :=
  (m.sorted.sublist (List.dropWhile_sublist _)).sublist (List.takeWhile_sublist _)

/-- A range holds the entries whose keys are in it. -/
lemma mem_range {lo hi k : Bytes} :
    (k, v) ∈ m.range lo hi ↔ m.get k = some v ∧ ¬ k < lo ∧ ¬ hi < k := by
  have sorted := m.sorted.sublist (List.dropWhile_sublist (fun e : Bytes × α => e.1 < lo))
  have upTo := sorted.imp (S := fun a b => (!decide (hi < b.1)) = true → (!decide (hi < a.1)) = true)
    fun lt le => by
      rw [← decide_not, decide_eq_true_eq] at le ⊢
      exact fun after => le (List.lt_trans after lt)
  rw [range, takeWhile_eq_filter upTo, dropWhile_eq_filter m.sorted, List.mem_filter, List.mem_filter,
    mem_entries, ← decide_not, decide_eq_true_eq, decide_eq_true_eq, and_assoc]

/-- The values of a map are what its keys give. -/
lemma mem_values : v ∈ m.values ↔ ∃ k, m.get k = some v := by
  constructor
  · intro mem
    obtain ⟨e, entry, rfl⟩ := List.mem_map.mp mem
    exact ⟨e.1, get_of_mem entry⟩
  · intro h
    obtain ⟨k, found⟩ := h
    exact List.mem_map.mpr ⟨(k, v), mem_of_lookupEntry found, rfl⟩

end KV

end Otap.Lib
