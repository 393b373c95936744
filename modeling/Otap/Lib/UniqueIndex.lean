import Mathlib.Tactic

/-!
# Unique secondary indexes

Records stand under primary keys, and some of them occupy a slot: `slot r = some i`. An index maps slots to
primary keys. `Indexed` says that the index is exact: it names for every slot the record that occupies it
and nothing else, so that no two records occupy one slot (`Indexed.unique`).

Writing or deleting a record sets `records k` to `o : Option ρ`. There is one rule for each way in which the
index follows: the record keeps its slot, leaves it, or takes a free one.
-/

namespace Otap.Lib

variable {κ ι ρ : Type*} {slot : ρ → Option ι} {records : κ → Option ρ} {index : ι → Option κ}
variable {k k' : κ} {r r' : ρ} {o : Option ρ} {i j : ι}

/-- The index names exactly the records that occupy a slot. -/
def Indexed (slot : ρ → Option ι) (records : κ → Option ρ) (index : ι → Option κ) : Prop :=
  ∀ i k, index i = some k ↔ (records k).bind slot = some i

namespace Indexed

lemma empty : Indexed slot (fun _ : κ => none) (fun _ => none) :=
  fun _ _ => iff_of_false (fun e => nomatch e) fun e => nomatch e

lemma unique (h : Indexed slot records index) (occ : (records k).bind slot = some i)
    (occ' : (records k').bind slot = some i) : k = k' :=
  Option.some.inj (((h i k).mpr occ).symm.trans ((h i k').mpr occ'))

section Update

variable [DecidableEq κ]

lemma keep (h : Indexed slot records index) (same : o.bind slot = (records k).bind slot) :
    Indexed slot (Function.update records k o) index := by
  intro i k'
  rw [h i k']
  by_cases eq : k' = k
  case pos => rw [eq, Function.update_self, same]
  case neg => rw [Function.update_of_ne eq]

variable [DecidableEq ι]

lemma leave (h : Indexed slot records index) (occ : (records k).bind slot = some i)
    (out : o.bind slot = none) :
    Indexed slot (Function.update records k o) (Function.update index i none) := by
  intro j k'
  by_cases ej : j = i
  case pos =>
    subst ej
    rw [Function.update_self]
    refine iff_of_false (fun e => nomatch e) fun occ' => ?_
    by_cases eq : k' = k
    case pos =>
      rw [eq, Function.update_self, out] at occ'
      cases occ'
    case neg =>
      rw [Function.update_of_ne eq] at occ'
      exact eq (h.unique occ' occ)
  case neg =>
    rw [Function.update_of_ne ej, h j k']
    by_cases eq : k' = k
    case pos =>
      rw [eq, Function.update_self, occ, out]
      exact iff_of_false (fun e => ej (Option.some.inj e).symm) fun e => nomatch e
    case neg => rw [Function.update_of_ne eq]

lemma take (h : Indexed slot records index) (out : (records k).bind slot = none)
    (free : index i = none) (occ : o.bind slot = some i) :
    Indexed slot (Function.update records k o) (Function.update index i (some k)) := by
  intro j k'
  by_cases eq : k' = k
  case pos =>
    subst eq
    rw [Function.update_self, occ]
    by_cases ej : j = i
    case pos => rw [ej, Function.update_self, eq_self_iff_true, eq_self_iff_true]
    case neg =>
      rw [Function.update_of_ne ej, h j k', out]
      exact iff_of_false (fun e => nomatch e) fun e => ej (Option.some.inj e).symm
  case neg =>
    rw [Function.update_of_ne eq, ← h j k']
    by_cases ej : j = i
    case pos =>
      rw [ej, Function.update_self, free]
      exact iff_of_false (fun e => eq (Option.some.inj e).symm) fun e => nomatch e
    case neg => rw [Function.update_of_ne ej]

end Update

end Indexed

end Otap.Lib
