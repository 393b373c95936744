import Mathlib.Tactic

/-!
# Loops over pairs

The pairs of a list, in the order in which two nested loops visit them, and two ways to run over them: loops over
`range(start, stop, step)` in which the inner range begins one step after the outer index (`foldl_loops`), and the
entries of a square table above its diagonal (`upper_eq`).
-/

namespace Otap.Lib

variable {α β : Type*}

/-- The pairs of elements of a list, the earlier one first. -/
def pairs : List α → List (α × α)
  | [] => []
  | a :: l => l.map (a, ·) ++ pairs l

lemma mem_pairs {l : List α} {p : α × α} (mem : p ∈ pairs l) : p.1 ∈ l ∧ p.2 ∈ l := by
  induction l with
  | nil => cases mem
  | cons a l ih =>
    rcases List.mem_append.mp mem with here | later
    · obtain ⟨b, of, rfl⟩ := List.mem_map.mp here
      exact ⟨List.mem_cons_self, List.mem_cons_of_mem a of⟩
    · exact ⟨List.mem_cons_of_mem a (ih later).1, List.mem_cons_of_mem a (ih later).2⟩

/-- A list has pairs if and only if it has two elements. -/
lemma pairs_eq_nil_iff {l : List α} : pairs l = [] ↔ l.length < 2 := by
  match l with
  | [] => simp [pairs]
  | [a] => simp [pairs]
  | a :: b :: l => simp [pairs]

/-! ## Ranges -/

/-- `range(start, stop, step)` for a positive step. -/
def pyRange (start stop step : Nat) : List Nat :=
  List.range' start ((stop - start + step - 1) / step) step

variable {start stop step : Nat}

lemma pyRange_of_le (le : stop ≤ start) : pyRange start stop step = [] := by
  have none : (stop - start + step - 1) / step = 0 := by
    rw [Nat.sub_eq_zero_of_le le, Nat.zero_add, Nat.div_eq_zero_iff]
    omega
  rw [pyRange, none]
  rfl

lemma pyRange_of_lt (pos : 0 < step) (lt : start < stop) :
    pyRange start stop step = start :: pyRange (start + step) stop step := by
  have count : (stop - start + step - 1) / step = (stop - (start + step) + step - 1) / step + 1 := by
    by_cases far : start + step ≤ stop
    case pos =>
      rw [← Nat.add_div_right _ pos]
      congr 1
      omega
    case neg =>
      have last : (stop - (start + step) + step - 1) / step = 0 := by
        rw [Nat.div_eq_zero_iff]
        omega
      rw [last, Nat.zero_add, Nat.div_eq_iff pos]
      omega
  rw [pyRange, count, List.range'_succ, pyRange]

lemma lt_of_mem_pyRange (pos : 0 < step) {i : Nat} (mem : i ∈ pyRange start stop step) : i < stop := by
  obtain ⟨k, lt, rfl⟩ := List.mem_range'.mp mem
  have : step * k + step ≤ (stop - start + step - 1) / step * step := by
    rw [← Nat.mul_succ, Nat.mul_comm]
    exact Nat.mul_le_mul_right step lt
  have := Nat.div_mul_le_self (stop - start + step - 1) step
  omega

/-- Two nested loops of which the inner one begins a step after the index of the outer one. -/
lemma foldl_loops (pos : 0 < step) (f : β → Nat × Nat → β) (acc : β) :
    (pyRange start stop step).foldl
        (fun acc i => (pyRange (i + step) stop step).foldl (fun acc j => f acc (i, j)) acc) acc =
      (pairs (pyRange start stop step)).foldl f acc := by
  induction left : stop - start using Nat.strongRecOn generalizing start acc with
  | _ left ih =>
    by_cases lt : start < stop
    case neg =>
      rw [pyRange_of_le (Nat.le_of_not_lt lt)]
      rfl
    case pos =>
      rw [pyRange_of_lt pos lt, List.foldl_cons, pairs, List.foldl_append, List.foldl_map]
      exact ih (stop - (start + step)) (by omega) _ rfl

/-! ## Tables -/

/-- The entries of a square table above its diagonal, row by row. -/
def upper (size : Nat) (entry : Nat → Nat → β) : List β :=
  (List.range size).flatMap fun i => ((List.range size).filter fun j => i < j).map (entry i)

lemma upper_succ (size : Nat) (entry : Nat → Nat → β) :
    upper (size + 1) entry =
      (List.range size).map (fun j => entry 0 (j + 1)) ++ upper size fun i j => entry (i + 1) (j + 1) := by
  have first : (List.range (size + 1)).filter (fun j => 0 < j) = (List.range size).map Nat.succ := by
    rw [List.range_succ_eq_map, List.filter_cons_of_neg (by decide), List.filter_map, List.filter_eq_self.mpr]
    exact fun j _ => decide_eq_true (Nat.succ_pos j)
  have later (i : Nat) : (List.range (size + 1)).filter (fun j => i + 1 < j) =
      ((List.range size).filter fun j => i < j).map Nat.succ := by
    rw [List.range_succ_eq_map, List.filter_cons_of_neg (by simp), List.filter_map]
    congr 2
    funext j
    simp
  have rows : upper (size + 1) entry = (0 :: (List.range size).map Nat.succ).flatMap fun i =>
      ((List.range (size + 1)).filter fun j => i < j).map (entry i) := by
    rw [← List.range_succ_eq_map, upper]
  rw [rows, List.flatMap_cons, first, List.map_map, List.flatMap_map, upper]
  simp only [later, List.map_map]
  rfl

lemma upper_congr {size : Nat} {entry entry' : Nat → Nat → β}
    (same : ∀ i < size, ∀ j < size, entry i j = entry' i j) : upper size entry = upper size entry' := by
  refine List.flatMap_congr fun i ofI => List.map_congr_left fun j ofJ => ?_
  exact same i (List.mem_range.mp ofI) j (List.mem_range.mp (List.mem_of_mem_filter ofJ))

/-- The entries for a list of keys are those of its pairs. -/
lemma upper_eq (l : List α) (d : α) (entry : α → α → β) :
    upper l.length (fun i j => entry (l.getD i d) (l.getD j d)) = (pairs l).map fun p => entry p.1 p.2 := by
  induction l with
  | nil => rfl
  | cons a l ih =>
    have row : (List.range l.length).map (fun j => entry a (l.getD j d)) = l.map (entry a) := by
      apply List.ext_getElem
      · simp
      · intro i lt lt'
        rw [List.length_map] at lt'
        simp [lt']
    rw [List.length_cons, upper_succ, pairs, List.map_append, List.map_map]
    exact congrArg₂ (· ++ ·) row ih

end Otap.Lib
