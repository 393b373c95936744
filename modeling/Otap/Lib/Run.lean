import Mathlib.Tactic

/-!
# Runs of a deterministic machine

A machine is a step function `step : σ → ι → σ`; whatever the environment decides in a step (a call
and its arguments, a clock reading, a random value, a scheduling choice) is part of the input `ι`.
A run from `s` on the inputs `as` ends in `as.foldl step s`. `Along ok step s as` says that every
step of that run meets the side condition `ok`, which sees the state before the step.

`Along.inv` is the invariant rule: what holds initially and is preserved by every step that meets the
side condition holds at the end of every such run, hence in every state reached, because each prefix
of a run is a run (`Along.append`).

`outputs` are the outputs of a run; `run_related` compares two machines through a relation of their states.

`stateAt` is the state before an input of the run; `exists_step` finds the step in which something came about.

The last section is about states that hold lists, which steps append to or update in place.
-/

namespace Otap.Lib

variable {σ ι : Type*} {ok ok' : σ → ι → Prop} {step : σ → ι → σ} {P : σ → Prop}

/-- Every step of the run from `s` on `as` meets the side condition `ok`. -/
def Along (ok : σ → ι → Prop) (step : σ → ι → σ) : σ → List ι → Prop
  | _, [] => True
  | s, a :: as => ok s a ∧ Along ok step (step s a) as

instance Along.decidable [∀ s a, Decidable (ok s a)] :
    ∀ s as, Decidable (Along ok step s as)
  | _, [] => .isTrue trivial
  | s, a :: as =>
    have := Along.decidable (step s a) as
    inferInstanceAs (Decidable (ok s a ∧ Along ok step (step s a) as))

/-- A run that continues another one meets the condition on both parts. -/
lemma Along.append {s as bs} :
    Along ok step s (as ++ bs) ↔ Along ok step s as ∧ Along ok step (as.foldl step s) bs := by
  induction as generalizing s with
  | nil => simp [Along]
  | cons a as ih => simp [Along, ih, and_assoc]

/-- The invariant rule. -/
lemma Along.inv {s as} (init : P s) (pres : ∀ s a, P s → ok s a → P (step s a))
    (run : Along ok step s as) : P (as.foldl step s) := by
  induction as generalizing s with
  | nil => exact init
  | cons a as ih =>
    obtain ⟨h, run⟩ := run
    exact ih (pres s a init h) run

/-- A condition on the inputs alone holds in every step. -/
lemma Along.and_forall {good : ι → Prop} {s as} (run : Along ok step s as) (all : ∀ a ∈ as, good a) :
    Along (fun s a => ok s a ∧ good a) step s as := by
  induction as generalizing s with
  | nil => trivial
  | cons a as ih =>
    exact ⟨⟨run.1, all a List.mem_cons_self⟩, ih run.2 fun b mem => all b (List.mem_cons_of_mem a mem)⟩

/-- The invariant rule without a side condition. -/
lemma run_inv {s} (as : List ι) (init : P s) (pres : ∀ s a, P s → P (step s a)) :
    P (as.foldl step s) := by
  induction as generalizing s with
  | nil => exact init
  | cons a as ih => exact ih (pres s a init)

/-! ## Outputs -/

section Outputs

variable {τ ο : Type*} {machine : σ → ι → σ × ο} {machine' : τ → ι → τ × ο}

/-- What a machine with outputs puts out on the inputs, in order. -/
def outputs (machine : σ → ι → σ × ο) : σ → List ι → List ο
  | _, [] => []
  | s, a :: as => (machine s a).2 :: outputs machine (machine s a).1 as

/-- Machines in related states that the steps on admitted inputs keep related, with the same output, put out the
    same and end in related states. -/
lemma run_related {R : σ → τ → Prop} {good : ι → Prop}
    (sim : ∀ s t a, good a → R s t → R (machine s a).1 (machine' t a).1 ∧ (machine s a).2 = (machine' t a).2) {s t}
    (rel : R s t) {as : List ι} (all : ∀ a ∈ as, good a) :
    outputs machine s as = outputs machine' t as ∧
      R (as.foldl (fun s a => (machine s a).1) s) (as.foldl (fun t a => (machine' t a).1) t) := by
  induction as generalizing s t with
  | nil => exact ⟨rfl, rel⟩
  | cons a as ih =>
    obtain ⟨next, same⟩ := sim s t a (all a List.mem_cons_self) rel
    obtain ⟨later, ends⟩ := ih next fun b mem => all b (List.mem_cons_of_mem a mem)
    exact ⟨by rw [outputs, outputs, same, later], ends⟩

end Outputs

/-! ## Positions in a run -/

/-- The state before input `n`. -/
def stateAt (step : σ → ι → σ) (s : σ) (as : List ι) (n : Nat) : σ :=
  (as.take n).foldl step s

lemma stateAt_succ {s as n} {a : ι} (got : as[n]? = some a) :
    stateAt step s as (n + 1) = step (stateAt step s as n) a := by
  rw [stateAt, List.take_add_one, got, List.foldl_append]
  rfl

lemma stateAt_of_length_le {s as n} (le : as.length ≤ n) : stateAt step s as n = as.foldl step s := by
  rw [stateAt, List.take_of_length_le le]

/-- Past the last input nothing changes. -/
lemma stateAt_succ_of_none {s as n} (none : as[n]? = none) : stateAt step s as (n + 1) = stateAt step s as n := by
  have short : as.length ≤ n := List.getElem?_eq_none_iff.mp none
  rw [stateAt_of_length_le (Nat.le_succ_of_le short), stateAt_of_length_le short]

lemma Along.stateAt {s as n} {a : ι} (run : Along ok step s as) (got : as[n]? = some a) :
    ok (stateAt step s as n) a := by
  obtain ⟨lt, rfl⟩ := List.getElem?_eq_some_iff.mp got
  rw [← List.take_append_drop n as, List.drop_eq_getElem_cons lt] at run
  exact (Along.append.mp run).2.1

/-- What the steps of a run preserve holds from some position on. -/
lemma stateAt_inv {s as m n}
    (pres : ∀ k a, as[k]? = some a → P (stateAt step s as k) → P (step (stateAt step s as k) a)) (le : m ≤ n)
    (holds : P (stateAt step s as m)) : P (stateAt step s as n) := by
  induction n, le using Nat.le_induction with
  | base => exact holds
  | succ n _ ih =>
    cases got : as[n]? with
    | none => rwa [stateAt_succ_of_none got]
    | some a =>
      rw [stateAt_succ got]
      exact pres n a got ih

/-- So does what every step preserves. -/
lemma stateAt_keeps {s as m n} (pres : ∀ s a, P s → P (step s a)) (le : m ≤ n)
    (holds : P (stateAt step s as m)) : P (stateAt step s as n) :=
  stateAt_inv (fun _ a _ => pres _ a) le holds

/-- What does not hold initially came about in some step. -/
lemma exists_step {s as n} (init : ¬ P s) (holds : P (stateAt step s as n)) :
    ∃ k < n, ∃ a, as[k]? = some a ∧ ¬ P (stateAt step s as k) ∧ P (step (stateAt step s as k) a) := by
  induction n with
  | zero => exact absurd holds init
  | succ n ih =>
    by_cases before : P (stateAt step s as n)
    case pos =>
      obtain ⟨k, lt, rest⟩ := ih before
      exact ⟨k, by omega, rest⟩
    case neg =>
      cases got : as[n]? with
      | none => exact absurd (stateAt_succ_of_none got ▸ holds) before
      | some a =>
        rw [stateAt_succ got] at holds
        exact ⟨n, Nat.lt_succ_self n, a, got, before, holds⟩

section Lists

variable {α β : Type*} {l : List α} {i : Nat} {a b : α}

/-- A property of the members of a list by position, with one more member. -/
lemma forall_getElem?_concat {P : Nat → α → Prop} (h : ∀ k b, l[k]? = some b → P k b)
    (last : P l.length a) : ∀ k b, (l ++ [a])[k]? = some b → P k b := by
  intro k b got
  rcases Nat.lt_trichotomy k l.length with lt | eq | gt
  · rw [List.getElem?_append_left lt] at got
    exact h k b got
  · subst eq
    rw [List.getElem?_concat_length] at got
    rw [← Option.some.inj got]
    exact last
  · rw [List.getElem?_eq_none (by rw [List.length_append, List.length_singleton]; omega)] at got
    cases got

lemma getElem?_concat_cases (l : List α) (a : α) (i : Nat) :
    (l ++ [a])[i]? = l[i]? ∨ l.length = i ∧ (l ++ [a])[i]? = some a := by
  rcases Nat.lt_trichotomy i l.length with lt | eq | gt
  · exact .inl (List.getElem?_append_left lt)
  · subst eq
    exact .inr ⟨rfl, List.getElem?_concat_length⟩
  · refine .inl ?_
    rw [List.getElem?_eq_none gt.le, List.getElem?_eq_none (by rw [List.length_append, List.length_singleton]; omega)]

lemma getElem?_set_cases {k : Nat} (got : l[k]? = some a) (b : α) (i : Nat) :
    (l.set k b)[i]? = l[i]? ∨ k = i ∧ (l.set k b)[i]? = some b := by
  by_cases same : k = i
  case pos =>
    subst same
    obtain ⟨lt, _⟩ := List.getElem?_eq_some_iff.mp got
    exact .inr ⟨rfl, List.getElem?_set_self lt⟩
  case neg => exact .inl (List.getElem?_set_ne same)

/-- Members that a function without repetitions maps to the same value are at the same position. -/
lemma getElem?_inj_of_nodup_map {f : α → β} (nodup : (l.map f).Nodup) {k : Nat} (got : l[i]? = some a)
    (got' : l[k]? = some b) (same : f a = f b) : i = k := by
  obtain ⟨lt, _⟩ := List.getElem?_eq_some_iff.mp got
  refine (List.getElem?_inj (by rwa [List.length_map]) nodup).mp ?_
  rw [List.getElem?_map, List.getElem?_map, got, got', Option.map_some, Option.map_some, same]

/-- Every member of a list survives the replacement of one of them by a related one. -/
lemma exists_mem_set {R : α → α → Prop} (refl : ∀ a, R a a) (got : l[i]? = some a) (rel : R a b) :
    ∀ c ∈ l, ∃ c' ∈ l.set i b, R c c' := by
  intro c mem
  obtain ⟨k, at_k⟩ := List.mem_iff_getElem?.mp mem
  obtain ⟨lt, _⟩ := List.getElem?_eq_some_iff.mp got
  by_cases eq : i = k
  case pos =>
    subst eq
    have same : a = c := Option.some.inj (got.symm.trans at_k)
    exact ⟨b, List.mem_set lt b, same ▸ rel⟩
  case neg =>
    refine ⟨c, List.mem_iff_getElem?.mpr ⟨k, ?_⟩, refl c⟩
    rw [List.getElem?_set_ne eq]
    exact at_k

lemma map_set_self {f : α → β} (got : l[i]? = some a) (same : f b = f a) :
    (l.set i b).map f = l.map f := by
  obtain ⟨lt, eq⟩ := List.getElem?_eq_some_iff.mp got
  have at_i : f b = (l.map f).get ⟨i, by rwa [List.length_map]⟩ := by
    rw [List.get_eq_getElem, List.getElem_map, eq, same]
  rw [List.map_set, at_i, List.get_eq_getElem, List.set_getElem_self]

end Lists

end Otap.Lib
