import Mathlib.Tactic

/-!
# Systems whose steps commute

A step function is partial: `step s l = none` says that the label `l` is not enabled in `s`. In a `Commuting` system
two enabled labels can be fired in either order, and end in the same state; this is asked of the states of an invariant
only, which the steps keep.

If one order of firing leads to a state in which nothing is enabled, then every order does: in the same number of
steps, and to the same state (`Steps.strip`). A schedule is a list of labels of which those that are not enabled have no
effect (`runSchedule`). `runSchedule_reaches` is the safety part, that no schedule leaves the way to that state, and
`runSchedule_rounds` the progress part: a schedule of as many rounds as there are steps, each of which tries every
label that can be enabled, ends there.
-/

namespace Otap.Lib

variable {S L : Type*} {inv : S → Prop} {step : S → L → Option S} {s a t : S} {l : L} {n : Nat}

/-- In the states of the invariant, of two labels that are enabled each stays so when the other is fired, and the order
    makes no difference. -/
structure Commuting (inv : S → Prop) (step : S → L → Option S) : Prop where
  keeps : ∀ {s a : S} {l : L}, inv s → step s l = some a → inv a
  diamond : ∀ {s a b : S} {l m : L}, inv s → l ≠ m → step s l = some a → step s m = some b →
    ∃ c, step a m = some c ∧ step b l = some c

/-- `n` steps lead from one state to the other. -/
inductive Steps (step : S → L → Option S) : Nat → S → S → Prop
  | refl (s : S) : Steps step 0 s s
  | cons {n : Nat} {s a t : S} {l : L} : step s l = some a → Steps step n a t → Steps step (n + 1) s t

/-- No label is enabled. -/
def Stuck (step : S → L → Option S) (s : S) : Prop :=
  ∀ l, step s l = none

lemma Steps.single (fired : step s l = some a) : Steps step 1 s a :=
  .cons fired (.refl a)

lemma Steps.trans {m n : Nat} {s t u : S} (first : Steps step m s t) (second : Steps step n t u) :
    Steps step (m + n) s u := by
  induction first with
  | refl s =>
    rw [Nat.zero_add]
    exact second
  | cons fired _ ih =>
    rw [Nat.add_right_comm]
    exact .cons fired (ih second)

/-- Two counted runs in a row, with their total. -/
lemma Steps.append {k m n : Nat} {s t u : S} (first : Steps step m s t) (second : Steps step n t u)
    (total : m + n = k) : Steps step k s u :=
  total ▸ first.trans second

lemma Steps.keeps (keeps : ∀ {s a : S} {l : L}, inv s → step s l = some a → inv a) (holds : inv s)
    (steps : Steps step n s t) : inv t := by
  induction steps with
  | refl s => exact holds
  | cons fired _ ih => exact ih (keeps holds fired)

lemma Steps.eq_of_stuck (stuck : Stuck step s) (steps : Steps step n s t) : s = t := by
  cases steps with
  | refl => rfl
  | cons fired _ =>
    rw [stuck] at fired
    cases fired

/-- A step from the start of a run that ends in a stuck state is a step of it, up to the order. -/
lemma Steps.strip (comm : Commuting inv step) (holds : inv s)
    (fired : step s l = some a) (steps : Steps step n s t) (stuck : Stuck step t) :
    ∃ m, n = m + 1 ∧ Steps step m a t := by
  induction steps generalizing a with
  | refl s =>
    rw [stuck] at fired
    cases fired
  | @cons n s b t m first rest ih =>
    by_cases same : l = m
    · subst same
      cases fired.symm.trans first
      exact ⟨n, rfl, rest⟩
    · obtain ⟨c, left, right⟩ := comm.diamond holds same fired first
      obtain ⟨k, rfl, steps⟩ := ih (comm.keeps holds first) right stuck
      exact ⟨k + 1, rfl, .cons left steps⟩

/-! ## Schedules -/

/-- The state after a label was tried. -/
def tryStep (step : S → L → Option S) (s : S) (l : L) : S :=
  (step s l).getD s

def runSchedule (step : S → L → Option S) (s : S) (schedule : List L) : S :=
  schedule.foldl (tryStep step) s

lemma tryStep_of_some (fired : step s l = some a) : tryStep step s l = a := by
  rw [tryStep, fired, Option.getD_some]

lemma tryStep_of_none (disabled : step s l = none) : tryStep step s l = s := by
  rw [tryStep, disabled, Option.getD_none]

/-- The labels of a run are a schedule. -/
lemma Steps.exists_schedule (steps : Steps step n s t) :
    ∃ schedule : List L, runSchedule step s schedule = t := by
  induction steps with
  | refl s => exact ⟨[], rfl⟩
  | @cons n s a t l fired _ ih =>
    obtain ⟨schedule, ends⟩ := ih
    refine ⟨l :: schedule, ?_⟩
    rw [runSchedule, List.foldl_cons, tryStep_of_some fired]
    exact ends

/-- Every schedule stays on a way to the final state, and takes no step more than the given run. -/
lemma runSchedule_reaches (comm : Commuting inv step) (holds : inv s) (steps : Steps step n s t)
    (stuck : Stuck step t) (schedule : List L) : ∃ m ≤ n, Steps step m (runSchedule step s schedule) t := by
  induction schedule generalizing n s with
  | nil => exact ⟨n, le_rfl, steps⟩
  | cons l schedule ih =>
    rw [runSchedule, List.foldl_cons, ← runSchedule]
    cases fired : step s l with
    | none =>
      rw [tryStep_of_none fired]
      exact ih holds steps
    | some a =>
      obtain ⟨k, rfl, rest⟩ := steps.strip comm holds fired stuck
      rw [tryStep_of_some fired]
      obtain ⟨m, le, rest⟩ := ih (comm.keeps holds fired) rest
      exact ⟨m, le.trans (Nat.le_succ k), rest⟩

/-- A round that tries a label that is enabled makes progress. -/
lemma runSchedule_round (comm : Commuting inv step) (holds : inv s)
    (fired : step s l = some a) (steps : Steps step (n + 1) s t) (stuck : Stuck step t) {round : List L}
    (tried : l ∈ round) : ∃ m ≤ n, Steps step m (runSchedule step s round) t := by
  induction round with
  | nil => cases tried
  | cons x round ih =>
    rw [runSchedule, List.foldl_cons, ← runSchedule]
    cases first : step s x with
    | some b =>
      obtain ⟨k, eq, rest⟩ := steps.strip comm holds first stuck
      cases eq
      rw [tryStep_of_some first]
      exact runSchedule_reaches comm (comm.keeps holds first) rest stuck round
    | none =>
      rw [tryStep_of_none first]
      cases List.mem_cons.mp tried with
      | inl same =>
        rw [← same, fired] at first
        cases first
      | inr tried => exact ih tried

lemma runSchedule_keeps (keeps : ∀ {s a : S} {l : L}, inv s → step s l = some a → inv a) (holds : inv s)
    (schedule : List L) : inv (runSchedule step s schedule) := by
  induction schedule generalizing s with
  | nil => exact holds
  | cons l schedule ih =>
    rw [runSchedule, List.foldl_cons, ← runSchedule]
    cases fired : step s l with
    | none =>
      rw [tryStep_of_none fired]
      exact ih holds
    | some a =>
      rw [tryStep_of_some fired]
      exact ih (keeps holds fired)

/-- A measure that no step increases, and that a label decreases until it is zero, decreases with every turn of the
    label. -/
lemma runSchedule_rank [BEq L] [LawfulBEq L] {rank : S → Nat}
    (keeps : ∀ {s a : S} {m : L}, inv s → step s m = some a → inv a)
    (le : ∀ {s a : S} {m : L}, inv s → step s m = some a → rank a ≤ rank s)
    (lt : ∀ {s : S}, inv s → 0 < rank s → ∃ a, step s l = some a ∧ rank a < rank s) (holds : inv s)
    (schedule : List L) : rank (runSchedule step s schedule) ≤ rank s - schedule.count l := by
  induction schedule generalizing s with
  | nil => exact le_rfl
  | cons m schedule ih =>
    rw [runSchedule, List.foldl_cons, ← runSchedule]
    have next : inv (tryStep step s m) ∧ rank (tryStep step s m) ≤ rank s := by
      cases fired : step s m with
      | none =>
        rw [tryStep_of_none fired]
        exact ⟨holds, le_rfl⟩
      | some a =>
        rw [tryStep_of_some fired]
        exact ⟨keeps holds fired, le holds fired⟩
    have turn : m = l → 0 < rank s → rank (tryStep step s m) < rank s := by
      rintro rfl pos
      obtain ⟨a, fired, less⟩ := lt holds pos
      rwa [tryStep_of_some fired]
    have rest := ih next.1
    rw [List.count_cons]
    split
    case isTrue same =>
      have less := turn (eq_of_beq same)
      omega
    case isFalse => omega

/-- As many rounds as there are steps end in the final state. -/
lemma runSchedule_rounds (comm : Commuting inv step) (holds : inv s) (steps : Steps step n s t)
    (stuck : Stuck step t) {rounds : List (List L)} (enough : n ≤ rounds.length)
    (full : ∀ round ∈ rounds, ∀ {s a : S} {l : L}, inv s → step s l = some a → l ∈ round) :
    runSchedule step s rounds.flatten = t := by
  induction rounds generalizing n s with
  | nil =>
    cases Nat.le_zero.mp enough
    cases steps
    rfl
  | cons round rounds ih =>
    rw [List.flatten_cons, runSchedule, List.foldl_append, ← runSchedule, ← runSchedule]
    have later : ∀ r ∈ rounds, ∀ {s a : S} {l : L}, inv s → step s l = some a → l ∈ r :=
      fun r mem => full r (List.mem_cons_of_mem _ mem)
    cases steps with
    | refl =>
      obtain ⟨m, le, steps⟩ := runSchedule_reaches comm holds (.refl _) stuck round
      exact ih (runSchedule_keeps comm.keeps holds round) steps (le.trans (Nat.zero_le _)) later
    | @cons k _ a _ l fired rest =>
      have tried := full round List.mem_cons_self holds fired
      obtain ⟨m, le, steps⟩ := runSchedule_round comm holds fired (.cons fired rest) stuck tried
      exact ih (runSchedule_keeps comm.keeps holds round) steps (le.trans (Nat.le_of_succ_le_succ enough)) later

end Otap.Lib
