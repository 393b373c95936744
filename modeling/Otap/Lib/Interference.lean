import Mathlib.Tactic

/-!
# Programs under interference

A program is a tree of atomic actions on a shared state. Between any two of them an environment may move the
state, so that a run of a program is an interleaving of its actions with the moves of the environment.

`Prog.wp rely guar post p x` is the assertion for such runs, with the moves of the environment in `rely`: every
action moves the state along `guar`, the program does not abort, and when it returns, `post` holds of the result
and the state. Besides the state it speaks of an auxiliary component that the environment moves along with the
state and the program neither reads nor writes. `Prog.wp.next` and `Prog.wp.rely` are the two kinds of steps of
a run; the other rules derive an assertion from the shape of a program, with `Stable` assertions in between.
-/

namespace Otap.Lib

universe u v w

/-- A program over states `σ`. An action replaces the state, and the rest of the program depends on the state that
    the action has seen. -/
inductive Prog (σ : Type u) (α : Type v) : Type (max u v)
  | ret (a : α)
  | abort
  | step (f : σ → σ) (k : σ → Prog σ α)

namespace Prog

variable {σ : Type u} {τ : Type w} {α β : Type v} {p : Prog σ α} {g : α → Prog σ β}

def bind : Prog σ α → (α → Prog σ β) → Prog σ β
  | ret a, g => g a
  | abort, _ => abort
  | step f k, g => step f fun s => (k s).bind g

instance : Monad (Prog σ) where
  pure := ret
  bind := bind

/-- The next action, alone. -/
def next : Prog σ α → σ → Prog σ α × σ
  | ret a, s => (ret a, s)
  | abort, s => (abort, s)
  | step f k, s => (k s, f s)

/-- The program without interference, `none` if it aborts. -/
def run : Prog σ α → σ → Option (α × σ)
  | ret a, s => some (a, s)
  | abort, _ => none
  | step f k, s => (k s).run (f s)

lemma run_bind {s : σ} :
    (p >>= g).run s = (p.run s).bind fun r => (g r.1).run r.2 := by
  induction p generalizing s with
  | ret a => rfl
  | abort => rfl
  | step f k ih => exact ih s

lemma run_bind_ok {s s' : σ} {b : β} (h : (p >>= g).run s = some (b, s')) :
    ∃ a t, p.run s = some (a, t) ∧ (g a).run t = some (b, s') := by
  rw [run_bind] at h
  obtain ⟨⟨a, t⟩, ran, rest⟩ := Option.bind_eq_some_iff.mp h
  exact ⟨a, t, ran, rest⟩

/-! ## Assertions -/

/-- What holds of a program from a state on, under moves of the environment in `rely`. -/
def wp (rely : σ × τ → σ × τ → Prop) (guar : σ → σ → Prop) (post : α → σ × τ → Prop) :
    Prog σ α → σ × τ → Prop
  | ret a, x => ∀ x', Relation.ReflTransGen rely x x' → post a x'
  | abort, _ => False
  | step f k, x => ∀ x', Relation.ReflTransGen rely x x' →
      guar x'.1 (f x'.1) ∧ (k x'.1).wp rely guar post (f x'.1, x'.2)

/-- The environment preserves the assertion. -/
def Stable (rely : σ × τ → σ × τ → Prop) (P : σ × τ → Prop) : Prop :=
  ∀ x x', rely x x' → P x → P x'

variable {R : σ × τ → σ × τ → Prop} {G : σ → σ → Prop} {Q : α → σ × τ → Prop}
  {P : σ × τ → Prop} {x x' : σ × τ}

lemma Stable.star (stable : Stable R P) (moves : Relation.ReflTransGen R x x') (h : P x) :
    P x' := by
  induction moves with
  | refl => exact h
  | tail _ move ih => exact stable _ _ move ih

/-! ## Steps of a run -/

lemma wp.rely (h : p.wp R G Q x) (move : R x x') :
    p.wp R G Q x' := by
  cases p with
  | ret a => exact fun y moves => h y (.head move moves)
  | abort => exact h
  | step f k => exact fun y moves => h y (.head move moves)

lemma wp.next (h : p.wp R G Q x) :
    (p.next x.1).1.wp R G Q ((p.next x.1).2, x.2) := by
  cases p with
  | ret a => exact h
  | abort => exact h
  | step f k => exact (h x .refl).2

lemma wp.guar (h : p.wp R G Q x) :
    (p.next x.1).2 = x.1 ∨ G x.1 (p.next x.1).2 := by
  cases p with
  | ret a => exact .inl rfl
  | abort => exact h.elim
  | step f k => exact .inr (h x .refl).1

lemma wp.post {a : α} (h : (ret a : Prog σ α).wp R G Q x) : Q a x :=
  h x .refl

lemma stable_wp : Stable R (p.wp R G Q) :=
  fun _ _ move h => h.rely move

/-! ## Rules -/

lemma wp_ret {a : α} (stable : Stable R (Q a)) (h : Q a x) :
    (ret a : Prog σ α).wp R G Q x :=
  fun _ moves => stable.star moves h

/-- An action after which the rest of the program goes on from a stable assertion. -/
lemma wp_step {f : σ → σ} {k : σ → Prog σ α} (stable : Stable R P) (h : P x)
    (next : ∀ s t, P (s, t) → G s (f s) ∧ (k s).wp R G Q (f s, t)) :
    (step f k).wp R G Q x :=
  fun x' moves => next x'.1 x'.2 (stable.star moves h)

lemma wp.mono {Q' : α → σ × τ → Prop} (h : p.wp R G Q x) (weaken : ∀ a x, Q a x → Q' a x) : p.wp R G Q' x := by
  induction p generalizing x with
  | ret a => exact fun x' moves => weaken a x' (h x' moves)
  | abort => exact h
  | step f k ih =>
    intro x' moves
    obtain ⟨moved, rest⟩ := h x' moves
    exact ⟨moved, ih x'.1 rest⟩

lemma wp_bind {Q : β → σ × τ → Prop} (h : p.wp R G (fun a => (g a).wp R G Q) x) :
    (p >>= g).wp R G Q x := by
  induction p generalizing x with
  | ret a => exact h x .refl
  | abort => exact h
  | step f k ih =>
    intro x' moves
    obtain ⟨moved, rest⟩ := h x' moves
    exact ⟨moved, ih x'.1 rest⟩

end Prog

end Otap.Lib
