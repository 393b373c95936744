import Otap.Lib.Interference

/-!
# Footprints of programs

What a program over a state of cells can return and which cells it can touch, on any of its paths: an environment
may move the state in any way between two actions. A program is `Within A` if no action changes a cell outside of
`A`, and neither the cells that an action writes nor the way the program goes on depends on one.
-/

namespace Otap.Lib.Prog

universe u v

variable {σ : Type u} {α β γ : Type v}

/-! ## Results -/

/-- Some path of the program ends with the result. -/
inductive Returns : Prog σ α → α → Prop
  | ret {a : α} : Returns (.ret a) a
  | step {f : σ → σ} {k : σ → Prog σ α} {a : α} (s : σ) (rest : Returns (k s) a) : Returns (.step f k) a

lemma returns_ret {a b : α} : Returns (ret a : Prog σ α) b ↔ a = b := by
  constructor
  · intro h
    cases h
    rfl
  · rintro rfl
    exact .ret

lemma not_returns_abort {a : α} : ¬ Returns (abort : Prog σ α) a := by
  intro h
  cases h

lemma returns_step {f : σ → σ} {k : σ → Prog σ α} {a : α} : Returns (step f k) a ↔ ∃ s, Returns (k s) a := by
  constructor
  · intro h
    cases h with
    | step s rest => exact ⟨s, rest⟩
  · rintro ⟨s, rest⟩
    exact .step s rest

lemma bind_bind {p : Prog σ α} {g : α → Prog σ β} {h : β → Prog σ γ} :
    p >>= g >>= h = p >>= fun a => g a >>= h := by
  induction p with
  | ret a => rfl
  | abort => rfl
  | step f k ih => exact congrArg (step f) (funext ih)

lemma returns_bind {p : Prog σ α} {g : α → Prog σ β} {b : β} :
    Returns (p >>= g) b ↔ ∃ a, Returns p a ∧ Returns (g a) b := by
  induction p with
  | ret a =>
    constructor
    · exact fun h => ⟨a, .ret, h⟩
    · rintro ⟨a', first, rest⟩
      cases first
      exact rest
  | abort =>
    constructor
    · exact fun h => absurd h not_returns_abort
    · rintro ⟨a, first, -⟩
      exact absurd first not_returns_abort
  | step f k ih =>
    change Returns (step f fun s => k s >>= g) b ↔ _
    rw [returns_step]
    constructor
    · rintro ⟨s, h⟩
      obtain ⟨a, first, rest⟩ := (ih s).mp h
      exact ⟨a, .step s first, rest⟩
    · rintro ⟨a, first, rest⟩
      obtain ⟨s, first⟩ := returns_step.mp first
      exact ⟨s, (ih s).mpr ⟨a, first, rest⟩⟩

/-! ## Cells -/

variable {ι : Type u} {κ : Type u} {A : Set ι}

/-- On every path the program reads and writes cells of `A` only. -/
def Within (A : Set ι) : Prog (ι → κ) α → Prop
  | ret _ => True
  | abort => True
  | step f k =>
    (∀ s, ∀ i ∉ A, f s i = s i) ∧
    (∀ s s', (∀ i ∈ A, s i = s' i) → (∀ i ∈ A, f s i = f s' i) ∧ k s = k s') ∧
    ∀ s, (k s).Within A

lemma Within.bind {p : Prog (ι → κ) α} {g : α → Prog (ι → κ) β} (first : p.Within A)
    (rest : ∀ a, Returns p a → (g a).Within A) : (p >>= g).Within A := by
  induction p with
  | ret a => exact rest a .ret
  | abort => exact trivial
  | step f k ih =>
    obtain ⟨writes, reads, within⟩ := first
    refine ⟨writes, fun s s' agree => ⟨(reads s s' agree).1, ?_⟩, fun s => ?_⟩
    · exact congrArg (Prog.bind · g) (reads s s' agree).2
    · exact ih s (within s) fun a h => rest a (.step s h)

/-- What a program goes on with stays within its cells. -/
lemma Within.of_bind {p : Prog (ι → κ) α} {g : α → Prog (ι → κ) β} {a : α} (within : (p >>= g).Within A)
    (first : Returns p a) : (g a).Within A := by
  induction first with
  | ret => exact within
  | step s _ ih => exact ih (within.2.2 s)

end Otap.Lib.Prog
