import Mathlib.Dynamics.PeriodicPts.Lemmas

/-!
# Xorshift steps

A word is combined with a shifted copy of itself. Such a step is linear over the bits, and the shift is nilpotent: a
word that equals its shifted copy is zero (`eq_zero_of_shiftLeft`, `eq_zero_of_shiftRight`). So the step is injective,
for every width and every distance but zero (`xorShiftLeft_injective`, `xorShiftRight_injective`).

The last section is about the orbits of an injective step on a finite type: they are cycles (`orbit_periodic`), and
different states stay different.
-/

namespace Otap.Lib

variable {w : Nat}

/-- `x ^= x << a`. -/
def xorShiftLeft (a : Nat) (x : BitVec w) : BitVec w :=
  x ^^^ x <<< a

/-- `x ^= x >> a`. -/
def xorShiftRight (a : Nat) (x : BitVec w) : BitVec w :=
  x ^^^ x >>> a

section Words

variable {a : Nat} {x y : BitVec w}

/-- The bits that differ are shifted alike. -/
lemma xor_eq_shifted {u v : BitVec w} (e : x ^^^ u = y ^^^ v) : x ^^^ y = u ^^^ v := by
  have moved : x ^^^ u ^^^ (y ^^^ u) = y ^^^ v ^^^ (y ^^^ u) := by rw [e]
  calc x ^^^ y = x ^^^ u ^^^ (y ^^^ u) := by
        rw [BitVec.xor_comm y u, ← BitVec.xor_assoc, BitVec.xor_assoc x u u, BitVec.xor_self, BitVec.xor_zero]
    _ = y ^^^ v ^^^ (y ^^^ u) := moved
    _ = u ^^^ v := by
        rw [BitVec.xor_comm y v, BitVec.xor_assoc, ← BitVec.xor_assoc y y u, BitVec.xor_self, BitVec.zero_xor,
          BitVec.xor_comm]

lemma eq_zero_of_shiftLeft (pos : 0 < a) (fixed : x <<< a = x) : x = 0#w := by
  have shifted (k : Nat) : x <<< (k * a) = x := by
    induction k with
    | zero => rw [Nat.zero_mul, BitVec.shiftLeft_zero]
    | succ k ih => rw [Nat.succ_mul, BitVec.shiftLeft_add, ih, fixed]
  rw [← shifted w]
  exact BitVec.shiftLeft_eq_zero (Nat.le_mul_of_pos_right w pos)

lemma eq_zero_of_shiftRight (pos : 0 < a) (fixed : x >>> a = x) : x = 0#w := by
  have shifted (k : Nat) : x >>> (k * a) = x := by
    induction k with
    | zero => rw [Nat.zero_mul, BitVec.ushiftRight_zero]
    | succ k ih => rw [Nat.succ_mul, BitVec.shiftRight_add, ih, fixed]
  rw [← shifted w]
  exact BitVec.ushiftRight_eq_zero (Nat.le_mul_of_pos_right w pos)

lemma xorShiftLeft_injective (pos : 0 < a) : Function.Injective (xorShiftLeft a : BitVec w → BitVec w) := by
  intro x y e
  have differ : x ^^^ y = x <<< a ^^^ y <<< a := xor_eq_shifted e
  rw [← BitVec.shiftLeft_xor_distrib] at differ
  exact BitVec.xor_eq_zero_iff.mp (eq_zero_of_shiftLeft pos differ.symm)

lemma xorShiftRight_injective (pos : 0 < a) : Function.Injective (xorShiftRight a : BitVec w → BitVec w) := by
  intro x y e
  have differ : x ^^^ y = x >>> a ^^^ y >>> a := xor_eq_shifted e
  rw [← BitVec.ushiftRight_xor_distrib] at differ
  exact BitVec.xor_eq_zero_iff.mp (eq_zero_of_shiftRight pos differ.symm)

end Words

/-! ## Orbits -/

section Orbits

variable {α : Type*} {f : α → α}

/-- The orbit of an injective step on a finite type is a cycle: it comes back to its start. -/
lemma orbit_periodic [Finite α] (inj : Function.Injective f) (x : α) : ∃ p > 0, ∀ n, f^[n + p] x = f^[n] x := by
  obtain ⟨p, pos, periodic⟩ := Function.mem_periodicPts.mp (inj.mem_periodicPts x)
  refine ⟨p, pos, fun n => ?_⟩
  rw [Function.iterate_add_apply, periodic.eq]

/-- What an injective step keeps in place is reached from itself only. -/
lemma iterate_ne_fixed (inj : Function.Injective f) {x z : α} (fixed : f z = z) (ne : x ≠ z) (n : Nat) :
    f^[n] x ≠ z := by
  intro reached
  rw [← Function.iterate_fixed fixed n] at reached
  exact ne (inj.iterate n reached)

end Orbits

end Otap.Lib
