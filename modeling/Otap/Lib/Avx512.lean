import Mathlib.Tactic

/-!
# Straight-line AVX-512 code

The instructions that vector kernels over arrays of 64-bit words are made of, and their effect. The operands are in
the order of the Go assembler, sources before the destination, so `vpandnq a b dst` is Intel's `VPANDNQ dst, b, a`.

The registers, the arrays and the labels are named by arbitrary types: `V` for vector registers of eight words, `G`
for general-purpose ones, `M` for the arrays that pointers lead to, `L` for labels. Jumps lead forward, and a program
is run by one pass over it (`exec`).

`exec_ops`, `exec_branch` and `exec_flatMap` run a block, a two-way branch and a sequence of blocks.
-/

namespace Otap.Lib.Avx512

variable {V G M L : Type}

/-- The contents of a vector register. -/
abbrev Vec := Fin 8 → BitVec 64

/-- Instructions without jumps. -/
inductive Op (V G M : Type) where
  | load (base : M) (disp : Nat) (dst : V)
  | store (src : V) (base : M) (disp : Nat)
  | movq (imm : BitVec 64) (dst : G)
  | vpbroadcastq (src : G) (dst : V)
  | movl (src dst : G)
  | shrl (imm : Nat) (dst : G)
  | andl (imm : BitVec 32) (dst : G)
  | cmpl (src : G) (imm : BitVec 32)
  | vpandq (a b dst : V)
  | vpandnq (a b dst : V)
  | vzeroupper

/-- Instructions; `load` and `store` are the two forms of `VMOVDQU64`. -/
inductive Instr (V G M L : Type) where
  | op (o : Op V G M)
  | jne (l : L)
  | jmp (l : L)
  | label (l : L)
  | ret

/-- The registers, the zero flag and the arrays, word by word. -/
structure Machine (V G M : Type) where
  vec : V → Vec
  gp : G → BitVec 64
  zf : Bool
  mem : M → Nat → BitVec 64

namespace Machine

section

variable [DecidableEq V] (m : Machine V G M) (r : V) (v : Vec)

def setVec : Machine V G M :=
  { m with vec := Function.update m.vec r v }

@[simp] lemma vec_setVec_self : (m.setVec r v).vec r = v :=
  Function.update_self ..

@[simp] lemma vec_setVec_of_ne {r r' : V} (ne : r' ≠ r) : (m.setVec r v).vec r' = m.vec r' :=
  Function.update_of_ne ne ..

@[simp] lemma gp_setVec : (m.setVec r v).gp = m.gp := rfl

@[simp] lemma mem_setVec : (m.setVec r v).mem = m.mem := rfl

end

/-- The lower half of a register. -/
def gp32 (m : Machine V G M) (r : G) : BitVec 32 :=
  (m.gp r).setWidth 32

@[simp] lemma gp32_setVec [DecidableEq V] (m : Machine V G M) (r : V) (v : Vec) (g : G) :
    (m.setVec r v).gp32 g = m.gp32 g := rfl

section

variable [DecidableEq G] (m : Machine V G M) (r : G) (v : BitVec 32)

/-- Writing the lower half of a register clears the upper one. -/
def setGp32 : Machine V G M :=
  { m with gp := Function.update m.gp r (v.setWidth 64) }

@[simp] lemma gp32_setGp32_self : (m.setGp32 r v).gp32 r = v := by
  have same : (m.setGp32 r v).gp r = v.setWidth 64 := Function.update_self ..
  rw [gp32, same, BitVec.setWidth_setWidth_of_le _ (by decide), BitVec.setWidth_eq]

@[simp] lemma gp_setGp32_of_ne {r r' : G} (ne : r' ≠ r) : (m.setGp32 r v).gp r' = m.gp r' :=
  Function.update_of_ne ne ..

@[simp] lemma vec_setGp32 : (m.setGp32 r v).vec = m.vec := rfl

@[simp] lemma mem_setGp32 : (m.setGp32 r v).mem = m.mem := rfl

end

section

variable (m : Machine V G M) (b : Bool)

def setZf : Machine V G M :=
  { m with zf := b }

@[simp] lemma zf_setZf : (m.setZf b).zf = b := rfl

@[simp] lemma vec_setZf : (m.setZf b).vec = m.vec := rfl

@[simp] lemma gp_setZf : (m.setZf b).gp = m.gp := rfl

@[simp] lemma gp32_setZf (r : G) : (m.setZf b).gp32 r = m.gp32 r := rfl

@[simp] lemma mem_setZf : (m.setZf b).mem = m.mem := rfl

end

/-- Eight words of an array, from the byte `disp` on. -/
def load (m : Machine V G M) (base : M) (disp : Nat) : Vec :=
  fun i => m.mem base (disp / 8 + i)

@[simp] lemma load_setVec [DecidableEq V] (m : Machine V G M) (r : V) (v : Vec) (base : M) (disp : Nat) :
    (m.setVec r v).load base disp = m.load base disp := rfl

section

variable [DecidableEq M] (m : Machine V G M) (base : M) (disp : Nat) (v : Vec)

def store : Machine V G M :=
  { m with
    mem := Function.update m.mem base fun a =>
      if h : disp / 8 ≤ a ∧ a < disp / 8 + 8 then v ⟨a - disp / 8, by omega⟩ else m.mem base a }

@[simp] lemma vec_store : (m.store base disp v).vec = m.vec := rfl

lemma mem_store_self (a : Nat) : (m.store base disp v).mem base a =
    if h : disp / 8 ≤ a ∧ a < disp / 8 + 8 then v ⟨a - disp / 8, by omega⟩ else m.mem base a := by
  simp only [store, Function.update_self]

end

end Machine

variable [DecidableEq V] [DecidableEq G] [DecidableEq M] [DecidableEq L]

/-- The effect of an instruction. -/
def Machine.step (m : Machine V G M) : Op V G M → Machine V G M
  | .load base disp dst => m.setVec dst (m.load base disp)
  | .store src base disp => m.store base disp (m.vec src)
  | .movq imm dst => { m with gp := Function.update m.gp dst imm }
  | .vpbroadcastq src dst => m.setVec dst fun _ => m.gp src
  | .movl src dst => m.setGp32 dst (m.gp32 src)
  | .shrl imm dst =>
    -- a shift by zero leaves the flags alone
    let v := m.gp32 dst >>> imm
    (m.setGp32 dst v).setZf (if imm = 0 then m.zf else v == 0)
  | .andl imm dst =>
    let v := m.gp32 dst &&& imm
    (m.setGp32 dst v).setZf (v == 0)
  | .cmpl src imm => m.setZf (m.gp32 src == imm)
  | .vpandq a b dst => m.setVec dst fun i => m.vec b i &&& m.vec a i
  | .vpandnq a b dst => m.setVec dst fun i => ~~~ m.vec b i &&& m.vec a i
  | .vzeroupper => { m with vec := fun r i => if i < 2 then m.vec r i else 0 }

/-- Run a program; after a jump, the instructions up to its label are skipped. -/
def exec : List (Instr V G M L) → Option L → Machine V G M → Machine V G M
  | [], _, m => m
  | .label l :: is, some l', m => if l = l' then exec is none m else exec is (some l') m
  | _ :: is, some l', m => exec is (some l') m
  | .op o :: is, none, m => exec is none (m.step o)
  | .jne l :: is, none, m => if m.zf then exec is none m else exec is (some l) m
  | .jmp l :: is, none, m => exec is (some l) m
  | .label _ :: is, none, m => exec is none m
  | .ret :: _, none, m => m

/-- A block of instructions without jumps. -/
def block (ops : List (Op V G M)) : List (Instr V G M L) :=
  ops.map .op

lemma exec_ops (ops : List (Op V G M)) (rest : List (Instr V G M L)) (m : Machine V G M) :
    exec (block ops ++ rest) none m = exec rest none (ops.foldl Machine.step m) := by
  induction ops generalizing m with
  | nil => rfl
  | cons o ops ih => exact ih (m.step o)

lemma skip_ops (ops : List (Op V G M)) (rest : List (Instr V G M L)) (l : L) (m : Machine V G M) :
    exec (block ops ++ rest) (some l) m = exec rest (some l) m := by
  induction ops with
  | nil => rfl
  | cons o ops ih => exact ih

/-- A two-way branch: the first block if the last comparison found equality, and the second one otherwise. -/
def branch (equal other : List (Op V G M)) (skip done : L) : List (Instr V G M L) :=
  .jne skip :: (block equal ++ (.jmp done :: .label skip :: (block other ++ [.label done])))

lemma exec_branch (equal other : List (Op V G M)) {skip done : L} (ne : skip ≠ done)
    (rest : List (Instr V G M L)) (m : Machine V G M) :
    exec (branch equal other skip done ++ rest) none m =
      exec rest none ((if m.zf then equal else other).foldl Machine.step m) := by
  rw [branch, List.cons_append, exec]
  split
  case isTrue =>
    rw [List.append_assoc, exec_ops, List.cons_append, exec, List.cons_append, exec, if_neg ne,
      List.append_assoc, skip_ops, List.singleton_append, exec, if_pos rfl]
  case isFalse =>
    rw [List.append_assoc, skip_ops, List.cons_append, exec, List.cons_append, exec, if_pos rfl,
      List.append_assoc, exec_ops, List.singleton_append, exec]
    · rintro l ⟨⟩

/-- A sequence of blocks, each with an effect of its own. -/
lemma exec_flatMap {ι : Type} (code : ι → List (Instr V G M L)) (effect : Machine V G M → ι → Machine V G M)
    (run : ∀ i rest m, exec (code i ++ rest) none m = exec rest none (effect m i))
    (l : List ι) (rest : List (Instr V G M L)) (m : Machine V G M) :
    exec (l.flatMap code ++ rest) none m = exec rest none (l.foldl effect m) := by
  induction l generalizing m with
  | nil => rfl
  | cons i l ih => rw [List.flatMap_cons, List.append_assoc, run, ih, List.foldl_cons]

end Otap.Lib.Avx512
