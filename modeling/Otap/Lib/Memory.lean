import Otap.Lib.Bytes
import Mathlib.Data.List.GetD

/-!
# Byte memories

A memory is the function from addresses to bytes. `load` and `store` access a run of bytes, `word32` and
`storeWord32` a little-endian word of 32 bits. Reading after writing gives what was written, and an access
outside of a written range does not see the write; the second kind of fact is stated through `AgreeOn`, which
says that two memories have the same bytes in a range.

Addresses are aligned by clearing their low bits, which rounds them down (`toNat_and_not_two_pow_sub_one`).
-/

namespace Otap.Lib

/-- Clearing the low `k` bits shifts them out. -/
lemma and_not_two_pow_sub_one {w : Nat} (x : BitVec w) (k : Nat) :
    x &&& ~~~BitVec.ofNat w (2 ^ k - 1) = x >>> k <<< k := by
  apply BitVec.eq_of_getLsbD_eq
  intro i lt
  rw [BitVec.getLsbD_and, BitVec.getLsbD_not, BitVec.getLsbD_ofNat, Nat.testBit_two_pow_sub_one,
    BitVec.getLsbD_shiftLeft]
  by_cases low : i < k
  case pos => simp [low]
  case neg => simp [low, lt, Nat.add_sub_of_le (not_lt.mp low)]

lemma toNat_and_not_two_pow_sub_one {w : Nat} (x : BitVec w) (k : Nat) :
    (x &&& ~~~BitVec.ofNat w (2 ^ k - 1)).toNat = x.toNat / 2 ^ k * 2 ^ k := by
  have le := Nat.div_mul_le_self x.toNat (2 ^ k)
  rw [and_not_two_pow_sub_one, BitVec.toNat_shiftLeft, BitVec.toNat_ushiftRight,
    Nat.shiftRight_eq_div_pow, Nat.shiftLeft_eq, Nat.mod_eq_of_lt (by omega)]

abbrev Memory := Nat → UInt8

namespace Memory

variable {m m' m'' : Memory} {addr lo hi : Nat}

/-- The `size` bytes from `addr` on. -/
def load (m : Memory) (addr size : Nat) : Bytes :=
  (List.range size).map fun i => m (addr + i)

/-- The bytes written from `addr` on. -/
def store (m : Memory) (addr : Nat) (bytes : Bytes) : Memory :=
  fun a => if addr ≤ a then bytes.getD (a - addr) (m a) else m a

def word32 (m : Memory) (addr : Nat) : UInt32 :=
  UInt32.ofNat (ofBE (m.load addr 4).reverse)

def storeWord32 (m : Memory) (addr : Nat) (value : UInt32) : Memory :=
  m.store addr (toBE 4 value.toNat).reverse

/-- The memories have the same bytes from `lo` up to `hi`. -/
def AgreeOn (lo hi : Nat) (m m' : Memory) : Prop :=
  ∀ a, lo ≤ a → a < hi → m' a = m a

/-! ## Memories that agree -/

lemma AgreeOn.refl : AgreeOn lo hi m m :=
  fun _ _ _ => rfl

lemma AgreeOn.mono {lo' hi' : Nat} (agree : AgreeOn lo hi m m') (le : lo ≤ lo') (le' : hi' ≤ hi) :
    AgreeOn lo' hi' m m' :=
  fun a h h' => agree a (le.trans h) (lt_of_lt_of_le h' le')

lemma AgreeOn.load {size : Nat} (agree : AgreeOn lo hi m m') (le : lo ≤ addr)
    (le' : addr + size ≤ hi) : m'.load addr size = m.load addr size := by
  apply List.map_congr_left
  intro i mem
  have lt : i < size := List.mem_range.mp mem
  exact agree (addr + i) (by omega) (by omega)

lemma AgreeOn.word32 (agree : AgreeOn lo hi m m') (le : lo ≤ addr) (le' : addr + 4 ≤ hi) :
    m'.word32 addr = m.word32 addr := by
  unfold Memory.word32
  rw [agree.load le le']

/-! ## Reading after writing -/

@[simp] lemma length_load {size : Nat} : (m.load addr size).length = size := by
  rw [load, List.length_map, List.length_range]

lemma load_succ {size : Nat} : m.load addr (size + 1) = m.load addr size ++ [m (addr + size)] := by
  rw [load, List.range_succ, List.map_append, List.map_singleton, ← load]

lemma store_apply_of_outside {bytes : Bytes} {a : Nat} (out : a < addr ∨ addr + bytes.length ≤ a) :
    m.store addr bytes a = m a := by
  unfold store
  split
  case isTrue le => exact List.getD_eq_default _ _ (by omega)
  case isFalse => rfl

lemma load_store {bytes : Bytes} : (m.store addr bytes).load addr bytes.length = bytes := by
  apply List.ext_getElem
  · exact length_load
  · intro i _ lt
    simp only [load, List.getElem_map, List.getElem_range, store]
    rw [if_pos (Nat.le_add_right addr i), Nat.add_sub_cancel_left, List.getD_eq_getElem _ _ lt]

lemma word32_storeWord32 {value : UInt32} : (m.storeWord32 addr value).word32 addr = value := by
  have stored : (m.storeWord32 addr value).load addr 4 = (toBE 4 value.toNat).reverse := by
    have h := @load_store m addr (toBE 4 value.toNat).reverse
    rwa [List.length_reverse, length_toBE] at h
  rw [word32, stored, List.reverse_reverse, ofBE_toBE value.toNat_lt, UInt32.ofNat_toNat]

/-! ## Writing elsewhere -/

lemma agreeOn_store {bytes : Bytes} (out : hi ≤ addr ∨ addr + bytes.length ≤ lo) :
    AgreeOn lo hi m (m.store addr bytes) :=
  fun _ _ _ => store_apply_of_outside (by omega)

lemma agreeOn_storeWord32 {value : UInt32} (out : hi ≤ addr ∨ addr + 4 ≤ lo) :
    AgreeOn lo hi m (m.storeWord32 addr value) :=
  agreeOn_store (by rwa [List.length_reverse, length_toBE])

end Memory

end Otap.Lib
