import Otap.Lib.Bytes

/-!
# Records of a fixed layout

A buffer of a fixed size in which every field has its place. `assemble` copies fields into a buffer of zeros, one after
the other. Where the fields are laid out apart from each other (`Laid`), every field is read back from its place
(`slice_assemble`), and fields that are taken from a buffer restore it up to the bytes that no field covers
(`assemble_taken`).
-/

namespace Otap.Lib

variable {buf : Bytes}

/-! ## Slices -/

/-- `buf[lo..hi]`. -/
def slice (buf : Bytes) (lo hi : Nat) : Bytes :=
  (buf.drop lo).take (hi - lo)

/-- `buf[off..off + src.len()].copy_from_slice(src)`. -/
def put (buf : Bytes) (off : Nat) (src : Bytes) : Bytes :=
  buf.take off ++ src ++ buf.drop (off + src.length)

lemma getElem?_slice (buf : Bytes) (lo hi i : Nat) :
    (slice buf lo hi)[i]? = if i < hi - lo then buf[lo + i]? else none := by
  rw [slice, List.getElem?_take, List.getElem?_drop]

lemma getElem?_of_slice {i : Nat} {b : UInt8} (h : slice buf i (i + 1) = [b]) : buf[i]? = some b := by
  have first := getElem?_slice buf i (i + 1) 0
  rwa [h, if_pos (by omega), List.getElem?_cons_zero, eq_comm] at first

lemma length_slice {lo hi : Nat} (fits : hi ≤ buf.length) : (slice buf lo hi).length = hi - lo := by
  rw [slice, List.length_take, List.length_drop]
  omega

lemma length_put {off : Nat} {src : Bytes} (fits : off + src.length ≤ buf.length) :
    (put buf off src).length = buf.length := by
  rw [put, List.length_append, List.length_append, List.length_take, List.length_drop]
  omega

lemma getElem?_put_of_covered {off : Nat} {src : Bytes} (fits : off + src.length ≤ buf.length) {i : Nat}
    (lo : off ≤ i) (hi : i < off + src.length) : (put buf off src)[i]? = src[i - off]? := by
  have front : (buf.take off).length = off := by
    rw [List.length_take]
    omega
  rw [put, List.append_assoc, List.getElem?_append_right (by omega), front, List.getElem?_append_left (by omega)]

lemma getElem?_put_of_gap {off : Nat} {src : Bytes} (fits : off + src.length ≤ buf.length) {i : Nat}
    (gap : i < off ∨ off + src.length ≤ i) : (put buf off src)[i]? = buf[i]? := by
  have front : (buf.take off).length = off := by
    rw [List.length_take]
    omega
  rw [put, List.append_assoc]
  cases gap with
  | inl before => rw [List.getElem?_append_left (by omega), List.getElem?_take, if_pos before]
  | inr after =>
    rw [List.getElem?_append_right (by omega), front, List.getElem?_append_right (by omega), List.getElem?_drop]
    congr 1
    omega

/-! ## Layouts -/

/-- The bytes `src` with their place in a buffer. -/
structure Placed where
  off : Nat
  src : Bytes

def Placed.stop (f : Placed) : Nat :=
  f.off + f.src.length

/-- The field covers the byte at an offset. -/
def Placed.Covers (f : Placed) (i : Nat) : Prop :=
  f.off ≤ i ∧ i < f.stop

/-- The place of the field holds its bytes. -/
def Placed.TakenFrom (f : Placed) (buf : Bytes) : Prop :=
  f.src = slice buf f.off f.stop

/-- The fields copied into a buffer, in turn. -/
def copyAll (buf : Bytes) (fields : List Placed) : Bytes :=
  fields.foldl (fun buf f => put buf f.off f.src) buf

/-- A buffer of zeros with the fields copied into it. -/
def assemble (size : Nat) (fields : List Placed) : Bytes :=
  copyAll (List.replicate size 0) fields

/-- The fields stand in the order of their places, none reaches into the next one or past the end. -/
structure Laid (size : Nat) (fields : List Placed) : Prop where
  apart : fields.Pairwise fun f g => f.stop ≤ g.off
  fits : ∀ f ∈ fields, f.stop ≤ size

variable {size : Nat} {fields : List Placed}

lemma Laid.tail {f : Placed} (laid : Laid size (f :: fields)) :
    Laid size fields where
  apart := (List.pairwise_cons.mp laid.apart).2
  fits g mem := laid.fits g (List.mem_cons_of_mem _ mem)

lemma Laid.head_fits {f : Placed} (laid : Laid size (f :: fields)) :
    f.off + f.src.length ≤ size :=
  laid.fits f List.mem_cons_self

lemma length_copyAll (laid : Laid buf.length fields) :
    (copyAll buf fields).length = buf.length := by
  induction fields generalizing buf with
  | nil => rfl
  | cons f fields ih =>
    have same := length_put laid.head_fits
    rw [copyAll, List.foldl_cons, ← copyAll, ih (same.symm ▸ laid.tail), same]

lemma getElem?_copyAll_of_gap (laid : Laid buf.length fields) {i : Nat}
    (gap : ∀ f ∈ fields, ¬ f.Covers i) : (copyAll buf fields)[i]? = buf[i]? := by
  induction fields generalizing buf with
  | nil => rfl
  | cons f fields ih =>
    have same := length_put laid.head_fits
    have outside : i < f.off ∨ f.off + f.src.length ≤ i := by
      have off := gap f List.mem_cons_self
      rw [Placed.Covers, Placed.stop] at off
      omega
    rw [copyAll, List.foldl_cons, ← copyAll, ih (same.symm ▸ laid.tail) fun g mem => gap g (List.mem_cons_of_mem _ mem),
      getElem?_put_of_gap laid.head_fits outside]

lemma getElem?_copyAll_of_covered (laid : Laid buf.length fields) {f : Placed}
    (mem : f ∈ fields) {i : Nat} (covered : f.Covers i) : (copyAll buf fields)[i]? = f.src[i - f.off]? := by
  induction fields generalizing buf with
  | nil => cases mem
  | cons g fields ih =>
    have same := length_put laid.head_fits
    have tail : Laid (put buf g.off g.src).length fields := same.symm ▸ laid.tail
    rw [copyAll, List.foldl_cons, ← copyAll]
    cases List.mem_cons.mp mem with
    | inl head =>
      subst head
      -- the later fields begin behind this one
      have later : ∀ h ∈ fields, ¬ h.Covers i := fun h mem covers =>
        absurd (covered.2.trans_le ((List.pairwise_cons.mp laid.apart).1 h mem)) (Nat.not_lt.mpr covers.1)
      rw [getElem?_copyAll_of_gap tail later, getElem?_put_of_covered laid.head_fits covered.1 covered.2]
    | inr mem => exact ih tail mem

lemma Laid.replicate (laid : Laid size fields) :
    Laid (List.replicate size (0 : UInt8)).length fields :=
  List.length_replicate.symm ▸ laid

lemma length_assemble (laid : Laid size fields) :
    (assemble size fields).length = size := by
  rw [assemble, length_copyAll laid.replicate, List.length_replicate]

/-- Every field is read back from its place. -/
lemma slice_assemble (laid : Laid size fields) {off hi : Nat} {src : Bytes}
    (mem : ⟨off, src⟩ ∈ fields) (stop : off + src.length = hi) : slice (assemble size fields) off hi = src := by
  subst stop
  apply List.ext_getElem?
  intro i
  rw [getElem?_slice, Nat.add_sub_cancel_left]
  split
  case isTrue lt =>
    rw [assemble, getElem?_copyAll_of_covered laid.replicate mem ⟨Nat.le_add_right _ _, Nat.add_lt_add_left lt _⟩,
      Nat.add_sub_cancel_left]
  case isFalse le => rw [List.getElem?_eq_none (Nat.not_lt.mp le)]

/-- Fields that are taken from a buffer restore it, up to the bytes that no field covers. -/
lemma assemble_taken (laid : Laid buf.length fields) (taken : ∀ f ∈ fields, f.TakenFrom buf) {gap : Nat → Bool}
    (gaps : ∀ i < buf.length, gap i = true ↔ ∀ f ∈ fields, ¬ f.Covers i) :
    assemble buf.length fields = buf.mapIdx fun i b => if gap i then 0 else b := by
  apply List.ext_getElem?
  intro i
  by_cases lt : i < buf.length
  case neg =>
    rw [List.getElem?_eq_none, List.getElem?_eq_none]
    · rw [List.length_mapIdx]
      exact Nat.not_lt.mp lt
    · rw [length_assemble laid]
      exact Nat.not_lt.mp lt
  case pos =>
    rw [List.getElem?_mapIdx, List.getElem?_eq_getElem lt, Option.map_some]
    by_cases covered : ∃ f ∈ fields, f.Covers i
    case pos =>
      obtain ⟨f, mem, covers⟩ := covered
      have inside : i - f.off < f.stop - f.off := Nat.sub_lt_sub_right covers.1 covers.2
      rw [if_neg fun h => (gaps i lt).mp h f mem covers, assemble,
        getElem?_copyAll_of_covered laid.replicate mem covers, show f.src = _ from taken f mem, getElem?_slice,
        if_pos inside, Nat.add_sub_cancel' covers.1, List.getElem?_eq_getElem lt]
    case neg =>
      have outside : ∀ f ∈ fields, ¬ f.Covers i := fun f mem covers => covered ⟨f, mem, covers⟩
      rw [if_pos ((gaps i lt).mpr outside), assemble, getElem?_copyAll_of_gap laid.replicate outside,
        List.getElem?_replicate, if_pos lt]

/-! ## Arrays and numbers -/

/-- The array that a slice of its size is copied to. -/
def arrayOf (n : Nat) (b : Bytes) : Vector UInt8 n :=
  Vector.ofFn fun i => b[i.val]?.getD 0

lemma arrayOf_toList {n : Nat} (v : Vector UInt8 n) : arrayOf n v.toList = v := by
  apply Vector.ext
  intro i lt
  simp [arrayOf]

lemma toList_arrayOf {n : Nat} {b : Bytes} (len : b.length = n) : (arrayOf n b).toList = b := by
  apply List.ext_getElem
  · rw [Vector.length_toList, len]
  · intro i lt lt'
    simp [arrayOf, lt']

/-- `to_be_bytes`. -/
def toBeBytes (n : Nat) (x : BitVec (8 * n)) : Bytes :=
  toBE n x.toNat

/-- `from_be_bytes`. -/
def ofBeBytes (n : Nat) (b : Bytes) : BitVec (8 * n) :=
  BitVec.ofNat _ (ofBE b)

@[simp] lemma length_toBeBytes (n : Nat) (x : BitVec (8 * n)) : (toBeBytes n x).length = n :=
  length_toBE n _

lemma two_pow_bits (n : Nat) : 2 ^ (8 * n) = 256 ^ n := by
  rw [Nat.pow_mul]

lemma ofBeBytes_toBeBytes (n : Nat) (x : BitVec (8 * n)) : ofBeBytes n (toBeBytes n x) = x := by
  have lt : x.toNat < 256 ^ n := two_pow_bits n ▸ x.isLt
  rw [ofBeBytes, toBeBytes, ofBE_toBE lt, BitVec.ofNat_toNat, BitVec.setWidth_eq]

lemma toBeBytes_ofBeBytes {n : Nat} {b : Bytes} (len : b.length = n) : toBeBytes n (ofBeBytes n b) = b := by
  have lt : ofBE b < 2 ^ (8 * n) := two_pow_bits n ▸ len ▸ ofBE_lt b
  rw [toBeBytes, ofBeBytes, BitVec.toNat_ofNat, Nat.mod_eq_of_lt lt, ← len, toBE_ofBE]

/-- A field that is read from a place is taken from it: an array, and a number. -/
lemma takenFrom_array (off n : Nat) (fits : off + n ≤ buf.length) :
    Placed.TakenFrom ⟨off, (arrayOf n (slice buf off (off + n))).toList⟩ buf := by
  have len : (slice buf off (off + n)).length = n := by rw [length_slice fits, Nat.add_sub_cancel_left]
  rw [Placed.TakenFrom, Placed.stop, toList_arrayOf len, len]

lemma takenFrom_number (off n : Nat) (fits : off + n ≤ buf.length) :
    Placed.TakenFrom ⟨off, toBeBytes n (ofBeBytes n (slice buf off (off + n)))⟩ buf := by
  have len : (slice buf off (off + n)).length = n := by rw [length_slice fits, Nat.add_sub_cancel_left]
  rw [Placed.TakenFrom, Placed.stop, toBeBytes_ofBeBytes len, len]

lemma takenFrom_byte {off : Nat} {b : UInt8} (found : buf[off]? = some b) :
    Placed.TakenFrom ⟨off, [b]⟩ buf := by
  rw [Placed.TakenFrom, Placed.stop]
  apply List.ext_getElem?
  intro i
  rw [getElem?_slice, List.length_singleton, Nat.add_sub_cancel_left]
  cases i with
  | zero => rw [if_pos Nat.one_pos, Nat.add_zero, found, List.getElem?_cons_zero]
  | succ i => rw [if_neg (by omega), List.getElem?_cons_succ, List.getElem?_nil]

end Otap.Lib
