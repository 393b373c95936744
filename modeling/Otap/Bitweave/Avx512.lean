import Otap.Lib.Avx512
import Otap.Bitweave.Refinement

/-!
# The vector kernels and the scalar scan

Embeds the AVX-512 kernels that `flr/internal/bitweave/avo/gen.go` emits for matching one attribute, as instruction
lists over `Lib.Avx512`, and the scan of `flr/internal/bitweave/bitweave_buffered.go`, which uses the kernels or the
scalar loops.

Where a bit of the target is clear, a kernel is to reduce the matches by the complement of the plane. It forms that
complement by `VPANDNQ(plane, ones, inverted)`, which negates `ones` and not the plane, so `inverted` is zero and no
lane is left. `vector_scan_agrees_iff` says when that makes no difference.
-/

namespace Otap.Bitweave

open Otap.Lib
open Otap.Lib.Avx512 (Instr Machine exec)

/-! ## The kernels -/

/-- The vector registers of a kernel. -/
inductive Zmm where
  | matchLo
  | matchHi
  | ones
  | planeLo
  | planeHi
  | invertedLo
  | invertedHi
  deriving DecidableEq

/-- The general-purpose registers of a kernel, without the pointers; `bitTest` is allocated for each bit. -/
inductive Gp where
  | target
  | allOnesGP
  | bitTest (bit : Nat)
  deriving DecidableEq

/-- What the three pointers of a kernel lead to. -/
inductive Ptr where
  | planesPtr
  | activePtr
  | resultPtr
  deriving DecidableEq

/-- The labels `bit%d_clear` and `bit%d_done`, with `a16_` before them in the narrow kernel. -/
inductive Label where
  | clear (bit : Nat)
  | done (bit : Nat)
  deriving DecidableEq

abbrev Code := List (Instr Zmm Gp Ptr Label)

def wordsPerPlane : Nat := 16

def bytesPerPlane : Nat := wordsPerPlane * 8

/-- The code for one bit-plane. -/
def genPlane (bit : Nat) : Code :=
  [ .op (.load .planesPtr (bit * bytesPerPlane) .planeLo),
    .op (.load .planesPtr (bit * bytesPerPlane + 64) .planeHi),
    .op (.movl .target (.bitTest bit)),
    .op (.shrl bit (.bitTest bit)),
    .op (.andl 1 (.bitTest bit)),
    .op (.cmpl (.bitTest bit) 1),
    .jne (.clear bit),
    -- bit is set: match &= plane
    .op (.vpandq .planeLo .matchLo .matchLo),
    .op (.vpandq .planeHi .matchHi .matchHi),
    .jmp (.done bit),
    -- bit is clear
    .label (.clear bit),
    .op (.vpandnq .planeLo .ones .invertedLo),
    .op (.vpandq .invertedLo .matchLo .matchLo),
    .op (.vpandnq .planeHi .ones .invertedHi),
    .op (.vpandq .invertedHi .matchHi .matchHi),
    .label (.done bit) ]

/-- The two generators differ in the number of planes and in the texts of the labels. -/
def genMatchAttribute (w : Nat) : Code :=
  [ .op (.load .activePtr 0 .matchLo),
    .op (.load .activePtr 64 .matchHi),
    .op (.movq 0xFFFFFFFFFFFFFFFF .allOnesGP),
    .op (.vpbroadcastq .allOnesGP .ones) ]
  ++ (List.range w).flatMap genPlane
  ++ [ .op (.store .matchLo .resultPtr 0),
    .op (.store .matchHi .resultPtr 64),
    .op .vzeroupper,
    .ret ]

def genMatchAttribute32 : Code := genMatchAttribute 32

def genMatchAttribute16 : Code := genMatchAttribute 16

/-- The registers that a kernel finds. -/
abbrev Registers := Machine Zmm Gp Ptr

/-- The machine at the start of a call: the arguments, with the target zero-extended, and the zero array that the
    result goes to. The other registers hold anything. -/
def entry {w : Nat} (regs : Registers) (planes : Planes) (active : Words) (target : BitVec w) : Registers :=
  { regs with
    gp := Function.update regs.gp .target (target.setWidth 64)
    mem := fun
      | .planesPtr => fun a => planes (a / wordsPerPlane) (a % wordsPerPlane)
      | .activePtr => active
      | .resultPtr => fun _ => 0 }

/-- `matchAttribute32AVX512`: the array `result` after the call. -/
def matchAttribute32AVX512 (regs : Registers) (planes : Planes) (active : Words) (target : BitVec 32) : Words :=
  (exec genMatchAttribute32 none (entry regs planes active target)).mem .resultPtr

/-- `matchAttribute16AVX512`. -/
def matchAttribute16AVX512 (regs : Registers) (planes : Planes) (active : Words) (target : BitVec 16) : Words :=
  (exec genMatchAttribute16 none (entry regs planes active target)).mem .resultPtr

/-! ## computeConflictMasks -/

/-- The loops of `matchScalar32` and `matchScalar16`, on an array that the caller has filled: the branch on the bit of
    the target stands outside the loop over the words. -/
def matchScalarLoops {w : Nat} (acc : Words) (planes : Planes) (target : BitVec w) (words : Nat) : Words :=
  (List.range w).foldl
    (fun acc p =>
      if bitSet target p then
        (List.range words).foldl (fun acc i => Function.update acc i (acc i &&& planes p i)) acc
      else
        (List.range words).foldl (fun acc i => Function.update acc i (acc i &&& ~~~planes p i)) acc)
    acc

/-- `matchScalar32`. -/
def matchScalar32 (acc : Words) (planes : Planes) (target : BitVec 32) (words : Nat) : Words :=
  matchScalarLoops acc planes target words

/-- `matchScalar16`. -/
def matchScalar16 (acc : Words) (planes : Planes) (target : BitVec 16) (words : Nat) : Words :=
  matchScalarLoops acc planes target words

/-- `if excludeSlot >= 0 && excludeSlot < MaxLeases { a[exWord] &= exMask }`. -/
def Words.exclude (a : Words) (excludeSlot : Int) : Words :=
  if 0 ≤ excludeSlot ∧ excludeSlot < maxLeases then
    a.andMask (excludeSlot.toNat / 64) (~~~(1#64 <<< (excludeSlot.toNat % 64)))
  else a

/-- The part of `computeConflictMasks` after the matching. -/
def LeaseIndex.combineMatches (idx : LeaseIndex) (exclusive : Bool) (excludeSlot : Int) (words : Nat)
    (channelMatch awgMatch portMatch tenantMatch : Words) : ConflictMasks :=
  let proposedExclMask : BitVec 64 := if exclusive then ~~~0#64 else 0#64
  let differentTenant := fillWords words fun w => idx.active w &&& ~~~tenantMatch w
  let lambda := fillWords words fun w => (channelMatch w &&& awgMatch w) &&& (idx.exclusive w ||| proposedExclMask)
  let port := fillWords words fun w => awgMatch w &&& portMatch w
  let tenant := fillWords words fun w => (channelMatch w &&& awgMatch w) &&& differentTenant w
  { lambda := lambda.exclude excludeSlot
    port := port.exclude excludeSlot
    tenant := tenant.exclude excludeSlot }

/-- `LeaseIndex.computeConflictMasks`, with the build constant `avx512Enabled` as an argument. -/
def LeaseIndex.computeConflictMasks (idx : LeaseIndex) (avx512Enabled : Bool) (regs : Registers) (q : Attributes)
    (excludeSlot : Int) : ConflictMasks :=
  let words := (idx.count + 63) / 64
  if words = 0 then { lambda := fun _ => 0, port := fun _ => 0, tenant := fun _ => 0 }
  else if avx512Enabled then
    idx.combineMatches q.exclusive excludeSlot words
      (matchAttribute32AVX512 regs idx.channelNum idx.active q.channelNum)
      (matchAttribute16AVX512 regs idx.awgID idx.active q.awgID)
      (matchAttribute16AVX512 regs idx.awgPort idx.active q.awgPort)
      (matchAttribute16AVX512 regs idx.tenantID idx.active q.tenantID)
  else
    idx.combineMatches q.exclusive excludeSlot words
      (matchScalar32 idx.active idx.channelNum q.channelNum words)
      (matchScalar16 idx.active idx.awgID q.awgID words)
      (matchScalar16 idx.active idx.awgPort q.awgPort words)
      (matchScalar16 idx.active idx.tenantID q.tenantID words)

/-! ## The scalar loops -/

/-- Where the branch stands makes no difference: the loops are those of `CheckConflicts`. -/
lemma matchScalarLoops_eq {w : Nat} (acc : Words) (planes : Planes) (target : BitVec w) (words : Nat) :
    matchScalarLoops acc planes target words = matchScalar target planes acc words := by
  unfold matchScalarLoops matchScalar
  congr 1
  funext acc p
  cases bitSet target p with
  | true => rfl
  | false => rfl

lemma matchScalar32_eq (acc : Words) (planes : Planes) (target : BitVec 32) (words : Nat) :
    matchScalar32 acc planes target words = matchScalar target planes acc words :=
  matchScalarLoops_eq acc planes target words

lemma matchScalar16_eq (acc : Words) (planes : Planes) (target : BitVec 16) (words : Nat) :
    matchScalar16 acc planes target words = matchScalar target planes acc words :=
  matchScalarLoops_eq acc planes target words

/-! ## What a kernel computes -/

section

variable {w : Nat} {regs : Registers} {planes : Planes} {active : Words} {target : BitVec w}

/-- The instructions of one plane before the branch, where the bit is set, and where it is clear. -/
def planeOps (bit : Nat) : List (Avx512.Op Zmm Gp Ptr) :=
  [ .load .planesPtr (bit * bytesPerPlane) .planeLo,
    .load .planesPtr (bit * bytesPerPlane + 64) .planeHi,
    .movl .target (.bitTest bit),
    .shrl bit (.bitTest bit),
    .andl 1 (.bitTest bit),
    .cmpl (.bitTest bit) 1 ]

def setOps : List (Avx512.Op Zmm Gp Ptr) :=
  [.vpandq .planeLo .matchLo .matchLo, .vpandq .planeHi .matchHi .matchHi]

def clearOps : List (Avx512.Op Zmm Gp Ptr) :=
  [ .vpandnq .planeLo .ones .invertedLo,
    .vpandq .invertedLo .matchLo .matchLo,
    .vpandnq .planeHi .ones .invertedHi,
    .vpandq .invertedHi .matchHi .matchHi ]

/-- The effect of the code for one plane. -/
def planeEffect (m : Registers) (bit : Nat) : Registers :=
  let m := (planeOps bit).foldl Machine.step m
  (if m.zf then setOps else clearOps).foldl Machine.step m

lemma exec_genPlane (bit : Nat) (rest : Code) (m : Registers) :
    exec (genPlane bit ++ rest) none m = exec rest none (planeEffect m bit) := by
  have shape : genPlane bit = Avx512.block (planeOps bit) ++
      Avx512.branch setOps clearOps (.clear bit) (.done bit) := rfl
  rw [shape, List.append_assoc, Avx512.exec_ops, Avx512.exec_branch _ _ (by simp)]
  rfl

/-- The reduction that the kernel makes of one word. -/
def vectorMatch (target : BitVec w) (plane : Nat → BitVec 64) (init : BitVec 64) (k : Nat) : BitVec 64 :=
  (List.range k).foldl (fun acc p => if target.getLsbD p then acc &&& plane p else 0) init

/-- The machine after `k` planes. -/
structure Scanned (planes : Planes) (active : Words) (target : BitVec w) (k : Nat) (m : Registers) : Prop where
  lo : ∀ i : Fin 8, m.vec .matchLo i = vectorMatch target (planes · i) (active i) k
  hi : ∀ i : Fin 8, m.vec .matchHi i = vectorMatch target (planes · (8 + i)) (active (8 + i)) k
  ones : m.vec .ones = fun _ => BitVec.allOnes 64
  target : m.gp .target = target.setWidth 64
  planes : m.mem .planesPtr = fun a => planes (a / wordsPerPlane) (a % wordsPerPlane)

/-- The bit of the target decides the branch. -/
lemma zf_planeOps {m : Registers} (loaded : m.gp .target = target.setWidth 64) (le : w ≤ 32) {bit : Nat}
    (lt : bit < w) : ((planeOps bit).foldl Machine.step m).zf = target.getLsbD bit := by
  have target_eq : m.gp32 .target = target.setWidth 32 := by
    rw [Machine.gp32, loaded, BitVec.setWidth_setWidth_of_le _ (by omega)]
  calc ((planeOps bit).foldl Machine.step m).zf = bitSet (m.gp32 .target) bit := by
        simp [planeOps, Machine.step, bitSet]
    _ = target.getLsbD bit := by
        rw [target_eq, bitSet_eq _ (by omega), BitVec.getLsbD_setWidth]
        simp [show bit < 32 by omega]

/-- The words of a plane that a load finds. -/
lemma load_plane {m : Registers} (image : m.mem .planesPtr = fun a => planes (a / wordsPerPlane) (a % wordsPerPlane))
    (k : Nat) (i : Fin 8) :
    m.load .planesPtr (k * bytesPerPlane) i = planes k i ∧
      m.load .planesPtr (k * bytesPerPlane + 64) i = planes k (8 + i) := by
  have := i.isLt
  simp only [Machine.load, image, bytesPerPlane, wordsPerPlane]
  constructor
  · congr 1 <;> omega
  · congr 1 <;> omega

/-- One plane. -/
lemma Scanned.next {m : Registers} {k : Nat} (scanned : Scanned planes active target k m) (le : w ≤ 32)
    (lt : k < w) : Scanned planes active target (k + 1) (planeEffect m k) := by
  have zf := zf_planeOps scanned.target le lt
  have plane := load_plane scanned.planes k
  have vectorMatch_succ (init : BitVec 64) (plane : Nat → BitVec 64) : vectorMatch target plane init (k + 1) =
      if target.getLsbD k then vectorMatch target plane init k &&& plane k else 0 := by
    rw [vectorMatch, List.range_succ, List.foldl_append]
    rfl
  unfold planeEffect
  simp only [zf]
  cases set : target.getLsbD k with
  | true =>
    constructor
    · intro i
      simp [planeOps, setOps, Machine.step, vectorMatch_succ, set, scanned.lo, plane]
    · intro i
      simp [planeOps, setOps, Machine.step, vectorMatch_succ, set, scanned.hi, plane]
    · simp [planeOps, setOps, Machine.step, scanned.ones]
    · simp [planeOps, setOps, Machine.step, scanned.target]
    · simp [planeOps, setOps, Machine.step, scanned.planes]
  | false =>
    constructor
    · intro i
      simp [planeOps, clearOps, Machine.step, vectorMatch_succ, set, scanned.ones]
    · intro i
      simp [planeOps, clearOps, Machine.step, vectorMatch_succ, set, scanned.ones]
    · simp [planeOps, clearOps, Machine.step, scanned.ones]
    · simp [planeOps, clearOps, Machine.step, scanned.target]
    · simp [planeOps, clearOps, Machine.step, scanned.planes]

/-- The machine after the first four instructions. -/
def prologue (m : Registers) : Registers :=
  ([ .load .activePtr 0 .matchLo, .load .activePtr 64 .matchHi, .movq 0xFFFFFFFFFFFFFFFF .allOnesGP,
    .vpbroadcastq .allOnesGP .ones ] : List (Avx512.Op Zmm Gp Ptr)).foldl Machine.step m

lemma Scanned.first : Scanned planes active target 0 (prologue (entry regs planes active target)) := by
  constructor
  · intro i
    simp [prologue, Machine.step, Machine.load, entry, vectorMatch]
  · intro i
    simp [prologue, Machine.step, Machine.load, entry, vectorMatch]
  · simp [prologue, Machine.step]
  · simp [prologue, Machine.step, entry]
  · simp [prologue, Machine.step, entry]

/-- All planes. -/
lemma Scanned.all {m : Registers} (scanned : Scanned planes active target 0 m) (le : w ≤ 32) :
    ∀ k ≤ w, Scanned planes active target k ((List.range k).foldl planeEffect m) := by
  intro k
  induction k with
  | zero => exact fun _ => scanned
  | succ k ih =>
    intro lt
    rw [List.range_succ, List.foldl_append]
    exact (ih (by omega)).next le lt

/-- The array that a kernel leaves. -/
lemma exec_genMatchAttribute (le : w ≤ 32) {i : Nat} (lt : i < wordsPerPlane) :
    (exec (genMatchAttribute w) none (entry regs planes active target)).mem .resultPtr i =
      vectorMatch target (planes · i) (active i) w := by
  let m := (List.range w).foldl planeEffect (prologue (entry regs planes active target))
  have scanned : Scanned planes active target w m := Scanned.first.all le w le_rfl
  have run : exec (genMatchAttribute w) none (entry regs planes active target) =
      exec ([.op (.store .matchLo .resultPtr 0), .op (.store .matchHi .resultPtr 64), .op .vzeroupper, .ret] : Code)
        none m := by
    rw [genMatchAttribute, List.append_assoc]
    exact Avx512.exec_flatMap genPlane planeEffect exec_genPlane (List.range w) _ _
  have stored : (exec (genMatchAttribute w) none (entry regs planes active target)).mem .resultPtr i =
      ((m.store .resultPtr 0 (m.vec .matchLo)).store .resultPtr 64 (m.vec .matchHi)).mem .resultPtr i := by
    rw [run]
    rfl
  rw [wordsPerPlane] at lt
  rw [stored, Machine.mem_store_self]
  split
  case isTrue upper =>
    have index : 8 + (i - 64 / 8) = i := by omega
    rw [scanned.hi]
    simp only [index]
  case isFalse lower =>
    rw [Machine.mem_store_self, dif_pos (by omega), scanned.lo]
    rfl

/-- A clear bit of the target leaves no lane. -/
lemma getLsbD_vectorMatch (plane : Nat → BitVec 64) (init : BitVec 64) (k j : Nat) :
    (vectorMatch target plane init k).getLsbD j = true ↔
      init.getLsbD j = true ∧ ∀ p < k, target.getLsbD p = true ∧ (plane p).getLsbD j = true := by
  induction k with
  | zero => simp [vectorMatch]
  | succ k ih =>
    rw [vectorMatch, List.range_succ, List.foldl_append, List.foldl_cons, List.foldl_nil, ← vectorMatch]
    simp only [Nat.forall_lt_succ_right, ← and_assoc, ← ih]
    cases target.getLsbD k with
    | true => simp
    | false => simp

end

/-! ## Where kernel and loops agree -/

/-- The lane of a slot carries the value. -/
def Carries {w : Nat} (planes : Planes) (slot : Nat) (value : BitVec w) : Prop :=
  ∀ p < w, (planes p).lane slot = value.getLsbD p

/-- The lanes that a kernel finds are active and carry the target, and there are none unless every bit of the target
    is set. -/
lemma lane_kernel {w : Nat} (regs : Registers) (planes : Planes) (active : Words) (target : BitVec w) (le : w ≤ 32)
    {slot : Nat} (lt : slot < maxLeases) :
    Words.lane ((exec (genMatchAttribute w) none (entry regs planes active target)).mem .resultPtr) slot = true ↔
      active.lane slot = true ∧ Carries planes slot target ∧ target = BitVec.allOnes w := by
  have word : slot / 64 < wordsPerPlane := by
    rw [maxLeases] at lt
    rw [wordsPerPlane]
    omega
  rw [Words.lane, exec_genMatchAttribute le word, getLsbD_vectorMatch]
  refine and_congr_right fun _ => ⟨fun set => ?_, ?_⟩
  · have full : target = BitVec.allOnes w := by
      apply BitVec.eq_of_getLsbD_eq
      intro p lt
      rw [(set p lt).1, BitVec.getLsbD_allOnes, decide_eq_true lt]
    exact ⟨fun p lt => (set p lt).2.trans (set p lt).1.symm, full⟩
  · rintro ⟨carries, rfl⟩ p lt
    have one : (BitVec.allOnes w).getLsbD p = true := by
      rw [BitVec.getLsbD_allOnes, decide_eq_true lt]
    exact ⟨one, (carries p lt).trans one⟩

/-- Words are equal when their lanes are. -/
lemma words_eq_iff (a b : Words) (words : Nat) :
    (∀ i < words, a i = b i) ↔ ∀ slot < 64 * words, a.lane slot = b.lane slot := by
  constructor
  · intro same slot lt
    rw [Words.lane, Words.lane, same (slot / 64) (by omega)]
  · intro same i lt
    apply BitVec.eq_of_getLsbD_eq
    intro j ltj
    have lane := same (64 * i + j) (by omega)
    rwa [Words.lane, Words.lane, show (64 * i + j) / 64 = i by omega, show (64 * i + j) % 64 = j by omega] at lane

/-- Every bit of the target is set, or no active lane of the scanned words carries it. -/
def KernelAgrees {w : Nat} (planes : Planes) (active : Words) (target : BitVec w) (words : Nat) : Prop :=
  target = BitVec.allOnes w ∨ ∀ slot < 64 * words, active.lane slot = true → ¬ Carries planes slot target

lemma kernel_agrees_iff {w : Nat} (regs : Registers) (planes : Planes) (active : Words) (target : BitVec w)
    (le : w ≤ 32) {words : Nat} (words_le : words ≤ wordsPerPlane) :
    (∀ i < words, (exec (genMatchAttribute w) none (entry regs planes active target)).mem .resultPtr i =
        matchScalar target planes active words i) ↔
      KernelAgrees planes active target words := by
  rw [words_eq_iff]
  have lanes (slot : Nat) (lt : slot < 64 * words) :
      Words.lane ((exec (genMatchAttribute w) none (entry regs planes active target)).mem .resultPtr) slot =
          (matchScalar target planes active words).lane slot ↔
        (active.lane slot = true → Carries planes slot target → target = BitVec.allOnes w) := by
    have inRange : slot < maxLeases := by
      rw [wordsPerPlane] at words_le
      rw [maxLeases]
      omega
    rw [Bool.eq_iff_iff, lane_kernel regs planes active target le inRange,
      lane_matchScalar target planes active (show slot / 64 < words by omega), ← and_assoc, ← and_imp]
    exact and_iff_left_iff_imp
  constructor
  · intro same
    by_cases full : target = BitVec.allOnes w
    case pos => exact .inl full
    case neg => exact .inr fun slot lt act carries => full ((lanes slot lt).mp (same slot lt) act carries)
  · rintro (full | none) slot lt
    · exact (lanes slot lt).mpr fun _ _ => full
    · exact (lanes slot lt).mpr fun act carries => absurd carries (none slot lt act)

lemma matchAttribute32_agrees_iff (regs : Registers) (planes : Planes) (active : Words) (target : BitVec 32)
    {words : Nat} (le : words ≤ wordsPerPlane) :
    (∀ i < words, matchAttribute32AVX512 regs planes active target i = matchScalar32 active planes target words i) ↔
      KernelAgrees planes active target words := by
  rw [matchScalar32_eq]
  exact kernel_agrees_iff regs planes active target le_rfl le

lemma matchAttribute16_agrees_iff (regs : Registers) (planes : Planes) (active : Words) (target : BitVec 16)
    {words : Nat} (le : words ≤ wordsPerPlane) :
    (∀ i < words, matchAttribute16AVX512 regs planes active target i = matchScalar16 active planes target words i) ↔
      KernelAgrees planes active target words := by
  rw [matchScalar16_eq]
  exact kernel_agrees_iff regs planes active target (by decide) le

/-! ## The conflict masks of the two builds -/

lemma lane_excludeSlot (a : Words) (excludeSlot : Int) {slot : Nat} (lt : slot < maxLeases) :
    (a.exclude excludeSlot).lane slot = (a.lane slot && decide ((slot : Int) ≠ excludeSlot)) := by
  unfold Words.exclude
  split
  case isTrue inRange =>
    obtain ⟨s, rfl⟩ := Int.eq_ofNat_of_zero_le inRange.1
    simpa using lane_andMask a s slot
  case isFalse outside =>
    have ne : (slot : Int) ≠ excludeSlot := by omega
    simp [ne]

/-- One lane of a conflict mask, from the lanes that it is combined of. -/
def LaneConflict (active exclusive channel awg port tenant : Prop) : ConflictType → Prop
  | .lambdaCollision => channel ∧ awg ∧ exclusive
  | .awgPortCollision => awg ∧ port
  | .tenantIsolation => channel ∧ awg ∧ active ∧ ¬ tenant

lemma lane_combineMatches (idx : LeaseIndex) (exclusive : Bool) (excludeSlot : Int) {words slot : Nat}
    (channelMatch awgMatch portMatch tenantMatch : Words) (h : slot / 64 < words) (lt : slot < maxLeases)
    (type : ConflictType) :
    ((idx.combineMatches exclusive excludeSlot words channelMatch awgMatch portMatch tenantMatch).mask type).lane slot
        = true ↔
      (slot : Int) ≠ excludeSlot ∧
        LaneConflict (idx.active.lane slot = true) (idx.exclusive.lane slot = true ∨ exclusive = true)
          (channelMatch.lane slot = true) (awgMatch.lane slot = true) (portMatch.lane slot = true)
          (tenantMatch.lane slot = true) type := by
  have bit : slot % 64 < 64 := Nat.mod_lt _ (by decide)
  have proposed : (if exclusive then ~~~0#64 else 0#64).getLsbD (slot % 64) = exclusive := by
    cases exclusive with
    | true => simp only [↓reduceIte, BitVec.getLsbD_not, bit, BitVec.getLsbD_zero]; rfl
    | false => simp
  cases type with
  | lambdaCollision =>
    simp only [LeaseIndex.combineMatches, ConflictMasks.mask, lane_excludeSlot _ _ lt, lane_fillWords _ h,
      BitVec.getLsbD_and, BitVec.getLsbD_or, getLsbD_lane, proposed, LaneConflict]
    simp [and_assoc, and_comm]
  | awgPortCollision =>
    simp only [LeaseIndex.combineMatches, ConflictMasks.mask, lane_excludeSlot _ _ lt, lane_fillWords _ h,
      BitVec.getLsbD_and, getLsbD_lane, LaneConflict]
    simp [and_comm]
  | tenantIsolation =>
    simp only [LeaseIndex.combineMatches, ConflictMasks.mask, lane_excludeSlot _ _ lt, lane_fillWords _ h,
      BitVec.getLsbD_and, BitVec.getLsbD_not, getLsbD_lane, bit, LaneConflict]
    simp [and_assoc, and_comm]

/-- Lanes beyond the scanned words are clear. -/
lemma lane_combineMatches_of_ge (idx : LeaseIndex) (exclusive : Bool) (excludeSlot : Int) {words slot : Nat}
    (channelMatch awgMatch portMatch tenantMatch : Words) (h : words ≤ slot / 64) (type : ConflictType) :
    ((idx.combineMatches exclusive excludeSlot words channelMatch awgMatch portMatch tenantMatch).mask type).lane slot
      = false := by
  have exclude (f : Nat → BitVec 64) : ((fillWords words f).exclude excludeSlot).lane slot = false := by
    have clear : (fillWords words f).lane slot = false := by
      rw [Words.lane, fillWords, foldl_update_range (fun w _ => f w)]
      simp [h.not_gt]
    unfold Words.exclude
    split
    · rw [lane_andMask, clear, Bool.false_and]
    · exact clear
  cases type with
  | lambdaCollision => exact exclude _
  | awgPortCollision => exact exclude _
  | tenantIsolation => exact exclude _

/-- Masks are equal when their lanes are. -/
lemma masks_eq_iff (a b : ConflictMasks) :
    a = b ↔ ∀ slot type, (a.mask type).lane slot = true ↔ (b.mask type).lane slot = true := by
  constructor
  · rintro rfl slot type
    rfl
  · intro lanes
    have words (type : ConflictType) : a.mask type = b.mask type := by
      funext i
      refine (words_eq_iff _ _ (i + 1)).mpr (fun slot _ => ?_) i (Nat.lt_succ_self i)
      exact Bool.eq_iff_iff.mpr (lanes slot type)
    calc a = ⟨a.mask .lambdaCollision, a.mask .awgPortCollision, a.mask .tenantIsolation⟩ := rfl
      _ = ⟨b.mask .lambdaCollision, b.mask .awgPortCollision, b.mask .tenantIsolation⟩ := by
        rw [words, words, words]
      _ = b := rfl

/-- The lane of a slot has the same conflicts in both builds: if its lease shares AWG and port with the query, all
    bits of these are set; if it shares channel and AWG, all bits of these are set, except where the lease is neither
    exclusive nor of another tenant, and then the tenant's bits are all set, too. -/
def LeaseIndex.MasksAgree (idx : LeaseIndex) (q : Attributes) (slot : Nat) : Prop :=
  let full := q.channelNum = BitVec.allOnes 32 ∧ q.awgID = BitVec.allOnes 16
  idx.active.lane slot = true → Carries idx.awgID slot q.awgID →
    (Carries idx.awgPort slot q.awgPort → q.awgID = BitVec.allOnes 16 ∧ q.awgPort = BitVec.allOnes 16) ∧
    (Carries idx.channelNum slot q.channelNum →
      (idx.exclusive.lane slot = true ∨ q.exclusive = true → full) ∧
      (¬ Carries idx.tenantID slot q.tenantID → full) ∧
      (Carries idx.tenantID slot q.tenantID → full → q.tenantID = BitVec.allOnes 16))

lemma laneConflict_agree (A E C W P T c w p t : Prop) :
    (∀ type, LaneConflict A E (A ∧ C ∧ c) (A ∧ W ∧ w) (A ∧ P ∧ p) (A ∧ T ∧ t) type ↔
        LaneConflict A E (A ∧ C) (A ∧ W) (A ∧ P) (A ∧ T) type) ↔
      (A → W → (P → w ∧ p) ∧ (C → (E → c ∧ w) ∧ (¬ T → c ∧ w) ∧ (T → c ∧ w → t))) := by
  have types (R : ConflictType → Prop) :
      (∀ type, R type) ↔ R .lambdaCollision ∧ R .awgPortCollision ∧ R .tenantIsolation := by
    constructor
    · exact fun h => ⟨h _, h _, h _⟩
    · rintro ⟨lambda, port, tenant⟩ type
      cases type with
      | lambdaCollision => exact lambda
      | awgPortCollision => exact port
      | tenantIsolation => exact tenant
  rw [types]
  simp only [LaneConflict]
  grind

lemma masks_agree_iff (idx : LeaseIndex) (regs : Registers) (q : Attributes) (excludeSlot : Int)
    (le : idx.count ≤ maxLeases) :
    idx.computeConflictMasks true regs q excludeSlot = idx.computeConflictMasks false regs q excludeSlot ↔
      ∀ slot < 64 * ((idx.count + 63) / 64), (slot : Int) ≠ excludeSlot → idx.MasksAgree q slot := by
  unfold LeaseIndex.computeConflictMasks
  by_cases zero : (idx.count + 63) / 64 = 0
  case pos => simp [zero]
  case neg =>
    simp only [zero, ↓reduceIte, Bool.false_eq_true]
    rw [masks_eq_iff]
    apply forall_congr'
    intro slot
    by_cases scanned : slot < 64 * ((idx.count + 63) / 64)
    case pos =>
      have word : slot / 64 < (idx.count + 63) / 64 := by omega
      have inRange : slot < maxLeases := by
        rw [maxLeases] at le ⊢
        omega
      have kernel {w : Nat} (planes : Planes) (target : BitVec w) (le : w ≤ 32) :=
        lane_kernel regs planes idx.active target le inRange
      simp only [lane_combineMatches _ _ _ _ _ _ _ word inRange, matchAttribute32AVX512, matchAttribute16AVX512,
        genMatchAttribute32, genMatchAttribute16, kernel _ _ (le_refl 32),
        kernel _ _ (show 16 ≤ 32 by decide), matchScalar32_eq, matchScalar16_eq, lane_matchScalar _ _ _ word]
      by_cases excluded : (slot : Int) = excludeSlot
      case pos => simp [excluded]
      case neg =>
        simp only [ne_eq, excluded, not_false_eq_true, true_and, scanned, true_implies]
        exact laneConflict_agree ..
    case neg =>
      have beyond : (idx.count + 63) / 64 ≤ slot / 64 := by omega
      simp [lane_combineMatches_of_ge _ _ _ _ _ _ _ beyond, scanned]

/-- When the vector kernels leave what the scalar loops leave: for one attribute, if every bit of the target is set or
    no active lane carries the target; for the conflict masks, lane by lane as `MasksAgree` says. -/
theorem vector_scan_agrees_iff (regs : Registers) :
    (∀ (planes : Planes) (active : Words) (target : BitVec 32) (words : Nat), words ≤ wordsPerPlane →
      ((∀ i < words, matchAttribute32AVX512 regs planes active target i =
          matchScalar32 active planes target words i) ↔ KernelAgrees planes active target words)) ∧
    (∀ (planes : Planes) (active : Words) (target : BitVec 16) (words : Nat), words ≤ wordsPerPlane →
      ((∀ i < words, matchAttribute16AVX512 regs planes active target i =
          matchScalar16 active planes target words i) ↔ KernelAgrees planes active target words)) ∧
    ∀ (idx : LeaseIndex) (q : Attributes) (excludeSlot : Int), idx.count ≤ maxLeases →
      (idx.computeConflictMasks true regs q excludeSlot = idx.computeConflictMasks false regs q excludeSlot ↔
        ∀ slot < 64 * ((idx.count + 63) / 64), (slot : Int) ≠ excludeSlot → idx.MasksAgree q slot) := by
  refine ⟨?_, ?_, ?_⟩
  · intro planes active target words le
    exact matchAttribute32_agrees_iff regs planes active target le
  · intro planes active target words le
    exact matchAttribute16_agrees_iff regs planes active target le
  · intro idx q excludeSlot le
    exact masks_agree_iff idx regs q excludeSlot le

/-- Registers that hold zero. -/
def clearRegisters : Registers where
  vec := fun _ _ => 0
  gp := fun _ => 0
  zf := false
  mem := fun _ _ => 0

/-- An index in which every bit is set. -/
def fullIndex : LeaseIndex where
  channelNum := fun _ _ => BitVec.allOnes 64
  awgID := fun _ _ => BitVec.allOnes 64
  tenantID := fun _ _ => BitVec.allOnes 64
  awgPort := fun _ _ => BitVec.allOnes 64
  active := fun _ => BitVec.allOnes 64
  exclusive := fun _ => BitVec.allOnes 64
  leaseIDs := fun _ => "a"
  count := 64

/-- The query for the attributes of `fullIndex`. -/
def fullQuery : Attributes where
  channelNum := BitVec.allOnes 32
  awgID := BitVec.allOnes 16
  tenantID := BitVec.allOnes 16
  awgPort := BitVec.allOnes 16
  exclusive := true

theorem vector_scan_agrees_fullIndex :
    (∀ i < 1, matchAttribute32AVX512 clearRegisters fullIndex.channelNum fullIndex.active fullQuery.channelNum i =
        matchScalar32 fullIndex.active fullIndex.channelNum fullQuery.channelNum 1 i) ∧
      (∀ i < 1, matchAttribute16AVX512 clearRegisters fullIndex.awgID fullIndex.active fullQuery.awgID i =
        matchScalar16 fullIndex.active fullIndex.awgID fullQuery.awgID 1 i) ∧
      fullIndex.computeConflictMasks true clearRegisters fullQuery (-1) =
        fullIndex.computeConflictMasks false clearRegisters fullQuery (-1) := by
  obtain ⟨wide, narrow, masks⟩ := vector_scan_agrees_iff clearRegisters
  refine ⟨(wide _ _ _ 1 (by decide)).mpr (.inl rfl), (narrow _ _ _ 1 (by decide)).mpr (.inl rfl), ?_⟩
  refine (masks fullIndex fullQuery (-1) (by decide)).mpr fun slot _ _ _ _ => ⟨fun _ => ⟨rfl, rfl⟩, fun _ => ?_⟩
  exact ⟨fun _ => ⟨rfl, rfl⟩, fun _ => ⟨rfl, rfl⟩, fun _ _ => rfl⟩

/-- The index after a lease with zero attributes was inserted into an empty one. -/
def zeroIndex : LeaseIndex where
  channelNum := fun _ _ => 0
  awgID := fun _ _ => 0
  tenantID := fun _ _ => 0
  awgPort := fun _ _ => 0
  active := fun _ => 1
  exclusive := fun _ => 0
  leaseIDs := fun _ => "a"
  count := 1

/-- A query for channel 0 of AWG 0 misses the lease there, and so do its masks. -/
theorem not_vector_scan_agrees :
    (¬ ∀ (regs : Registers) (planes : Planes) (active : Words) (target : BitVec 32) (words : Nat),
      words ≤ wordsPerPlane → ∀ i < words,
        matchAttribute32AVX512 regs planes active target i = matchScalar32 active planes target words i) ∧
    (¬ ∀ (regs : Registers) (planes : Planes) (active : Words) (target : BitVec 16) (words : Nat),
      words ≤ wordsPerPlane → ∀ i < words,
        matchAttribute16AVX512 regs planes active target i = matchScalar16 active planes target words i) ∧
    ¬ ∀ (regs : Registers) (idx : LeaseIndex) (q : Attributes) (excludeSlot : Int), idx.count ≤ maxLeases →
      idx.computeConflictMasks true regs q excludeSlot = idx.computeConflictMasks false regs q excludeSlot := by
  have active : zeroIndex.active.lane 0 = true := by decide
  have carries {w : Nat} : Carries (fun _ _ => 0) 0 (0#w) := by
    intro p _
    simp [Words.lane]
  refine ⟨?_, ?_, ?_⟩
  · intro same
    have one : 1 ≤ wordsPerPlane := by decide
    have agrees := (matchAttribute32_agrees_iff clearRegisters (fun _ _ => 0) zeroIndex.active 0#32 one).mp
      (same clearRegisters (fun _ _ => 0) zeroIndex.active 0#32 1 one)
    rcases agrees with full | none
    · exact absurd full (by decide)
    · exact none 0 (by decide) active carries
  · intro same
    have one : 1 ≤ wordsPerPlane := by decide
    have agrees := (matchAttribute16_agrees_iff clearRegisters (fun _ _ => 0) zeroIndex.active 0#16 one).mp
      (same clearRegisters (fun _ _ => 0) zeroIndex.active 0#16 1 one)
    rcases agrees with full | none
    · exact absurd full (by decide)
    · exact none 0 (by decide) active carries
  · intro same
    have agrees := (masks_agree_iff zeroIndex clearRegisters blank (-1) (by decide)).mp
      (same clearRegisters zeroIndex blank (-1) (by decide)) 0 (by decide) (by decide) active carries
    have full : blank.awgID = BitVec.allOnes 16 := (agrees.1 carries).1
    exact absurd full (by decide)

end Otap.Bitweave
