import Otap.Bitweave.Avx512

/-!
# The kernel that combines matches

Embeds `genCombineConflicts` of `flr/internal/bitweave/avo/gen.go`, which `computeConflictMasks` has as loops. The eight
pointers of the kernel may lead to the same arrays, so its code is a function of where they lead.

`mem_combine`: a word of an output depends on the words at its place only, so that the kernel may work in place. As for
the matches of one attribute the negation is on the wrong operand: the kernel stores the tenant matches outside of
the channel and AWG matches. `combine_kernel_agrees_iff` says what follows for the masks.
-/

namespace Otap.Bitweave

open Otap.Lib
open Otap.Lib.Avx512 (Instr Machine exec)

/-! ## The code -/

/-- The parameters of the kernel. -/
inductive CombineParam where
  | channelMatch
  | awgMatch
  | portMatch
  | tenantMatch
  | exclusiveMask
  | lambdaOut
  | portOut
  | tenantOut
  deriving DecidableEq

/-- The vector registers of a chunk. -/
inductive CombineZmm where
  | chVec (chunk : Nat)
  | awgVec (chunk : Nat)
  | portVec (chunk : Nat)
  | tenantVec (chunk : Nat)
  | exclVec (chunk : Nat)
  | sameChAwg (chunk : Nat)
  | lambdaVec (chunk : Nat)
  | portConflictVec (chunk : Nat)
  | tenantConflictVec (chunk : Nat)
  deriving DecidableEq

variable {M : Type} [DecidableEq M]

/-- The code for one chunk of eight words. -/
def genCombineChunk (arg : CombineParam → M) (chunk : Nat) : List (Avx512.Op CombineZmm Empty M) :=
  let disp := chunk * 64
  [ .load (arg .channelMatch) disp (.chVec chunk),
    .load (arg .awgMatch) disp (.awgVec chunk),
    .load (arg .portMatch) disp (.portVec chunk),
    .load (arg .tenantMatch) disp (.tenantVec chunk),
    .load (arg .exclusiveMask) disp (.exclVec chunk),
    .vpandq (.chVec chunk) (.awgVec chunk) (.sameChAwg chunk),
    .vpandq (.sameChAwg chunk) (.exclVec chunk) (.lambdaVec chunk),
    .store (.lambdaVec chunk) (arg .lambdaOut) disp,
    .vpandq (.awgVec chunk) (.portVec chunk) (.portConflictVec chunk),
    .store (.portConflictVec chunk) (arg .portOut) disp,
    .vpandnq (.tenantVec chunk) (.sameChAwg chunk) (.tenantConflictVec chunk),
    .store (.tenantConflictVec chunk) (arg .tenantOut) disp ]

/-- `genCombineConflicts`. -/
def genCombineConflicts (arg : CombineParam → M) : List (Instr CombineZmm Empty M Empty) :=
  Avx512.block ((List.range 2).flatMap (genCombineChunk arg)) ++ [.op .vzeroupper, .ret]

/-- `combineConflictsAVX512`: the arrays after the call. -/
def combineConflictsAVX512 (arg : CombineParam → M) (regs : Machine CombineZmm Empty M) : M → Words :=
  (exec (genCombineConflicts arg) none regs).mem

/-! ## What the kernel computes -/

/-- A word of an array after the kernel, from the words at the same place. The last store wins. -/
def combineWord (arg : CombineParam → M) (mem : M → Words) (a : M) (w : Nat) : BitVec 64 :=
  let sameChAwg := mem (arg .channelMatch) w &&& mem (arg .awgMatch) w
  if a = arg .tenantOut then mem (arg .tenantMatch) w &&& ~~~sameChAwg
  else if a = arg .portOut then mem (arg .awgMatch) w &&& mem (arg .portMatch) w
  else if a = arg .lambdaOut then sameChAwg &&& mem (arg .exclusiveMask) w
  else mem a w

/-- The words that a chunk stores to an array. -/
lemma mem_store_chunk (m : Machine CombineZmm Empty M) (base : M) {chunk : Nat} {v : Avx512.Vec} {f : Words}
    (words : ∀ i : Fin 8, v i = f (chunk * 8 + i)) (a : M) (w : Nat) :
    (m.store base (chunk * 64) v).mem a w =
      if (chunk * 8 ≤ w ∧ w < chunk * 8 + 8) ∧ a = base then f w else m.mem a w := by
  by_cases here : a = base
  case neg =>
    rw [if_neg (fun h => here h.2)]
    exact congrFun (Function.update_of_ne here ..) w
  case pos =>
    subst here
    rw [Machine.mem_store_self]
    by_cases inside : chunk * 8 ≤ w ∧ w < chunk * 8 + 8
    case pos =>
      rw [dif_pos (by omega), if_pos ⟨inside, rfl⟩, words]
      congr 1
      dsimp only
      omega
    case neg => rw [dif_neg (by omega), if_neg fun h => inside h.1]

lemma mem_chunk (arg : CombineParam → M) (chunk : Nat) (m : Machine CombineZmm Empty M) (a : M) (w : Nat) :
    ((genCombineChunk arg chunk).foldl Machine.step m).mem a w =
      if chunk * 8 ≤ w ∧ w < chunk * 8 + 8 then combineWord arg m.mem a w else m.mem a w := by
  have disp : chunk * 64 / 8 = chunk * 8 := by omega
  simp only [genCombineChunk, List.foldl_cons, List.foldl_nil, Machine.step]
  rw [mem_store_chunk (f := fun w => combineWord arg m.mem (arg .tenantOut) w), Machine.mem_setVec,
    mem_store_chunk (f := fun w => m.mem (arg .awgMatch) w &&& m.mem (arg .portMatch) w), Machine.mem_setVec,
    mem_store_chunk (f := fun w => m.mem (arg .channelMatch) w &&& m.mem (arg .awgMatch) w &&&
      m.mem (arg .exclusiveMask) w)]
  · simp only [Machine.mem_setVec]
    unfold combineWord
    by_cases inside : chunk * 8 ≤ w ∧ w < chunk * 8 + 8
    case neg => simp [inside]
    case pos => simp [inside]
  · intro i
    simp [Machine.load, disp, BitVec.and_comm]
  · intro i
    simp [Machine.load, disp, BitVec.and_comm]
  · intro i
    simp [Machine.load, disp, BitVec.and_comm, combineWord]

lemma combineWord_congr (arg : CombineParam → M) {mem mem' : M → Words} {w : Nat} (same : ∀ x, mem x w = mem' x w)
    (a : M) : combineWord arg mem a w = combineWord arg mem' a w := by
  simp only [combineWord, same]

/-- A word of an array after the call depends on the words at its place before it. -/
lemma mem_combine (arg : CombineParam → M) (regs : Machine CombineZmm Empty M) (a : M) (w : Nat) :
    combineConflictsAVX512 arg regs a w =
      if w < wordsPerPlane then combineWord arg regs.mem a w else regs.mem a w := by
  have run : combineConflictsAVX512 arg regs =
      ((genCombineChunk arg 1).foldl Machine.step ((genCombineChunk arg 0).foldl Machine.step regs)).mem := by
    rw [combineConflictsAVX512, genCombineConflicts, Avx512.exec_ops]
    rfl
  rw [run, mem_chunk, wordsPerPlane]
  split
  case isTrue upper =>
    rw [if_pos (by omega)]
    refine combineWord_congr arg (fun x => ?_) a
    rw [mem_chunk, if_neg (by omega)]
  case isFalse lower =>
    rw [mem_chunk]
    by_cases inside : w < 8
    case pos => rw [if_pos (by omega), if_pos (by omega)]
    case neg => rw [if_neg (by omega), if_neg (by omega)]

/-! ## The kernel and the loops -/

lemma fillWords_of_lt {words w : Nat} (lt : w < words) (f : Nat → BitVec 64) : fillWords words f w = f w := by
  rw [fillWords, foldl_update_range (fun w _ => f w)]
  simp [lt]

lemma exclude_none (a : Words) : a.exclude (-1) = a := by
  rw [Words.exclude, if_neg (by omega)]

/-- The words that the loops combine when no slot is excluded. -/
lemma combineMatches_words (idx : LeaseIndex) (exclusive : Bool) (ch awg port tenant : Words) {words w : Nat}
    (lt : w < words) :
    let masks := idx.combineMatches exclusive (-1) words ch awg port tenant
    masks.lambda w = ch w &&& awg w &&& (idx.exclusive w ||| if exclusive then ~~~0#64 else 0#64) ∧
      masks.port w = awg w &&& port w ∧ masks.tenant w = ch w &&& awg w &&& (idx.active w &&& ~~~tenant w) := by
  simp only [LeaseIndex.combineMatches, exclude_none, fillWords_of_lt lt, and_self]

/-- What is in one of two words and not in the other is the same on both sides only if there is nothing. -/
lemma andNot_comm_iff (t s : BitVec 64) : t &&& ~~~s = s &&& ~~~t ↔ t = s := by
  constructor
  · intro same
    apply BitVec.eq_of_getLsbD_eq
    intro i lt
    have bit := congrArg (·.getLsbD i) same
    simp only [BitVec.getLsbD_and, BitVec.getLsbD_not, lt, decide_true, Bool.true_and] at bit
    revert bit
    cases t.getLsbD i <;> cases s.getLsbD i <;> simp
  · rintro rfl
    rfl

/-- The arrays that a call gives to the kernel: those that the loops combine; channel matches are active. -/
structure CombineArgs (idx : LeaseIndex) (exclusive : Bool) (arg : CombineParam → M)
    (regs : Machine CombineZmm Empty M) : Prop where
  outputs : arg .lambdaOut ≠ arg .portOut ∧ arg .lambdaOut ≠ arg .tenantOut ∧ arg .portOut ≠ arg .tenantOut
  exclusiveMask : ∀ w, regs.mem (arg .exclusiveMask) w = idx.exclusive w ||| if exclusive then ~~~0#64 else 0#64
  active : ∀ w, regs.mem (arg .channelMatch) w &&& idx.active w = regs.mem (arg .channelMatch) w

/-- The kernel and the loops of `computeConflictMasks` find the same lambda and port conflicts, also if an output is one
    of the inputs; a word of the tenant conflicts is the same if and only if the tenant matches in it are the channel
    and AWG matches. No other array is written. -/
theorem combine_kernel_agrees_iff {idx : LeaseIndex} {exclusive : Bool} {arg : CombineParam → M}
    {regs : Machine CombineZmm Empty M} (args : CombineArgs idx exclusive arg regs) :
    let out := combineConflictsAVX512 arg regs
    let loops := idx.combineMatches exclusive (-1) wordsPerPlane (regs.mem (arg .channelMatch))
      (regs.mem (arg .awgMatch)) (regs.mem (arg .portMatch)) (regs.mem (arg .tenantMatch))
    (∀ w < wordsPerPlane, out (arg .lambdaOut) w = loops.lambda w ∧ out (arg .portOut) w = loops.port w ∧
      (out (arg .tenantOut) w = loops.tenant w ↔
        regs.mem (arg .tenantMatch) w = regs.mem (arg .channelMatch) w &&& regs.mem (arg .awgMatch) w)) ∧
    ∀ a, a ≠ arg .lambdaOut → a ≠ arg .portOut → a ≠ arg .tenantOut → out a = regs.mem a := by
  intro out loops
  obtain ⟨lp, lt, pt⟩ := args.outputs
  have written (a : M) (w : Nat) (inside : w < wordsPerPlane) : out a w = combineWord arg regs.mem a w := by
    rw [show out a w = _ from mem_combine arg regs a w, if_pos inside]
  refine ⟨fun w inside => ?_, fun a notLambda notPort notTenant => ?_⟩
  · obtain ⟨lambda, port, tenant⟩ := combineMatches_words idx exclusive (regs.mem (arg .channelMatch))
      (regs.mem (arg .awgMatch)) (regs.mem (arg .portMatch)) (regs.mem (arg .tenantMatch)) inside
    rw [written _ w inside, written _ w inside, written _ w inside, lambda, port, tenant]
    refine ⟨?_, ?_, ?_⟩
    · rw [combineWord, if_neg lt, if_neg lp, if_pos rfl, args.exclusiveMask]
    · rw [combineWord, if_neg pt, if_pos rfl]
    · have active : regs.mem (arg .channelMatch) w &&& regs.mem (arg .awgMatch) w &&&
            (idx.active w &&& ~~~regs.mem (arg .tenantMatch) w) =
          regs.mem (arg .channelMatch) w &&& idx.active w &&& regs.mem (arg .awgMatch) w &&&
            ~~~regs.mem (arg .tenantMatch) w := by
        ac_rfl
      rw [args.active] at active
      rw [combineWord, if_pos rfl, active]
      exact andNot_comm_iff _ _
  · funext w
    rw [show out a w = _ from mem_combine arg regs a w]
    split
    case isTrue => rw [combineWord, if_neg notTenant, if_neg notPort, if_neg notLambda]
    case isFalse => rfl

/-- An index with one active slot. -/
def oneSlot : LeaseIndex :=
  { newLeaseIndex with active := fun w => if w = 0 then 1 else 0, count := 1 }

/-- The outputs take the place of inputs. -/
def inPlace : CombineParam → CombineParam
  | .lambdaOut => .channelMatch
  | .portOut => .portMatch
  | .tenantOut => .tenantMatch
  | p => p

/-- The slot matches in channel and AWG, and not in the tenant. -/
def oneMatch : Machine CombineZmm Empty CombineParam where
  vec _ _ := 0
  gp := Empty.elim
  zf := false
  mem p w := if (p = .channelMatch ∨ p = .awgMatch) ∧ w = 0 then 1 else 0

lemma oneMatch_args : CombineArgs oneSlot false inPlace oneMatch where
  outputs := by decide
  exclusiveMask w := by simp [oneMatch, inPlace, oneSlot, newLeaseIndex]
  active w := by
    by_cases first : w = 0
    case pos => simp [oneMatch, inPlace, oneSlot, first]
    case neg => simp [oneMatch, inPlace, oneSlot, first]

/-- The kernel misses the conflict of the slot with another tenant. -/
theorem combine_kernel_agrees_iff_oneMatch :
    CombineArgs oneSlot false inPlace oneMatch ∧ combineConflictsAVX512 inPlace oneMatch .tenantMatch 0 ≠
      (oneSlot.combineMatches false (-1) wordsPerPlane (oneMatch.mem .channelMatch) (oneMatch.mem .awgMatch)
        (oneMatch.mem .portMatch) (oneMatch.mem .tenantMatch)).tenant 0 := by
  refine ⟨oneMatch_args, fun same => ?_⟩
  have tenant := ((combine_kernel_agrees_iff oneMatch_args).1 0 (by decide)).2.2.mp same
  exact absurd tenant (by decide)

end Otap.Bitweave
