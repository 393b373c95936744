import Otap.Csr.Independence

/-!
# CSR block

Embedding of `rtl/otap_csr_block.sv` with the offsets of `rtl/otap_csr_map.svh`. `CsrBlock.step` is one
rising edge of `clk`; the decoded outputs are combinational functions of the registers. `ADDR_WIDTH` has
its default `12`, and the array `reg_file` is a function of the index.

The block and the register file of the host software hold the same words after the same host writes, and
they decode them alike with one exception: the port `oam_lookup` is a signed 5-bit number, which does not
have the mode `+16`. That mode is looked up as `-16`, so that entry `32` of the OAM table is never read.
-/

namespace Otap.Rtl
open Otap.Lib Otap.Csr

/-! ## Register map -/

def otapRegWavelength : Nat := 0x000
def otapRegCtrl : Nat := 0x004
def otapRegAuthTolerance : Nat := 0x008
def otapRegSecretBase : Nat := 0x010
def otapRegSecretValid : Nat := 0x030
def otapRegSchemaPayloadBase : Nat := 0x040
def otapRegOamTableBase : Nat := 0x100
def otapCsrSpaceBytes : Nat := 0x400

/-! ## The block -/

/-- The registers. -/
structure CsrBlock where
  regFile : Nat → BitVec 32
  rdData : BitVec 32

/-- The inputs of one clock cycle. -/
structure HostPorts where
  rstn : Bool
  wrEn : Bool
  wrAddr : BitVec 12
  wrData : BitVec 32
  rdEn : Bool
  rdAddr : BitVec 12

/-- `addr[1:0] == 2'b00 && addr < OTAP_CSR_SPACE_BYTES`. -/
def decodes (addr : BitVec 12) : Bool :=
  addr.extractLsb' 0 2 == 0 && decide (addr.toNat < otapCsrSpaceBytes)

/-- One rising edge of `clk`. -/
def CsrBlock.step (s : CsrBlock) (i : HostPorts) : CsrBlock where
  regFile :=
    if !i.rstn then fun _ => 0
    else if i.wrEn && decodes i.wrAddr then
      Function.update s.regFile (i.wrAddr.extractLsb' 2 10).toNat i.wrData
    else s.regFile
  rdData :=
    if i.rdEn && decodes i.rdAddr then s.regFile (i.rdAddr.extractLsb' 2 10).toNat else 0

namespace CsrBlock

variable (s : CsrBlock)

def cfgWavelength : BitVec 16 := (s.regFile (otapRegWavelength >>> 2)).extractLsb' 0 16

def cfgCtrl : BitVec 32 := s.regFile (otapRegCtrl >>> 2)

def cfgAuthTolerance : BitVec 32 := s.regFile (otapRegAuthTolerance >>> 2)

def cfgSecretValid : Bool := (s.regFile (otapRegSecretValid >>> 2)).getLsbD 0

/-- Word `k` of the secret registers. -/
def secretWord (k : Nat) : BitVec 32 := s.regFile ((otapRegSecretBase + k * 4) >>> 2)

/-- `cfg_secret[(255 - k*32) -: 32]` is word `k`. -/
def cfgSecret : BitVec 256 :=
  s.secretWord 0 ++ s.secretWord 1 ++ s.secretWord 2 ++ s.secretWord 3 ++
    s.secretWord 4 ++ s.secretWord 5 ++ s.secretWord 6 ++ s.secretWord 7

/-- The output `schema_payload_bytes` for the input `schema_id_lookup`. -/
def schemaPayloadBytes (schemaIdLookup : BitVec 5) : BitVec 16 :=
  let schemaWord := s.regFile ((otapRegSchemaPayloadBase >>> 2) + (schemaIdLookup >>> 1).toNat)
  if schemaIdLookup.getLsbD 0 then schemaWord.extractLsb' 16 16 else schemaWord.extractLsb' 0 16

/-- The output `oam_to_schema_id` for the input `oam_lookup`. -/
def oamToSchemaId (oamLookup : BitVec 5) : BitVec 8 :=
  -- the sum is computed in the six bits of the constant `6'sd16`
  let oamIdx : BitVec 6 := oamLookup.signExtend 6 + 16
  let oamWord := s.regFile ((otapRegOamTableBase >>> 2) + (oamIdx >>> 2).toNat)
  let oamByteInWord := oamIdx.extractLsb' 0 2
  if oamByteInWord = 0 then oamWord.extractLsb' 0 8
  else if oamByteInWord = 1 then oamWord.extractLsb' 8 8
  else if oamByteInWord = 2 then oamWord.extractLsb' 16 8
  else oamWord.extractLsb' 24 8

end CsrBlock

/-! ## Host writes -/

/-- An aligned 32-bit write inside the register space. -/
structure HostWrite where
  offset : Nat
  value : BitVec 32
  inside : offset < 0x400
  aligned : offset % 4 = 0

/-- A clock cycle out of reset: what the host writes in it, if anything, and its read port. -/
structure HostCycle where
  write : Option HostWrite
  rdEn : Bool
  rdAddr : BitVec 12

def HostCycle.ports (c : HostCycle) : HostPorts where
  rstn := true
  wrEn := c.write.isSome
  wrAddr := (c.write.map fun w => BitVec.ofNat 12 w.offset).getD 0
  wrData := (c.write.map fun w => w.value).getD 0
  rdEn := c.rdEn
  rdAddr := c.rdAddr

def resetPorts : HostPorts := ⟨false, false, 0, 0, false, 0⟩

/-- The block after a reset cycle and the given cycles. -/
def CsrBlock.run (s : CsrBlock) (cycles : List HostCycle) : CsrBlock :=
  cycles.foldl (fun s c => s.step c.ports) (s.step resetPorts)

/-- The register file of the host software after the write of a cycle. -/
def softStep (rf : RegisterFile) (c : HostCycle) : RegisterFile :=
  match c.write with
  | none => rf
  | some w => ((writeU32 w.offset w.value).exec rf).2

def softRun (cycles : List HostCycle) : RegisterFile :=
  cycles.foldl softStep RegisterFile.new

/-- The two register files hold the same words. -/
def SameWords (s : CsrBlock) (rf : RegisterFile) : Prop :=
  ∀ k < 256, s.regFile k = rf.word k

lemma softStep_some {c : HostCycle} {w : HostWrite} (rf : RegisterFile) (h : c.write = some w) :
    softStep rf c = rf.setWord (w.offset / 4) w.value := by
  rw [softStep, h]
  dsimp only
  rw [exec_writeU32 w.inside w.aligned]

lemma decodes_offset {offset : Nat} (lt : offset < 0x400) (aligned : offset % 4 = 0) :
    decodes (BitVec.ofNat 12 offset) = true := by
  have low : (BitVec.ofNat 12 offset).extractLsb' 0 2 = 0 := by
    apply BitVec.eq_of_toNat_eq
    rw [BitVec.extractLsb'_toNat, BitVec.toNat_ofNat]
    change (offset % 4096) >>> 0 % 4 = 0
    rw [Nat.shiftRight_zero]
    omega
  have inside : (BitVec.ofNat 12 offset).toNat < otapCsrSpaceBytes := by
    rw [BitVec.toNat_ofNat]
    unfold otapCsrSpaceBytes
    omega
  rw [decodes, low, decide_eq_true inside]
  rfl

lemma index_offset {offset : Nat} (lt : offset < 0x400) :
    ((BitVec.ofNat 12 offset).extractLsb' 2 10).toNat = offset / 4 := by
  rw [BitVec.extractLsb'_toNat, BitVec.toNat_ofNat, Nat.shiftRight_eq_div_pow]
  omega

lemma sameWords_reset (s : CsrBlock) : SameWords (s.step resetPorts) RegisterFile.new := by
  intro k _
  rw [word_new]
  rfl

lemma sameWords_step {s : CsrBlock} {rf : RegisterFile} (same : SameWords s rf) (c : HostCycle) :
    SameWords (s.step c.ports) (softStep rf c) := by
  intro k lt
  cases h : c.write with
  | none =>
    have soft : softStep rf c = rf := by rw [softStep, h]
    have hard : (s.step c.ports).regFile = s.regFile := by simp [CsrBlock.step, HostCycle.ports, h]
    rw [soft, hard]
    exact same k lt
  | some w =>
    have inside := w.inside
    have hard : (s.step c.ports).regFile = Function.update s.regFile (w.offset / 4) w.value := by
      simp [CsrBlock.step, HostCycle.ports, h, decodes_offset w.inside w.aligned, index_offset w.inside]
    rw [softStep_some rf h, hard, word_setWord rf (by omega), Function.update_apply]
    split
    case isTrue e => rw [if_pos e.symm]
    case isFalse ne => rw [if_neg (Ne.symm ne), same k lt]

/-- After the same host writes the two register files are equal word for word. -/
lemma sameWords_run (s : CsrBlock) (cycles : List HostCycle) : SameWords (s.run cycles) (softRun cycles) := by
  have gen : ∀ (s : CsrBlock) (rf : RegisterFile), SameWords s rf →
      SameWords (cycles.foldl (fun s c => s.step c.ports) s) (cycles.foldl softStep rf) := by
    induction cycles with
    | nil => exact fun s rf same => same
    | cons c cycles ih => exact fun s rf same => ih _ _ (sameWords_step same c)
  exact gen _ _ (sameWords_reset s)

/-! ## Decoded outputs -/

lemma cfgSecret_word (s : CsrBlock) {k : Nat} (lt : k < 8) :
    s.cfgSecret.extractLsb' (224 - 32 * k) 32 = s.secretWord k := by
  apply BitVec.eq_of_getLsbD_eq
  intro i hi
  simp only [CsrBlock.cfgSecret, BitVec.getLsbD_extractLsb', BitVec.getLsbD_append, hi, decide_true, Bool.true_and]
  interval_cases k <;> grind

/-- The bytes of a 256-bit value, the most significant one first. -/
def bigEndianBytes (x : BitVec 256) : Vector (BitVec 8) 32 :=
  Vector.ofFn fun j => x.extractLsb' (248 - 8 * j.val) 8

lemma cfgSecret_byte (s : CsrBlock) {j : Nat} (lt : j < 32) :
    s.cfgSecret.extractLsb' (248 - 8 * j) 8 = toBeByte (s.secretWord (j / 4)) (j % 4) := by
  have start : 248 - 8 * j = 224 - 32 * (j / 4) + (24 - 8 * (j % 4)) := by omega
  rw [toBeByte, ← cfgSecret_word s (by omega : j / 4 < 8), start]
  apply BitVec.eq_of_getLsbD_eq
  intro i hi
  have inWord : 24 - 8 * (j % 4) + i < 32 := by omega
  simp only [BitVec.getLsbD_extractLsb', hi, inWord, decide_true, Bool.true_and, Nat.add_assoc]

lemma oamToSchemaId_eq (s : CsrBlock) (l : BitVec 5) {idx : Nat} (h : (l.signExtend 6 + 16).toNat = idx) :
    s.oamToSchemaId l = (s.regFile (64 + idx / 4)).extractLsb' (idx % 4 * 8) 8 := by
  unfold CsrBlock.oamToSchemaId
  generalize l.signExtend 6 + 16 = x at h
  subst h
  have row : (otapRegOamTableBase >>> 2) + (x >>> 2).toNat = 64 + x.toNat / 4 := by
    rw [BitVec.toNat_ushiftRight, Nat.shiftRight_eq_div_pow x.toNat]
    rfl
  have col : (x.extractLsb' 0 2).toNat = x.toNat % 4 := by
    rw [BitVec.extractLsb'_toNat, Nat.shiftRight_zero]
  dsimp only
  rw [row]
  have isCol (n : BitVec 2) : x.extractLsb' 0 2 = n ↔ x.toNat % 4 = n.toNat := by
    rw [← col, BitVec.toNat_inj]
  simp only [isCol]
  change (if x.toNat % 4 = 0 then _ else if x.toNat % 4 = 1 then _ else if x.toNat % 4 = 2 then _ else _) = _
  split
  case isTrue e => rw [e]
  case isFalse =>
    split
    case isTrue e => rw [e]
    case isFalse =>
      split
      case isTrue e => rw [e]
      case isFalse => rw [show x.toNat % 4 = 3 by omega]

/-- The port carries every mode but `+16` to its entry. -/
lemma oamIdx_eq {m : OamMode} (ne : m.charge ≠ 16) :
    ((BitVec.ofInt 5 m.charge).signExtend 6 + 16).toNat = m.index := by
  obtain ⟨c, lo, hi⟩ := m
  have hi : c ≤ 15 := by
    change c ≠ 16 at ne
    omega
  simp only [OamMode.index]
  interval_cases c <;> rfl

section Decoded

variable {s : CsrBlock} {rf : RegisterFile} (same : SameWords s rf)

include same

lemma SameWords.wavelength : view.wavelengthField rf = .ok s.cfgWavelength := by
  rw [view.wavelengthField_eq, ← same 0 (by decide)]
  rfl

lemma SameWords.ctrl : view.ctrl rf = .ok s.cfgCtrl := by
  rw [view.ctrl_eq, ← same 1 (by decide)]
  rfl

lemma SameWords.secretValid : view.secretValid rf = .ok s.cfgSecretValid := by
  rw [view.secretValid_eq, ← same 12 (by decide)]
  rfl

lemma SameWords.secret :
    view.sharedSecret rf = .ok (if s.cfgSecretValid then some (bigEndianBytes s.cfgSecret) else none) := by
  have bytes : view.secretBytes rf = bigEndianBytes s.cfgSecret := by
    refine Vector.ext fun j lt => ?_
    have index : (otapRegSecretBase + j / 4 * 4) >>> 2 = 4 + j / 4 := by
      rw [Nat.shiftRight_eq_div_pow]
      unfold otapRegSecretBase
      omega
    simp only [view.secretBytes, bigEndianBytes, Vector.getElem_ofFn]
    rw [cfgSecret_byte s lt, CsrBlock.secretWord, index, same _ (by omega)]
  rw [view.sharedSecret_eq, bytes, ← same 12 (by decide)]
  rfl

lemma SameWords.schema {id : BitVec 8} (lo : 1 ≤ id.toNat) (hi : id.toNat ≤ 31) :
    view.schemaPayloadBytes rf id = .ok (s.schemaPayloadBytes (id.setWidth 5)) := by
  have value : (id.setWidth 5).toNat = id.toNat := by
    rw [BitVec.toNat_setWidth]
    exact Nat.mod_eq_of_lt (by omega)
  have row : (otapRegSchemaPayloadBase >>> 2) + (id.setWidth 5 >>> 1).toNat = 16 + id.toNat / 2 := by
    rw [BitVec.toNat_ushiftRight, Nat.shiftRight_eq_div_pow, value]
    rfl
  have odd : (id.setWidth 5).getLsbD 0 = decide (id.toNat % 2 = 1) := by
    rw [BitVec.getLsbD, value, Nat.testBit_zero]
  rw [view.schemaPayloadBytes_eq (schemaId_ne_zero lo) (by omega), CsrBlock.schemaPayloadBytes, row, odd,
    same _ (by omega)]
  rcases Nat.mod_two_eq_zero_or_one id.toNat with even | odd
  · rw [even]
    rfl
  · rw [odd]
    rfl

lemma SameWords.oam_lookup {m m' : OamMode} (ne : m'.charge ≠ 16)
    (port : BitVec.ofInt 5 m.charge = BitVec.ofInt 5 m'.charge) :
    s.oamToSchemaId (BitVec.ofInt 5 m.charge) = (rf.word (64 + m'.index / 4)).extractLsb' (m'.index % 4 * 8) 8 := by
  have le := m'.index_le
  rw [port, oamToSchemaId_eq s _ (oamIdx_eq ne), same _ (by omega)]

end Decoded

/-! ## Main result -/

/-- The block presents what the host software reads from its register file: the words themselves, and the
    decoded outputs against the accessors of `CsrView`. The secret is compared when it is valid; a mode is
    looked up by its charge in the five bits of the port. -/
structure Agrees (s : CsrBlock) (rf : RegisterFile) : Prop where
  words : SameWords s rf
  wavelength : view.wavelengthField rf = .ok s.cfgWavelength
  ctrl : view.ctrl rf = .ok s.cfgCtrl
  secretValid : view.secretValid rf = .ok s.cfgSecretValid
  secret : view.sharedSecret rf = .ok (if s.cfgSecretValid then some (bigEndianBytes s.cfgSecret) else none)
  schema : ∀ id : BitVec 8, 1 ≤ id.toNat → id.toNat ≤ 31 →
    view.schemaPayloadBytes rf id = .ok (s.schemaPayloadBytes (id.setWidth 5))
  oam : ∀ m : OamMode, view.schemaIdForOam rf m = .ok (s.oamToSchemaId (BitVec.ofInt 5 m.charge))

/-- The low byte that a cycle writes to a register. -/
def HostCycle.lowByteAt (offset : Nat) (c : HostCycle) : Option (BitVec 8) :=
  c.write.bind fun w => if w.offset = offset then some (w.value.extractLsb' 0 8) else none

/-- The low byte of a register after the host writes. -/
def lastByteAt (offset : Nat) (cycles : List HostCycle) : BitVec 8 :=
  (lastWrite (HostCycle.lowByteAt offset) cycles).getD 0

lemma lowByte_softRun {offset : Nat} (aligned : offset % 4 = 0) (cycles : List HostCycle) :
    ((softRun cycles).word (offset / 4)).extractLsb' 0 8 = lastByteAt offset cycles := by
  have law : ∀ (rf : RegisterFile) (c : HostCycle), ((softStep rf c).word (offset / 4)).extractLsb' 0 8 =
      (c.lowByteAt offset).getD ((rf.word (offset / 4)).extractLsb' 0 8) := by
    intro rf c
    unfold HostCycle.lowByteAt
    cases h : c.write with
    | none => rw [softStep, h]; rfl
    | some w =>
      have inside := w.inside
      have aligned' := w.aligned
      rw [softStep_some rf h, word_setWord rf (by omega), Option.bind_some]
      by_cases e : w.offset = offset
      case pos => rw [if_pos (by rw [e]), if_pos e, Option.getD_some]
      case neg => rw [if_neg (by omega), if_neg e, Option.getD_none]
  have zero : (RegisterFile.new.word (offset / 4)).extractLsb' 0 8 = 0 := by
    rw [word_new]
    exact BitVec.extractLsb'_zero
  have last := @read_run _ _ _ _ (fun rf => (rf.word (offset / 4)).extractLsb' 0 8) _ law RegisterFile.new cycles
  rw [zero] at last
  exact last

/-- The modes at the two ends of the range. -/
def lowestMode : OamMode := ⟨-16, by decide, by decide⟩
def highestMode : OamMode := ⟨16, by decide, by decide⟩

/-- The block agrees with the host software exactly when the entries of the modes `-16` and `+16` hold the
    same schema ID. -/
theorem csr_block_agrees_iff (s : CsrBlock) (cycles : List HostCycle) :
    Agrees (s.run cycles) (softRun cycles) ↔ lastByteAt 0x100 cycles = lastByteAt 0x120 cycles := by
  have same := sameWords_run s cycles
  -- the two ends of the table are the low bytes of its first and of its last word
  have low : (s.run cycles).oamToSchemaId (BitVec.ofInt 5 lowestMode.charge) = lastByteAt 0x100 cycles :=
    (same.oam_lookup (by decide : lowestMode.charge ≠ 16) rfl).trans (@lowByte_softRun 0x100 rfl cycles)
  have high : view.schemaIdForOam (softRun cycles) highestMode = .ok (lastByteAt 0x120 cycles) :=
    (view.schemaIdForOam_eq highestMode).trans (congrArg Except.ok (@lowByte_softRun 0x120 rfl cycles))
  -- truncated to the port, the highest mode is the lowest one
  have port : BitVec.ofInt 5 highestMode.charge = BitVec.ofInt 5 lowestMode.charge := rfl
  constructor
  · intro agrees
    have e := agrees.oam highestMode
    rw [high, port, low] at e
    exact (Except.ok.inj e).symm
  · intro e
    refine ⟨same, same.wavelength, same.ctrl, same.secretValid, same.secret,
      fun id lo hi => same.schema lo hi, fun m => ?_⟩
    by_cases top : m.charge = 16
    case pos =>
      obtain rfl : m = highestMode := by
        cases m
        cases top
        rfl
      rw [high, port, low, e]
    case neg => rw [view.schemaIdForOam_eq, same.oam_lookup top rfl]

/-- The schema of mode `-16` is presented for mode `+16` too. -/
def boundLowest : List HostCycle := [⟨some ⟨0x100, 1, by decide, by decide⟩, false, 0⟩]

theorem not_csr_block_agrees : ¬ Agrees ((⟨fun _ => 0, 0⟩ : CsrBlock).run boundLowest) (softRun boundLowest) := by
  intro agrees
  have e := agrees.oam highestMode
  revert e
  decide +kernel

end Otap.Rtl
