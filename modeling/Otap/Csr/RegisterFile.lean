import Otap.Lib.Fields

/-!
# CSR register file

Embedding of `otap-csr/src/lib.rs`: the register offsets, `RegisterFile`, the typed setters of `writer`
and the typed accessors of `view::CsrView`, with the parts of `Wavelength` and `OamMode` of `otap-core`
that they use. Machine integers are bit vectors of their width, except for `i8` charges and `usize`
offsets, which are `Int` and `Nat`.

A setter runs in `Update`, the state monad of the register file with errors: what was written before an
error stays written. The conversion of the tolerance from radians is floating point arithmetic and is
left out; `setAuthTolerance` takes the milliradians.
-/

namespace Otap.Csr
open Otap.Lib

/-- A register. -/
abbrev Word := BitVec 32

/-! ## Protocol values -/

/-- The error of `Wavelength::new`. -/
inductive ProtocolError where
  | wavelengthOutOfRange (channel max : BitVec 16)
  deriving DecidableEq, Repr

/-- A DWDM channel index. -/
structure Wavelength where
  channel : BitVec 16
  le_max : channel ≤ 351
  deriving DecidableEq, Repr

/-- `Wavelength::MAX_CHANNEL`. -/
def Wavelength.maxChannel : BitVec 16 := 351

/-- `Wavelength::new`. -/
def Wavelength.new (channel : BitVec 16) : Except ProtocolError Wavelength :=
  if h : channel > maxChannel then .error (.wavelengthOutOfRange channel maxChannel)
  else .ok ⟨channel, BitVec.not_lt.mp h⟩

/-- The topological charge of an orbital angular momentum mode. -/
structure OamMode where
  charge : Int
  min_le : -16 ≤ charge
  le_max : charge ≤ 16
  deriving DecidableEq, Repr

/-! ## Register offsets -/

def regWavelength : Nat := 0x000
def regCtrl : Nat := 0x004
def regAuthTolerance : Nat := 0x008
def regSecretBase : Nat := 0x010
def secretWords : Nat := 8
def regSecretValid : Nat := 0x030
def regSchemaPayloadBase : Nat := 0x040
def schemaTableEntries : Nat := 32
def regOamTableBase : Nat := 0x100

/-- The size of the register space, in bytes -/
def csrSpaceBytes : Nat := 0x400
/-- and in registers. -/
def csrSpaceWords : Nat := csrSpaceBytes / 4

/-- The bits of `CTRL`: the transmitter is on, -/
def ctrlEnableTx : Word := 1 <<< 0
/-- the receiver is on, -/
def ctrlEnableRx : Word := 1 <<< 1
/-- authentication is topological. -/
def ctrlAuthTopological : Word := 1 <<< 2

/-! ## The register file -/

/-- `CsrError`. -/
inductive CsrError where
  | outOfRange (offset size : Nat)
  | misaligned (offset : Nat)
  | schemaIdOutOfRange (id : BitVec 8) (entries : Nat)
  | oamOutOfRange (charge : Int)
  | protocol (e : ProtocolError)
  deriving DecidableEq, Repr

/-- `RegisterFile`. -/
structure RegisterFile where
  words : Vector Word csrSpaceWords
  deriving DecidableEq

/-- `RegisterFile::new`: all zero. -/
def RegisterFile.new : RegisterFile := ⟨Vector.replicate csrSpaceWords 0⟩

/-- `words[k]`. -/
def RegisterFile.word (rf : RegisterFile) (k : Nat) : Word :=
  rf.words[k]?.getD 0

/-- `words[k] = value`. -/
def RegisterFile.setWord (rf : RegisterFile) (k : Nat) (value : Word) : RegisterFile :=
  ⟨rf.words.setIfInBounds k value⟩

/-- `RegisterFile::read_u32`. -/
def RegisterFile.readU32 (rf : RegisterFile) (offset : Nat) : Except CsrError Word :=
  if offset ≥ csrSpaceBytes then .error (.outOfRange offset csrSpaceBytes)
  else if offset &&& 0x3 ≠ 0 then .error (.misaligned offset)
  else .ok (rf.word (offset / 4))

/-- Code that has the register file as `&mut RegisterFile` and returns a `CsrResult`. -/
abbrev Update (α : Type) := ExceptT CsrError (StateM RegisterFile) α

/-- The result and the register file after it. -/
def Update.exec {α : Type} (m : Update α) (rf : RegisterFile) : Except CsrError α × RegisterFile :=
  m.run.run rf

/-- `read_u32` in a setter, -/
def readU32 (offset : Nat) : Update Word := do
  let rf ← get
  liftExcept (rf.readU32 offset)

/-- and `write_u32`. -/
def writeU32 (offset : Nat) (value : Word) : Update Unit := do
  if offset ≥ csrSpaceBytes then throw (.outOfRange offset csrSpaceBytes)
  if offset &&& 0x3 ≠ 0 then throw (.misaligned offset)
  modify fun rf => rf.setWord (offset / 4) value

/-! ## Writer -/

/-- `u32::from_be_bytes`. -/
def fromBeBytes (a b c d : BitVec 8) : Word := a ++ b ++ c ++ d

/-- Byte `i` of `to_be_bytes`. -/
def toBeByte (w : Word) (i : Nat) : BitVec 8 := w.extractLsb' (24 - 8 * i) 8

namespace writer

/-- `writer::set_wavelength`. -/
def setWavelength (w : Wavelength) : Update Unit :=
  writeU32 regWavelength (w.channel.setWidth 32)

/-- `writer::set_ctrl`. -/
def setCtrl (value : Word) : Update Unit :=
  writeU32 regCtrl value

/-- `writer::set_auth_tolerance`, from the milliradians on. -/
def setAuthTolerance (mrad : Word) : Update Unit :=
  writeU32 regAuthTolerance mrad

/-- Word `i` of the secret. -/
def secretWord (secretBytes : Vector (BitVec 8) 32) (i : Nat) : Word :=
  fromBeBytes secretBytes[i * 4]! secretBytes[i * 4 + 1]! secretBytes[i * 4 + 2]! secretBytes[i * 4 + 3]!

/-- `writer::set_secret`: the words first, then that they are valid. -/
def setSecret (secretBytes : Vector (BitVec 8) 32) : Update Unit := do
  (List.range secretWords).forM fun i => writeU32 (regSecretBase + i * 4) (secretWord secretBytes i)
  writeU32 regSecretValid 1

/-- `writer::set_schema_payload`: two entries share a register. -/
def setSchemaPayload (schemaId : BitVec 8) (payloadBytes : BitVec 16) : Update Unit := do
  if schemaId = 0 ∨ schemaId.toNat ≥ schemaTableEntries then
    throw (.schemaIdOutOfRange schemaId schemaTableEntries)
  let entry := schemaId.toNat
  let wordOff := regSchemaPayloadBase + entry / 2 * 4
  let word ← readU32 wordOff
  if entry % 2 = 0 then
    writeU32 wordOff ((word &&& (0xFFFF0000 : Word)) ||| payloadBytes.setWidth 32)
  else
    writeU32 wordOff ((word &&& (0x0000FFFF : Word)) ||| (payloadBytes.setWidth 32 <<< 16))

/-- `writer::set_oam_to_schema`: four entries share a register. -/
def setOamToSchema (oam : OamMode) (schemaId : BitVec 8) : Update Unit := do
  let idx := oam.charge + 16
  if ¬ (0 ≤ idx ∧ idx ≤ 32) then throw (.oamOutOfRange oam.charge)
  let idx := idx.toNat
  let wordOff := regOamTableBase + idx / 4 * 4
  let word ← readU32 wordOff
  let shift := idx % 4 * 8
  let word := word &&& ~~~((0xFF : Word) <<< shift)
  let word := word ||| (schemaId.setWidth 32 <<< shift)
  writeU32 wordOff word

end writer

/-! ## View -/

namespace view

/-- The channel field of the wavelength register. -/
def wavelengthField (rf : RegisterFile) : Except CsrError (BitVec 16) := do
  let v ← rf.readU32 regWavelength
  return (v &&& (0xFFFF : Word)).setWidth 16

/-- `CsrView::wavelength`. -/
def wavelength (rf : RegisterFile) : Except CsrError Wavelength := do
  let channel ← wavelengthField rf
  (Wavelength.new channel).mapError .protocol

/-- `CsrView::ctrl`. -/
def ctrl (rf : RegisterFile) : Except CsrError Word :=
  rf.readU32 regCtrl

/-- `CsrView::secret_valid`. -/
def secretValid (rf : RegisterFile) : Except CsrError Bool := do
  let v ← rf.readU32 regSecretValid
  return v &&& (1 : Word) != 0

/-- The key material, `None` when `SECRET_VALID` is not set. -/
def sharedSecret (rf : RegisterFile) : Except CsrError (Option (Vector (BitVec 8) 32)) := do
  let valid ← secretValid rf
  if !valid then return none
  let words ← (List.range secretWords).mapM fun i => rf.readU32 (regSecretBase + i * 4)
  return some (Vector.ofFn fun j => toBeByte (words[j.val / 4]?.getD 0) (j.val % 4))

/-- `CsrView::schema_payload_bytes`. -/
def schemaPayloadBytes (rf : RegisterFile) (schemaId : BitVec 8) : Except CsrError (BitVec 16) := do
  if schemaId = 0 ∨ schemaId.toNat ≥ schemaTableEntries then
    throw (.schemaIdOutOfRange schemaId schemaTableEntries)
  let entry := schemaId.toNat
  let wordOff := regSchemaPayloadBase + entry / 2 * 4
  let word ← rf.readU32 wordOff
  let half := if entry % 2 = 0 then word &&& (0xFFFF : Word) else (word >>> 16) &&& (0xFFFF : Word)
  return half.setWidth 16

/-- `CsrView::schema_id_for_oam`. -/
def schemaIdForOam (rf : RegisterFile) (oam : OamMode) : Except CsrError (BitVec 8) := do
  let idx := oam.charge + 16
  if ¬ (0 ≤ idx ∧ idx ≤ 32) then throw (.oamOutOfRange oam.charge)
  let idx := idx.toNat
  let wordOff := regOamTableBase + idx / 4 * 4
  let byteInWord := idx % 4
  let word ← rf.readU32 wordOff
  return ((word >>> (byteInWord * 8)) &&& (0xFF : Word)).setWidth 8

end view

end Otap.Csr
