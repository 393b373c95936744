import Otap.Bitweave.Adapter
import Otap.Flr.InvalidityProofs

/-!
# Wavelength identity

Whether two leases have one wavelength is decided in four places: the registry compares the keys of `ToKey`, the
federation and the translation tables compare wavelength, channel and band, and the bit-plane adapter compares the
channel and 16 bits of the band. `wavelength_identity_iff` says for which pairs the four agree.
-/

namespace Otap.Flr

open Otap.Lib Otap.Bitweave

/-- `wavelengthsEqual` of `flr/internal/xlat/manager.go`. -/
def wavelengthsEqual (a b : Option Wavelength) : Bool :=
  match a, b with
  | some a, some b => a.lambdaNm.equal b.lambdaNm && a.channelNum == b.channelNum && a.band == b.band
  | _, _ => false

/-! ## Keys -/

lemma colon_notMem_formatFixed (prec : Nat) (x : Float64) : (58 : UInt8) ∉ x.formatFixed prec := by
  unfold Float64.formatFixed
  split
  case isTrue =>
    have sign : (58 : UInt8) ∉ (if x.negative then ascii "-" else []) := by
      split <;> decide
    have zeros : ∀ n, (58 : UInt8) ∉ List.replicate n (48 : UInt8) := fun n mem =>
      absurd (List.eq_of_mem_replicate mem) (by decide)
    have point : (58 : UInt8) ∉ ascii "." := by decide
    simp only [List.mem_append, not_or]
    exact ⟨⟨⟨⟨sign, colon_notMem_decimal _⟩, point⟩, zeros _⟩, colon_notMem_decimal _⟩
  case isFalse =>
    split
    case isTrue => split <;> decide
    case isFalse => decide

lemma colon_notMem_bandString (b : Band) : (58 : UInt8) ∉ bandString b := by
  unfold bandString
  split_ifs <;> decide

/-- A key shows the four parts that it is made of. -/
lemma toKey_eq_iff {w v : Wavelength} :
    w.toKey = v.toKey ↔
      w.lambdaNm.formatFixed 2 = v.lambdaNm.formatFixed 2 ∧ w.channelNum = v.channelNum ∧
        bandString w.band = bandString v.band ∧ w.gridGHz.formatFixed 1 = v.gridGHz.formatFixed 1 := by
  constructor
  · intro same
    simp only [Wavelength.toKey, List.append_assoc] at same
    obtain ⟨lambda, same⟩ := separated_inj_left (colon_notMem_formatFixed 2 _) (colon_notMem_formatFixed 2 _) same
    obtain ⟨channel, same⟩ := separated_inj_left (colon_notMem_decimalInt _) (colon_notMem_decimalInt _) same
    obtain ⟨band, grid⟩ := separated_inj_left (colon_notMem_bandString _) (colon_notMem_bandString _) same
    exact ⟨lambda, Int32.toInt_inj.mp (decimalInt_inj channel), band, grid⟩
  · rintro ⟨lambda, channel, band, grid⟩
    rw [Wavelength.toKey, Wavelength.toKey, lambda, channel, band, grid]

/-! ## The four tests -/

section
variable {a b : Lease} {w v : Wavelength} {now : Time}

lemma wavelengthsEqual_iff :
    wavelengthsEqual (some w) (some v) = true ↔
      w.lambdaNm.equal v.lambdaNm = true ∧ w.channelNum = v.channelNum ∧ w.band = v.band := by
  rw [wavelengthsEqual, Bool.and_eq_true, Bool.and_eq_true, beq_iff_eq, beq_iff_eq, and_assoc]

/-- Between leases that are running the test of the federation is that of the translation tables. -/
lemma checkDoubleAllocation_active (wa : a.wavelength = some w) (wb : b.wavelength = some v)
    (activeA : a.ActiveAt now) (activeB : b.ActiveAt now) :
    checkDoubleAllocation now (some a) (some b) = true ↔ wavelengthsEqual (some w) (some v) = true := by
  rw [checkDoubleAllocation_iff, wavelengthsEqual_iff]
  constructor
  · rintro ⟨⟨w', v', wa', wb', same⟩, -⟩
    cases wa.symm.trans wa'
    cases wb.symm.trans wb'
    exact same
  · intro same
    exact ⟨⟨w, v, wa, wb, same⟩, ⟨activeA, activeB⟩, (activeB.1.trans_le activeA.2).le,
      (activeA.1.trans_le activeB.2).le⟩

lemma reports_iff_fields {ce : ConflictEngine} (rep : ∃ ref, Represents ce.index ref) (holds : ce.Holds a)
    (wa : a.wavelength = some w) (wb : b.wavelength = some v) :
    ce.Reports a b ↔
      w.channelNum = v.channelNum ∧ w.band.toBitVec.setWidth 16 = v.band.toBitVec.setWidth 16 := by
  rw [reports_iff rep holds, leaseChannelNum, leaseChannelNum, leaseAwgID, leaseAwgID, wa, wb]
  exact and_congr_left fun _ => Int32.toBitVec_inj

end

/-! ## Main result -/

/-- The four tests give one answer about the leases. -/
structure Agree (ce : ConflictEngine) (now : Time) (a b : Lease) (w v : Wavelength) : Prop where
  registry : w.toKey = v.toKey ↔ checkDoubleAllocation now (some a) (some b) = true
  federation : checkDoubleAllocation now (some a) (some b) = true ↔ wavelengthsEqual (some w) (some v) = true
  xlat : wavelengthsEqual (some w) (some v) = true ↔ ce.Reports a b

/-- The wavelengths differ in what every test reads, or are equal in what any of them reads. -/
def Unambiguous (w v : Wavelength) : Prop :=
  w.channelNum ≠ v.channelNum ∨
  w.band.toBitVec.setWidth 16 ≠ v.band.toBitVec.setWidth 16 ∧
    ¬ (w.lambdaNm.formatFixed 2 = v.lambdaNm.formatFixed 2 ∧ bandString w.band = bandString v.band ∧
      w.gridGHz.formatFixed 1 = v.gridGHz.formatFixed 1) ∨
  w.band = v.band ∧ w.lambdaNm.equal v.lambdaNm = true ∧
    w.lambdaNm.formatFixed 2 = v.lambdaNm.formatFixed 2 ∧ w.gridGHz.formatFixed 1 = v.gridGHz.formatFixed 1

/-- For two running leases, and any engine that calls reach and that holds the first, the four tests agree if and
    only if the wavelengths are unambiguous. -/
theorem wavelength_identity_iff (calls : List EngineCall) {a b : Lease} {w v : Wavelength} {now : Time}
    (wa : a.wavelength = some w) (wb : b.wavelength = some v) (activeA : a.ActiveAt now) (activeB : b.ActiveAt now)
    (holds : (reachedEngine calls).Holds a) :
    Agree (reachedEngine calls) now a b w v ↔ Unambiguous w v := by
  have federation := checkDoubleAllocation_active wa wb activeA activeB
  have bitweave := reports_iff_fields (b := b) (represents_run calls) holds wa wb
  have narrow : w.band = v.band → w.band.toBitVec.setWidth 16 = v.band.toBitVec.setWidth 16 := fun e => by rw [e]
  have name : w.band = v.band → bandString w.band = bandString v.band := congrArg bandString
  unfold Unambiguous
  constructor
  · rintro ⟨registry, -, xlat⟩
    rw [federation, toKey_eq_iff, wavelengthsEqual_iff] at registry
    rw [wavelengthsEqual_iff, bitweave] at xlat
    grind
  · intro unambiguous
    refine ⟨?_, federation, ?_⟩
    · rw [federation, toKey_eq_iff, wavelengthsEqual_iff]
      grind
    · rw [wavelengthsEqual_iff, bitweave]
      grind

/-- Channel 33 of the C band on the 50 GHz grid, at a wavelength given by its bits. -/
def wavelengthAt (lambdaNm : UInt64) : Wavelength where
  lambdaNm := ⟨lambdaNm⟩
  channelNum := 33
  band := bandCBand
  gridGHz := ⟨0x4049000000000000⟩

def leaseAt (id : Bytes) (lambdaNm : UInt64) : Lease :=
  { leaseA with id, wavelength := some (wavelengthAt lambdaNm) }

lemma holds_leaseAt (id : Bytes) (lambdaNm : UInt64) :
    (reachedEngine [.indexLease (leaseAt id lambdaNm)]).Holds (leaseAt id lambdaNm) :=
  holds_indexLease ⟨_, Represents.init⟩ rfl (by decide)

/-- Two leases at 1550.12 nm. -/
theorem wavelength_identity_same :
    Agree (reachedEngine [.indexLease (leaseAt (ascii "a") 0x4098387ae147ae14)]) 5
      (leaseAt (ascii "a") 0x4098387ae147ae14) (leaseAt (ascii "b") 0x4098387ae147ae14)
      (wavelengthAt 0x4098387ae147ae14) (wavelengthAt 0x4098387ae147ae14) :=
  (wavelength_identity_iff _ rfl rfl (by decide) (by decide) (holds_leaseAt _ _)).mpr
    (.inr (.inr ⟨rfl, by decide, rfl, rfl⟩))

/-- Leases at 1550.121 nm and 1550.124 nm have one key and collide in the adapter, and are apart for the other two
    tests. -/
theorem not_wavelength_identity :
    (wavelengthAt 0x4098387be76c8b44).toKey = (wavelengthAt 0x4098387ef9db22d1).toKey ∧
    (reachedEngine [.indexLease (leaseAt (ascii "a") 0x4098387be76c8b44)]).Reports
      (leaseAt (ascii "a") 0x4098387be76c8b44) (leaseAt (ascii "b") 0x4098387ef9db22d1) ∧
    checkDoubleAllocation 5 (some (leaseAt (ascii "a") 0x4098387be76c8b44))
      (some (leaseAt (ascii "b") 0x4098387ef9db22d1)) = false ∧
    ¬ Agree (reachedEngine [.indexLease (leaseAt (ascii "a") 0x4098387be76c8b44)]) 5
      (leaseAt (ascii "a") 0x4098387be76c8b44) (leaseAt (ascii "b") 0x4098387ef9db22d1)
      (wavelengthAt 0x4098387be76c8b44) (wavelengthAt 0x4098387ef9db22d1) := by
  have key : (wavelengthAt 0x4098387be76c8b44).toKey = (wavelengthAt 0x4098387ef9db22d1).toKey := by decide +kernel
  have apart : checkDoubleAllocation 5 (some (leaseAt (ascii "a") 0x4098387be76c8b44))
      (some (leaseAt (ascii "b") 0x4098387ef9db22d1)) = false := by decide +kernel
  refine ⟨key, ?_, apart, fun agree => ?_⟩
  · exact (reports_iff_fields (v := wavelengthAt 0x4098387ef9db22d1) (represents_run _) (holds_leaseAt _ _) rfl
      rfl).mpr ⟨rfl, rfl⟩
  · cases apart.symm.trans (agree.registry.mp key)

end Otap.Flr
