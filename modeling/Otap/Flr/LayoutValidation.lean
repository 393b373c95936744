import Otap.Flr.SchemaEngine

/-!
# What layout validation accepts

`ApplicationSchema.Validate` of `flr/internal/models/schema.go` against its purpose: the byte ranges of the fields, in
unbounded integers, partition the payload.

The code computes the end of a field in `int32`. A field whose end passes `2 ^ 31 - 1` wraps to a negative end, and then
it has no bytes: `TotalBytes` does not see it and the loop over its bytes does not run. `validate_ok_iff` says what is
accepted: well-formed fields, of which those that do not wrap make an exact layout. So `validate_exact_iff`: a schema
is judged wrongly exactly if some field wraps and the others alone are an exact layout.
-/

namespace Otap.Flr

open Otap.Lib

/-! ## Exact layouts -/

namespace CanonicalFieldDef

/-- The end of the field in unbounded integers. -/
def stop (f : CanonicalFieldDef) : Int :=
  f.offset.toInt + f.length.toInt

/-- The byte range `[Offset, Offset + Length)`. -/
def range (f : CanonicalFieldDef) : Set Int :=
  Set.Ico f.offset.toInt f.stop

/-- A name, an offset that is not negative, a positive length and, for a type of fixed width, that width. -/
structure Sound (f : CanonicalFieldDef) : Prop where
  name : f.name ≠ []
  offset : 0 ≤ f.offset.toInt
  length : 0 < f.length.toInt
  width : 0 < fieldTypeSizeBytes f.type → f.length.toInt = fieldTypeSizeBytes f.type

/-- The end of the field is no `int32`. -/
def Wraps (f : CanonicalFieldDef) : Prop :=
  2 ^ 31 ≤ f.stop

instance (f : CanonicalFieldDef) : Decidable f.Wraps :=
  inferInstanceAs (Decidable (_ ≤ _))

end CanonicalFieldDef

/-- The ranges of the fields partition `[0, size)`. -/
structure Partitions (fields : List CanonicalFieldDef) (size : Int) : Prop where
  disjoint : fields.Pairwise fun f g => ∀ b ∈ f.range, b ∉ g.range
  cover : ∀ b, (∃ f ∈ fields, b ∈ f.range) ↔ 0 ≤ b ∧ b < size

/-- The schema with other fields. -/
def ApplicationSchema.withFields (s : ApplicationSchema) (fields : List CanonicalFieldDef) : ApplicationSchema :=
  { s with layout := some fields }

/-- What validation is for. -/
structure ApplicationSchema.Exact (s : ApplicationSchema) : Prop where
  id : s.id ≠ []
  name : s.name ≠ []
  operatorID : s.operatorID ≠ []
  oamMode : -16 ≤ s.oamMode.toInt ∧ s.oamMode.toInt ≤ 16
  payloadBytes : 0 < s.payloadBytes.toInt
  layout : ∃ fields, s.layout = some fields ∧ (∀ f ∈ fields, f.Sound) ∧ Partitions fields s.payloadBytes.toInt

/-- The fields whose end is an `int32`. -/
def fitting (fields : List CanonicalFieldDef) : List CanonicalFieldDef :=
  fields.filter fun f => !f.Wraps

/-- Some field of a layout of sound fields wraps, and the others alone are an exact layout. -/
def ApplicationSchema.HidesField (s : ApplicationSchema) : Prop :=
  ∃ fields, s.layout = some fields ∧ (∀ f ∈ fields, f.Sound) ∧ (∃ f ∈ fields, f.Wraps) ∧
    (s.withFields (fitting fields)).Exact

/-! ## The checks of one field -/

namespace CanonicalFieldDef

variable {f : CanonicalFieldDef}

lemma validate_ok_iff : f.validate = .ok () ↔ f.Sound := by
  have length : ¬ f.length ≤ 0 ↔ 0 < f.length.toInt := Int32.not_le.trans Int32.lt_iff_toInt_lt
  have offset : ¬ f.offset < 0 ↔ 0 ≤ f.offset.toInt := Int32.not_lt.trans Int32.le_iff_toInt_le
  unfold validate
  simp only [guard_ok_iff, length, offset, not_and, not_not, and_true]
  constructor
  · rintro ⟨name, length, offset, width⟩
    exact ⟨name, offset, length, width⟩
  · intro sound
    exact ⟨sound.name, sound.length, sound.offset, sound.width⟩

/-- The end that the code computes is negative, -/
lemma toInt_end_of_wraps (wraps : f.Wraps) : (f.offset + f.length).toInt < 0 := by
  have := f.offset.toInt_lt
  have := f.length.toInt_lt
  unfold Wraps stop at wraps
  rw [Int32.toInt_add, Int.bmod_def]
  split <;> omega

/-- and otherwise exact. -/
lemma Sound.toInt_end_of_not_wraps (sound : f.Sound) (fits : ¬ f.Wraps) :
    (f.offset + f.length).toInt = f.stop := by
  have := sound.offset
  have := sound.length
  unfold Wraps at fits
  unfold stop at fits ⊢
  rw [Int32.toInt_add, Int.bmod_def]
  split <;> omega

lemma bytes_eq :
    f.bytes = (List.range ((f.offset + f.length).toInt - f.offset.toInt).toNat).map fun i : Nat =>
      f.offset.toInt + (i : Int) := by
  simp [bytes, List.bind_eq_flatMap, ← List.map_eq_flatMap]

lemma mem_bytes {b : Int} : b ∈ f.bytes ↔ f.offset.toInt ≤ b ∧ b < (f.offset + f.length).toInt := by
  rw [bytes_eq, List.mem_map]
  constructor
  · rintro ⟨i, hi, rfl⟩
    rw [List.mem_range] at hi
    omega
  · intro h
    refine ⟨(b - f.offset.toInt).toNat, ?_, ?_⟩
    · rw [List.mem_range]
      omega
    · omega

lemma nodup_bytes : f.bytes.Nodup := by
  rw [bytes_eq]
  exact List.nodup_range.map fun i j e => Int.ofNat_inj.mp (Int.add_left_cancel e)

lemma Sound.bytes_of_wraps (sound : f.Sound) (wraps : f.Wraps) : f.bytes = [] := by
  rw [List.eq_nil_iff_forall_not_mem]
  intro b mem
  have := toInt_end_of_wraps wraps
  have := sound.offset
  have := mem_bytes.mp mem
  omega

lemma Sound.mem_bytes_of_fits (sound : f.Sound) (fits : ¬ f.Wraps) {b : Int} : b ∈ f.bytes ↔ b ∈ f.range := by
  rw [mem_bytes, sound.toInt_end_of_not_wraps fits]
  exact Iff.rfl

lemma Sound.disjoint_bytes {g : CanonicalFieldDef} (sound : f.Sound) (fits : ¬ f.Wraps) (sound' : g.Sound)
    (fits' : ¬ g.Wraps) : List.Disjoint f.bytes g.bytes ↔ ∀ b ∈ f.range, b ∉ g.range := by
  simp only [List.Disjoint, sound.mem_bytes_of_fits fits, sound'.mem_bytes_of_fits fits']

end CanonicalFieldDef

/-! ## The loops over the layout -/

lemma validateFields_ok_iff {fields : List CanonicalFieldDef} {i : Nat} :
    validateFields i fields = .ok () ↔ ∀ f ∈ fields, f.Sound := by
  induction fields generalizing i with
  | nil => exact ⟨fun _ f mem => absurd mem List.not_mem_nil, fun _ => rfl⟩
  | cons f fields ih =>
    rw [validateFields, List.forall_mem_cons, ← f.validate_ok_iff, ← @ih (i + 1)]
    cases f.validate with
    | error _ =>
      constructor
      · intro ok
        cases ok
      · intro ok
        cases ok.1
    | ok _ => exact ⟨fun ok => ⟨rfl, ok⟩, fun ok => ok.2⟩

/-- The bytes of a field are all taken, or the loop stops at one of them. -/
lemma occupyBytes_ok_iff {total : Int32} {f : CanonicalFieldDef} {bytes occupied occupied' : List Int} :
    occupyBytes total f bytes occupied = .ok occupied' ↔
      (∀ b ∈ bytes, 0 ≤ b ∧ b < total.toInt) ∧ bytes.Nodup ∧ List.Disjoint bytes occupied ∧
        occupied' = bytes.reverse ++ occupied := by
  induction bytes generalizing occupied with
  | nil => simp [occupyBytes, eq_comm]
  | cons b bytes ih =>
    have inside : ¬ (b < 0 ∨ b ≥ total.toInt) ↔ 0 ≤ b ∧ b < total.toInt := by omega
    rw [occupyBytes, guard_ok_iff, guard_ok_iff, ih, inside]
    simp only [List.forall_mem_cons, List.nodup_cons, List.disjoint_cons_left, List.disjoint_cons_right,
      List.reverse_cons, List.append_assoc, List.singleton_append]
    constructor
    · rintro ⟨bound, free, bounds, nodup, ⟨fresh, disjoint⟩, rfl⟩
      exact ⟨⟨bound, bounds⟩, ⟨fresh, nodup⟩, ⟨free, disjoint⟩, rfl⟩
    · rintro ⟨⟨bound, bounds⟩, ⟨fresh, nodup⟩, ⟨free, disjoint⟩, rfl⟩
      exact ⟨bound, free, bounds, nodup, ⟨fresh, disjoint⟩, rfl⟩

/-- All bytes that the loop over the fields visits. -/
def allBytes (fields : List CanonicalFieldDef) : List Int :=
  fields.flatMap CanonicalFieldDef.bytes

lemma allBytes_cons (f : CanonicalFieldDef) (fields : List CanonicalFieldDef) :
    allBytes (f :: fields) = f.bytes ++ allBytes fields :=
  List.flatMap_cons

lemma occupy_ok_iff {total : Int32} {fields : List CanonicalFieldDef} {occupied occupied' : List Int} :
    occupy total fields occupied = .ok occupied' ↔
      (∀ b ∈ allBytes fields, 0 ≤ b ∧ b < total.toInt) ∧ (allBytes fields).Nodup ∧
        List.Disjoint (allBytes fields) occupied ∧ occupied' = (allBytes fields).reverse ++ occupied := by
  induction fields generalizing occupied with
  | nil => simp [occupy, allBytes, eq_comm]
  | cons f fields ih =>
    rw [occupy, allBytes_cons]
    simp only [List.forall_mem_append, List.nodup_append', List.disjoint_append_left, List.reverse_append,
      List.append_assoc]
    cases first : occupyBytes total f f.bytes occupied with
    | error err =>
      constructor
      · intro ok
        cases ok
      · rintro ⟨⟨bounds, -⟩, ⟨nodup, -⟩, ⟨disjoint, -⟩, -⟩
        cases first.symm.trans (occupyBytes_ok_iff.mpr ⟨bounds, nodup, disjoint, rfl⟩)
    | ok occupied1 =>
      obtain ⟨bounds1, nodup1, disjoint1, rfl⟩ := occupyBytes_ok_iff.mp first
      simp only [ih, List.disjoint_append_right]
      constructor
      · rintro ⟨bounds, nodup, ⟨disjoint, free⟩, rfl⟩
        exact ⟨⟨bounds1, bounds⟩, ⟨nodup1, nodup, fun b mem mem' => disjoint mem' (List.mem_reverse.mpr mem)⟩,
          ⟨disjoint1, free⟩, rfl⟩
      · rintro ⟨⟨-, bounds⟩, ⟨-, nodup, disjoint⟩, ⟨-, free⟩, rfl⟩
        exact ⟨bounds, nodup, ⟨fun b mem mem' => disjoint (List.mem_reverse.mp mem') mem, free⟩, rfl⟩

/-- The running maximum of `TotalBytes`. -/
lemma foldl_end (fields : List CanonicalFieldDef) (acc : Int32) :
    let total := fields.foldl
      (fun maxEnd f => if f.offset + f.length > maxEnd then f.offset + f.length else maxEnd) acc
    acc.toInt ≤ total.toInt ∧ (∀ f ∈ fields, (f.offset + f.length).toInt ≤ total.toInt) ∧
      (total = acc ∨ ∃ f ∈ fields, f.offset + f.length = total) := by
  induction fields generalizing acc with
  | nil => exact ⟨le_rfl, fun f mem => absurd mem List.not_mem_nil, .inl rfl⟩
  | cons f fields ih =>
    rw [List.foldl_cons]
    obtain ⟨ge, bound, reached⟩ := ih (if f.offset + f.length > acc then f.offset + f.length else acc)
    have step : acc.toInt ≤ (if f.offset + f.length > acc then f.offset + f.length else acc).toInt ∧
        (f.offset + f.length).toInt ≤ (if f.offset + f.length > acc then f.offset + f.length else acc).toInt := by
      split
      case isTrue gt => exact ⟨(Int32.lt_iff_toInt_lt.mp gt).le, le_rfl⟩
      case isFalse le => exact ⟨le_rfl, Int32.le_iff_toInt_le.mp (Int32.not_lt.mp le)⟩
    refine ⟨step.1.trans ge, List.forall_mem_cons.mpr ⟨step.2.trans ge, bound⟩, ?_⟩
    rcases reached with same | ⟨g, mem, eq⟩
    · split at same
      case isTrue gt => exact .inr ⟨f, List.mem_cons_self, by rw [if_pos gt]; exact same.symm⟩
      case isFalse le => exact .inl (by rw [if_neg le]; exact same)
    · exact .inr ⟨g, List.mem_cons_of_mem f mem, eq⟩

lemma validateLayout_ok_iff {fields : List CanonicalFieldDef} :
    validateLayout fields = .ok () ↔ fields ≠ [] ∧ (∀ f ∈ fields, f.Sound) ∧ (allBytes fields).Nodup ∧
      ∀ b, b ∈ allBytes fields ↔ 0 ≤ b ∧ b < (totalBytes fields).toInt := by
  unfold validateLayout
  rw [guard_ok_iff, ← validateFields_ok_iff (i := 0)]
  refine and_congr_right fun _ => ?_
  cases validateFields 0 fields with
  | error _ =>
    constructor
    · intro ok
      cases ok
    · intro h
      cases h.1
  | ok _ =>
    simp only
    cases visited : occupy (totalBytes fields) fields [] with
    | error err =>
      constructor
      · intro ok
        cases ok
      · rintro ⟨-, nodup, exact'⟩
        have ok := occupy_ok_iff.mpr
          ⟨fun b mem => (exact' b).mp mem, nodup, List.disjoint_nil_right _, rfl⟩
        cases visited.symm.trans ok
    | ok occupied =>
      obtain ⟨bounds, nodup, -, rfl⟩ := occupy_ok_iff.mp visited
      rw [List.append_nil]
      cases gap : (List.range (totalBytes fields).toInt.toNat).find? fun b : Nat =>
          !decide (Int.ofNat b ∈ (allBytes fields).reverse) with
      | some b =>
        simp only [gap]
        constructor
        · intro ok
          cases ok
        · rintro ⟨-, -, exact'⟩
          have listed := List.mem_range.mp (List.mem_of_find?_eq_some gap)
          have missing := List.find?_some gap
          simp only [List.mem_reverse, Bool.not_eq_true', decide_eq_false_iff_not] at missing
          exact absurd ((exact' b).mpr ⟨Int.natCast_nonneg b, by omega⟩) missing
      | none =>
        simp only [gap, true_and, true_iff]
        rw [List.find?_eq_none] at gap
        simp only [List.mem_range, List.mem_reverse, Bool.not_eq_true', decide_eq_false_iff_not, not_not] at gap
        refine ⟨nodup, fun b => ⟨bounds b, ?_⟩⟩
        rintro ⟨nonneg, lt⟩
        have mem := gap b.toNat (by omega)
        rwa [Int.ofNat_eq_natCast, Int.toNat_of_nonneg nonneg] at mem

/-! ## Fields that do not wrap -/

section Fits

variable {fields : List CanonicalFieldDef}

lemma mem_fitting {f : CanonicalFieldDef} : f ∈ fitting fields ↔ f ∈ fields ∧ ¬ f.Wraps := by
  simp [fitting, List.mem_filter]

lemma fitting_eq_self (fits : ∀ f ∈ fields, ¬ f.Wraps) : fitting fields = fields :=
  List.filter_eq_self.mpr fun f mem => by simp [fits f mem]

/-- A field that wraps has no bytes. -/
lemma allBytes_fitting (sound : ∀ f ∈ fields, f.Sound) : allBytes (fitting fields) = allBytes fields := by
  induction fields with
  | nil => rfl
  | cons f fields ih =>
    obtain ⟨here, rest⟩ := List.forall_mem_cons.mp sound
    rw [allBytes_cons, ← ih rest, fitting, List.filter_cons]
    by_cases wraps : f.Wraps
    · simp [wraps, here.bytes_of_wraps wraps, fitting]
    · simp [wraps, allBytes_cons, fitting]

/-- The bytes of fields that do not wrap are taken once and cover the payload if their ranges partition it. -/
lemma partitions_iff (sound : ∀ f ∈ fields, f.Sound) (fits : ∀ f ∈ fields, ¬ f.Wraps) (size : Int) :
    Partitions fields size ↔ (allBytes fields).Nodup ∧ ∀ b, b ∈ allBytes fields ↔ 0 ≤ b ∧ b < size := by
  have disjoint : fields.Pairwise (fun f g => ∀ b ∈ f.range, b ∉ g.range) ↔
      fields.Pairwise (Function.onFun List.Disjoint CanonicalFieldDef.bytes) :=
    List.Pairwise.iff_of_mem fun hf hg =>
      ((sound _ hf).disjoint_bytes (fits _ hf) (sound _ hg) (fits _ hg)).symm
  have cover (b : Int) : (∃ f ∈ fields, b ∈ f.range) ↔ b ∈ allBytes fields := by
    rw [allBytes, List.mem_flatMap]
    exact exists_congr fun f => and_congr_right fun mem => ((sound f mem).mem_bytes_of_fits (fits f mem)).symm
  have nodup : (allBytes fields).Nodup ↔
      fields.Pairwise (Function.onFun List.Disjoint CanonicalFieldDef.bytes) := by
    rw [allBytes, List.nodup_flatMap]
    exact and_iff_right fun f _ => f.nodup_bytes
  rw [nodup, ← disjoint]
  constructor
  · intro h
    exact ⟨h.disjoint, fun b => (cover b).symm.trans (h.cover b)⟩
  · intro h
    exact ⟨h.1, fun b => (cover b).trans (h.2 b)⟩

/-- In an exact layout the last byte of the payload belongs to a field, and no field ends behind it. -/
lemma Partitions.totalBytes {size : Int} (sound : ∀ f ∈ fields, f.Sound) (partitions : Partitions (fitting fields) size)
    (pos : 0 < size) : (totalBytes fields).toInt = size := by
  obtain ⟨-, bound, reached⟩ := foldl_end fields 0
  obtain ⟨last, mem, inLast⟩ := (partitions.cover (size - 1)).mpr ⟨by omega, by omega⟩
  obtain ⟨listed, fits⟩ := mem_fitting.mp mem
  have ge : last.stop ≤ (Flr.totalBytes fields).toInt :=
    (sound last listed).toInt_end_of_not_wraps fits ▸ bound last listed
  have lt : size - 1 < last.stop := inLast.2
  refine le_antisymm ?_ (by omega)
  rcases reached with zero | ⟨f, listed, eq⟩
  · rw [Flr.totalBytes, zero]
    exact pos.le
  · have nonneg : 0 ≤ (f.offset + f.length).toInt := by
      rw [eq, ← Flr.totalBytes]
      omega
    have fits : ¬ f.Wraps := fun wraps => by
      have := CanonicalFieldDef.toInt_end_of_wraps wraps
      omega
    have stop := (sound f listed).toInt_end_of_not_wraps fits
    have length := (sound f listed).length
    -- its last byte lies in the payload
    have inside := ((partitions.cover (f.stop - 1)).mp ⟨f, mem_fitting.mpr ⟨listed, fits⟩,
      by unfold CanonicalFieldDef.range CanonicalFieldDef.stop; constructor <;> omega⟩).2
    rw [Flr.totalBytes, ← eq, stop]
    omega

end Fits

/-! ## The schema -/

lemma oamMode_in_range {mode : Int32} : ¬ (mode < -16 ∨ mode > 16) ↔ -16 ≤ mode.toInt ∧ mode.toInt ≤ 16 := by
  rw [not_or, Int32.not_lt, Int32.not_lt, Int32.le_iff_toInt_le, Int32.le_iff_toInt_le]
  rfl

lemma payloadBytes_pos {n : Int32} : ¬ n ≤ 0 ↔ 0 < n.toInt := by
  rw [Int32.not_le, Int32.lt_iff_toInt_lt]
  rfl

/-- `Validate` as one conjunction of its checks. -/
lemma validate_ok_iff_checks {s : ApplicationSchema} : s.validate = .ok () ↔
    s.id ≠ [] ∧ s.name ≠ [] ∧ s.operatorID ≠ [] ∧ (-16 ≤ s.oamMode.toInt ∧ s.oamMode.toInt ≤ 16) ∧
      0 < s.payloadBytes.toInt ∧
      ∃ fields, s.layout = some fields ∧ validateLayout fields = .ok () ∧ totalBytes fields = s.payloadBytes := by
  rw [← oamMode_in_range, ← payloadBytes_pos]
  unfold ApplicationSchema.validate
  simp only [guard_ok_iff]
  refine and_congr_right fun _ => and_congr_right fun _ => and_congr_right fun _ => and_congr_right fun _ =>
    and_congr_right fun _ => ?_
  cases s.layout with
  | none => simp
  | some fields =>
    cases valid : validateLayout fields with
    | error err => simp [valid]
    | ok _ => simp [valid]

/-- What `Validate` accepts: sound fields, of which those that do not wrap are an exact layout. -/
lemma validate_ok_iff {s : ApplicationSchema} : s.validate = .ok () ↔
    ∃ fields, s.layout = some fields ∧ (∀ f ∈ fields, f.Sound) ∧ (s.withFields (fitting fields)).Exact := by
  have sub {fields : List CanonicalFieldDef} (sound : ∀ f ∈ fields, f.Sound) : ∀ f ∈ fitting fields, f.Sound :=
    fun f mem => sound f (mem_fitting.mp mem).1
  have fits {fields : List CanonicalFieldDef} : ∀ f ∈ fitting fields, ¬ f.Wraps := fun f mem => (mem_fitting.mp mem).2
  rw [validate_ok_iff_checks]
  constructor
  · rintro ⟨id, name, operatorID, oamMode, payloadBytes, fields, layout, valid, total⟩
    obtain ⟨-, sound, bytes⟩ := validateLayout_ok_iff.mp valid
    rw [← allBytes_fitting sound, total] at bytes
    exact ⟨fields, layout, sound, id, name, operatorID, oamMode, payloadBytes, _, rfl, sub sound,
      (partitions_iff (sub sound) fits _).mpr bytes⟩
  · rintro ⟨fields, layout, sound, id, name, operatorID, oamMode, payloadBytes, _, ⟨⟩, -, partitions⟩
    have total : (totalBytes fields).toInt = s.payloadBytes.toInt := partitions.totalBytes sound payloadBytes
    have some_field : fields ≠ [] := by
      rintro rfl
      obtain ⟨f, mem, -⟩ := (partitions.cover 0).mpr ⟨le_rfl, payloadBytes⟩
      cases mem
    have bytes := (partitions_iff (sub sound) fits _).mp partitions
    rw [allBytes_fitting sound] at bytes
    refine ⟨id, name, operatorID, oamMode, payloadBytes, fields, layout, ?_, Int32.toInt_inj.mp total⟩
    exact validateLayout_ok_iff.mpr ⟨some_field, sound, bytes.1, total ▸ bytes.2⟩

/-- A field of an exact layout does not wrap. -/
lemma Partitions.not_wraps {fields : List CanonicalFieldDef} {size : Int32} (partitions : Partitions fields size.toInt)
    {f : CanonicalFieldDef} (mem : f ∈ fields) (sound : f.Sound) : ¬ f.Wraps := by
  intro wraps
  have length := sound.length
  have last : f.stop - 1 ∈ f.range := by
    unfold CanonicalFieldDef.range CanonicalFieldDef.stop
    constructor <;> omega
  have inside := ((partitions.cover _).mp ⟨f, mem, last⟩).2
  have small := size.toInt_lt
  unfold CanonicalFieldDef.Wraps at wraps
  omega

/-- Validation is exact for every schema but those that hide a field: with a field that wraps, and whose other fields
    alone are an exact layout. -/
theorem validate_exact_iff (s : ApplicationSchema) :
    (s.validate = .ok () ↔ s.Exact) ↔ ¬ s.HidesField := by
  constructor
  · rintro judged ⟨fields, layout, sound, ⟨f, mem, wraps⟩, exact'⟩
    have exact := judged.mp (validate_ok_iff.mpr ⟨fields, layout, sound, exact'⟩)
    obtain ⟨fields', layout', sound', partitions⟩ := exact.layout
    cases layout.symm.trans layout'
    exact partitions.not_wraps mem (sound f mem) wraps
  · intro shown
    constructor
    · intro ok
      obtain ⟨fields, layout, sound, exact'⟩ := validate_ok_iff.mp ok
      have fits : ∀ f ∈ fields, ¬ f.Wraps := fun f mem wraps => shown ⟨fields, layout, sound, ⟨f, mem, wraps⟩, exact'⟩
      rwa [fitting_eq_self fits, ApplicationSchema.withFields, ← layout] at exact'
    · intro exact'
      obtain ⟨fields, layout, sound, partitions⟩ := exact'.layout
      have fits : ∀ f ∈ fields, ¬ f.Wraps := fun f mem => partitions.not_wraps mem (sound f mem)
      refine validate_ok_iff.mpr ⟨fields, layout, sound, ?_⟩
      rwa [fitting_eq_self fits, ApplicationSchema.withFields, ← layout]

/-- One byte of payload, and a second field at the last offset of an `int32`. -/
def hiddenFieldSchema : ApplicationSchema where
  id := ascii "s"
  oamMode := 1
  payloadBytes := 1
  name := ascii "Heartbeat"
  version := 1
  layout := some [⟨ascii "beat", 0, 1, 1⟩, ⟨ascii "far", 2147483647, 1, 1⟩]
  operatorID := ascii "op"
  createdAt := 0

theorem not_validate_exact : hiddenFieldSchema.validate = .ok () ∧ ¬ hiddenFieldSchema.Exact := by
  refine ⟨by rfl, fun exact' => ?_⟩
  obtain ⟨fields, layout, -, partitions⟩ := exact'.layout
  cases layout
  have far : (2147483647 : Int) ∈ (⟨ascii "far", 2147483647, 1, 1⟩ : CanonicalFieldDef).range :=
    ⟨by decide, by decide⟩
  exact absurd ((partitions.cover 2147483647).mp ⟨_, .tail _ (.head _), far⟩).2 (by decide)

end Otap.Flr
