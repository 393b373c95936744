import Otap.Lib.GoLib

/-!
# Formatted instants

`Format(time.RFC3339Nano)` of an instant in UTC: the calendar of the time package (`absDate`, with its cycles of
400, 100, 4 and 1 years), years with at least four digits and a sign, and a fraction of a second without its
trailing zeros.

Where such texts are compared as strings, the trimmed fraction misleads: `00Z` comes after `00.5Z`, and `.1Z`
after `.12Z`. `Misplaced a b` says when the text of the earlier instant is the greater one, and
`rfc3339Nano_order` that it is so in no other case.
-/

namespace Otap.Lib

/-! ## The calendar -/

/-- The year and the day of the year, from the number of days since January 1 of year 1. -/
def yearDay (d : Int) : Int × Int :=
  let n400 := d / 146097
  let d := d - 146097 * n400
  -- the last cycle of 100 years is a day longer, so day 146096 would give 4
  let n100 := d / 36524 - d / 36524 / 4
  let d := d - 36524 * n100
  let n4 := d / 1461
  let d := d - 1461 * n4
  let n1 := d / 365 - d / 365 / 4
  (400 * n400 + 100 * n100 + 4 * n4 + n1 + 1, d - 365 * n1)

/-- `isLeap`. -/
def isLeap (year : Int) : Bool :=
  year % 4 == 0 && (year % 100 != 0 || year % 400 == 0)

/-- The days of a year that is not a leap year before each month. -/
def daysBefore : List Nat :=
  [0, 31, 59, 90, 120, 151, 181, 212, 243, 273, 304, 334, 365]

/-- Month and day of the month, from the day of the year. -/
def monthDay (leap : Bool) (yday : Nat) : Nat × Nat :=
  if leap ∧ yday = 31 + 29 - 1 then (2, 29)
  else
    let day := if leap ∧ yday > 31 + 29 - 1 then yday - 1 else yday
    let month := day / 31
    let next := daysBefore.getD (month + 1) 0
    if day ≥ next then (month + 2, day - next + 1)
    else (month + 1, day - daysBefore.getD month 0 + 1)

/-- The days since January 1 of year 1. -/
def days (t : Time) : Int :=
  t / (86400 * second) + 719162

def year (t : Time) : Int :=
  (yearDay (days t)).1

/-! ## The format -/

/-- A number with exactly `width` digits. -/
def digits : Nat → Nat → Bytes
  | 0, _ => []
  | width + 1, n => digits width (n / 10) ++ [UInt8.ofNat (48 + n % 10)]

/-- `appendInt`: at least `width` digits. -/
def appendInt (x : Int) (width : Nat) : Bytes :=
  (if x < 0 then ascii "-" else []) ++
    (if x.natAbs < 10 ^ width then digits width x.natAbs else decimal x.natAbs)

/-- The year with the hyphen after it. -/
def yearText (t : Time) : Bytes :=
  appendInt (year t) 4 ++ ascii "-"

/-- Month and day. -/
def dayText (leap : Bool) (yday : Nat) : Bytes :=
  digits 2 (monthDay leap yday).1 ++ ascii "-" ++ digits 2 (monthDay leap yday).2

/-- The time of the day, in seconds. -/
def clockText (s : Nat) : Bytes :=
  digits 2 (s / 3600) ++ ascii ":" ++ digits 2 (s % 3600 / 60) ++ ascii ":" ++ digits 2 (s % 60)

/-- A string of digits without its trailing zeros. -/
def trimZeros : Bytes → Bytes
  | [] => []
  | x :: l => if x = 48 ∧ trimZeros l = [] then [] else x :: trimZeros l

/-- The digits of the fraction of a second, as far as they are written. -/
def fractionDigits (t : Time) : Bytes :=
  trimZeros (digits 9 (t % second).toNat)

/-- `appendNano`: no dot without digits. -/
def fractionText (fraction : Bytes) : Bytes :=
  if fraction = [] then [] else ascii "." ++ fraction

/-- `Format(time.RFC3339Nano)` of an instant in UTC. -/
def rfc3339Nano (t : Time) : Bytes :=
  yearText t ++ dayText (isLeap (year t)) (yearDay (days t)).2.toNat ++ ascii "T" ++
    clockText (t / second % 86400).toNat ++ fractionText (fractionDigits t) ++ ascii "Z"

example : rfc3339Nano (1709210096 * second + 120000000) = ascii "2024-02-29T12:34:56.12Z" := by
  decide +kernel

example : rfc3339Nano (-62135596800 * second) = ascii "0001-01-01T00:00:00Z" := by decide +kernel

/-! ## The calendar is in order -/

/-- The days before January 1 of a year. -/
def yearStart (y : Int) : Int :=
  365 * (y - 1) + (y - 1) / 4 - (y - 1) / 100 + (y - 1) / 400

lemma yearStart_succ_le (y : Int) : yearStart (y + 1) ≤ yearStart y + 366 := by
  unfold yearStart
  omega

lemma yearStart_cycles {a b c e : Int} (hb : 0 ≤ b ∧ b ≤ 3) (hc : 0 ≤ c ∧ c ≤ 24)
    (he : 0 ≤ e ∧ e ≤ 3) :
    yearStart (400 * a + 100 * b + 4 * c + e + 1) = 146097 * a + 36524 * b + 1461 * c + 365 * e := by
  have h4 : (400 * a + 100 * b + 4 * c + e) / 4 = 100 * a + 25 * b + c := by omega
  have h100 : (400 * a + 100 * b + 4 * c + e) / 100 = 4 * a + b := by omega
  have h400 : (400 * a + 100 * b + 4 * c + e) / 400 = a := by omega
  rw [yearStart, add_sub_cancel_right, h4, h100, h400]
  omega

/-- The cycles that `yearDay` takes off: a day is left over only at the end of the last year of a cycle. -/
lemma yearDay_cycles (d : Int) : ∃ a b c e r : Int,
    yearDay d = (400 * a + 100 * b + 4 * c + e + 1, r) ∧
      d = 146097 * a + 36524 * b + 1461 * c + 365 * e + r ∧ (0 ≤ b ∧ b ≤ 3) ∧ (0 ≤ c ∧ c ≤ 24) ∧
      (0 ≤ e ∧ e ≤ 3) ∧ 0 ≤ r ∧ (r < 365 ∨ e = 3 ∧ r = 365 ∧ (c < 24 ∨ b = 3)) := by
  refine ⟨_, _, _, _, _, rfl, by ring, ?_⟩
  have h₁ : 0 ≤ d - 146097 * (d / 146097) ∧ d - 146097 * (d / 146097) < 146097 := by omega
  generalize d - 146097 * (d / 146097) = d₁ at h₁ ⊢
  generalize hb : d₁ / 36524 - d₁ / 36524 / 4 = b
  have h₂ : (0 ≤ b ∧ b ≤ 3) ∧ 0 ≤ d₁ - 36524 * b ∧
      (d₁ - 36524 * b < 36524 ∨ b = 3 ∧ d₁ - 36524 * b = 36524) := by omega
  generalize d₁ - 36524 * b = d₂ at h₂ ⊢
  generalize hc : d₂ / 1461 = c
  have h₃ : (0 ≤ c ∧ c ≤ 24) ∧ 0 ≤ d₂ - 1461 * c ∧ d₂ - 1461 * c < 1461 ∧
      (c < 24 ∨ b = 3 ∨ d₂ - 1461 * c < 1460) := by omega
  generalize d₂ - 1461 * c = d₃ at h₃ ⊢
  generalize he : d₃ / 365 - d₃ / 365 / 4 = e
  omega

/-- The day lies in the year: it is the given day after the year's start, before the next year's. -/
lemma yearDay_spec (d : Int) : d = yearStart (yearDay d).1 + (yearDay d).2 ∧ 0 ≤ (yearDay d).2 ∧
    d < yearStart ((yearDay d).1 + 1) := by
  obtain ⟨a, b, c, e, r, eq, sum, hb, hc, he, nonneg, last⟩ := yearDay_cycles d
  rw [eq]
  simp only
  refine ⟨by rw [yearStart_cycles hb hc he]; omega, nonneg, ?_⟩
  -- the next year starts the next cycle of the shortest kind that is not used up
  rcases eq_or_lt_of_le he.2 with rfl | lt
  · rcases eq_or_lt_of_le hc.2 with rfl | lt
    · rcases eq_or_lt_of_le hb.2 with rfl | lt
      · have next := yearStart_cycles (a := a + 1) (b := 0) (c := 0) (e := 0) (by decide) (by decide)
          (by decide)
        ring_nf at next ⊢
        omega
      · have next := yearStart_cycles (a := a) (b := b + 1) (c := 0) (e := 0) (by omega) (by decide)
          (by decide)
        ring_nf at next ⊢
        omega
    · have next := yearStart_cycles (a := a) (c := c + 1) (e := 0) hb (by omega) (by decide)
      ring_nf at next ⊢
      omega
  · have next := yearStart_cycles (a := a) (e := e + 1) hb hc (by omega)
    ring_nf at next ⊢
    omega

lemma yday_lt (d : Int) : (yearDay d).2.toNat < 366 := by
  obtain ⟨eq, nonneg, lt⟩ := yearDay_spec d
  have len := yearStart_succ_le (yearDay d).1
  omega

/-! ## Texts of the same length -/

@[simp] lemma length_digits (width n : Nat) : (digits width n).length = width := by
  induction width generalizing n with
  | zero => rfl
  | succ width ih => rw [digits, List.length_append, ih, List.length_singleton]

lemma mem_digits {width n : Nat} {x : UInt8} (mem : x ∈ digits width n) :
    48 ≤ x.toNat ∧ x.toNat < 58 := by
  induction width generalizing n with
  | zero => cases mem
  | succ width ih =>
    cases List.mem_append.mp mem with
    | inl init => exact ih init
    | inr last =>
      have lt : n % 10 < 10 := Nat.mod_lt n (by decide)
      rw [List.mem_singleton.mp last, toNat_digit lt]
      omega

lemma ofDecimal_digits {width n : Nat} (lt : n < 10 ^ width) : ofDecimal (digits width n) = n := by
  induction width generalizing n with
  | zero => exact (Nat.lt_one_iff.mp lt).symm
  | succ width ih =>
    have init : n / 10 < 10 ^ width := Nat.div_lt_of_lt_mul (by rwa [← Nat.pow_succ'])
    have last : n % 10 < 10 := Nat.mod_lt n (by decide)
    have concat (b : Bytes) (x : UInt8) : ofDecimal (b ++ [x]) = 10 * ofDecimal b + (x.toNat - 48) :=
      List.foldl_concat ..
    rw [digits, concat, ih init, toNat_digit last]
    omega

/-- Numbers of one width are ordered as their texts. -/
lemma digits_precedes {width n m : Nat} (lt : n < m) (bound : m < 10 ^ width) :
    Precedes (digits width n) (digits width m) := by
  induction width generalizing n m with
  | zero => omega
  | succ width ih =>
    have init : m / 10 < 10 ^ width := Nat.div_lt_of_lt_mul (by rwa [← Nat.pow_succ'])
    rw [digits, digits]
    rcases Nat.lt_or_eq_of_le (Nat.div_le_div_right (c := 10) (Nat.le_of_lt lt)) with lt | eq
    · exact (ih lt init).append _ _
    · have digit : ∀ k, k % 10 < 10 := fun k => Nat.mod_lt k (by decide)
      rw [eq]
      refine Precedes.append_left (.here ?_) _
      rw [UInt8.lt_iff_toNat_lt, toNat_digit (digit n), toNat_digit (digit m)]
      omega

/-- Month and day as one number. -/
def monthDayCode (leap : Bool) (yday : Nat) : Nat :=
  100 * (monthDay leap yday).1 + (monthDay leap yday).2

lemma monthDay_lt (leap : Bool) {i : Nat} (bound : i < 366) :
    (monthDay leap i).1 < 100 ∧ (monthDay leap i).2 < 100 := by
  have all : ∀ (leap : Bool) (k : Fin 366), (monthDay leap k).1 < 100 ∧ (monthDay leap k).2 < 100 := by
    decide +kernel
  exact all leap ⟨i, bound⟩

lemma monthDayCode_lt (leap : Bool) {i j : Nat} (lt : i < j) (bound : j < 366) :
    monthDayCode leap i < monthDayCode leap j := by
  have step : ∀ (leap : Bool) (k : Fin 365), monthDayCode leap k < monthDayCode leap (k + 1) := by
    decide +kernel
  induction j, lt using Nat.le_induction with
  | base => exact step leap ⟨i, by omega⟩
  | succ j le ih => exact (ih (by omega)).trans (step leap ⟨j, by omega⟩)

/-- Days of one year are ordered as their texts. -/
lemma dayText_precedes {leap : Bool} {i j : Nat} (lt : i < j) (bound : j < 366) :
    Precedes (dayText leap i) (dayText leap j) := by
  have code := monthDayCode_lt leap lt bound
  have low := (monthDay_lt leap (lt.trans bound)).2
  obtain ⟨month, day⟩ := monthDay_lt leap bound
  unfold monthDayCode at code
  unfold dayText
  simp only [List.append_assoc]
  rcases Nat.lt_trichotomy (monthDay leap i).1 (monthDay leap j).1 with lt | eq | gt
  · exact (digits_precedes lt month).append _ _
  · rw [eq]
    refine Precedes.append_left (Precedes.append_left (digits_precedes ?_ day) _) _
    omega
  · omega

/-- Times of one day are ordered as their texts. -/
lemma clockText_precedes {s s' : Nat} (lt : s < s') (bound : s' < 86400) :
    Precedes (clockText s) (clockText s') := by
  unfold clockText
  simp only [List.append_assoc]
  rcases Nat.lt_or_eq_of_le (Nat.div_le_div_right (c := 3600) (Nat.le_of_lt lt)) with hour | hour
  · exact (digits_precedes hour (by omega)).append _ _
  · rw [hour]
    refine Precedes.append_left (Precedes.append_left ?_ _) _
    rcases Nat.lt_or_eq_of_le (show s % 3600 / 60 ≤ s' % 3600 / 60 by omega) with minute | minute
    · exact (digits_precedes minute (by omega)).append _ _
    · rw [minute]
      refine Precedes.append_left (Precedes.append_left ?_ _) _
      exact digits_precedes (by omega) (by omega)

/-! ## Years -/

lemma decimal_ne_nil (n : Nat) : decimal n ≠ [] := by
  unfold decimal
  split
  case isTrue => exact List.cons_ne_nil _ _
  case isFalse ne =>
    rw [Ne, List.map_eq_nil_iff, List.reverse_eq_nil_iff]
    exact Nat.digits_ne_nil_iff_ne_zero.mpr ne

/-- The digits of a formatted year: a number without a sign. -/
lemma appendInt_eq (x : Int) :
    ∃ d, appendInt x 4 = (if x < 0 then ascii "-" else []) ++ d ∧ ofDecimal d = x.natAbs ∧ d ≠ [] ∧
      (45 : UInt8) ∉ d := by
  refine ⟨_, rfl, ?_⟩
  split
  case isTrue lt =>
    refine ⟨ofDecimal_digits lt, ?_, fun mem => absurd (mem_digits mem).1 (by decide)⟩
    exact List.ne_nil_of_length_eq_add_one (length_digits 4 _)
  case isFalse =>
    exact ⟨ofDecimal_decimal _, decimal_ne_nil _, fun mem => absurd (decimal_digits mem).1 (by decide)⟩

/-- No formatted year starts with another one. -/
lemma appendInt_separated_inj {x y : Int} (pre : appendInt x 4 ++ ascii "-" <+: appendInt y 4 ++ ascii "-") :
    x = y := by
  obtain ⟨d, hx, valueX, someX, freeX⟩ := appendInt_eq x
  obtain ⟨d', hy, valueY, someY, freeY⟩ := appendInt_eq y
  obtain ⟨r, e⟩ := pre
  rw [hx, hy] at e
  have free : (45 : UInt8) ∉ ([] : Bytes) := List.not_mem_nil
  by_cases negX : x < 0
  case pos =>
    rw [if_pos negX] at e
    by_cases negY : y < 0
    case pos =>
      rw [if_pos negY] at e
      have e : 45 :: (d ++ 45 :: r) = 45 :: (d' ++ 45 :: []) := by simpa [ascii] using e
      obtain ⟨rfl, -⟩ := separated_inj_left freeX freeY (List.cons.inj e).2
      omega
    case neg =>
      rw [if_neg negY] at e
      have e : [] ++ 45 :: (d ++ 45 :: r) = d' ++ 45 :: [] := by simpa [ascii] using e
      exact absurd (separated_inj_left free freeY e).1.symm someY
  case neg =>
    rw [if_neg negX] at e
    by_cases negY : y < 0
    case pos =>
      rw [if_pos negY] at e
      have e : d ++ 45 :: r = [] ++ 45 :: (d' ++ 45 :: []) := by simpa [ascii] using e
      exact absurd (separated_inj_left freeX free e).1 someX
    case neg =>
      rw [if_neg negY] at e
      have e : d ++ 45 :: r = d' ++ 45 :: [] := by simpa [ascii] using e
      obtain ⟨rfl, -⟩ := separated_inj_left freeX freeY e
      omega

variable {a b : Time}

/-- Texts of different years differ at some position. -/
lemma yearText_precedes (ne : year a ≠ year b) :
    Precedes (yearText a) (yearText b) ∨ Precedes (yearText b) (yearText a) := by
  rcases prefix_or_precedes (yearText a) (yearText b) with pre | pre | h | h
  · exact absurd (appendInt_separated_inj pre) ne
  · exact absurd (appendInt_separated_inj pre).symm ne
  · exact .inl h
  · exact .inr h

/-! ## Fractions -/

lemma mem_of_mem_trimZeros {x : UInt8} {l : Bytes} (mem : x ∈ trimZeros l) : x ∈ l := by
  induction l with
  | nil => cases mem
  | cons y l ih =>
    rw [trimZeros] at mem
    split at mem
    case isTrue => cases mem
    case isFalse => exact List.mem_cons.mpr ((List.mem_cons.mp mem).imp_right ih)

/-- Without trailing zeros the smaller of two strings of digits still precedes, or it is cut off before the
    position where they differ. -/
lemma trimZeros_precedes {l m : Bytes} (h : Precedes l m) (digit : ∀ x ∈ l, 48 ≤ x.toNat) :
    (∃ y r, trimZeros m = trimZeros l ++ y :: r) ∨ Precedes (trimZeros l) (trimZeros m) := by
  induction h with
  | @here x y l m lt =>
    have nonzero : ¬ (y = 48 ∧ trimZeros m = []) := by
      rintro ⟨rfl, -⟩
      exact absurd (UInt8.lt_iff_toNat_lt.mp lt) (not_lt.mpr (digit x List.mem_cons_self))
    rw [trimZeros, trimZeros, if_neg nonzero]
    split
    case isTrue => exact .inl ⟨y, trimZeros m, rfl⟩
    case isFalse => exact .inr (.here lt)
  | @next x l m _ ih =>
    rw [trimZeros, trimZeros]
    rcases ih fun z mem => digit z (List.mem_cons_of_mem _ mem) with ⟨y, r, e⟩ | h
    · have some : ¬ (x = 48 ∧ trimZeros m = []) := by
        rw [e]
        exact fun zero => absurd zero.2 (List.append_ne_nil_of_right_ne_nil _ (List.cons_ne_nil _ _))
      rw [if_neg some, e]
      split
      case isTrue zero =>
        rw [zero.2]
        exact .inl ⟨x, _, rfl⟩
      case isFalse => exact .inl ⟨y, r, rfl⟩
    · have some : ¬ (x = 48 ∧ trimZeros m = []) := fun zero => h.right_ne_nil zero.2
      rw [if_neg some]
      split
      case isTrue => exact .inl ⟨x, _, rfl⟩
      case isFalse => exact .inr (.next h)

/-- Within a second, the text of the earlier instant is the greater one just when its digits are cut off. -/
lemma fractionText_order (lt : a % second < b % second) :
    fractionDigits a <+: fractionDigits b ∧
        Precedes (fractionText (fractionDigits b) ++ ascii "Z") (fractionText (fractionDigits a) ++ ascii "Z") ∨
      ¬ fractionDigits a <+: fractionDigits b ∧
        Precedes (fractionText (fractionDigits a) ++ ascii "Z")
          (fractionText (fractionDigits b) ++ ascii "Z") := by
  have nonneg (t : Time) : 0 ≤ t % second := Int.emod_nonneg t (by decide)
  have bound (t : Time) : t % second < second := Int.emod_lt_of_pos t (by decide)
  have precedes : Precedes (digits 9 (a % second).toNat) (digits 9 (b % second).toNat) := by
    refine digits_precedes ((Int.toNat_lt_toNat ((nonneg a).trans_lt lt)).mpr lt) ?_
    exact (Int.toNat_lt (nonneg b)).mpr (by simpa [second] using bound b)
  have digit {t : Time} {y : UInt8} (mem : y ∈ fractionDigits t) : y.toNat < 58 :=
    (mem_digits (mem_of_mem_trimZeros mem)).2
  rcases trimZeros_precedes precedes fun x mem => (mem_digits mem).1 with ⟨y, r, e⟩ | h
  · change fractionDigits b = fractionDigits a ++ y :: r at e
    have small : y < 90 := by
      have mem : y ∈ fractionDigits b := e ▸ List.mem_append_right _ List.mem_cons_self
      exact UInt8.lt_iff_toNat_lt.mpr ((digit mem).trans (by decide))
    refine .inl ⟨⟨_, e.symm⟩, ?_⟩
    rw [e]
    generalize fractionDigits a = fa
    cases fa with
    | nil => exact .here (by decide)
    | cons x fa =>
      simp only [fractionText, List.cons_append, reduceCtorEq, if_false, List.append_assoc]
      refine Precedes.append_left (.next (Precedes.append_left (.here small) _)) _
  · change Precedes (fractionDigits a) (fractionDigits b) at h
    refine .inr ⟨h.not_prefix, ?_⟩
    generalize fractionDigits a = fa at h ⊢
    generalize fractionDigits b = fb at h ⊢
    cases h with
    | here lt => exact Precedes.append_left ((Precedes.here lt).append _ _) (ascii ".")
    | next h => exact Precedes.append_left ((Precedes.next h).append _ _) (ascii ".")

/-! ## The order of the texts -/

/-- The earlier instant has the greater text: because of the years, or because its digits within the second are
    cut off where those of the later one go on. -/
def Misplaced (a b : Time) : Prop :=
  a < b ∧ (yearText b < yearText a ∨ a / second = b / second ∧ fractionDigits a <+: fractionDigits b)

instance (a b : Time) : Decidable (Misplaced a b) :=
  inferInstanceAs (Decidable (_ ∧ (_ ∨ _ ∧ _)))

-- 00:00:00 and half a second later
example : Misplaced 0 500000000 := by decide +kernel

/-- The parts of an instant as numbers. -/
lemma days_eq (t : Time) : days t = t / second / 86400 + 719162 := by
  have second_eq : second = 1000000000 := rfl
  rw [days, second_eq]
  omega

lemma rfc3339Nano_eq (t : Time) : rfc3339Nano t =
    yearText t ++ (dayText (isLeap (year t)) (yearDay (days t)).2.toNat ++ (ascii "T" ++
      (clockText (t / second % 86400).toNat ++ (fractionText (fractionDigits t) ++ ascii "Z")))) := by
  simp only [rfc3339Nano, List.append_assoc]

/-- Within a year, the text of a later day is greater. -/
lemma ydayText_precedes (same : year a = year b) (lt : days a < days b) :
    Precedes (dayText (isLeap (year a)) (yearDay (days a)).2.toNat)
      (dayText (isLeap (year b)) (yearDay (days b)).2.toNat) := by
  obtain ⟨eqA, nonneg, -⟩ := yearDay_spec (days a)
  obtain ⟨eqB, -, -⟩ := yearDay_spec (days b)
  change days a = yearStart (year a) + _ at eqA
  change days b = yearStart (year b) + _ at eqB
  rw [same] at eqA ⊢
  refine dayText_precedes ?_ (yday_lt _)
  omega

/-- Within a day, the text of a later second is greater. -/
lemma secondText_precedes {m n : Int} (lt : m < n) (same : m / 86400 = n / 86400) :
    Precedes (clockText (m % 86400).toNat) (clockText (n % 86400).toNat) :=
  clockText_precedes (by omega) (by omega)

lemma days_eq_of_second (same : a / second = b / second) : days a = days b := by
  rw [days_eq, days_eq, same]

lemma year_eq_of_second (same : a / second = b / second) : year a = year b := by
  rw [year, year, days_eq_of_second same]

/-- Within a second the texts are ordered as those of the fractions. -/
lemma rfc3339Nano_lt_of_fraction (same : a / second = b / second)
    (h : Precedes (fractionText (fractionDigits a) ++ ascii "Z") (fractionText (fractionDigits b) ++ ascii "Z")) :
    rfc3339Nano a < rfc3339Nano b := by
  rw [rfc3339Nano_eq a, rfc3339Nano_eq b, yearText, yearText, year_eq_of_second same, days_eq_of_second same, same]
  apply Precedes.lt
  apply Precedes.append_left
  apply Precedes.append_left
  apply Precedes.append_left
  exact h.append_left _

/-- Within a year the texts are ordered as the seconds. -/
lemma rfc3339Nano_lt_of_second (sameYear : year a = year b) (earlier : a / second < b / second) :
    rfc3339Nano a < rfc3339Nano b := by
  have dayLe : days a ≤ days b := by
    rw [days_eq, days_eq]
    exact add_le_add_left (Int.ediv_le_ediv (by decide) earlier.le) _
  have yearTexts : yearText a = yearText b := by rw [yearText, yearText, sameYear]
  rw [rfc3339Nano_eq a, rfc3339Nano_eq b, yearTexts]
  apply Precedes.lt
  apply Precedes.append_left
  rcases eq_or_lt_of_le dayLe with sameDay | day
  · have clock : Precedes (clockText (a / second % 86400).toNat) (clockText (b / second % 86400).toNat) := by
      rw [days_eq, days_eq] at sameDay
      exact secondText_precedes earlier (add_right_cancel sameDay)
    rw [sameYear, sameDay]
    apply Precedes.append_left
    apply Precedes.append_left
    exact clock.append _ _
  · exact (ydayText_precedes sameYear day).append _ _

/-- Different years decide, by their texts. -/
lemma rfc3339Nano_lt_of_year (h : Precedes (yearText a) (yearText b)) :
    rfc3339Nano a < rfc3339Nano b := by
  rw [rfc3339Nano_eq a, rfc3339Nano_eq b]
  exact (h.append _ _).lt

/-- The order of formatted instants: the later one has the greater text, except when misplaced. -/
theorem rfc3339Nano_order {a b : Time} (lt : a < b) :
    Misplaced a b ∧ rfc3339Nano b < rfc3339Nano a ∨
      ¬ Misplaced a b ∧ rfc3339Nano a < rfc3339Nano b := by
  have seconds : a / second ≤ b / second := Int.ediv_le_ediv (by decide) lt.le
  by_cases sameYear : year a = year b
  case neg =>
    cases yearText_precedes sameYear with
    | inl h =>
      refine .inr ⟨?_, rfc3339Nano_lt_of_year h⟩
      rintro ⟨-, years | ⟨eq, -⟩⟩
      · exact List.lt_irrefl _ (List.lt_trans h.lt years)
      · exact sameYear (year_eq_of_second eq)
    | inr h => exact .inl ⟨⟨lt, .inl h.lt⟩, rfc3339Nano_lt_of_year h⟩
  case pos =>
    have noYears : ¬ yearText b < yearText a := by
      rw [yearText, yearText, sameYear]
      exact List.lt_irrefl _
    rcases eq_or_lt_of_le seconds with sameSecond | earlier
    · have fraction : a % second < b % second := by
        have eqA := Int.mul_ediv_add_emod a second
        have eqB := Int.mul_ediv_add_emod b second
        rw [sameSecond] at eqA
        exact lt_of_add_lt_add_left (eqA.trans_lt (lt.trans_eq eqB.symm))
      rcases fractionText_order fraction with ⟨pre, h⟩ | ⟨pre, h⟩
      · exact .inl ⟨⟨lt, .inr ⟨sameSecond, pre⟩⟩, rfc3339Nano_lt_of_fraction sameSecond.symm h⟩
      · refine .inr ⟨?_, rfc3339Nano_lt_of_fraction sameSecond h⟩
        rintro ⟨-, years | ⟨-, pre'⟩⟩
        · exact noYears years
        · exact pre pre'
    · refine .inr ⟨?_, rfc3339Nano_lt_of_second sameYear earlier⟩
      rintro ⟨-, years | ⟨eq, -⟩⟩
      · exact noYears years
      · exact earlier.ne eq

/-- Different instants have different texts. -/
lemma rfc3339Nano_lt_iff :
    rfc3339Nano a < rfc3339Nano b ↔ a < b ∧ ¬ Misplaced a b ∨ Misplaced b a := by
  rcases lt_trichotomy a b with lt | rfl | gt
  · have other : ¬ Misplaced b a := fun mis => lt_asymm mis.1 lt
    rcases rfc3339Nano_order lt with ⟨mis, text⟩ | ⟨placed, text⟩
    · simp [mis, other, List.lt_asymm text]
    · simp [lt, placed, text]
  · have self : ¬ Misplaced a a := fun mis => lt_irrefl a mis.1
    simp [self, List.lt_irrefl]
  · rcases rfc3339Nano_order gt with ⟨mis, text⟩ | ⟨placed, text⟩
    · simp [mis, text]
    · simp [placed, lt_asymm gt, List.lt_asymm text]

lemma rfc3339Nano_inj (e : rfc3339Nano a = rfc3339Nano b) : a = b := by
  by_contra ne
  have differ {a b : Time} (lt : a < b) : rfc3339Nano a ≠ rfc3339Nano b := by
    intro eq
    rcases rfc3339Nano_order lt with ⟨-, h⟩ | ⟨-, h⟩
    · exact List.lt_irrefl _ (eq ▸ h)
    · exact List.lt_irrefl _ (eq ▸ h)
  cases lt_or_gt_of_ne ne with
  | inl lt => exact differ lt e
  | inr gt => exact differ gt e.symm

/-! ## Its bytes -/

/-- Every byte is below 128. -/
def Ascii (l : Bytes) : Prop :=
  ∀ b ∈ l, b.toNat < 128

lemma Ascii.append {l m : Bytes} (hl : Ascii l) (hm : Ascii m) : Ascii (l ++ m) :=
  fun b mem => (List.mem_append.mp mem).elim (hl b) (hm b)

lemma ascii_singleton {c : UInt8} (small : c.toNat < 128) : Ascii [c] := by
  intro b mem
  rwa [List.mem_singleton.mp mem]

lemma ascii_digits (width n : Nat) : Ascii (digits width n) :=
  fun _ mem => (mem_digits mem).2.trans (by decide)

lemma ascii_appendInt (x : Int) (width : Nat) : Ascii (appendInt x width) := by
  refine .append ?_ ?_
  · split
    · exact ascii_singleton (c := 45) (by decide)
    · exact fun _ mem => (List.not_mem_nil mem).elim
  · split
    · exact ascii_digits _ _
    · exact fun _ mem => (decimal_digits mem).2.trans (by decide)

lemma ascii_fractionText (t : Time) : Ascii (fractionText (fractionDigits t)) := by
  rw [fractionText]
  split
  · exact fun _ mem => (List.not_mem_nil mem).elim
  · exact .append (ascii_singleton (c := 46) (by decide))
      fun b mem => ascii_digits _ _ b (mem_of_mem_trimZeros mem)

/-- The format is ASCII. -/
lemma ascii_rfc3339Nano (t : Time) : Ascii (rfc3339Nano t) := by
  have hyphen : Ascii (ascii "-") := ascii_singleton (c := 45) (by decide)
  have colon : Ascii (ascii ":") := ascii_singleton (c := 58) (by decide)
  have year : Ascii (yearText t) := (ascii_appendInt _ _).append hyphen
  have day (leap yday) : Ascii (dayText leap yday) :=
    ((ascii_digits _ _).append hyphen).append (ascii_digits _ _)
  have clock (n) : Ascii (clockText n) :=
    ((((ascii_digits _ _).append colon).append (ascii_digits _ _)).append colon).append (ascii_digits _ _)
  exact ((((year.append (day _ _)).append (ascii_singleton (c := 84) (by decide))).append (clock _)).append
    (ascii_fractionText t)).append (ascii_singleton (c := 90) (by decide))

end Otap.Lib
