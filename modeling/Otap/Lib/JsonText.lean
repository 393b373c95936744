import Otap.Lib.GoTime
import Otap.Lib.Utf8

/-!
# Reading JSON text back

Which values an object or an array was written from can be read back from its text when the texts of the
values end where a reader sees them end. `Separated` says that of two texts: whatever stands behind them,
up to the comma or bracket that ends a value, they are not mistaken for each other. Texts of scalars are
separated by what they are made of, and objects and arrays of separated texts are separated again, so
`jsonObject_inj` and `jsonArray_inj` give the values back.
-/

namespace Otap.Lib

variable {x y : Bytes} {l l' : List Bytes}

/-- Valid UTF-8: JSON does not change the string. -/
def ValidUtf8 (s : Bytes) : Prop :=
  coerceUtf8 s = s

instance (s : Bytes) : Decidable (ValidUtf8 s) :=
  inferInstanceAs (Decidable (_ = _))

lemma Ascii.validUtf8 {s : Bytes} (small : Ascii s) : ValidUtf8 s := by
  induction s with
  | nil => rfl
  | cons x s ih =>
    have width : runeWidth (x :: s) = 1 := runeWidth_ascii (small x List.mem_cons_self)
    have rest : coerceLoop 0 s = s := ih fun y mem => small y (List.mem_cons_of_mem _ mem)
    simp only [ValidUtf8, coerceUtf8, coerceLoop, width, rest]

lemma validUtf8_rfc3339Nano (t : Time) : ValidUtf8 (rfc3339Nano t) :=
  (ascii_rfc3339Nano t).validUtf8

/-- A comma or a closing bracket: what can stand behind a value. -/
def isStop (x : UInt8) : Bool :=
  x == 44 || x == 93 || x == 125

/-- The text behind a value. -/
def Stop (r : Bytes) : Prop :=
  ∃ x t, r = x :: t ∧ isStop x

/-- If two values with some text behind them read the same, then they are the same. -/
def Separated (x y : Bytes) : Prop :=
  ∀ ⦃r r'⦄, Stop r → Stop r' → x ++ r = y ++ r' → x = y

/-! ## Scalars -/

/-- Numbers, booleans and null have no stop inside. -/
lemma Separated.of_stopFree (free : ∀ b ∈ x, ¬ isStop b) (free' : ∀ b ∈ y, ¬ isStop b) :
    Separated x y := by
  rintro r r' ⟨a, t, rfl, stop⟩ ⟨b, t', rfl, stop'⟩ e
  obtain ⟨m, hy, hm⟩ | ⟨m, hx, hm⟩ := List.append_eq_append_iff.mp e
  · cases m with
    | nil => rw [hy, List.append_nil]
    | cons c m =>
      rw [List.cons_append] at hm
      obtain ⟨rfl, -⟩ := List.cons.inj hm
      exact absurd stop (free' a (hy ▸ List.mem_append_right _ List.mem_cons_self))
  · cases m with
    | nil => rw [hx, List.append_nil]
    | cons c m =>
      rw [List.cons_append] at hm
      obtain ⟨rfl, -⟩ := List.cons.inj hm
      exact absurd stop' (free b (hx ▸ List.mem_append_right _ List.mem_cons_self))

/-- Values that start differently. -/
lemma Separated.of_head_ne {a b : UInt8} (ne : a ≠ b) : Separated (a :: x) (b :: y) := by
  intro r r' _ _ e
  exact absurd (List.cons.inj e).1 ne

lemma decimalInt_stopFree (n : Int) : ∀ b ∈ decimalInt n, ¬ isStop b := by
  intro b mem stop
  have digit := decimalInt_byte mem
  simp only [isStop, Bool.or_eq_true, beq_iff_eq] at stop
  rcases stop with (rfl | rfl) | rfl <;> revert digit <;> decide

lemma Separated.decimalInt (m n : Int) : Separated (decimalInt m) (decimalInt n) :=
  .of_stopFree (decimalInt_stopFree m) (decimalInt_stopFree n)

/-- A `bool` in JSON. -/
def jsonBool (b : Bool) : Bytes :=
  if b then ascii "true" else ascii "false"

lemma jsonBool_stopFree (b : Bool) : ∀ x ∈ jsonBool b, ¬ isStop x := by
  have all : (jsonBool b).all (!isStop ·) = true := by cases b <;> rfl
  simpa using all

lemma Separated.jsonBool (a b : Bool) : Separated (jsonBool a) (jsonBool b) :=
  .of_stopFree (jsonBool_stopFree a) (jsonBool_stopFree b)

lemma jsonBool_inj {a b : Bool} (e : jsonBool a = jsonBool b) : a = b := by
  revert e
  cases a <;> cases b <;> decide

/-! ## Objects and arrays -/

lemma Separated.field {key : String} (h : Separated x y) :
    Separated (jsonField key x) (jsonField key y) := by
  intro r r' stop stop' e
  simp only [jsonField, List.append_assoc, List.append_cancel_left_eq] at e
  rw [h stop stop' e]

lemma jsonField_inj {key : String} : jsonField key x = jsonField key y ↔ x = y :=
  List.append_right_inj _

/-- Values behind commas, as many on both sides. -/
lemma intercalate_inj (sep : List.Forall₂ Separated l l') {r r' : Bytes} (stop : Stop r)
    (stop' : Stop r') (e : [UInt8.ofNat 44].intercalate l ++ r = [UInt8.ofNat 44].intercalate l' ++ r') :
    l = l' := by
  induction sep with
  | nil => rfl
  | @cons x x' l l' sep rest ih =>
    cases rest with
    | nil =>
      simp only [List.intercalate_singleton] at e
      rw [sep stop stop' e]
    | @cons y y' l l' _ _ =>
      simp only [List.intercalate_cons_cons, List.append_assoc] at e
      have first : x = x' := sep ⟨44, _, rfl, rfl⟩ ⟨44, _, rfl, rfl⟩ e
      subst first
      simp only [List.append_cancel_left_eq] at e
      rw [ih e]

lemma jsonObject_append_inj (sep : List.Forall₂ Separated l l') {r r' : Bytes}
    (e : jsonObject l ++ r = jsonObject l' ++ r') : l = l' := by
  simp only [jsonObject, List.append_assoc, List.append_cancel_left_eq] at e
  exact intercalate_inj sep ⟨125, _, rfl, rfl⟩ ⟨125, _, rfl, rfl⟩ e

lemma Separated.object (sep : List.Forall₂ Separated l l') :
    Separated (jsonObject l) (jsonObject l') := by
  intro r r' _ _ e
  rw [jsonObject_append_inj sep e]

/-- An object gives its fields back. -/
lemma jsonObject_inj (sep : List.Forall₂ Separated l l') (e : jsonObject l = jsonObject l') : l = l' :=
  jsonObject_append_inj sep (congrArg (· ++ []) e)

/-- An array in JSON. -/
def jsonArray (l : List Bytes) : Bytes :=
  ascii "[" ++ [UInt8.ofNat 44].intercalate l ++ ascii "]"

/-- The text behind the first value of an array. -/
def arrayTail : List Bytes → Bytes
  | [] => ascii "]"
  | x :: l => ascii "," ++ x ++ arrayTail l

lemma jsonArray_cons (x : Bytes) (l : List Bytes) : jsonArray (x :: l) = ascii "[" ++ x ++ arrayTail l := by
  induction l generalizing x with
  | nil => simp [jsonArray, arrayTail]
  | cons y l ih =>
    have tail : [UInt8.ofNat 44].intercalate (y :: l) ++ ascii "]" = y ++ arrayTail l := by
      have e := ih y
      simp only [jsonArray, List.append_assoc, List.append_cancel_left_eq] at e
      exact e
    simp only [jsonArray, arrayTail, List.intercalate_cons_cons, List.append_assoc, tail]
    rfl

lemma stop_arrayTail (l : List Bytes) (r : Bytes) : Stop (arrayTail l ++ r) := by
  cases l with
  | nil => exact ⟨93, _, rfl, rfl⟩
  | cons x l => exact ⟨44, _, rfl, rfl⟩

lemma arrayTail_inj (sep : ∀ x ∈ l, ∀ y ∈ l', Separated x y) {r r' : Bytes}
    (e : arrayTail l ++ r = arrayTail l' ++ r') : l = l' := by
  induction l generalizing l' with
  | nil =>
    cases l' with
    | nil => rfl
    | cons y l' => exact absurd (List.cons.inj e).1 (by decide)
  | cons x l ih =>
    cases l' with
    | nil => exact absurd (List.cons.inj e).1 (by decide)
    | cons y l' =>
      simp only [arrayTail, List.append_assoc, List.append_cancel_left_eq] at e
      have first : x = y :=
        sep x List.mem_cons_self y List.mem_cons_self (stop_arrayTail l r) (stop_arrayTail l' r') e
      subst first
      rw [ih (fun a ha b hb => sep a (List.mem_cons_of_mem _ ha) b (List.mem_cons_of_mem _ hb))
        (List.append_cancel_left e)]

/-- A value that does not start with a closing bracket, as none does. -/
def Opens (x : Bytes) : Prop :=
  ∃ b t, x = b :: t ∧ b ≠ 93

lemma jsonArray_append_inj (sep : ∀ x ∈ l, ∀ y ∈ l', Separated x y)
    (opens : ∀ x ∈ l, Opens x) (opens' : ∀ y ∈ l', Opens y) {r r' : Bytes}
    (e : jsonArray l ++ r = jsonArray l' ++ r') : l = l' := by
  cases l with
  | nil =>
    cases l' with
    | nil => rfl
    | cons y l' =>
      obtain ⟨b, t, rfl, ne⟩ := opens' y List.mem_cons_self
      rw [jsonArray_cons] at e
      exact absurd (List.cons.inj (List.cons.inj e).2).1.symm ne
  | cons x l =>
    cases l' with
    | nil =>
      obtain ⟨b, t, rfl, ne⟩ := opens x List.mem_cons_self
      rw [jsonArray_cons] at e
      exact absurd (List.cons.inj (List.cons.inj e).2).1 ne
    | cons y l' =>
      have tails : arrayTail (x :: l) ++ r = arrayTail (y :: l') ++ r' := by
        rw [jsonArray_cons, jsonArray_cons] at e
        simpa only [arrayTail, List.append_assoc, List.append_cancel_left_eq] using e
      exact arrayTail_inj sep tails

lemma Separated.array (sep : ∀ x ∈ l, ∀ y ∈ l', Separated x y)
    (opens : ∀ x ∈ l, Opens x) (opens' : ∀ y ∈ l', Opens y) :
    Separated (jsonArray l) (jsonArray l') := by
  intro r r' _ _ e
  rw [jsonArray_append_inj sep opens opens' e]

/-- An array gives its values back, and with them how many there are. -/
lemma jsonArray_inj (sep : ∀ x ∈ l, ∀ y ∈ l', Separated x y)
    (opens : ∀ x ∈ l, Opens x) (opens' : ∀ y ∈ l', Opens y) (e : jsonArray l = jsonArray l') : l = l' :=
  jsonArray_append_inj sep opens opens' (congrArg (· ++ []) e)

/-! ## Encodings that can be read back -/

/-- The texts of the scalars are separated, and each determines its value: strings in UTF-8, byte slices,
    and the floats that have a text. -/
structure Encoding.SelfDelimiting (enc : Encoding) : Prop where
  string : ∀ {s t}, ValidUtf8 s → ValidUtf8 t → Separated (enc.string s) (enc.string t)
  string_inj : ∀ {s t}, ValidUtf8 s → ValidUtf8 t → enc.string s = enc.string t → s = t
  bytes : ∀ a b, Separated (enc.bytes a) (enc.bytes b)
  bytes_inj : ∀ {a b}, enc.bytes a = enc.bytes b → a = b
  float : ∀ {x y a b}, enc.float x = some a → enc.float y = some b → Separated a b
  float_inj : ∀ {x y a}, enc.float x = some a → enc.float y = some a → x = y

/-- A byte of a quoted string. -/
def escape (b : UInt8) : Bytes :=
  if b = 34 ∨ b = 92 then [92, b] else [b]

/-- A quoted string: quotes and backslashes stand behind a backslash. -/
def quote (s : Bytes) : Bytes :=
  34 :: (s.flatMap escape ++ [34])

lemma escape_inj {s t r r' : Bytes} (e : s.flatMap escape ++ 34 :: r = t.flatMap escape ++ 34 :: r') :
    s = t := by
  induction s generalizing t with
  | nil =>
    cases t with
    | nil => rfl
    | cons b t =>
      rw [List.flatMap_cons, escape] at e
      split at e
      case isTrue => exact absurd (List.cons.inj e).1 (by decide)
      case isFalse ne => exact absurd (.inl (List.cons.inj e).1.symm) ne
  | cons a s ih =>
    cases t with
    | nil =>
      rw [List.flatMap_cons, escape] at e
      split at e
      case isTrue => exact absurd (List.cons.inj e).1 (by decide)
      case isFalse ne => exact absurd (.inl (List.cons.inj e).1) ne
    | cons b t =>
      rw [List.flatMap_cons, List.flatMap_cons, escape, escape] at e
      split at e
      case isTrue =>
        split at e
        case isTrue =>
          obtain ⟨same, rest⟩ := List.cons.inj (List.cons.inj e).2
          rw [same, ih rest]
        case isFalse ne => exact absurd (.inr (List.cons.inj e).1.symm) ne
      case isFalse ne =>
        split at e
        case isTrue => exact absurd (.inr (List.cons.inj e).1) ne
        case isFalse =>
          obtain ⟨same, rest⟩ := List.cons.inj e
          rw [same, ih rest]

lemma quote_inj {s t r r' : Bytes} (e : quote s ++ r = quote t ++ r') : s = t := by
  simp only [quote, List.cons_append, List.append_assoc, List.nil_append] at e
  exact escape_inj (List.cons.inj e).2

lemma Separated.quote (s t : Bytes) : Separated (quote s) (quote t) := by
  intro r r' _ _ e
  rw [quote_inj e]

/-- Encodings to run examples with that can be read back. -/
def Encoding.quoted : Encoding where
  string := quote
  bytes := quote
  float x := if x.finite then some (decimalInt x.bits.toNat) else none
  rfc3339Nano := Lib.rfc3339Nano

lemma Encoding.quoted_selfDelimiting : Encoding.quoted.SelfDelimiting where
  string _ _ := .quote _ _
  string_inj _ _ e := quote_inj (congrArg (· ++ []) e)
  bytes := .quote
  bytes_inj e := quote_inj (congrArg (· ++ []) e)
  float hx hy := by
    obtain ⟨-, ex⟩ := Option.ite_none_right_eq_some.mp hx
    obtain ⟨-, ey⟩ := Option.ite_none_right_eq_some.mp hy
    rw [← Option.some.inj ex, ← Option.some.inj ey]
    exact .decimalInt _ _
  float_inj {x y _} hx hy := by
    obtain ⟨-, ex⟩ := Option.ite_none_right_eq_some.mp hx
    obtain ⟨-, ey⟩ := Option.ite_none_right_eq_some.mp hy
    have bits := decimalInt_inj ((Option.some.inj ex).trans (Option.some.inj ey).symm)
    cases x
    cases y
    exact congrArg Float64.mk (UInt64.toNat_inj.mp (Int.ofNat_inj.mp bits))

end Otap.Lib
