import Otap.Lib.Bytes

/-!
# UTF-8

Strings in Go are byte strings that need not be UTF-8. `runeWidth` is the decoder's answer at the head of a
string: the length of the encoded rune there, or 0 where no valid one stands. `coerceUtf8` is what a string
becomes on its way through JSON: every byte at which decoding fails is replaced by U+FFFD. The strings it
leaves alone are the valid ones, and what it returns is valid (`coerceUtf8_idem`). `quoted` is the text of a
string in an error.
-/

namespace Otap.Lib

/-- A continuation byte. -/
def isCont (b : UInt8) : Bool :=
  0x80 ≤ b && b ≤ 0xbf

/-- The second bytes that may follow a leading byte: no overlong forms, no surrogates, nothing above
    U+10FFFF. -/
def isSecond (b₀ b₁ : UInt8) : Bool :=
  isCont b₁ && (b₀ != 0xe0 || 0xa0 ≤ b₁) && (b₀ != 0xed || b₁ ≤ 0x9f) && (b₀ != 0xf0 || 0x90 ≤ b₁) &&
    (b₀ != 0xf4 || b₁ ≤ 0x8f)

/-- The number of bytes that a leading byte announces; 0 for a byte that leads nothing. -/
def leadWidth (b : UInt8) : Nat :=
  if b < 0x80 then 1
  else if b < 0xc2 then 0
  else if b < 0xe0 then 2
  else if b < 0xf0 then 3
  else if b < 0xf5 then 4
  else 0

/-- The bytes after a leading byte complete its rune. -/
def isTail (b₀ : UInt8) : Bytes → Bool
  | [] => true
  | b₁ :: l => isSecond b₀ b₁ && l.all isCont

/-- The width of the rune at the head of a string, or 0. -/
def runeWidth : Bytes → Nat
  | [] => 0
  | b :: l =>
    if leadWidth b ≤ l.length + 1 ∧ isTail b (l.take (leadWidth b - 1)) then leadWidth b else 0

/-- U+FFFD. -/
def replacement : Bytes := [0xef, 0xbf, 0xbd]

/-- `coerceUtf8` in the middle of a rune: the next `n` bytes belong to it. -/
def coerceLoop : Nat → Bytes → Bytes
  | _, [] => []
  | n + 1, b :: l => b :: coerceLoop n l
  | 0, b :: l =>
    match runeWidth (b :: l) with
    | 0 => replacement ++ coerceLoop 0 l
    | n + 1 => b :: coerceLoop n l

/-- A string after JSON. -/
def coerceUtf8 (s : Bytes) : Bytes :=
  coerceLoop 0 s

example : coerceUtf8 [0x61, 0xff, 0xc3, 0xa9, 0xc3] =
    [0x61] ++ replacement ++ [0xc3, 0xa9] ++ replacement := by
  decide

/-- The number that the bytes of one rune encode: a leading byte of `n` bytes carries `7 - n` bits of it, and every
    byte after it 6. -/
def runeValue : Bytes → Nat
  | [] => 0
  | [b] => b.toNat
  | b :: l => l.foldl (fun v c => v * 64 + c.toNat % 64) (b.toNat % 2 ^ (6 - l.length))

/-- `runes` in the middle of a rune: the next `n` bytes belong to it. -/
def runesLoop : Nat → Bytes → List Nat
  | _, [] => []
  | n + 1, _ :: l => runesLoop n l
  | 0, b :: l =>
    match runeWidth (b :: l) with
    | 0 => 0xfffd :: runesLoop 0 l
    | n + 1 => runeValue (b :: l.take n) :: runesLoop n l

/-- The runes over which `for _, c := range s` runs. -/
def runes (s : Bytes) : List Nat :=
  runesLoop 0 s

example : runes [0x61, 0xff, 0xc3, 0xa9, 0xe2, 0x82, 0xac] = [0x61, 0xfffd, 0xe9, 0x20ac] := by
  decide

/-- The escape of a byte that is not printable or no part of a rune. -/
def quoteHex (b : UInt8) : Bytes :=
  let digit (n : Nat) : UInt8 := UInt8.ofNat (if n < 10 then 48 + n else 87 + n)
  ascii "\\x" ++ [digit (b.toNat / 16), digit (b.toNat % 16)]

/-- A rune below U+0080 in a quoted string. -/
def quoteAscii (b : UInt8) : Bytes :=
  let letters : List (UInt8 × String) :=
    [(7, "\\a"), (8, "\\b"), (9, "\\t"), (10, "\\n"), (11, "\\v"), (12, "\\f"), (13, "\\r")]
  if b = 34 ∨ b = 92 then [92, b]
  else if 32 ≤ b ∧ b < 127 then [b]
  else ((letters.lookup b).map ascii).getD (quoteHex b)

/-- `quoted` in the middle of a rune: the next `n` bytes belong to it. -/
def quoteLoop : Nat → Bytes → Bytes
  | _, [] => []
  | n + 1, b :: l => b :: quoteLoop n l
  | 0, b :: l =>
    match runeWidth (b :: l) with
    | 0 => quoteHex b ++ quoteLoop 0 l
    | 1 => quoteAscii b ++ quoteLoop 0 l
    | n + 2 => b :: quoteLoop (n + 1) l

/-- The text `%q` of a string; all runes above U+007F are taken to be printable. -/
def quoted (s : Bytes) : Bytes :=
  ascii "\"" ++ quoteLoop 0 s ++ ascii "\""

example : quoted (ascii "a\"\n" ++ [1, 0xff, 0xc3, 0xa9]) =
    ascii "\"a\\\"\\n\\x01\\xff" ++ [0xc3, 0xa9] ++ ascii "\"" := by
  decide

lemma runeWidth_ascii {x : UInt8} {l : Bytes} (small : x.toNat < 128) : runeWidth (x :: l) = 1 := by
  have lead : leadWidth x = 1 := if_pos (UInt8.lt_iff_toNat_lt.mpr small)
  rw [runeWidth, lead, if_pos]
  exact ⟨Nat.le_add_left 1 l.length, rfl⟩

lemma runeWidth_le (s : Bytes) : runeWidth s ≤ s.length := by
  cases s with
  | nil => exact le_refl 0
  | cons b l =>
    rw [runeWidth]
    split
    case isTrue h => exact h.1
    case isFalse => exact Nat.zero_le _

/-- Whether a rune stands at the head depends on its own bytes only. -/
lemma runeWidth_take_append {s : Bytes} {n : Nat} (width : runeWidth s = n + 1) (r : Bytes) :
    runeWidth (s.take (n + 1) ++ r) = n + 1 := by
  cases s with
  | nil => cases width
  | cons b l =>
    rw [runeWidth] at width
    split at width
    case isTrue h =>
      obtain ⟨long, tail⟩ := h
      rw [width] at long tail
      rw [List.take_succ_cons, List.cons_append, runeWidth, width]
      have len : (l.take n).length = n := List.length_take_of_le (Nat.le_of_succ_le_succ long)
      refine if_pos ⟨?_, ?_⟩
      · rw [List.length_append, len]
        omega
      · rwa [Nat.add_sub_cancel, List.take_left' len]
    case isFalse => cases width

lemma coerceLoop_append {t : Bytes} {n : Nat} (len : t.length = n) (r : Bytes) :
    coerceLoop n (t ++ r) = t ++ coerceLoop 0 r := by
  induction t generalizing n with
  | nil => rw [← len]; rfl
  | cons b t ih =>
    obtain rfl : t.length + 1 = n := len
    rw [List.cons_append, coerceLoop, ih rfl, List.cons_append]

/-- A string that starts with a rune keeps it. -/
lemma coerceUtf8_rune {t r : Bytes} {n : Nat} (len : t.length = n + 1)
    (width : runeWidth (t ++ r) = n + 1) : coerceUtf8 (t ++ r) = t ++ coerceUtf8 r := by
  cases t with
  | nil => cases len
  | cons b t =>
    rw [List.cons_append] at width ⊢
    rw [coerceUtf8, coerceLoop, width]
    simp only
    rw [coerceLoop_append (Nat.succ.inj len), coerceUtf8, List.cons_append]

lemma coerceUtf8_replacement (r : Bytes) : coerceUtf8 (replacement ++ r) = replacement ++ coerceUtf8 r :=
  coerceUtf8_rune rfl (runeWidth_take_append (s := replacement) rfl r)

lemma coerceUtf8_idem (s : Bytes) : coerceUtf8 (coerceUtf8 s) = coerceUtf8 s := by
  -- on the length: a step takes off a whole rune, or one byte that starts none
  induction len : s.length using Nat.strong_induction_on generalizing s with
  | _ k ih =>
    cases s with
    | nil => rfl
    | cons b l =>
      cases width : runeWidth (b :: l) with
      | zero =>
        have step : coerceUtf8 (b :: l) = replacement ++ coerceUtf8 l := by
          rw [coerceUtf8, coerceLoop, width]
          rfl
        rw [step, coerceUtf8_replacement, ih l.length (by rw [← len]; exact Nat.lt_succ_self _) l rfl]
      | succ n =>
        have enough : ((b :: l).take (n + 1)).length = n + 1 :=
          List.length_take_of_le (width ▸ runeWidth_le (b :: l))
        have split : (b :: l).take (n + 1) ++ (b :: l).drop (n + 1) = b :: l := List.take_append_drop _ _
        have step : coerceUtf8 (b :: l) = (b :: l).take (n + 1) ++ coerceUtf8 ((b :: l).drop (n + 1)) := by
          nth_rewrite 1 [← split]
          exact coerceUtf8_rune enough (split.symm ▸ width)
        have shorter : ((b :: l).drop (n + 1)).length < k := by
          rw [List.length_drop, ← len, List.length_cons]
          omega
        rw [step, coerceUtf8_rune enough (runeWidth_take_append width _), ih _ shorter _ rfl]

end Otap.Lib
