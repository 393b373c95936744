import Otap.Lib.Bytes

/-!
# JSON documents

A JSON document as the value its text stands for, and readers for it in the manner of serde's derived
implementations: a reader returns `none` where the derived code returns an error. Numbers are integers or, with a
fraction or an exponent, `real`. The text of a document and the messages of the errors are left out.

`structFields` is the derived reader of a struct up to the readers of its fields: from an object it takes the
value of every field by its name, refuses one that is given twice and ignores the other names; from an array it
takes the values in the order of the fields.
-/

namespace Otap.Lib

inductive Json where
  | null
  | bool (b : Bool)
  | num (n : Int)
  | real (literal : Bytes)
  | str (s : Bytes)
  | arr (elements : List Json)
  | obj (members : List (Bytes × Json))

namespace Json

variable {α : Type}

def readString : Json → Option Bytes
  | str s => some s
  | _ => none

def readI32 : Json → Option Int32
  | num n => if -2 ^ 31 ≤ n ∧ n < 2 ^ 31 then some (Int32.ofInt n) else none
  | _ => none

/-- `Vec<T>`. -/
def readVec (read : Json → Option α) : Json → Option (List α)
  | arr l => l.mapM read
  | _ => none

/-- `Option<T>`. -/
def readOption (read : Json → Option α) : Json → Option (Option α)
  | null => some none
  | j => (read j).map some

/-- An enum of unit variants: the name of the variant, alone or as the only key of an object. -/
def readVariant (variants : List (Bytes × α)) : Json → Option α
  | str s => variants.lookup s
  | obj [(s, null)] => variants.lookup s
  | _ => none

/-- The values that a document gives to the fields of a struct. -/
def structFields (names : List Bytes) : Json → Option (List (Option Json))
  | obj members =>
    if names.all fun name => (members.filter fun m => m.1 == name).length ≤ 1 then
      some (names.map fun name => members.lookup name)
    else none
  | arr l => if l.length ≤ names.length then some ((List.range names.length).map (l[·]?)) else none
  | _ => none

/-- A field that must be given. -/
def required (read : Json → Option α) : Option Json → Option α
  | none => none
  | some j => read j

/-- `#[serde(default)]`. -/
def defaulted (default : α) (read : Json → Option α) : Option Json → Option α
  | none => some default
  | some j => read j

end Json

/-! ## Base64 -/

/-- A digit of the standard alphabet. -/
def base64Digit (n : Nat) : UInt8 :=
  if n < 26 then UInt8.ofNat (65 + n)
  else if n < 52 then UInt8.ofNat (71 + n)
  else if n < 62 then UInt8.ofNat (n - 4)
  else if n = 62 then 43
  else 47

/-- A byte string in base64, padded with `=`. -/
def base64 : Bytes → Bytes
  | [] => []
  | [a] => [base64Digit (a.toNat / 4), base64Digit (a.toNat % 4 * 16), 61, 61]
  | [a, b] =>
    [ base64Digit (a.toNat / 4), base64Digit (a.toNat % 4 * 16 + b.toNat / 16), base64Digit (b.toNat % 16 * 4), 61 ]
  | a :: b :: c :: l =>
    [ base64Digit (a.toNat / 4), base64Digit (a.toNat % 4 * 16 + b.toNat / 16),
      base64Digit (b.toNat % 16 * 4 + c.toNat / 64), base64Digit (c.toNat % 64) ] ++ base64 l

example : base64 (ascii "light wo") = ascii "bGlnaHQgd28=" := by decide

end Otap.Lib
