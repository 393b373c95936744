import Otap.Lib.Bytes

/-!
# Pieces of the Go standard library

What the registry's Go code takes from its standard library: decimal and fixed-point formatting of
numbers (`%d`, `%.2f`), the layout of a struct in JSON, and `sort.Slice`; and its loops over pointers and
early returns.

Numbers are formatted by definitions of their own. The scalar encodings of `encoding/json` and the
timestamp format are parameters (`Encoding`), as is the order in which `sort.Slice` leaves elements that
compare equal (`SortSlice`): a development states what it assumes of them where it uses them.
-/

namespace Otap.Lib

/-! ## Numbers -/

/-- `%d` of a nonnegative number. -/
def decimal (n : Nat) : Bytes :=
  if n = 0 then [48] else (Nat.digits 10 n).reverse.map fun d => UInt8.ofNat (48 + d)

/-- `%d`. -/
def decimalInt : Int → Bytes
  | .ofNat n => decimal n
  | .negSucc n => ascii "-" ++ decimal (n + 1)

/-- The number that a string of digits stands for. -/
def ofDecimal (b : Bytes) : Nat :=
  b.foldl (fun n x => 10 * n + (x.toNat - 48)) 0

lemma toNat_digit {d : Nat} (lt : d < 10) : (UInt8.ofNat (48 + d)).toNat = 48 + d :=
  UInt8.toNat_ofNat_of_lt (by rw [UInt8.size]; omega)

lemma ofDecimal_decimal (n : Nat) : ofDecimal (decimal n) = n := by
  unfold decimal
  split
  case isTrue zero => rw [zero]; rfl
  case isFalse =>
    have digit : ∀ d ∈ Nat.digits 10 n, d < 10 := fun d mem =>
      Nat.digits_lt_base (by decide) mem
    rw [ofDecimal, List.foldl_map, List.foldl_reverse]
    calc (Nat.digits 10 n).foldr (fun d acc => 10 * acc + ((UInt8.ofNat (48 + d)).toNat - 48)) 0
        = (Nat.digits 10 n).foldr (fun d acc => d + 10 * acc) 0 := by
          apply List.foldr_ext
          intro d mem acc
          rw [toNat_digit (digit d mem), Nat.add_sub_cancel_left, Nat.add_comm]
      _ = n := by
          rw [← Nat.cast_id ((Nat.digits 10 n).foldr _ 0)]
          exact (Nat.ofDigits_eq_foldr ..).symm.trans (Nat.ofDigits_digits 10 n)

/-- A decimal number is made of digits. -/
lemma decimal_digits {n : Nat} {x : UInt8} (mem : x ∈ decimal n) : 48 ≤ x.toNat ∧ x.toNat < 58 := by
  unfold decimal at mem
  split at mem
  case isTrue => rw [List.mem_singleton.mp mem]; decide
  case isFalse =>
    obtain ⟨d, hd, rfl⟩ := List.mem_map.mp mem
    have lt : d < 10 := Nat.digits_lt_base (by decide) (List.mem_reverse.mp hd)
    rw [toNat_digit lt]
    omega

lemma decimalInt_byte {n : Int} {x : UInt8} (mem : x ∈ decimalInt n) :
    x = 45 ∨ 48 ≤ x.toNat ∧ x.toNat < 58 := by
  cases n with
  | ofNat n => exact .inr (decimal_digits mem)
  | negSucc n =>
    cases List.mem_append.mp mem with
    | inl minus => exact .inl (List.mem_singleton.mp (by simpa [ascii] using minus))
    | inr digits => exact .inr (decimal_digits digits)

lemma decimalInt_bytes {n : Int} {x : UInt8} (mem : x ∈ decimalInt n) : x.toNat < 58 := by
  rcases decimalInt_byte mem with rfl | digit
  · decide
  · exact digit.2

lemma colon_notMem_decimal (n : Nat) : (58 : UInt8) ∉ decimal n := fun mem =>
  absurd (decimal_digits mem).2 (by decide)

lemma colon_notMem_decimalInt (n : Int) : (58 : UInt8) ∉ decimalInt n := fun mem =>
  absurd (decimalInt_bytes mem) (by decide)

lemma decimalInt_inj {m n : Int} (e : decimalInt m = decimalInt n) : m = n := by
  have minus (a b : Nat) : decimal a ≠ ascii "-" ++ decimal b := by
    intro eq
    have digit := decimal_digits (n := a) (x := 45) (eq ▸ by simp [ascii])
    exact absurd digit.1 (by decide)
  cases m with
  | ofNat m =>
    cases n with
    | ofNat n =>
      have eq := congrArg ofDecimal e
      rw [decimalInt, decimalInt, ofDecimal_decimal, ofDecimal_decimal] at eq
      rw [eq]
    | negSucc n => exact (minus _ _ e).elim
  | negSucc m =>
    cases n with
    | ofNat n => exact (minus _ _ e.symm).elim
    | negSucc n =>
      have eq := congrArg ofDecimal (List.append_cancel_left e)
      rw [ofDecimal_decimal, ofDecimal_decimal] at eq
      rw [Nat.succ.inj eq]

/-- A `float64`, by its bits in IEEE 754. -/
structure Float64 where
  bits : UInt64
  deriving DecidableEq

namespace Float64

def negative (x : Float64) : Bool :=
  x.bits >>> 63 == 1

def exponent (x : Float64) : Nat :=
  ((x.bits >>> 52) &&& 0x7ff).toNat

def fraction (x : Float64) : Nat :=
  (x.bits &&& 0xfffffffffffff).toNat

def finite (x : Float64) : Bool :=
  x.exponent != 0x7ff

def isNaN (x : Float64) : Bool :=
  x.exponent == 0x7ff && x.fraction != 0

/-- `==`: zeros of both signs are equal, and nothing equals a NaN. -/
def equal (x y : Float64) : Bool :=
  !x.isNaN && !y.isNaN && (x.bits == y.bits || (x.bits <<< 1 == 0 && y.bits <<< 1 == 0))

lemma equal_comm (x y : Float64) : x.equal y = y.equal x := by
  unfold Float64.equal
  rw [Bool.and_comm (!x.isNaN), Bool.beq_comm, Bool.and_comm (x.bits <<< 1 == 0)]

/-- The integer nearest to `num / den`, and the even one of two. -/
def roundHalfEven (num den : Nat) : Nat :=
  let q := num / den
  let r := num % den
  if den < 2 * r ∨ (2 * r = den ∧ q % 2 = 1) then q + 1 else q

/-- The magnitude of a finite number times `10 ^ prec`, rounded. It is `m * 2 ^ (e - 1075)`, with an
    implicit leading bit except for subnormal numbers. -/
def scaled (prec : Nat) (x : Float64) : Nat :=
  let m := if x.exponent = 0 then x.fraction else 2 ^ 52 + x.fraction
  let e := max x.exponent 1
  roundHalfEven (m * 10 ^ prec * 2 ^ (e - 1075)) (2 ^ (1075 - e))

/-- `%.<prec>f` for a positive precision. A negative number that rounds to zero keeps its sign. -/
def formatFixed (prec : Nat) (x : Float64) : Bytes :=
  if x.finite then
    let v := x.scaled prec
    let frac := decimal (v % 10 ^ prec)
    (if x.negative then ascii "-" else []) ++ decimal (v / 10 ^ prec) ++ ascii "." ++
      List.replicate (prec - frac.length) 48 ++ frac
  else if x.fraction = 0 then (if x.negative then ascii "-Inf" else ascii "+Inf")
  else ascii "NaN"

-- 1550.125 is halfway between two hundredths
example : formatFixed 2 ⟨0x4098388000000000⟩ = ascii "1550.12" := by decide

end Float64

/-! ## JSON and timestamps -/

/-- An instant, in nanoseconds. -/
abbrev Time := Int

/-- A second, in nanoseconds. -/
def second : Time := 10 ^ 9

/-- `Time.MarshalJSON` succeeds on an instant in UTC: its year is in [0, 9999]. -/
def jsonTime (t : Time) : Bool :=
  -62167219200 * second ≤ t && t < 253402300800 * second

/-- The error of `json.Marshal` on an instant of another year. -/
def marshalError : Bytes :=
  ascii "json: error calling MarshalJSON for type time.Time: Time.MarshalJSON: year outside of range [0,9999]"

/-- The scalar encodings of `encoding/json` (strings quoted and escaped, `[]byte` as a quoted base64
    string, `float64` unless it is infinite or not a number) and `Format(time.RFC3339Nano)` in UTC. -/
structure Encoding where
  string : Bytes → Bytes
  bytes : Bytes → Bytes
  float : Float64 → Option Bytes
  rfc3339Nano : Time → Bytes

/-- Encodings to run examples with: nothing is escaped, and numbers are decimal. -/
def Encoding.plain : Encoding where
  string s := ascii "\"" ++ s ++ ascii "\""
  bytes b := ascii "\"" ++ b ++ ascii "\""
  float x := if x.finite then some (decimal x.bits.toNat) else none
  rfc3339Nano := decimalInt

/-- A `[]byte` in JSON; a nil one is `none`. -/
def Encoding.bytesOrNull (enc : Encoding) : Option Bytes → Bytes
  | none => ascii "null"
  | some b => enc.bytes b

/-- A field of a struct in JSON. -/
def jsonField (key : String) (value : Bytes) : Bytes :=
  ascii "\"" ++ ascii key ++ ascii "\":" ++ value

/-- A struct in JSON: its fields in the order of their declaration. -/
def jsonObject (fields : List Bytes) : Bytes :=
  ascii "\x7b" ++ [UInt8.ofNat 44].intercalate fields ++ ascii "\x7d"

/-! ## Sorting -/

/-- `sort.Slice` with a comparison: some sorted permutation. It need not be stable. -/
structure SortSlice {α : Type} (less : α → α → Prop) where
  sort : List α → List α
  perm : ∀ l, (sort l).Perm l
  sorted : ∀ l, (sort l).Pairwise fun a b => ¬ less b a

/-- Insertion sort by a key: one of the orders that `sort.Slice` may leave. -/
def SortSlice.byKey {α κ : Type} {less : α → α → Prop} [LE κ] [DecidableLE κ] (key : α → κ)
    (total : ∀ a b : κ, a ≤ b ∨ b ≤ a) (trans : ∀ {a b c : κ}, a ≤ b → b ≤ c → a ≤ c)
    (sound : ∀ a b, key a ≤ key b → ¬ less b a) : SortSlice less where
  sort l := l.insertionSort fun a b => key a ≤ key b
  perm l := List.perm_insertionSort _ l
  sorted l := by
    have : Std.Total fun a b : α => key a ≤ key b := ⟨fun a b => total (key a) (key b)⟩
    have : IsTrans α fun a b => key a ≤ key b := ⟨fun _ _ _ => trans⟩
    exact (List.pairwise_insertionSort _ l).imp (sound _ _)

/-- By a string. -/
def SortSlice.byBytes {α : Type} {less : α → α → Prop} (key : α → Bytes)
    (sound : ∀ a b, key a ≤ key b → ¬ less b a) : SortSlice less :=
  .byKey key List.le_total List.le_trans sound

lemma SortSlice.length_map_sort {α β : Type} {less : α → α → Prop} (s : SortSlice less) (f : α → β) (l : List α) :
    ((s.sort l).map f).length = l.length := by
  rw [List.length_map, (s.perm l).length_eq]

/-- Where the comparison tells the elements apart there is one order only: two sorts leave the same images of lists
    whose images are permutations of each other. -/
lemma SortSlice.map_sort_eq {α β γ : Type} {less : α → α → Prop} {less' : β → β → Prop} (s : SortSlice less)
    (s' : SortSlice less') {f : α → γ} {f' : β → γ} (lt : γ → γ → Prop) (mono : ∀ a b, lt (f a) (f b) → less a b)
    (mono' : ∀ a b, lt (f' a) (f' b) → less' a b) {l : List α} {l' : List β} (perm : (l.map f).Perm (l'.map f'))
    (connex : ∀ x ∈ l.map f, ∀ y ∈ l.map f, ¬ lt x y → ¬ lt y x → x = y) :
    (s.sort l).map f = (s'.sort l').map f' := by
  have left : ((s.sort l).map f).Perm (l.map f) := (s.perm l).map f
  have right : ((s'.sort l').map f').Perm (l.map f) := ((s'.perm l').map f').trans perm.symm
  have sorted : ((s.sort l).map f).Pairwise fun x y => ¬ lt y x :=
    List.pairwise_map.mpr ((s.sorted l).imp fun h lt => h (mono _ _ lt))
  have sorted' : ((s'.sort l').map f').Pairwise fun x y => ¬ lt y x :=
    List.pairwise_map.mpr ((s'.sorted l').imp fun h lt => h (mono' _ _ lt))
  refine List.Perm.eq_of_pairwise ?_ sorted sorted' (left.trans right.symm)
  intro x y hx hy notGt notLt
  exact connex x (left.mem_iff.mp hx) y (right.mem_iff.mp hy) notLt notGt

/-- Sorting commutes with a map that keeps the order. -/
lemma SortSlice.map_sort {α β : Type} {less : α → α → Prop} {less' : β → β → Prop} (s : SortSlice less)
    (s' : SortSlice less') {f : α → β} (mono : ∀ a b, less' (f a) (f b) → less a b) {l : List α} {l' : List β}
    (perm : (l.map f).Perm l') (connex : ∀ x ∈ l.map f, ∀ y ∈ l.map f, ¬ less' x y → ¬ less' y x → x = y) :
    (s.sort l).map f = s'.sort l' := by
  have sorted : (s.sort l).map f = (s'.sort l').map id :=
    s.map_sort_eq s' less' mono (fun _ _ lt => lt) (by rwa [List.map_id']) connex
  rwa [List.map_id] at sorted

/-! ## Loops that may dereference nil -/

section Loops

variable {α β : Type}

/-- A loop over pointers of which none is nil, with their positions. -/
lemma mapM_pointers {f : Option α × Nat → Option β} {g : α → β} (runs : ∀ x i, f (some x, i) = some (g x))
    (l : List α) (start : Nat) : ((l.map some).zipIdx start).mapM f = some (l.map g) := by
  induction l generalizing start with
  | nil => rfl
  | cons x l ih =>
    rw [List.map_cons, List.zipIdx_cons, List.mapM_cons, runs, ih]
    rfl

/-- A loop none of whose iterations panics. -/
lemma exists_mapM {f : α → Option β} {l : List α} (runs : ∀ x ∈ l, ∃ y, f x = some y) :
    ∃ out, l.mapM f = some out := by
  induction l with
  | nil => exact ⟨[], rfl⟩
  | cons x l ih =>
    obtain ⟨y, head⟩ := runs x List.mem_cons_self
    obtain ⟨ys, tail⟩ := ih fun z mem => runs z (List.mem_cons_of_mem x mem)
    refine ⟨y :: ys, ?_⟩
    rw [List.mapM_cons, head, tail]
    rfl

/-- A loop that ends produces something for every element, and something of an element only. -/
lemma of_mapM {f : α → Option β} {l : List α} {out : List β} (ran : l.mapM f = some out) :
    (∀ x ∈ l, ∃ y, f x = some y) ∧ ∀ y ∈ out, ∃ x ∈ l, f x = some y := by
  induction l generalizing out with
  | nil =>
    cases ran
    exact ⟨fun _ mem => (nomatch mem), fun _ mem => (nomatch mem)⟩
  | cons x l ih =>
    rw [List.mapM_cons] at ran
    obtain ⟨y, head, rest⟩ := Option.bind_eq_some_iff.mp ran
    obtain ⟨ys, tail, made⟩ := Option.bind_eq_some_iff.mp rest
    cases made
    obtain ⟨ends, of⟩ := ih tail
    refine ⟨List.forall_mem_cons.mpr ⟨⟨y, head⟩, ends⟩, List.forall_mem_cons.mpr ⟨⟨x, List.mem_cons_self, head⟩, ?_⟩⟩
    intro z mem
    obtain ⟨w, listed, made⟩ := of z mem
    exact ⟨w, List.mem_cons_of_mem x listed, made⟩

lemma exists_bind_pure {γ : Type} {x : Option β} {g : β → γ} (runs : ∃ y, x = some y) :
    ∃ out, (x >>= fun y => pure (g y)) = some out := by
  obtain ⟨y, rfl⟩ := runs
  exact ⟨g y, rfl⟩

end Loops

/-! ## Early returns -/

section Guards

variable {ε α : Type} {p : Prop} [Decidable p] {err : ε} {rest : Except ε α} {a : α}

/-- `if p { return err }`. -/
lemma guard_ok_iff : (if p then .error err else rest) = .ok a ↔ ¬ p ∧ rest = .ok a := by
  by_cases returns : p
  case pos => simp [returns]
  case neg => rw [if_neg returns, and_iff_right returns]

/-- `if p { return err }`, in a call that returns no error. -/
lemma ok_of_guard (h : (if p then .error err else rest) = .ok a) : ¬ p ∧ rest = .ok a :=
  guard_ok_iff.mp h

/-- A successful `Except.map`. -/
lemma map_ok {β : Type} {f : α → β} {b : β} (h : rest.map f = .ok b) : ∃ a, rest = .ok a ∧ b = f a := by
  cases rest with
  | error err => cases h
  | ok a => exact ⟨a, rfl, (Except.ok.inj h).symm⟩

end Guards

end Otap.Lib
