import Mathlib.Tactic

/-!
# Byte strings and hash functions

Byte strings with their lexicographic order, text as bytes, and hash functions of a fixed digest size.
`Hash` carries the size of its digests as a field, so that every digest in a development has it.
-/

namespace Otap.Lib

abbrev Bytes := List UInt8

/-- The bytes of a text in ASCII. -/
def ascii (s : String) : Bytes :=
  s.toList.map fun c => UInt8.ofNat c.toNat

/-! ## Lexicographic order -/

/-- The strings differ at some position, where the first one has the smaller byte. Then it is the smaller
    one whatever follows. -/
inductive Precedes : Bytes → Bytes → Prop where
  | here {x y l l'} : x < y → Precedes (x :: l) (y :: l')
  | next {x l l'} : Precedes l l' → Precedes (x :: l) (x :: l')

lemma Precedes.lt {l l' : Bytes} (h : Precedes l l') : l < l' := by
  induction h with
  | here lt => exact List.Lex.rel lt
  | next _ ih => exact List.Lex.cons ih

lemma Precedes.right_ne_nil {l l' : Bytes} (h : Precedes l l') : l' ≠ [] := by
  cases h with
  | here => exact List.cons_ne_nil _ _
  | next => exact List.cons_ne_nil _ _

lemma Precedes.not_prefix {l l' : Bytes} (h : Precedes l l') : ¬ l <+: l' := by
  induction h with
  | here lt => exact fun pre => absurd (List.cons_prefix_cons.mp pre).1 (UInt8.ne_of_lt lt)
  | next _ ih => exact fun pre => ih (List.cons_prefix_cons.mp pre).2

lemma Precedes.append {l l' : Bytes} (h : Precedes l l') (r r' : Bytes) :
    Precedes (l ++ r) (l' ++ r') := by
  induction h with
  | here lt => exact .here lt
  | next _ ih => exact .next ih

lemma Precedes.append_left {r r' : Bytes} (h : Precedes r r') (l : Bytes) :
    Precedes (l ++ r) (l ++ r') := by
  induction l with
  | nil => exact h
  | cons x l ih => exact .next ih

/-- Two strings of which none starts with the other. -/
lemma prefix_or_precedes (l l' : Bytes) :
    l <+: l' ∨ l' <+: l ∨ Precedes l l' ∨ Precedes l' l := by
  induction l generalizing l' with
  | nil => exact .inl List.nil_prefix
  | cons x l ih =>
    cases l' with
    | nil => exact .inr (.inl List.nil_prefix)
    | cons y l' =>
      rcases Nat.lt_trichotomy x.toNat y.toNat with lt | eq | gt
      · exact .inr (.inr (.inl (.here lt)))
      · obtain rfl := UInt8.toNat_inj.mp eq
        rcases ih l' with pre | pre | h | h
        · exact .inl (List.cons_prefix_cons.mpr ⟨rfl, pre⟩)
        · exact .inr (.inl (List.cons_prefix_cons.mpr ⟨rfl, pre⟩))
        · exact .inr (.inr (.inl (.next h)))
        · exact .inr (.inr (.inr (.next h)))
      · exact .inr (.inr (.inr (.here gt)))

/-! ## Separated strings -/

private lemma eq_nil_of_separated {c : UInt8} {m b b' : Bytes} (free : c ∉ b)
    (e : c :: b = m ++ c :: b') : m = [] := by
  cases m with
  | nil => rfl
  | cons x m =>
    rw [List.cons_append] at e
    have tail : b = m ++ c :: b' := (List.cons.inj e).2
    exact absurd (tail ▸ List.mem_append_right m List.mem_cons_self) free

/-- Two parts joined by a separator that the second part does not contain. -/
lemma separated_inj {c : UInt8} {a a' b b' : Bytes} (free : c ∉ b) (free' : c ∉ b')
    (e : a ++ c :: b = a' ++ c :: b') : a = a' ∧ b = b' := by
  have first : a = a' := by
    obtain ⟨m, ha, hm⟩ | ⟨m, ha, hm⟩ := List.append_eq_append_iff.mp e
    · rw [ha, eq_nil_of_separated free hm, List.append_nil]
    · rw [ha, eq_nil_of_separated free' hm, List.append_nil]
  subst first
  exact ⟨rfl, (List.cons.inj (List.append_cancel_left e)).2⟩

/-- Two parts joined by a separator that the first part does not contain. -/
lemma separated_inj_left {c : UInt8} {a a' b b' : Bytes} (free : c ∉ a) (free' : c ∉ a')
    (e : a ++ c :: b = a' ++ c :: b') : a = a' ∧ b = b' := by
  have e := congrArg List.reverse e
  simp only [List.reverse_append, List.reverse_cons, List.append_assoc, List.singleton_append] at e
  obtain ⟨hb, ha⟩ := separated_inj (fun mem => free (List.mem_reverse.mp mem))
    (fun mem => free' (List.mem_reverse.mp mem)) e
  exact ⟨List.reverse_injective ha, List.reverse_injective hb⟩

lemma ofFn_inj {α : Type*} {n : Nat} {f g : Fin n → α} (e : Vector.ofFn f = Vector.ofFn g) (i : Fin n) :
    f i = g i := by
  simpa using congrArg (fun v : Vector α n => v[i]) e

/-- A list of records of one length is read back from their concatenation. -/
lemma flatMap_inj {α : Type*} {enc : α → Bytes} {size : Nat} (len : ∀ x, (enc x).length = size)
    (inj : Function.Injective enc) {l l' : List α} (same : l.length = l'.length)
    (e : l.flatMap enc = l'.flatMap enc) : l = l' := by
  induction l generalizing l' with
  | nil => exact (List.length_eq_zero_iff.mp same.symm).symm
  | cons x l ih =>
    cases l' with
    | nil => cases same
    | cons y l' =>
      rw [List.flatMap_cons, List.flatMap_cons] at e
      obtain ⟨head, tail⟩ := List.append_inj e ((len x).trans (len y).symm)
      rw [inj head, ih (Nat.succ.inj same) tail]

/-! ## Big-endian numbers -/

/-- The number with the given bytes, the most significant one first. -/
def ofBE (b : Bytes) : Nat :=
  b.foldl (fun n x => 256 * n + x.toNat) 0

/-- The last `size` bytes of a number, the most significant one first. -/
def toBE : Nat → Nat → Bytes
  | 0, _ => []
  | size + 1, n => toBE size (n / 256) ++ [UInt8.ofNat n]

@[simp] lemma length_toBE (size n : Nat) : (toBE size n).length = size := by
  induction size generalizing n with
  | zero => rfl
  | succ size ih => rw [toBE, List.length_append, ih, List.length_singleton]

lemma ofBE_concat (b : Bytes) (x : UInt8) : ofBE (b ++ [x]) = 256 * ofBE b + x.toNat := by
  rw [ofBE, List.foldl_concat, ← ofBE]

lemma ofBE_toBE {size n : Nat} (lt : n < 256 ^ size) : ofBE (toBE size n) = n := by
  induction size generalizing n with
  | zero => exact (Nat.lt_one_iff.mp lt).symm
  | succ size ih =>
    have hi : n / 256 < 256 ^ size := Nat.div_lt_of_lt_mul (by rwa [← Nat.pow_succ'])
    have lo : (UInt8.ofNat n).toNat = n % 256 := UInt8.toNat_ofNat'
    rw [toBE, ofBE_concat, ih hi, lo, Nat.div_add_mod]

lemma toBE_inj {size m n : Nat} (ltm : m < 256 ^ size) (ltn : n < 256 ^ size) (e : toBE size m = toBE size n) :
    m = n := by
  rw [← ofBE_toBE ltm, ← ofBE_toBE ltn, e]

lemma ofBE_lt (b : Bytes) : ofBE b < 256 ^ b.length := by
  induction b using List.reverseRecOn with
  | nil => exact Nat.one_pos
  | append_singleton b x ih =>
    have hx : x.toNat < 256 := x.toNat_lt
    rw [ofBE_concat, List.length_append, List.length_singleton, Nat.pow_succ']
    omega

lemma toBE_ofBE (b : Bytes) : toBE b.length (ofBE b) = b := by
  induction b using List.reverseRecOn with
  | nil => rfl
  | append_singleton b x ih =>
    have hx : x.toNat < 256 := x.toNat_lt
    have hi : (256 * ofBE b + x.toNat) / 256 = ofBE b := by omega
    have lo : UInt8.ofNat (256 * ofBE b + x.toNat) = x := by
      apply UInt8.toNat_inj.mp
      rw [UInt8.toNat_ofNat']
      omega
    rw [List.length_append, List.length_singleton, toBE, ofBE_concat, hi, lo, ih]

/-! ## Hash functions -/

/-- A hash function with digests of `size` bytes. -/
structure Hash (size : Nat) where
  sum : Bytes → Bytes
  length_sum : ∀ b, (sum b).length = size

attribute [simp] Hash.length_sum

/-- Two different inputs with one digest. -/
def Hash.Collision {n : Nat} (H : Hash n) (x y : Bytes) : Prop :=
  x ≠ y ∧ H.sum x = H.sum y

/-- No two of the inputs collide. -/
def Hash.CollisionFree {n : Nat} (H : Hash n) (inputs : List Bytes) : Prop :=
  ∀ x ∈ inputs, ∀ y ∈ inputs, ¬ H.Collision x y

lemma Hash.CollisionFree.sum_inj {n : Nat} {H : Hash n} {inputs : List Bytes} (free : H.CollisionFree inputs)
    {x y : Bytes} (hx : x ∈ inputs) (hy : y ∈ inputs) : H.sum x = H.sum y ↔ x = y :=
  ⟨fun e => by_contra fun ne => free x hx y hy ⟨ne, e⟩, congrArg H.sum⟩

lemma Hash.CollisionFree.mono {n : Nat} {H : Hash n} {l l' : List Bytes} (free : H.CollisionFree l')
    (sub : l ⊆ l') : H.CollisionFree l :=
  fun x hx y hy => free x (sub hx) y (sub hy)

/-- The input as a number, its last `n` bytes: a hash to run examples with. -/
def Hash.positional (n : Nat) : Hash n where
  sum b := toBE n (b.foldl (fun acc x => 257 * acc + x.toNat + 1) 0)
  length_sum _ := length_toBE n _

/-! ## Sorted pairs -/

/-- Two byte strings joined in lexicographic order. -/
def sortedPair (a b : Bytes) : Bytes :=
  if a ≤ b then a ++ b else b ++ a

/-- With the strict order the joined pair is the same: the two orders differ on equal strings only. -/
lemma ite_lt_eq_sortedPair (a b : Bytes) : (if a < b then a ++ b else b ++ a) = sortedPair a b := by
  unfold sortedPair
  split
  case isTrue lt => rw [if_pos (List.le_of_lt lt)]
  case isFalse nlt =>
    split
    case isTrue le =>
      have e : a = b := List.le_antisymm le (List.not_lt.mp nlt)
      rw [e]
    case isFalse => rfl

lemma sortedPair_comm (a b : Bytes) : sortedPair a b = sortedPair b a := by
  rw [← ite_lt_eq_sortedPair, sortedPair]
  split
  case isTrue lt => rw [if_neg (List.not_le.mpr lt)]
  case isFalse nlt => rw [if_pos (List.not_lt.mp nlt)]

lemma sortedPair_cases (a b : Bytes) : sortedPair a b = a ++ b ∨ sortedPair a b = b ++ a := by
  unfold sortedPair
  split
  · exact .inl rfl
  · exact .inr rfl

@[simp] lemma length_sortedPair (a b : Bytes) :
    (sortedPair a b).length = a.length + b.length := by
  obtain e | e := sortedPair_cases a b
  · rw [e, List.length_append]
  · rw [e, List.length_append, Nat.add_comm]

/-- A member of a joined pair is the start or the end of it. -/
lemma sortedPair_half (a b : Bytes) :
    a = (sortedPair a b).take a.length ∨
      a = (sortedPair a b).drop ((sortedPair a b).length - a.length) := by
  obtain e | e := sortedPair_cases a b
  · left
    rw [e, List.take_left]
  · right
    rw [e, List.length_append, Nat.add_sub_cancel, List.drop_left]

/-- The pair joined from digests of one size determines its members. -/
lemma sortedPair_mem {n : Nat} {a b c d : Bytes} (ha : a.length = n) (hc : c.length = n)
    (hd : d.length = n) (e : sortedPair a b = sortedPair c d) : a = c ∨ a = d := by
  have half := sortedPair_half a b
  have len : (sortedPair c d).length - n = n := by
    rw [length_sortedPair, hc, hd, Nat.add_sub_cancel]
  rw [e, ha, len] at half
  obtain e' | e' := sortedPair_cases c d
  · rw [e', List.take_left' hc, List.drop_left' hc] at half
    exact half
  · rw [e', List.take_left' hd, List.drop_left' hd] at half
    exact half.symm

/-- A digest joined with the second of two is the two as they stand only if it is the first of them and
    they are in order. -/
lemma sortedPair_eq_append_left {n : Nat} {a b c : Bytes} (ha : a.length = n) (hb : b.length = n)
    (hc : c.length = n) : sortedPair c b = a ++ b ↔ c = a ∧ a ≤ b := by
  constructor
  · intro e
    rw [sortedPair] at e
    split at e
    case isTrue le =>
      obtain ⟨rfl, -⟩ := List.append_inj e (hc.trans ha.symm)
      exact ⟨rfl, le⟩
    case isFalse =>
      obtain ⟨rfl, rfl⟩ := List.append_inj e (hb.trans ha.symm)
      exact ⟨rfl, List.le_refl c⟩
  · rintro ⟨rfl, le⟩
    exact if_pos le

lemma sortedPair_eq_append_right {n : Nat} {a b c : Bytes} (ha : a.length = n) (hb : b.length = n)
    (hc : c.length = n) : sortedPair c a = a ++ b ↔ c = b ∧ a ≤ b := by
  constructor
  · intro e
    rw [sortedPair_comm, sortedPair] at e
    split at e
    case isTrue le =>
      obtain ⟨-, rfl⟩ := List.append_inj e rfl
      exact ⟨rfl, le⟩
    case isFalse =>
      obtain ⟨rfl, rfl⟩ := List.append_inj e (hc.trans ha.symm)
      exact ⟨rfl, List.le_refl c⟩
  · rintro ⟨rfl, le⟩
    rw [sortedPair_comm]
    exact if_pos le

end Otap.Lib
