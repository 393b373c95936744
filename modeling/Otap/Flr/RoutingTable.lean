import Otap.Lib.JsonText
import Otap.Lib.Merkle

/-!
# The root of an AWG routing table

Port of `AWGRoutingEntry` and `computeMerkleRoot` of `xlat/manager.go`. The entries are hashed in JSON, neighbours are
joined in their order, and the last of an odd number of digests goes up unhashed. No tag tells a leaf from a node; the
field names alone make the JSON of an entry longer than two digests (`length_marshal`), so the tree of a table is
`Solid`, and its root gives the tree back, leaf by leaf, or a collision.
-/

namespace Otap.Flr

open Otap.Lib Otap.Lib.Merkle

/-! ## Entries -/

/-- A single AWG routing entry. -/
structure AWGRoutingEntry where
  inputPort : Int32
  inputLambda : Float64
  outputPort : Int32
  outputLambda : Float64
  destinationOp : Bytes
  active : Bool
deriving DecidableEq

namespace AWGRoutingEntry

variable {enc : Encoding} {a b : AWGRoutingEntry} {m : Bytes}

/-- `json.Marshal` of an entry: an error when a lambda is infinite or not a number. -/
def marshal (enc : Encoding) (e : AWGRoutingEntry) : Option Bytes :=
  match enc.float e.inputLambda, enc.float e.outputLambda with
  | some inputLambda, some outputLambda =>
    some (jsonObject
      [ jsonField "input_port" (decimalInt e.inputPort.toInt),
        jsonField "input_lambda" inputLambda,
        jsonField "output_port" (decimalInt e.outputPort.toInt),
        jsonField "output_lambda" outputLambda,
        jsonField "destination_op" (enc.string e.destinationOp),
        jsonField "active" (jsonBool e.active) ])
  | _, _ => none

/-- `data, _ := json.Marshal(e)`: an error leaves no data. -/
def data (enc : Encoding) (e : AWGRoutingEntry) : Bytes :=
  (e.marshal enc).getD []

/-- Finite lambdas and an operator name in UTF-8. -/
structure Valid (e : AWGRoutingEntry) : Prop where
  inputLambda : e.inputLambda.finite
  outputLambda : e.outputLambda.finite
  destinationOp : ValidUtf8 e.destinationOp

/-- What `json.Marshal` is assumed to do: finite floats have a text, and on valid entries it is injective. -/
structure JsonInjective (enc : Encoding) : Prop where
  float : ∀ x : Float64, x.finite → ∃ text, enc.float x = some text
  entry : ∀ {a b : AWGRoutingEntry}, a.Valid → b.Valid →
    ∀ {m}, a.marshal enc = some m → b.marshal enc = some m → a = b

/-- The text of an entry, from the texts of its lambdas. -/
lemma marshal_some (h : a.marshal enc = some m) :
    ∃ input output, enc.float a.inputLambda = some input ∧ enc.float a.outputLambda = some output ∧
      m = jsonObject
        [ jsonField "input_port" (decimalInt a.inputPort.toInt),
          jsonField "input_lambda" input,
          jsonField "output_port" (decimalInt a.outputPort.toInt),
          jsonField "output_lambda" output,
          jsonField "destination_op" (enc.string a.destinationOp),
          jsonField "active" (jsonBool a.active) ] := by
  rw [marshal] at h
  split at h
  case h_1 input output hi ho => exact ⟨input, output, hi, ho, (Option.some.inj h).symm⟩
  case h_2 => cases h

/-- The field names alone are longer than two digests. -/
lemma length_marshal (h : a.marshal enc = some m) : 64 < m.length := by
  obtain ⟨input, output, -, -, rfl⟩ := marshal_some h
  simp [jsonObject, jsonField, ascii, List.intercalate_cons_cons]
  omega

/-- Texts of scalars that can be read back make the JSON of an entry injective. -/
lemma jsonInjective (law : enc.SelfDelimiting) (float : ∀ x : Float64, x.finite → ∃ text, enc.float x = some text) :
    JsonInjective enc where
  float := float
  entry {a b} va vb m ha hb := by
    obtain ⟨input, output, ia, oa, rfl⟩ := marshal_some ha
    obtain ⟨input', output', ib, ob, e⟩ := marshal_some hb
    have e := jsonObject_inj (.cons (.field (.decimalInt _ _)) (.cons (.field (law.float ia ib))
      (.cons (.field (.decimalInt _ _)) (.cons (.field (law.float oa ob))
      (.cons (.field (law.string va.destinationOp vb.destinationOp)) (.cons (.field (.jsonBool _ _)) .nil)))))) e
    simp only [List.cons.injEq, jsonField_inj, and_true] at e
    obtain ⟨inputPort, rfl, outputPort, rfl, destinationOp, active⟩ := e
    cases a
    cases b
    rw [AWGRoutingEntry.mk.injEq]
    exact ⟨Int32.toInt_inj.mp (decimalInt_inj inputPort), law.float_inj ia ib,
      Int32.toInt_inj.mp (decimalInt_inj outputPort), law.float_inj oa ob,
      law.string_inj va.destinationOp vb.destinationOp destinationOp, jsonBool_inj active⟩

lemma Valid.marshal (json : JsonInjective enc) (valid : a.Valid) : a.marshal enc = some (a.data enc) := by
  obtain ⟨input, hi⟩ := json.float _ valid.inputLambda
  obtain ⟨output, ho⟩ := json.float _ valid.outputLambda
  rw [data, AWGRoutingEntry.marshal, hi, ho]
  rfl

lemma Valid.data_inj (json : JsonInjective enc) (va : a.Valid) (vb : b.Valid) (e : a.data enc = b.data enc) :
    a = b :=
  json.entry va vb (va.marshal json) (e ▸ vb.marshal json)

/-- The data of the leaves gives the table back. -/
lemma data_list_inj (json : JsonInjective enc) {l l' : List AWGRoutingEntry} (valid : ∀ e ∈ l, e.Valid)
    (valid' : ∀ e ∈ l', e.Valid) (e : l.map (data enc) = l'.map (data enc)) : l = l' := by
  induction l generalizing l' with
  | nil => exact (List.map_eq_nil_iff.mp e.symm).symm
  | cons a l ih =>
    cases l' with
    | nil => cases e
    | cons b l' =>
      obtain ⟨head, tail⟩ := List.cons.inj e
      rw [List.forall_mem_cons] at valid valid'
      rw [valid.1.data_inj json valid'.1 head, ih valid.2 valid'.2 tail]

end AWGRoutingEntry

open AWGRoutingEntry

/-! ## The root -/

/-- Computes a simple Merkle root hash from routing entries; nil is `none`. The digests have no spare capacity, so that
    `append(hashes[i], hashes[i+1]...)` makes a new slice. -/
def computeMerkleRoot (sha256 : Hash 32) (enc : Encoding) (entries : List AWGRoutingEntry) : Option Bytes :=
  if entries.length = 0 then none
  else
    let hashes := entries.map fun e => sha256.sum (e.data enc)
    promoteLevels (fun left right => sha256.sum (left ++ right)) entries.length hashes

/-- The tree over the data of the entries. -/
def routingTree (enc : Encoding) (entries : List AWGRoutingEntry) : Option HashTree :=
  promoteLevels .node entries.length (entries.map fun e => .data (e.data enc))

/-- Two inputs that collide, from two tables with one root. -/
def findCollision (sha256 : Hash 32) (enc : Encoding) (entries entries' : List AWGRoutingEntry) :
    Option (Bytes × Bytes) := do
  let t ← routingTree enc entries
  let t' ← routingTree enc entries'
  t.clash sha256 t'

section

variable {enc : Encoding} {entries : List AWGRoutingEntry}

/-- Every nonempty table has a root, the root of its tree, and the leaves of the tree are its entries in order. -/
lemma computeMerkleRoot_tree (sha256 : Hash 32) (json : JsonInjective enc) (nonempty : entries ≠ [])
    (valid : ∀ e ∈ entries, e.Valid) :
    ∃ t, routingTree enc entries = some t ∧ computeMerkleRoot sha256 enc entries = some (t.plainRoot sha256) ∧
      t.Solid 32 ∧ t.leaves = entries.map (data enc) := by
  obtain ⟨t, tree⟩ : ∃ t, routingTree enc entries = some t :=
    promoteLevels_some (by simpa using nonempty) (by simp)
  have leaves : List.Forall₂ (fun (t : HashTree) d => t.plainRoot sha256 = d ∧ t.Solid 32)
      (entries.map fun e => .data (e.data enc)) (entries.map fun e => sha256.sum (e.data enc)) := by
    rw [List.forall₂_map_left_iff, List.forall₂_map_right_iff, List.forall₂_same]
    intro e mem
    exact ⟨rfl, (length_marshal ((valid e mem).marshal json)).ne'⟩
  obtain ⟨root, computed, rfl, solid⟩ := promoteLevels_rel (g := fun left right => sha256.sum (left ++ right))
    (fun ha hb => ⟨by rw [HashTree.plainRoot, ha.1, hb.1], ha.2, hb.2⟩) leaves tree
  refine ⟨t, tree, ?_, solid, ?_⟩
  · rw [computeMerkleRoot, if_neg (by simpa using nonempty)]
    exact computed
  · have held : t.leaves = _ := flatMap_promoteLevels (fun _ _ => rfl) tree
    rw [held, List.flatMap_map]
    exact List.map_eq_flatMap.symm

end

/-- The root binds the table: two nonempty tables with one root are equal, or a collision is computed from them. -/
theorem routing_root_binds {sha256 : Hash 32} {enc : Encoding} (json : JsonInjective enc)
    {entries entries' : List AWGRoutingEntry} (nonempty : entries ≠ []) (nonempty' : entries' ≠ [])
    (valid : ∀ e ∈ entries, e.Valid) (valid' : ∀ e ∈ entries', e.Valid)
    (same : computeMerkleRoot sha256 enc entries = computeMerkleRoot sha256 enc entries') :
    entries = entries' ∨
      ∃ x y, findCollision sha256 enc entries entries' = some (x, y) ∧ sha256.Collision x y := by
  obtain ⟨t, tree, root, solid, leaves⟩ := computeMerkleRoot_tree sha256 json nonempty valid
  obtain ⟨t', tree', root', solid', leaves'⟩ := computeMerkleRoot_tree sha256 json nonempty' valid'
  have roots : t.plainRoot sha256 = t'.plainRoot sha256 := by
    rw [root, root'] at same
    exact Option.some.inj same
  rcases HashTree.clash_sound solid solid' roots with ⟨-, rfl⟩ | ⟨x, y, found, collision⟩
  · exact .inl (data_list_inj json valid valid' (leaves.symm.trans leaves'))
  · exact .inr ⟨x, y, by rw [findCollision, tree, tree']; exact found, collision⟩

/-- Two entries, and a hash with one digest for all inputs. -/
def entry1550 : AWGRoutingEntry :=
  { inputPort := 1, inputLambda := ⟨0x4098388000000000⟩, outputPort := 2, outputLambda := ⟨0x4098388000000000⟩,
    destinationOp := ascii "op-b", active := true }

def entryBack : AWGRoutingEntry :=
  { entry1550 with inputPort := 2, outputPort := 1 }

def oneDigest : Hash 32 :=
  { sum := fun _ => List.replicate 32 1, length_sum := fun _ => List.length_replicate }

/-- Tables of different lengths, under the worst hash. -/
theorem routing_root_binds_oneDigest :
    [entry1550, entryBack, entry1550] ≠ [entry1550] ∧
    computeMerkleRoot oneDigest .quoted [entry1550, entryBack, entry1550] =
      computeMerkleRoot oneDigest .quoted [entry1550] ∧
    ∃ x y, findCollision oneDigest .quoted [entry1550, entryBack, entry1550] [entry1550] = some (x, y) ∧
      oneDigest.Collision x y := by
  have different : [entry1550, entryBack, entry1550] ≠ [entry1550] := by decide
  have same : computeMerkleRoot oneDigest .quoted [entry1550, entryBack, entry1550] =
      computeMerkleRoot oneDigest .quoted [entry1550] := rfl
  have json : JsonInjective .quoted :=
    jsonInjective Encoding.quoted_selfDelimiting fun x finite => ⟨_, if_pos finite⟩
  have operator : ValidUtf8 (ascii "op-b") := by decide +kernel
  have first : entry1550.Valid := ⟨by decide, by decide, operator⟩
  have back : entryBack.Valid := ⟨by decide, by decide, operator⟩
  have bound := routing_root_binds json (by simp) (by simp) (by simp [first, back]) (by simp [first]) same
  exact ⟨different, same, bound.resolve_left different⟩

end Otap.Flr
