import Otap.Csr.RegisterFile

/-!
# Independence of the register fields

What each setter does to the words of the register file and which bits each accessor reads, and from
that what the accessors return after any run of setter calls: the last value written to their field, or
what they returned before the run.
-/

namespace Otap.Csr
open Otap.Lib

variable {rf rf' : RegisterFile} {id : BitVec 8}

/-! ## Accesses -/

lemma word_setWord (rf : RegisterFile) {k : Nat} (lt : k < 256) (v : Word) (j : Nat) :
    (rf.setWord k v).word j = if k = j then v else rf.word j := by
  unfold RegisterFile.word RegisterFile.setWord
  rw [Vector.getElem?_setIfInBounds]
  split
  case isTrue e =>
    subst e
    rw [if_pos (show k < csrSpaceWords from lt), Option.getD_some]
  case isFalse => rfl

lemma word_new (k : Nat) : RegisterFile.new.word k = 0 := by
  unfold RegisterFile.new RegisterFile.word
  rw [Vector.getElem?_replicate]
  split
  case isTrue => rfl
  case isFalse => rfl

lemma and_three_of_aligned {offset : Nat} (aligned : offset % 4 = 0) : ¬ offset &&& 0x3 ≠ 0 := by
  rw [← aligned, not_not]
  exact Nat.and_two_pow_sub_one_eq_mod offset 2

lemma readU32_eq {offset : Nat} (lt : offset < csrSpaceBytes) (aligned : offset % 4 = 0) :
    rf.readU32 offset = .ok (rf.word (offset / 4)) := by
  have inside : ¬ offset ≥ csrSpaceBytes := Nat.not_le.mpr lt
  rw [RegisterFile.readU32, if_neg inside, if_neg (and_three_of_aligned aligned)]

/-- A computation goes on in the state in which its first part ends. -/
lemma run_bind_ok {ε σ α β : Type} {m : ExceptT ε (StateM σ) α} {f : α → ExceptT ε (StateM σ) β} {s s' : σ} {a : α}
    (h : m.run.run s = (.ok a, s')) : (m >>= f).run.run s = (f a).run.run s' := by
  rw [ExceptT.run_bind, StateT.run_bind]
  erw [h]
  rfl

lemma exec_bind {α β : Type} {m : Update α} {f : α → Update β} {a : α} (h : m.exec rf = (.ok a, rf')) :
    (m >>= f).exec rf = (f a).exec rf' :=
  run_bind_ok h

lemma exec_readU32 {offset : Nat} (lt : offset < csrSpaceBytes) (aligned : offset % 4 = 0) :
    (readU32 offset).exec rf = (.ok (rf.word (offset / 4)), rf) := by
  change (liftExcept (rf.readU32 offset) : Update Word).exec rf = _
  rw [readU32_eq lt aligned]
  rfl

lemma exec_writeU32 {offset : Nat} (lt : offset < csrSpaceBytes) (aligned : offset % 4 = 0) (v : Word) :
    (writeU32 offset v).exec rf = (.ok (), rf.setWord (offset / 4) v) := by
  have inside : ¬ offset ≥ csrSpaceBytes := Nat.not_le.mpr lt
  rw [writeU32, if_neg inside]
  dsimp only
  rw [if_neg (and_three_of_aligned aligned)]
  rfl

/-- A loop of writes to words of the register file. -/
lemma exec_forM_writeU32 {offset : Nat → Nat} (value : Nat → Word) {l : List Nat}
    (legal : ∀ i ∈ l, offset i < csrSpaceBytes ∧ offset i % 4 = 0) :
    (l.forM fun i => writeU32 (offset i) (value i)).exec rf =
      (.ok (), l.foldl (fun rf i => rf.setWord (offset i / 4) (value i)) rf) := by
  induction l generalizing rf with
  | nil => rfl
  | cons i l ih =>
    obtain ⟨lt, aligned⟩ := legal i List.mem_cons_self
    change (writeU32 (offset i) (value i) >>= fun _ => l.forM fun i => writeU32 (offset i) (value i)).exec rf = _
    rw [exec_bind (exec_writeU32 lt aligned _), ih fun j mem => legal j (List.mem_cons_of_mem i mem),
      List.foldl_cons]

/-! ## Tables -/

/-- Entry of the OAM table for a mode. -/
def OamMode.index (m : OamMode) : Nat := (m.charge + 16).toNat

lemma OamMode.index_le (m : OamMode) : m.index ≤ 32 := by
  have := m.le_max
  unfold OamMode.index
  omega

lemma OamMode.index_inj {m m' : OamMode} (e : m.index = m'.index) : m = m' := by
  obtain ⟨c, lo, hi⟩ := m
  obtain ⟨c', lo', hi'⟩ := m'
  have : c = c' := by
    simp only [OamMode.index] at e
    omega
  subst this
  rfl

lemma OamMode.inTable (m : OamMode) : ¬ ¬ (0 ≤ m.charge + 16 ∧ m.charge + 16 ≤ 32) := by
  have := m.le_max
  have := m.min_le
  omega

/-- The word of the OAM table that holds the entry of a mode. -/
lemma OamMode.offset (m : OamMode) :
    regOamTableBase + m.index / 4 * 4 < csrSpaceBytes ∧ (regOamTableBase + m.index / 4 * 4) % 4 = 0 ∧
      (regOamTableBase + m.index / 4 * 4) / 4 = 64 + m.index / 4 := by
  have le := m.index_le
  unfold regOamTableBase csrSpaceBytes
  omega

lemma schemaId_ne_zero (pos : 1 ≤ id.toNat) : id ≠ 0 := by
  rintro rfl
  exact absurd pos (by decide)

/-- The word of the payload table that holds the entry of a schema ID. -/
lemma schemaOffset (lt : id.toNat < 32) :
    regSchemaPayloadBase + id.toNat / 2 * 4 < csrSpaceBytes ∧
      (regSchemaPayloadBase + id.toNat / 2 * 4) % 4 = 0 ∧
      (regSchemaPayloadBase + id.toNat / 2 * 4) / 4 = 16 + id.toNat / 2 := by
  unfold regSchemaPayloadBase csrSpaceBytes
  omega

/-! ## Setters -/

namespace writer

lemma exec_setWavelength (w : Wavelength) :
    (setWavelength w).exec rf = (.ok (), rf.setWord 0 (w.channel.setWidth 32)) :=
  exec_writeU32 (by decide) rfl _

lemma exec_setCtrl (v : Word) : (setCtrl v).exec rf = (.ok (), rf.setWord 1 v) :=
  exec_writeU32 (by decide) rfl _

lemma exec_setAuthTolerance (v : Word) : (setAuthTolerance v).exec rf = (.ok (), rf.setWord 2 v) :=
  exec_writeU32 (by decide) rfl _

/-- The register file with the secret loaded. -/
def storeSecret (rf : RegisterFile) (b : Vector (BitVec 8) 32) : RegisterFile :=
  ((List.range 8).foldl (fun rf i => rf.setWord ((regSecretBase + i * 4) / 4) (secretWord b i)) rf).setWord 12 1

lemma exec_setSecret (b : Vector (BitVec 8) 32) : (setSecret b).exec rf = (.ok (), storeSecret rf b) := by
  have legal : ∀ i ∈ List.range secretWords,
      regSecretBase + i * 4 < csrSpaceBytes ∧ (regSecretBase + i * 4) % 4 = 0 := by decide
  rw [setSecret, exec_bind (exec_forM_writeU32 (secretWord b) legal), exec_writeU32 (by decide) rfl]
  rfl

lemma word_storeWords (b : Vector (BitVec 8) 32) {n : Nat} (le : n ≤ 8) (k : Nat) :
    ((List.range n).foldl (fun rf i => rf.setWord ((regSecretBase + i * 4) / 4) (secretWord b i)) rf).word k =
      if 4 ≤ k ∧ k < 4 + n then secretWord b (k - 4) else rf.word k := by
  induction n with
  | zero => rw [if_neg (by omega)]; rfl
  | succ n ih =>
    have at_n : (regSecretBase + n * 4) / 4 = 4 + n := by unfold regSecretBase; omega
    rw [List.range_succ, List.foldl_concat, at_n, word_setWord _ (by omega), ih (by omega)]
    grind

lemma word_storeSecret (b : Vector (BitVec 8) 32) (k : Nat) :
    (storeSecret rf b).word k =
      if k = 12 then 1 else if 4 ≤ k ∧ k < 12 then secretWord b (k - 4) else rf.word k := by
  rw [storeSecret, word_setWord _ (by decide), word_storeWords b le_rfl]
  grind

lemma exec_setSchemaPayload (pos : id ≠ 0) (lt : id.toNat < 32) (p : BitVec 16) :
    (setSchemaPayload id p).exec rf =
      (.ok (), rf.setWord (16 + id.toNat / 2) (insertField (rf.word (16 + id.toNat / 2)) (id.toNat % 2 * 16) p)) := by
  have inTable : ¬ (id = 0 ∨ id.toNat ≥ schemaTableEntries) := not_or.mpr ⟨pos, Nat.not_le.mpr lt⟩
  obtain ⟨inside, aligned, index⟩ := schemaOffset lt
  rw [setSchemaPayload, if_neg inTable]
  dsimp only
  rw [exec_bind (exec_readU32 inside aligned), index]
  rcases Nat.mod_two_eq_zero_or_one id.toNat with even | odd
  · have whole : p.setWidth 32 = p.setWidth 32 <<< 0 := (BitVec.shiftLeft_zero _).symm
    rw [if_pos even, exec_writeU32 inside aligned, index, even, whole]
    rfl
  · rw [if_neg (by omega), exec_writeU32 inside aligned, index, odd]
    rfl

lemma exec_setSchemaPayload_error (out : id = 0 ∨ 32 ≤ id.toNat) (p : BitVec 16) :
    (setSchemaPayload id p).exec rf = (.error (.schemaIdOutOfRange id 32), rf) := by
  have outside : id = 0 ∨ id.toNat ≥ schemaTableEntries := out
  rw [setSchemaPayload, if_pos outside]
  rfl

lemma exec_setOamToSchema (m : OamMode) (id : BitVec 8) :
    (setOamToSchema m id).exec rf =
      (.ok (), rf.setWord (64 + m.index / 4) (insertField (rf.word (64 + m.index / 4)) (m.index % 4 * 8) id)) := by
  obtain ⟨inside, aligned, index⟩ := m.offset
  rw [setOamToSchema, if_neg m.inTable]
  change (readU32 (regOamTableBase + m.index / 4 * 4) >>= _).exec rf = _
  rw [exec_bind (exec_readU32 inside aligned), index]
  change (writeU32 (regOamTableBase + m.index / 4 * 4) _).exec rf = _
  rw [exec_writeU32 inside aligned, index]
  rfl

end writer

/-! ## Accessors -/

namespace view

lemma wavelengthField_eq : wavelengthField rf = .ok ((rf.word 0).extractLsb' 0 16) := by
  rw [wavelengthField, readU32_eq (by decide) rfl]
  have field := @setWidth_shift_mask 32 16 (rf.word 0) 0
  rw [BitVec.ushiftRight_zero] at field
  exact congrArg Except.ok field

lemma wavelength_eq :
    wavelength rf = (Wavelength.new ((rf.word 0).extractLsb' 0 16)).mapError .protocol := by
  rw [wavelength, wavelengthField_eq]
  rfl

lemma ctrl_eq : ctrl rf = .ok (rf.word 1) :=
  readU32_eq (by decide) rfl

lemma secretValid_eq : secretValid rf = .ok ((rf.word 12).getLsbD 0) := by
  rw [secretValid, readU32_eq (by decide) rfl]
  refine congrArg Except.ok ?_
  change (rf.word 12 &&& 1#32 != 0) = (rf.word 12).getLsbD 0
  rw [BitVec.and_one_eq_setWidth_ofBool_getLsbD]
  cases (rf.word 12).getLsbD 0 with
  | false => rfl
  | true => rfl

lemma mapM_readU32 {offset : Nat → Nat} {l : List Nat}
    (legal : ∀ i ∈ l, offset i < csrSpaceBytes ∧ offset i % 4 = 0) :
    (l.mapM fun i => rf.readU32 (offset i)) = .ok (l.map fun i => rf.word (offset i / 4)) := by
  induction l with
  | nil => rfl
  | cons i l ih =>
    obtain ⟨lt, aligned⟩ := legal i List.mem_cons_self
    rw [List.mapM_cons, readU32_eq lt aligned, ih fun j mem => legal j (List.mem_cons_of_mem i mem)]
    rfl

/-- The bytes of the secret registers. -/
def secretBytes (rf : RegisterFile) : Vector (BitVec 8) 32 :=
  Vector.ofFn fun j => toBeByte (rf.word (4 + j.val / 4)) (j.val % 4)

lemma sharedSecret_eq :
    sharedSecret rf = .ok (if (rf.word 12).getLsbD 0 then some (secretBytes rf) else none) := by
  have legal : ∀ i ∈ List.range secretWords,
      regSecretBase + i * 4 < csrSpaceBytes ∧ (regSecretBase + i * 4) % 4 = 0 := by decide
  rw [sharedSecret, secretValid_eq, mapM_readU32 legal]
  cases (rf.word 12).getLsbD 0 with
  | false => rfl
  | true =>
    refine congrArg (fun b => Except.ok (some b)) (Vector.ext fun j lt => ?_)
    have row : j / 4 < secretWords := Nat.div_lt_of_lt_mul lt
    have index : (regSecretBase + j / 4 * 4) / 4 = 4 + j / 4 := by unfold regSecretBase; omega
    simp only [secretBytes, Vector.getElem_ofFn, List.getElem?_map, List.getElem?_range row, Option.map_some,
      Option.getD_some, index]

lemma schemaPayloadBytes_eq (pos : id ≠ 0) (lt : id.toNat < 32) :
    schemaPayloadBytes rf id = .ok ((rf.word (16 + id.toNat / 2)).extractLsb' (id.toNat % 2 * 16) 16) := by
  have inTable : ¬ (id = 0 ∨ id.toNat ≥ schemaTableEntries) := not_or.mpr ⟨pos, Nat.not_le.mpr lt⟩
  obtain ⟨inside, aligned, index⟩ := schemaOffset lt
  rw [schemaPayloadBytes, if_neg inTable]
  dsimp only
  rw [readU32_eq inside aligned, index]
  refine congrArg Except.ok ?_
  rcases Nat.mod_two_eq_zero_or_one id.toNat with even | odd
  · rw [if_pos even, even]
    have field := @setWidth_shift_mask 32 16 (rf.word (16 + id.toNat / 2)) 0
    rw [BitVec.ushiftRight_zero] at field
    exact field
  · rw [if_neg (by omega), odd]
    exact setWidth_shift_mask _ 16

lemma schemaIdForOam_eq (m : OamMode) :
    schemaIdForOam rf m = .ok ((rf.word (64 + m.index / 4)).extractLsb' (m.index % 4 * 8) 8) := by
  obtain ⟨inside, aligned, index⟩ := m.offset
  rw [schemaIdForOam, if_neg m.inTable]
  change (rf.readU32 (regOamTableBase + m.index / 4 * 4) >>= _) = _
  rw [readU32_eq inside aligned, index]
  exact congrArg Except.ok (setWidth_shift_mask _ _)

end view

/-! ## Calls -/

/-- A call of `writer` with its arguments. -/
inductive Call where
  | setWavelength (w : Wavelength)
  | setCtrl (value : Word)
  | setAuthTolerance (mrad : Word)
  | setSecret (secretBytes : Vector (BitVec 8) 32)
  | setSchemaPayload (schemaId : BitVec 8) (payloadBytes : BitVec 16)
  | setOamToSchema (oam : OamMode) (schemaId : BitVec 8)

def Call.run : Call → Update Unit
  | .setWavelength w => writer.setWavelength w
  | .setCtrl value => writer.setCtrl value
  | .setAuthTolerance mrad => writer.setAuthTolerance mrad
  | .setSecret secretBytes => writer.setSecret secretBytes
  | .setSchemaPayload schemaId payloadBytes => writer.setSchemaPayload schemaId payloadBytes
  | .setOamToSchema oam schemaId => writer.setOamToSchema oam schemaId

/-- The register file after a call. -/
def RegisterFile.call (rf : RegisterFile) (c : Call) : RegisterFile :=
  (c.run.exec rf).2

/-- The register file after a run of calls. -/
def RegisterFile.calls (rf : RegisterFile) (cs : List Call) : RegisterFile :=
  cs.foldl RegisterFile.call rf

/-- The words that a call may write. -/
def Call.Writes : Call → Nat → Prop
  | .setWavelength _, k => k = 0
  | .setCtrl _, k => k = 1
  | .setAuthTolerance _, k => k = 2
  | .setSecret _, k => 4 ≤ k ∧ k ≤ 12
  | .setSchemaPayload id _, k => k = 16 + id.toNat / 2 ∧ id.toNat < 32
  | .setOamToSchema m _, k => k = 64 + m.index / 4

/-- Every other word keeps its value. -/
lemma word_call_of_not_writes {c : Call} {k : Nat} (other : ¬ c.Writes k) : (rf.call c).word k = rf.word k := by
  cases c with
  | setWavelength w =>
    rw [RegisterFile.call, Call.run, writer.exec_setWavelength, word_setWord _ (by decide), if_neg (Ne.symm other)]
  | setCtrl value =>
    rw [RegisterFile.call, Call.run, writer.exec_setCtrl, word_setWord _ (by decide), if_neg (Ne.symm other)]
  | setAuthTolerance mrad =>
    rw [RegisterFile.call, Call.run, writer.exec_setAuthTolerance, word_setWord _ (by decide),
      if_neg (Ne.symm other)]
  | setSecret b =>
    simp only [Call.Writes] at other
    rw [RegisterFile.call, Call.run, writer.exec_setSecret, writer.word_storeSecret, if_neg (by omega),
      if_neg (by omega)]
  | setSchemaPayload id p =>
    by_cases out : id = 0 ∨ 32 ≤ id.toNat
    case pos => rw [RegisterFile.call, Call.run, writer.exec_setSchemaPayload_error out]
    case neg =>
      obtain ⟨pos, lt⟩ := not_or.mp out
      simp only [Call.Writes] at other
      rw [RegisterFile.call, Call.run, writer.exec_setSchemaPayload pos (by omega),
        word_setWord _ (by omega), if_neg (by omega)]
  | setOamToSchema m id =>
    have le := m.index_le
    rw [RegisterFile.call, Call.run, writer.exec_setOamToSchema, word_setWord _ (by omega),
      if_neg (Ne.symm other)]

/-! ## What a call writes to a field -/

def Call.wavelength : Call → Option (Except CsrError Wavelength)
  | .setWavelength w => some (.ok w)
  | _ => none

def Call.ctrl : Call → Option (Except CsrError Word)
  | .setCtrl value => some (.ok value)
  | _ => none

/-- The word that a call writes to the tolerance register. -/
def Call.authTolerance : Call → Option Word
  | .setAuthTolerance mrad => some mrad
  | _ => none

def Call.sharedSecret : Call → Option (Except CsrError (Option (Vector (BitVec 8) 32)))
  | .setSecret secretBytes => some (.ok (some secretBytes))
  | _ => none

def Call.schemaPayloadBytes (id : BitVec 8) : Call → Option (Except CsrError (BitVec 16))
  | .setSchemaPayload schemaId payloadBytes => if schemaId = id then some (.ok payloadBytes) else none
  | _ => none

def Call.schemaIdForOam (m : OamMode) : Call → Option (Except CsrError (BitVec 8))
  | .setOamToSchema oam schemaId => if oam = m then some (.ok schemaId) else none
  | _ => none

lemma wavelength_call (rf : RegisterFile) (c : Call) :
    view.wavelength (rf.call c) = c.wavelength.getD (view.wavelength rf) := by
  cases c with
  | setWavelength w =>
    have field : (w.channel.setWidth 32).extractLsb' 0 16 = w.channel := by
      rw [← BitVec.setWidth_eq_extractLsb' (by decide), BitVec.setWidth_setWidth_of_le _ (by decide),
        BitVec.setWidth_eq]
    have valid : ¬ w.channel > Wavelength.maxChannel := BitVec.not_lt.mpr w.le_max
    rw [RegisterFile.call, Call.run, writer.exec_setWavelength, view.wavelength_eq, word_setWord _ (by decide),
      if_pos rfl, field, Wavelength.new, dif_neg valid]
    rfl
  | _ =>
    rw [view.wavelength_eq, view.wavelength_eq, word_call_of_not_writes (by simp only [Call.Writes]; omega)]
    rfl

lemma ctrl_call (rf : RegisterFile) (c : Call) : view.ctrl (rf.call c) = c.ctrl.getD (view.ctrl rf) := by
  cases c with
  | setCtrl value =>
    rw [RegisterFile.call, Call.run, writer.exec_setCtrl, view.ctrl_eq, word_setWord _ (by decide), if_pos rfl]
    rfl
  | _ =>
    rw [view.ctrl_eq, view.ctrl_eq, word_call_of_not_writes (by simp only [Call.Writes]; omega)]
    rfl

lemma word_two_call (rf : RegisterFile) (c : Call) : (rf.call c).word 2 = c.authTolerance.getD (rf.word 2) := by
  cases c with
  | setAuthTolerance mrad =>
    rw [RegisterFile.call, Call.run, writer.exec_setAuthTolerance, word_setWord _ (by decide), if_pos rfl]
    rfl
  | _ =>
    rw [word_call_of_not_writes (by simp only [Call.Writes]; omega)]
    rfl

lemma toBeByte_fromBeBytes (b : Nat → BitVec 8) {i : Nat} (lt : i < 4) :
    toBeByte (fromBeBytes (b 0) (b 1) (b 2) (b 3)) i = b i := by
  apply BitVec.eq_of_getLsbD_eq
  intro n hn
  simp only [toBeByte, fromBeBytes, BitVec.getLsbD_extractLsb', BitVec.getLsbD_append]
  interval_cases i
  · simp [hn, show ¬ 24 + n < 8 by omega, show ¬ 24 + n - 8 < 8 by omega, show ¬ 24 + n - 8 - 8 < 8 by omega,
      show 24 + n - 8 - 8 - 8 = n by omega]
  · simp [hn, show ¬ 16 + n < 8 by omega, show ¬ 16 + n - 8 < 8 by omega,
      show 16 + n - 8 - 8 = n by omega]
  · simp [hn, show ¬ 8 + n < 8 by omega]
  · simp [hn]

lemma secretBytes_storeSecret (b : Vector (BitVec 8) 32) : view.secretBytes (writer.storeSecret rf b) = b := by
  refine Vector.ext fun j lt => ?_
  have inSecret : 4 ≤ 4 + j / 4 ∧ 4 + j / 4 < 12 := by omega
  have split : j / 4 * 4 + j % 4 = j := Nat.div_add_mod' j 4
  simp only [view.secretBytes, Vector.getElem_ofFn]
  rw [writer.word_storeSecret, if_neg (by omega), if_pos inSecret, Nat.add_sub_cancel_left]
  refine (toBeByte_fromBeBytes (fun n => b[j / 4 * 4 + n]!) (Nat.mod_lt j (by decide))).trans ?_
  simp only [split]
  exact getElem!_pos b j lt

lemma sharedSecret_congr (same : ∀ k, 4 ≤ k → k ≤ 12 → rf'.word k = rf.word k) :
    view.sharedSecret rf' = view.sharedSecret rf := by
  have bytes : view.secretBytes rf' = view.secretBytes rf := by
    refine Vector.ext fun j lt => ?_
    simp only [view.secretBytes, Vector.getElem_ofFn]
    rw [same _ (by omega) (by omega)]
  rw [view.sharedSecret_eq, view.sharedSecret_eq, bytes, same 12 (by decide) (by decide)]

lemma sharedSecret_call (rf : RegisterFile) (c : Call) :
    view.sharedSecret (rf.call c) = c.sharedSecret.getD (view.sharedSecret rf) := by
  cases c with
  | setSecret b =>
    rw [RegisterFile.call, Call.run, writer.exec_setSecret, view.sharedSecret_eq, secretBytes_storeSecret,
      writer.word_storeSecret, if_pos rfl]
    rfl
  | _ => exact sharedSecret_congr fun k lo hi => word_call_of_not_writes (by simp only [Call.Writes]; omega)

lemma schemaPayloadBytes_call (pos : id ≠ 0) (lt : id.toNat < 32) (rf : RegisterFile) (c : Call) :
    view.schemaPayloadBytes (rf.call c) id =
      (c.schemaPayloadBytes id).getD (view.schemaPayloadBytes rf id) := by
  rw [view.schemaPayloadBytes_eq pos lt, view.schemaPayloadBytes_eq pos lt]
  cases c with
  | setSchemaPayload i p =>
    by_cases same : i = id
    case pos =>
      subst same
      rw [RegisterFile.call, Call.run, writer.exec_setSchemaPayload pos lt, word_setWord _ (by omega), if_pos rfl,
        extractLsb'_insertField _ _ (by omega), Call.schemaPayloadBytes, if_pos rfl]
      rfl
    case neg =>
      have differ : i.toNat ≠ id.toNat := fun e => same (BitVec.eq_of_toNat_eq e)
      rw [Call.schemaPayloadBytes, if_neg same, Option.getD_none]
      by_cases out : i = 0 ∨ 32 ≤ i.toNat
      case pos => rw [RegisterFile.call, Call.run, writer.exec_setSchemaPayload_error out]
      case neg =>
        obtain ⟨pos', lt'⟩ := not_or.mp out
        rw [RegisterFile.call, Call.run, writer.exec_setSchemaPayload pos' (by omega), word_setWord _ (by omega)]
        split
        case isTrue word =>
          -- the two entries are the halves of one word
          rw [word, extractLsb'_insertField_disjoint _ _ (by omega)]
        case isFalse => rfl
  | _ =>
    rw [word_call_of_not_writes (by simp only [Call.Writes]; omega)]
    rfl

lemma schemaIdForOam_call (m : OamMode) (rf : RegisterFile) (c : Call) :
    view.schemaIdForOam (rf.call c) m = (c.schemaIdForOam m).getD (view.schemaIdForOam rf m) := by
  have le := m.index_le
  rw [view.schemaIdForOam_eq, view.schemaIdForOam_eq]
  cases c with
  | setOamToSchema m' id =>
    have le' := m'.index_le
    rw [RegisterFile.call, Call.run, writer.exec_setOamToSchema, word_setWord _ (by omega)]
    by_cases same : m' = m
    case pos =>
      subst same
      rw [if_pos rfl, extractLsb'_insertField _ _ (by omega), Call.schemaIdForOam, if_pos rfl]
      rfl
    case neg =>
      have differ : m'.index ≠ m.index := fun e => same (OamMode.index_inj e)
      rw [Call.schemaIdForOam, if_neg same, Option.getD_none]
      split
      case isTrue word =>
        -- the two entries are bytes of one word
        rw [word, extractLsb'_insertField_disjoint _ _ (by omega)]
      case isFalse => rfl
  | _ =>
    rw [word_call_of_not_writes (by simp only [Call.Writes]; omega)]
    rfl

/-! ## Main result -/

/-- A failed call leaves every word as it was. -/
lemma call_error {c : Call} {e : CsrError} (failed : (c.run.exec rf).1 = .error e) : rf.call c = rf := by
  cases c with
  | setWavelength w => rw [Call.run, writer.exec_setWavelength] at failed; cases failed
  | setCtrl value => rw [Call.run, writer.exec_setCtrl] at failed; cases failed
  | setAuthTolerance mrad => rw [Call.run, writer.exec_setAuthTolerance] at failed; cases failed
  | setSecret b => rw [Call.run, writer.exec_setSecret] at failed; cases failed
  | setOamToSchema m id => rw [Call.run, writer.exec_setOamToSchema] at failed; cases failed
  | setSchemaPayload id p =>
    by_cases out : id = 0 ∨ 32 ≤ id.toNat
    case pos => rw [RegisterFile.call, Call.run, writer.exec_setSchemaPayload_error out]
    case neg =>
      obtain ⟨pos, lt⟩ := not_or.mp out
      rw [Call.run, writer.exec_setSchemaPayload pos (by omega)] at failed
      cases failed

/-- After any run of setter calls every accessor returns the last value written to its field, or what it
    returned before the run if no call wrote the field; and a call that fails changes no word. -/
theorem fields_independent (rf : RegisterFile) (cs : List Call) :
    view.wavelength (rf.calls cs) = (lastWrite Call.wavelength cs).getD (view.wavelength rf) ∧
    view.ctrl (rf.calls cs) = (lastWrite Call.ctrl cs).getD (view.ctrl rf) ∧
    view.sharedSecret (rf.calls cs) = (lastWrite Call.sharedSecret cs).getD (view.sharedSecret rf) ∧
    (∀ id : BitVec 8, 1 ≤ id.toNat → id.toNat ≤ 31 →
      view.schemaPayloadBytes (rf.calls cs) id =
        (lastWrite (Call.schemaPayloadBytes id) cs).getD (view.schemaPayloadBytes rf id)) ∧
    (∀ m : OamMode, view.schemaIdForOam (rf.calls cs) m =
      (lastWrite (Call.schemaIdForOam m) cs).getD (view.schemaIdForOam rf m)) ∧
    (∀ (c : Call) (e : CsrError), (c.run.exec rf).1 = .error e → (c.run.exec rf).2 = rf) := by
  refine ⟨read_run wavelength_call rf cs, read_run ctrl_call rf cs, read_run sharedSecret_call rf cs,
    fun id lo hi => ?_, fun m => ?_, fun c e => call_error⟩
  case refine_1 =>
    have law := schemaPayloadBytes_call (schemaId_ne_zero lo) (by omega)
    exact @read_run _ _ _ _ (fun rf => view.schemaPayloadBytes rf id) _ law rf cs
  case refine_2 => exact @read_run _ _ _ _ (fun rf => view.schemaIdForOam rf m) _ (schemaIdForOam_call m) rf cs

/-- Two schemas whose entries share a word of the payload table. -/
theorem fields_independent_sharedWord :
    view.schemaPayloadBytes (RegisterFile.new.calls [.setSchemaPayload 2 64, .setSchemaPayload 3 32]) 2 = .ok 64 :=
  (fields_independent RegisterFile.new [.setSchemaPayload 2 64, .setSchemaPayload 3 32]).2.2.2.1 2 (by decide)
    (by decide)

end Otap.Csr
