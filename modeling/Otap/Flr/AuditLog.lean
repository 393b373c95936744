import Otap.Lib.GoTime
import Otap.Lib.Run
import Otap.Lib.Utf8
import Otap.Flr.Federation
import Otap.Flr.Registry

/-!
# The audit log

Embeds `AppendAuditLog` and `GetAuditLog` of `flr/internal/registry/badger_store.go` and the three writers:
`appendAuditLog` of the registry engine, `LogOperation` of the auditor and `HandleProofOfInvalidity` of the
federation manager.

The key of an entry is `audit:` and its timestamp, and nothing else: an entry with the timestamp of another one
replaces it. `audit_log_lossless`: without such entries, nothing is lost.

No writer and no reader uses `PrevHash`, so the entries form no chain. `audit_entries_hashed`: what each entry's
`Hash` covers is the entry itself.
-/

namespace Otap.Flr

open Otap.Lib

variable {P : Platform}

/-! ## The store -/

/-- `json.Marshal`; it fails for a timestamp outside the years it supports. -/
def AuditLogEntry.marshal (enc : Encoding) (e : AuditLogEntry) : Option Bytes :=
  if jsonTime e.timestamp then
    some (jsonObject
      [ jsonField "timestamp" (ascii "\"" ++ rfc3339Nano e.timestamp ++ ascii "\""),
        jsonField "operation" (enc.string e.operation),
        jsonField "operator_id" (enc.string e.operatorID),
        jsonField "lease_id" (enc.string e.leaseID),
        jsonField "details" (enc.bytesOrNull e.details),
        jsonField "hash" (enc.bytesOrNull e.hash),
        jsonField "prev_hash" (enc.bytesOrNull e.prevHash) ])
  else none

/-- An entry as it is read back from JSON. -/
def AuditLogEntry.stored (e : AuditLogEntry) : AuditLogEntry :=
  { e with
    operation := coerceUtf8 e.operation
    operatorID := coerceUtf8 e.operatorID
    leaseID := coerceUtf8 e.leaseID }

/-- The record of an entry: with the hash of its JSON form `data`, after JSON. -/
def AuditLogEntry.recorded (sha3 : Hash 32) (e : AuditLogEntry) (data : Bytes) : AuditLogEntry :=
  { e.stored with hash := some (sha3.sum data) }

/-- `BadgerStore.AppendAuditLog`: the log, and the entry with the `Hash` that the call sets. -/
def appendAuditLog (P : Platform) (log : KV AuditLogEntry) (fails : Bool) (entry : Option AuditLogEntry) :
    Result (KV AuditLogEntry × AuditLogEntry) :=
  match entry with
  | none => .error (ascii "audit log entry cannot be nil")
  | some entry =>
    match entry.marshal P.enc with
    | none => .error (ascii "failed to marshal audit log entry: " ++ marshalError)
    | some data =>
      let entry := { entry with hash := some (P.sha3.sum data) }
      if fails then .error dbError
      else .ok (log.set (rfc3339Nano entry.timestamp) entry.stored, entry)

/-- `BadgerStore.GetAuditLog`: from the first key that is not below the one of `fromTime`, up to the one of
    `toTime`. -/
def getAuditLog (log : KV AuditLogEntry) (fromTime toTime : Time) : List AuditLogEntry :=
  (log.range (rfc3339Nano fromTime) (rfc3339Nano toTime)).map Prod.snd

/-! ## The writers -/

/-- The entry of `Engine.appendAuditLog`. -/
def engineEntry (operatorID : Bytes) (blockHeight : Int64) (now : Time) (operation leaseID : Bytes) :
    AuditLogEntry where
  timestamp := now
  operation := operation
  operatorID := operatorID
  leaseID := leaseID
  details := some (ascii "\x7b\"block_height\":" ++ decimalInt blockHeight.toInt ++ ascii "\x7d")
  hash := none
  prevHash := none

/-- The digest that `Auditor.LogOperation` puts in an entry. -/
def AuditLogEntry.auditorHash (sha3 : Hash 32) (e : AuditLogEntry) : Bytes :=
  sha3.sum (e.operation ++ e.operatorID ++ e.leaseID ++ e.details.getD [])

/-- The entry of `Auditor.LogOperation`. -/
def auditorEntry (sha3 : Hash 32) (now : Time) (op operatorID leaseID : Bytes) (details : Option Bytes) :
    AuditLogEntry :=
  let entry : AuditLogEntry :=
    { timestamp := now, operation := op, operatorID, leaseID, details, hash := none, prevHash := none }
  { entry with hash := some (entry.auditorHash sha3) }

/-- A call of one of the writers. -/
inductive AuditCall where
  | engine (operatorID : Bytes) (blockHeight : Int64) (operation leaseID : Bytes)
  | auditor (op operatorID leaseID : Bytes) (details : Option Bytes)
  | manager (m : Manager) (checkedAt : Time) (poi : Option ProofOfInvalidity)

/-- A call, the clock reading for its entry, and whether the store fails. -/
structure AuditInput where
  call : AuditCall
  now : Time
  fails : Bool

/-- The entry that a call hands to `AppendAuditLog`. -/
def AuditInput.entry (sha3 : Hash 32) (i : AuditInput) : Option AuditLogEntry :=
  match i.call with
  | .engine operatorID blockHeight operation leaseID =>
    some (engineEntry operatorID blockHeight i.now operation leaseID)
  | .auditor op operatorID leaseID details => some (auditorEntry sha3 i.now op operatorID leaseID details)
  | .manager m checkedAt poi =>
    match m.handleProofOfInvalidity checkedAt i.now poi with
    | .error _ => none
    | .ok entry => entry

/-- The log, and the entries that were appended so far, as they were stored. -/
structure AuditLog where
  log : KV AuditLogEntry
  appended : List AuditLogEntry

namespace AuditLog

def empty : AuditLog where
  log := .empty
  appended := []

/-- An append that fails changes nothing. -/
def append (P : Platform) (l : AuditLog) (fails : Bool) (entry : AuditLogEntry) : AuditLog :=
  match appendAuditLog P l.log fails (some entry) with
  | .error _ => l
  | .ok (log, entry) => { log, appended := l.appended ++ [entry.stored] }

def step (P : Platform) (l : AuditLog) (i : AuditInput) : AuditLog :=
  match i.entry P.sha3 with
  | none => l
  | some entry => l.append P i.fails entry

/-! ## What a call does -/

lemma appendAuditLog_ok {log log' : KV AuditLogEntry} {fails : Bool} {entry entry' : AuditLogEntry}
    (ok : appendAuditLog P log fails (some entry) = .ok (log', entry')) :
    ∃ data, entry.marshal P.enc = some data ∧ entry'.stored = entry.recorded P.sha3 data ∧
      log' = log.set (rfc3339Nano entry.timestamp) (entry.recorded P.sha3 data) := by
  unfold appendAuditLog at ok
  simp only at ok
  split at ok
  case h_1 => cases ok
  case h_2 data marshalled =>
    split at ok
    case isTrue => cases ok
    case isFalse =>
      cases ok
      exact ⟨data, marshalled, rfl, rfl⟩

/-- An append changes nothing, or it records the entry. -/
lemma append_cases (P : Platform) (l : AuditLog) (fails : Bool) (entry : AuditLogEntry) :
    l.append P fails entry = l ∨ ∃ data, entry.marshal P.enc = some data ∧
      l.append P fails entry =
        { log := l.log.set (rfc3339Nano entry.timestamp) (entry.recorded P.sha3 data)
          appended := l.appended ++ [entry.recorded P.sha3 data] } := by
  unfold append
  split
  case h_1 => exact .inl rfl
  case h_2 log entry' appended =>
    obtain ⟨data, marshalled, record, rfl⟩ := appendAuditLog_ok appended
    exact .inr ⟨data, marshalled, by rw [record]⟩

/-! ## Nothing is lost -/

/-- Every appended entry is there as it was stored, and there are no others. -/
structure Lossless (l : AuditLog) : Prop where
  present : ∀ e ∈ l.appended, l.log.get (rfc3339Nano e.timestamp) = some e
  count : l.log.values.length = l.appended.length

/-- The entry that a call hands over has a timestamp of its own. -/
def NewTime (P : Platform) (l : AuditLog) (i : AuditInput) : Prop :=
  ∀ entry ∈ i.entry P.sha3, ∀ e ∈ l.appended, e.timestamp ≠ entry.timestamp

instance (l : AuditLog) (i : AuditInput) : Decidable (l.NewTime P i) :=
  inferInstanceAs (Decidable (∀ entry ∈ _, ∀ e ∈ _, _ ≠ _))

/-- The log holds nothing but appended entries, under their timestamps. -/
structure Inv (l : AuditLog) : Prop extends Lossless l where
  origin : ∀ k e, l.log.get k = some e → k = rfc3339Nano e.timestamp ∧ e ∈ l.appended

lemma Inv.empty : Inv .empty where
  present _ mem := nomatch mem
  count := rfl
  origin _ _ found := nomatch found

lemma Inv.record {l : AuditLog} (inv : l.Inv) {e : AuditLogEntry}
    (new : ∀ e' ∈ l.appended, e'.timestamp ≠ e.timestamp) :
    Inv { log := l.log.set (rfc3339Nano e.timestamp) e, appended := l.appended ++ [e] } where
  present e' mem := by
    rw [KV.get_set]
    cases List.mem_append.mp mem with
    | inl old => rw [if_neg fun eq => new e' old (rfc3339Nano_inj eq), inv.present e' old]
    | inr last => rw [List.mem_singleton.mp last, if_pos rfl]
  count := by
    have free : l.log.get (rfc3339Nano e.timestamp) = none := by
      by_contra taken
      obtain ⟨e', found⟩ := Option.ne_none_iff_exists'.mp taken
      obtain ⟨key, mem⟩ := inv.origin _ _ found
      exact new e' mem (rfc3339Nano_inj key.symm)
    have count := inv.count
    rw [KV.values, List.length_map] at count ⊢
    rw [KV.length_set free, count, List.length_append, List.length_singleton]
  origin k e' found := by
    rw [KV.get_set] at found
    split at found
    case isTrue eq =>
      cases found
      exact ⟨eq, List.mem_append_right _ (List.mem_singleton_self e)⟩
    case isFalse =>
      obtain ⟨key, mem⟩ := inv.origin k e' found
      exact ⟨key, List.mem_append_left _ mem⟩

lemma Inv.append {l : AuditLog} (inv : l.Inv) {fails : Bool} {entry : AuditLogEntry}
    (new : ∀ e ∈ l.appended, e.timestamp ≠ entry.timestamp) : (l.append P fails entry).Inv := by
  obtain same | ⟨data, -, eq⟩ := l.append_cases P fails entry
  · rw [same]
    exact inv
  · rw [eq]
    exact inv.record (e := entry.recorded P.sha3 data) new

lemma Inv.step {l : AuditLog} (inv : l.Inv) {i : AuditInput} (new : l.NewTime P i) :
    (l.step P i).Inv := by
  unfold AuditLog.step
  split
  case h_1 => exact inv
  case h_2 entry handed => exact inv.append (new entry handed)

end AuditLog

/-- The audit log loses nothing: in every run of the writers in which no entry has the timestamp of an earlier
    one, every appended entry stays as it was stored, and nothing else is there. -/
theorem audit_log_lossless {inputs : List AuditInput}
    (run : Along (AuditLog.NewTime P) (AuditLog.step P) .empty inputs) :
    (inputs.foldl (AuditLog.step P) .empty).Lossless := by
  have inv : (inputs.foldl (AuditLog.step P) .empty).Inv :=
    Along.inv AuditLog.Inv.empty (fun _ _ inv new => inv.step new) run
  exact inv.toLossless

def engineInput (now : Time) (operation leaseID : Bytes) : AuditInput where
  call := .engine (ascii "op") 0 operation leaseID
  now := now
  fails := false

/-- The three writers, one nanosecond after another. -/
def threeWriters : List AuditInput :=
  [ engineInput 1 (ascii "CREATE_LEASE") (ascii "a"),
    { call := .auditor (ascii "REVIEW") (ascii "op") (ascii "a") none, now := 2, fails := false },
    { call := .manager { operatorID := ascii "op", hasStore := true } 3
        (some
          { type := invalidityInvalidSignature, leaseA := none, leaseB := none,
            commitment := some
              { operatorID := ascii "peer", rootHash := [1], timestamp := 0, signature := [],
                leaseCount := 0, blockHeight := 1 },
            merkleProof := [], timestamp := 3 }),
      now := 3, fails := false } ]

theorem audit_log_lossless_threeWriters :
    (threeWriters.foldl (AuditLog.step .plain) .empty).Lossless ∧
      (threeWriters.foldl (AuditLog.step .plain) .empty).appended.length = 3 := by
  have run : Along (AuditLog.NewTime .plain) (AuditLog.step .plain) .empty threeWriters := by
    decide +kernel
  exact ⟨audit_log_lossless run, by decide +kernel⟩

/-- Two leases are created at one clock reading: both appends succeed, and one entry is left. -/
theorem not_audit_log_lossless :
    ¬ ∀ (P : Platform) (inputs : List AuditInput),
      (inputs.foldl (AuditLog.step P) .empty).Lossless := by
  intro lossless
  have count := (lossless .plain
    [ engineInput 1 (ascii "CREATE_LEASE") (ascii "a"),
      engineInput 1 (ascii "CREATE_LEASE") (ascii "b") ]).count
  revert count
  decide +kernel

/-! ## What the hashes cover -/

/-- The JSON form of an entry as its writer hands it over: with the auditor's digest in place of the hash, or with
    none. -/
def AuditLogEntry.form (P : Platform) (e : AuditLogEntry) (auditor : Bool) : Option Bytes :=
  ({ e with hash := if auditor then some (e.auditorHash P.sha3) else none } : AuditLogEntry).marshal P.enc

/-- The hash is the one of the entry's own form. -/
def AuditLogEntry.Hashed (P : Platform) (e : AuditLogEntry) : Prop :=
  ∃ auditor data, e.form P auditor = some data ∧ e.hash = some (P.sha3.sum data)

/-- The strings of the entry that is handed over are UTF-8. -/
def AuditInput.Utf8 (P : Platform) (i : AuditInput) : Prop :=
  ∀ entry ∈ i.entry P.sha3, entry.stored = entry

instance (i : AuditInput) : Decidable (i.Utf8 P) :=
  inferInstanceAs (Decidable (∀ entry ∈ _, _ = _))

/-- Every writer leaves `PrevHash` nil, and the hash nil or the auditor's digest. -/
lemma AuditInput.entry_eq {i : AuditInput} {entry : AuditLogEntry}
    (handed : i.entry P.sha3 = some entry) : entry.prevHash = none ∧
      ∃ auditor : Bool,
        { entry with hash := if auditor then some (entry.auditorHash P.sha3) else none } = entry := by
  unfold AuditInput.entry at handed
  split at handed
  case h_1 =>
    cases handed
    exact ⟨rfl, false, rfl⟩
  case h_2 =>
    cases handed
    exact ⟨rfl, true, rfl⟩
  case h_3 m checkedAt poi _ =>
    split at handed
    case h_1 => cases handed
    case h_2 entry' accepted =>
      subst handed
      unfold Manager.handleProofOfInvalidity at accepted
      split at accepted
      case h_1 => cases accepted
      case h_2 =>
        split at accepted
        case h_1 => cases accepted
        case h_2 =>
          split at accepted
          case isTrue =>
            cases accepted
            exact ⟨rfl, false, rfl⟩
          case isFalse => cases accepted

/-- The record of an entry in UTF-8 carries the hash of its own form. -/
lemma AuditInput.recorded_hashed {i : AuditInput} {entry : AuditLogEntry} {data : Bytes}
    (utf8 : i.Utf8 P) (handed : i.entry P.sha3 = some entry)
    (marshalled : entry.marshal P.enc = some data) :
    (entry.recorded P.sha3 data).prevHash = none ∧ (entry.recorded P.sha3 data).Hashed P := by
  obtain ⟨prev, auditor, asHanded⟩ := entry_eq handed
  have same : entry.recorded P.sha3 data = { entry with hash := some (P.sha3.sum data) } := by
    rw [AuditLogEntry.recorded, utf8 entry handed]
  rw [same]
  refine ⟨prev, auditor, data, ?_, rfl⟩
  have form : ({ entry with hash := some (P.sha3.sum data) } : AuditLogEntry).form P auditor =
      AuditLogEntry.marshal P.enc
        { entry with hash := if auditor then some (entry.auditorHash P.sha3) else none } := rfl
  rw [form, asHanded]
  exact marshalled

/-- The libraries tell two entries apart: JSON writes different entries differently, and SHA3-256 does not collide
    on their forms. -/
structure TellsApart (P : Platform) (e e' : AuditLogEntry) : Prop where
  json : ∀ auditor auditor', e.form P auditor = e'.form P auditor' →
    ({ e with hash := none } : AuditLogEntry) = { e' with hash := none }
  sha3 : ∀ auditor auditor', ∀ data ∈ e.form P auditor, ∀ data' ∈ e'.form P auditor',
    P.sha3.sum data = P.sha3.sum data' → data = data'

/-- An entry with the hash of another one does not carry the hash of its own form. -/
lemma AuditLogEntry.Hashed.tamper_evident {e e' : AuditLogEntry} (hashed : e.Hashed P)
    (apart : TellsApart P e e') (hash : e'.hash = e.hash) (ne : e' ≠ e) : ¬ e'.Hashed P := by
  rintro ⟨auditor', data', form', hash'⟩
  obtain ⟨auditor, data, form, hash₀⟩ := hashed
  have sums : P.sha3.sum data = P.sha3.sum data' :=
    Option.some.inj (hash₀.symm.trans (hash.symm.trans hash'))
  have same : data = data' := apart.sha3 auditor auditor' data form data' form' sums
  have rest := apart.json auditor auditor' (form.trans (same ▸ form'.symm))
  apply ne
  calc e' = { ({ e' with hash := none } : AuditLogEntry) with hash := e'.hash } := rfl
    _ = { ({ e with hash := none } : AuditLogEntry) with hash := e.hash } := by rw [rest, hash]
    _ = e := rfl

/-- What the hashes of stored entries cover, in every run in which the strings are UTF-8: `PrevHash` is nil
    throughout, `Hash` is the SHA3-256 of the entry's own form, and so an entry that was changed and kept its hash
    is found out by itself. -/
theorem audit_entries_hashed {inputs : List AuditInput}
    (run : Along (fun _ i => i.Utf8 P) (AuditLog.step P) .empty inputs) {k : Bytes} {e : AuditLogEntry}
    (found : (inputs.foldl (AuditLog.step P) .empty).log.get k = some e) :
    e.prevHash = none ∧ e.Hashed P ∧
      ∀ e', TellsApart P e e' → e'.hash = e.hash → e' ≠ e → ¬ e'.Hashed P := by
  have all : ∀ k e, (inputs.foldl (AuditLog.step P) .empty).log.get k = some e →
      e.prevHash = none ∧ e.Hashed P := by
    refine Along.inv (P := fun l : AuditLog => ∀ k e, l.log.get k = some e →
      e.prevHash = none ∧ e.Hashed P) (fun _ _ found => nomatch found) ?_ run
    intro l i inv utf8 k e found
    unfold AuditLog.step at found
    split at found
    case h_1 => exact inv k e found
    case h_2 entry handed =>
      obtain same | ⟨data, marshalled, eq⟩ := l.append_cases P i.fails entry
      · rw [same] at found
        exact inv k e found
      · rw [eq, KV.get_set] at found
        split at found
        case isTrue =>
          cases found
          exact AuditInput.recorded_hashed utf8 handed marshalled
        case isFalse => exact inv k e found
  obtain ⟨prev, hashed⟩ := all k e found
  exact ⟨prev, hashed, fun e' apart hash ne => hashed.tamper_evident apart hash ne⟩

/-- The first entry of `threeWriters` as it is stored. -/
def createdEntry : AuditLogEntry :=
  let entry := engineEntry (ascii "op") 0 1 (ascii "CREATE_LEASE") (ascii "a")
  entry.recorded (Hash.positional 32) ((entry.marshal .plain).getD [])

/-- The entry with another lease in place of its own is found out. -/
theorem audit_entries_hashed_altered :
    createdEntry.prevHash = none ∧
      ¬ ({ createdEntry with leaseID := ascii "b" } : AuditLogEntry).Hashed .plain := by
  have run : Along (fun _ i => AuditInput.Utf8 .plain i) (AuditLog.step .plain) .empty threeWriters := by
    decide +kernel
  have found : (threeWriters.foldl (AuditLog.step .plain) .empty).log.get (rfc3339Nano 1) =
      some createdEntry := by decide +kernel
  obtain ⟨prev, -, tamper⟩ := audit_entries_hashed run found
  refine ⟨prev, tamper _ ⟨?_, ?_⟩ rfl (by decide +kernel)⟩
  · decide +kernel
  · decide +kernel

/-- The entries of the log in the order in which they were appended form a chain. -/
def AuditLog.Chained (l : AuditLog) : Prop :=
  l.appended.IsChain fun e e' => e'.prevHash = e.hash

/-- The entry that a call hands over is later than all before it. -/
def AuditLog.Later (P : Platform) (l : AuditLog) (i : AuditInput) : Prop :=
  ∀ entry ∈ i.entry P.sha3, ∀ e ∈ l.appended, e.timestamp < entry.timestamp

instance (l : AuditLog) (i : AuditInput) : Decidable (l.Later P i) :=
  inferInstanceAs (Decidable (∀ entry ∈ _, ∀ e ∈ _, _ < _))

/-- A second entry does not name the hash of the first. -/
theorem not_audit_hash_chain :
    ¬ ∀ (P : Platform) (inputs : List AuditInput), Along (AuditLog.Later P) (AuditLog.step P) .empty inputs →
      (inputs.foldl (AuditLog.step P) .empty).Chained := by
  intro chained
  have chain := chained .plain threeWriters (by decide +kernel)
  revert chain
  unfold AuditLog.Chained
  decide +kernel

end Otap.Flr
