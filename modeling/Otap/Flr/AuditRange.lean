import Otap.Flr.AuditLog

/-!
# Range queries on the audit log

`GetAuditLog` compares keys, which are texts, and RFC3339Nano drops the zeros at the end of the fraction of a
second: `00:00:00Z` is above `00:00:00.5Z`. `audit_range_exact_iff` says which queries on which logs are answered
exactly and in the order of time.
-/

namespace Otap.Flr

open Otap.Lib

variable {P : Platform}

/-- A call of `AppendAuditLog`, and whether the store fails. -/
structure AppendCall where
  entry : AuditLogEntry
  fails : Bool

namespace AuditLog

/-- The log after a sequence of calls. -/
def appendAll (P : Platform) (l : AuditLog) (calls : List AppendCall) : AuditLog :=
  calls.foldl (fun l c => l.append P c.fails c.entry) l

/-- The answer to a query is the entries with a timestamp in the range, in increasing order. -/
structure RangeExact (l : AuditLog) (fromTime toTime : Time) : Prop where
  mem : ∀ e, e ∈ getAuditLog l.log fromTime toTime ↔
    e ∈ l.appended ∧ fromTime ≤ e.timestamp ∧ e.timestamp ≤ toTime
  sorted : (getAuditLog l.log fromTime toTime).Pairwise fun e e' => e.timestamp < e'.timestamp

/-- The timestamps of the log and the ends of the range whose texts are in another order than the instants do no
    harm: there are none within the range, and an entry outside of it is misplaced either with respect to both
    ends or to neither. -/
structure WellPlaced (l : AuditLog) (fromTime toTime : Time) : Prop where
  within : ∀ e ∈ l.appended, fromTime ≤ e.timestamp → e.timestamp ≤ toTime →
    ¬ Misplaced fromTime e.timestamp ∧ ¬ Misplaced e.timestamp toTime
  before : ∀ e ∈ l.appended, e.timestamp < fromTime →
    Misplaced e.timestamp fromTime → Misplaced e.timestamp toTime
  after : ∀ e ∈ l.appended, toTime < e.timestamp →
    Misplaced toTime e.timestamp → Misplaced fromTime e.timestamp
  between : ∀ e ∈ l.appended, ∀ e' ∈ l.appended, fromTime ≤ e.timestamp → e'.timestamp ≤ toTime →
    ¬ Misplaced e.timestamp e'.timestamp

/-! ## The log of a sequence of calls -/

/-- An appended entry has the timestamp of one of the calls. -/
lemma timestamp_of_append {l : AuditLog} {c : AppendCall} {e : AuditLogEntry}
    (mem : e ∈ (l.append P c.fails c.entry).appended) :
    e ∈ l.appended ∨ e.timestamp = c.entry.timestamp := by
  obtain same | ⟨data, -, eq⟩ := l.append_cases P c.fails c.entry
  · rw [same] at mem
    exact .inl mem
  · rw [eq] at mem
    refine (List.mem_append.mp mem).imp_right fun last => ?_
    rw [List.mem_singleton.mp last]
    rfl

/-- The invariant needs nothing but distinct timestamps. -/
lemma Inv.appendAll {l : AuditLog} (inv : l.Inv) {calls : List AppendCall}
    (new : ∀ e ∈ l.appended, ∀ c ∈ calls, e.timestamp ≠ c.entry.timestamp)
    (distinct : calls.Pairwise fun c c' => c.entry.timestamp ≠ c'.entry.timestamp) :
    (l.appendAll P calls).Inv := by
  induction calls generalizing l with
  | nil => exact inv
  | cons c calls ih =>
    obtain ⟨head, tail⟩ := List.pairwise_cons.mp distinct
    have inv' : (l.append P c.fails c.entry).Inv := inv.append fun e mem => new e mem c (.head _)
    refine ih inv' ?_ tail
    intro e mem c' mem'
    cases timestamp_of_append mem with
    | inl old => exact new e old c' (.tail _ mem')
    | inr eq => exact eq ▸ head c' mem'

/-! ## The answer to a query -/

section

variable {l : AuditLog} {fromTime toTime : Time}

lemma Inv.mem_range (inv : l.Inv) {k : Bytes} {e : AuditLogEntry}
    (mem : (k, e) ∈ l.log.range (rfc3339Nano fromTime) (rfc3339Nano toTime)) :
    k = rfc3339Nano e.timestamp ∧ e ∈ l.appended :=
  inv.origin k e (KV.mem_range.mp mem).1

/-- An entry is in the answer if its text is between the two of the query. -/
lemma Inv.mem_getAuditLog (inv : l.Inv) (e : AuditLogEntry) :
    e ∈ getAuditLog l.log fromTime toTime ↔ e ∈ l.appended ∧
      ¬ rfc3339Nano e.timestamp < rfc3339Nano fromTime ∧
      ¬ rfc3339Nano toTime < rfc3339Nano e.timestamp := by
  rw [getAuditLog, List.mem_map]
  constructor
  case mp =>
    rintro ⟨⟨k, e⟩, mem, rfl⟩
    obtain ⟨rfl, appended⟩ := inv.mem_range mem
    exact ⟨appended, (KV.mem_range.mp mem).2⟩
  case mpr =>
    rintro ⟨appended, texts⟩
    exact ⟨(_, e), KV.mem_range.mpr ⟨inv.present e appended, texts⟩, rfl⟩

/-- The answer is sorted by the texts. -/
lemma Inv.sorted_getAuditLog (inv : l.Inv) : (getAuditLog l.log fromTime toTime).Pairwise
    fun e e' => rfc3339Nano e.timestamp < rfc3339Nano e'.timestamp := by
  rw [getAuditLog, List.pairwise_map]
  refine (l.log.sorted_range _ _).imp_of_mem fun {x y} memX memY lt => ?_
  rw [← (inv.mem_range memX).1, ← (inv.mem_range memY).1]
  exact lt

/-- For one instant: its text is between the two of the query exactly when it is itself. -/
lemma text_in_range_iff (le : fromTime ≤ toTime) (t : Time) :
    ((¬ rfc3339Nano t < rfc3339Nano fromTime ∧ ¬ rfc3339Nano toTime < rfc3339Nano t) ↔
        fromTime ≤ t ∧ t ≤ toTime) ↔
      (fromTime ≤ t → t ≤ toTime → ¬ Misplaced fromTime t ∧ ¬ Misplaced t toTime) ∧
      (t < fromTime → Misplaced t fromTime → Misplaced t toTime) ∧
      (toTime < t → Misplaced toTime t → Misplaced fromTime t) := by
  rw [rfc3339Nano_lt_iff, rfc3339Nano_lt_iff]
  rcases lt_or_ge t fromTime with below | fromLe
  · have notAbove : ¬ toTime < t := (below.le.trans le).not_gt
    have notFrom : ¬ Misplaced fromTime t := fun mis => lt_asymm mis.1 below
    simp [below, below.not_ge, notAbove, notFrom]
  · rcases lt_or_ge toTime t with above | leTo
    · have notTo : ¬ Misplaced t toTime := fun mis => lt_asymm mis.1 above
      have notBelow : ¬ t < fromTime := fromLe.not_gt
      simp [above, above.not_ge, notTo, notBelow, not_imp_not]
    · simp [fromLe, leTo, fromLe.not_gt, leTo.not_gt]

/-- The texts and the instants of two entries are in the same order. -/
def SameOrder (e e' : AuditLogEntry) : Prop :=
  (rfc3339Nano e.timestamp < rfc3339Nano e'.timestamp → e.timestamp < e'.timestamp) ∧
    (rfc3339Nano e'.timestamp < rfc3339Nano e.timestamp → e'.timestamp < e.timestamp)

instance : Std.Symm SameOrder where
  symm _ _ same := same.symm

/-- Of two entries of an exact answer, the one with the smaller text is the earlier one. -/
lemma RangeExact.earlier (inv : l.Inv) (answer : l.RangeExact fromTime toTime) {e e' : AuditLogEntry}
    (mem : e ∈ getAuditLog l.log fromTime toTime) (mem' : e' ∈ getAuditLog l.log fromTime toTime)
    (text : rfc3339Nano e.timestamp < rfc3339Nano e'.timestamp) : e.timestamp < e'.timestamp := by
  -- both orders hold along the list, so they agree on its members
  have agree : (getAuditLog l.log fromTime toTime).Pairwise SameOrder := by
    refine (inv.sorted_getAuditLog.and answer.sorted).imp fun {x y} ⟨texts, times⟩ => ?_
    exact ⟨fun _ => times, fun lt => absurd lt (List.lt_asymm texts)⟩
  have ne : e ≠ e' := by
    rintro rfl
    exact List.lt_irrefl _ text
  exact (agree.forall mem mem' ne).1 text

lemma rangeExact_iff (inv : l.Inv) (le : fromTime ≤ toTime) :
    l.RangeExact fromTime toTime ↔ l.WellPlaced fromTime toTime := by
  constructor
  case mp =>
    intro answer
    have placed (e : AuditLogEntry) (mem : e ∈ l.appended) :=
      (text_in_range_iff le e.timestamp).mp (by
        have inRange := answer.mem e
        rw [inv.mem_getAuditLog] at inRange
        exact and_congr_right_iff.mp inRange mem)
    refine ⟨fun e mem => (placed e mem).1, fun e mem => (placed e mem).2.1,
      fun e mem => (placed e mem).2.2, ?_⟩
    intro e mem e' mem' fromLe leTo mis
    have lt : e.timestamp < e'.timestamp := mis.1
    have inAnswer := (answer.mem e).mpr ⟨mem, fromLe, lt.le.trans leTo⟩
    have inAnswer' := (answer.mem e').mpr ⟨mem', fromLe.trans lt.le, leTo⟩
    have text : rfc3339Nano e'.timestamp < rfc3339Nano e.timestamp := rfc3339Nano_lt_iff.mpr (.inr mis)
    exact lt_asymm lt (answer.earlier inv inAnswer' inAnswer text)
  case mpr =>
    intro placed
    have inRange (e : AuditLogEntry) : e ∈ getAuditLog l.log fromTime toTime ↔
        e ∈ l.appended ∧ fromTime ≤ e.timestamp ∧ e.timestamp ≤ toTime := by
      rw [inv.mem_getAuditLog]
      refine and_congr_right fun mem => (text_in_range_iff le e.timestamp).mpr ?_
      exact ⟨placed.within e mem, placed.before e mem, placed.after e mem⟩
    refine ⟨inRange, inv.sorted_getAuditLog.imp_of_mem fun {e e'} mem mem' text => ?_⟩
    obtain ⟨appended, -, leTo⟩ := (inRange e).mp mem
    obtain ⟨appended', fromLe, -⟩ := (inRange e').mp mem'
    rcases rfc3339Nano_lt_iff.mp text with ⟨lt, -⟩ | mis
    · exact lt
    · exact absurd mis (placed.between e' appended' e appended fromLe leTo)

end

end AuditLog

/-- After every sequence of appends with distinct timestamps, a query is answered exactly and in the order of time
    if and only if the log is well placed for it. -/
theorem audit_range_exact_iff {calls : List AppendCall}
    (distinct : calls.Pairwise fun c c' => c.entry.timestamp ≠ c'.entry.timestamp)
    {fromTime toTime : Time} (le : fromTime ≤ toTime) :
    (AuditLog.empty.appendAll P calls).RangeExact fromTime toTime ↔
      (AuditLog.empty.appendAll P calls).WellPlaced fromTime toTime := by
  have inv : (AuditLog.empty.appendAll P calls).Inv :=
    AuditLog.Inv.empty.appendAll (fun _ mem => nomatch mem) distinct
  exact AuditLog.rangeExact_iff inv le

def appendCall (now : Time) : AppendCall where
  entry := engineEntry (ascii "op") 0 now (ascii "CREATE_LEASE") (ascii "a")
  fails := false

/-- Entries on whole seconds, appended in another order, come back in the order of time. -/
theorem audit_range_exact_wholeSeconds :
    (AuditLog.empty.appendAll .plain [appendCall (3 * second), appendCall second, appendCall (2 * second)]).RangeExact
      second (2 * second) := by
  refine (audit_range_exact_iff (by decide +kernel) (by decide)).mpr ?_
  exact ⟨by decide +kernel, by decide +kernel, by decide +kernel, by decide +kernel⟩

/-- The timestamps that JSON and the formatted keys support: the years 0001 to 9999. -/
def InYears (t : Time) : Prop :=
  -62135596800 * second ≤ t ∧ t < 253402300800 * second

/-- An entry half a second after the start of the range is not in the answer. -/
theorem not_audit_range_exact :
    ¬ ∀ (P : Platform) (calls : List AppendCall) (fromTime toTime : Time),
      (∀ c ∈ calls, InYears c.entry.timestamp) →
      calls.Pairwise (fun c c' => c.entry.timestamp ≠ c'.entry.timestamp) → fromTime ≤ toTime →
      (AuditLog.empty.appendAll P calls).RangeExact fromTime toTime := by
  intro ranges
  have years : ∀ c ∈ [appendCall 500000000], InYears c.entry.timestamp := by
    unfold InYears
    decide +kernel
  have answer := (ranges .plain [appendCall 500000000] 0 second years (by decide +kernel) (by decide)).mem
  have missing : getAuditLog (AuditLog.empty.appendAll .plain [appendCall 500000000]).log 0 second = [] := by
    decide +kernel
  obtain ⟨e, mem⟩ : ∃ e, e ∈ (AuditLog.empty.appendAll .plain [appendCall 500000000]).appended ∧
      0 ≤ e.timestamp ∧ e.timestamp ≤ second :=
    ⟨_, .head _, by decide +kernel, by decide +kernel⟩
  have inAnswer := (answer e).mpr mem
  rw [missing] at inAnswer
  cases inAnswer

end Otap.Flr
