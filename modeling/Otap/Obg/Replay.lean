import Otap.Obg.SoftDriver

/-!
# Sequence numbers and replay

The sequence number of a Transient is its protection against replay: it is part of what the trajectory is derived from.

On the sending side `refresh_from_csr` replaces the encoder, whose counter starts at zero, also when the register file
holds the secret and the wavelength that it held before. The numbers of a run are different exactly if no refresh that
succeeds has transmissions on both sides: without such a refresh they are counted up (`sequences_counted`), and every
stretch of a run that transmits from a new encoder uses the number zero (`zero_mem_sequences`).

On the receiving side the driver keeps nothing of what it received, so that each copy of a Transient is judged like the
first one (`completes_iff`): each authentic Transient leads to one authenticated completion at most exactly if it is
delivered once.
-/

namespace Otap.Obg
open Otap.Lib
open Otap.Csr hiding ProtocolError
open Otap.Client (SchemaId)
open Otap.Schema (AnySchemaValue WellFormed)

variable {P : Platform} {d : SoftDriver P}

/-! ## Counting -/

/-- The `n` numbers from `s` on, as a `u16` counts them. -/
def counted : UInt16 → Nat → List UInt16
  | _, 0 => []
  | s, n + 1 => s :: counted (s + 1) n

lemma counted_add (s : UInt16) (m n : Nat) : counted s (m + n) = counted s m ++ counted (s + UInt16.ofNat m) n := by
  induction m generalizing s with
  | zero =>
    have none : s + UInt16.ofNat 0 = s := UInt16.add_zero s
    rw [Nat.zero_add, counted, List.nil_append, none]
  | succ m ih =>
    have assoc : s + UInt16.ofNat (m + 1) = s + 1 + UInt16.ofNat m := by
      rw [Nat.add_comm m 1, UInt16.ofNat_add, ← UInt16.add_assoc]
      rfl
    rw [Nat.succ_add, counted, counted, ih, assoc, List.cons_append]

lemma counted_eq (s : UInt16) (n : Nat) : counted s n = (List.range n).map fun i => s + UInt16.ofNat i := by
  induction n with
  | zero => rfl
  | succ n ih => rw [counted_add, ih, List.range_succ, List.map_append]; rfl

lemma nodup_counted (s : UInt16) {n : Nat} (lt : n < 65536) : (counted s n).Nodup := by
  rw [counted_eq]
  refine List.nodup_range.map_on fun i mi j mj e => ?_
  have same : UInt16.ofNat i = UInt16.ofNat j := (UInt16.add_right_inj s).mp e
  rw [List.mem_range] at mi mj
  have values := congrArg UInt16.toNat same
  rwa [UInt16.toNat_ofNat', UInt16.toNat_ofNat', Nat.mod_eq_of_lt (by omega), Nat.mod_eq_of_lt (by omega)] at values

/-! ## Runs of a sending driver -/

inductive DriverCall where
  | transmitPending (send : SendQueue)
  | refreshFromCsr (rf : RegisterFile)

/-- The call transmits something. -/
def DriverCall.Emits : DriverCall → Prop
  | .transmitPending send => send.requests ≠ []
  | .refreshFromCsr _ => False

namespace SoftDriver

/-- The driver after a call, and the Transients emitted in it. -/
def call (d : SoftDriver P) : DriverCall → SoftDriver P × List (Transient P)
  | .transmitPending send => ((d.transmitPending send).2.1, (d.transmitPending send).1.map Prod.fst)
  | .refreshFromCsr rf => ((d.refreshFromCsr rf).2, [])

/-- The Transients emitted in a run of calls. -/
def emitted (d : SoftDriver P) (calls : List DriverCall) : List (Transient P) :=
  (outputs call d calls).flatten

/-- Their sequence numbers. -/
def sequences (d : SoftDriver P) (calls : List DriverCall) : List UInt16 :=
  (d.emitted calls).map (·.micro.sequence)

lemma sequences_cons (d : SoftDriver P) (c : DriverCall) (calls : List DriverCall) :
    d.sequences (c :: calls) = (d.call c).2.map (·.micro.sequence) ++ (d.call c).1.sequences calls :=
  List.map_append

lemma sequences_append (d : SoftDriver P) (calls calls' : List DriverCall) :
    d.sequences (calls ++ calls') =
      d.sequences calls ++ (calls.foldl (fun d c => (d.call c).1) d).sequences calls' := by
  induction calls generalizing d with
  | nil => rfl
  | cons c calls ih => rw [List.cons_append, sequences_cons, sequences_cons, ih, List.append_assoc]; rfl

/-- A drained queue is numbered from the encoder's counter on. -/
lemma drain_sequences (e : Encoder) (requests : List Posted) :
    (drain P e requests).1.map (·.1.micro.sequence) = counted e.nextSequence requests.length ∧
      (drain P e requests).2.nextSequence = e.nextSequence + UInt16.ofNat requests.length := by
  induction requests generalizing e with
  | nil => exact ⟨rfl, (UInt16.add_zero _).symm⟩
  | cons request requests ih =>
    obtain ⟨numbers, next⟩ := ih (e.encodeRaw P request.1.schemaId.oamMode request.2).2
    constructor
    · exact congrArg (e.nextSequence :: ·) numbers
    · refine next.trans ?_
      rw [List.length_cons, Nat.add_comm, UInt16.ofNat_add, ← UInt16.add_assoc]
      rfl

/-! What a call does to the counter. -/

lemma call_transmitPending (d : SoftDriver P) (send : SendQueue) :
    (d.call (.transmitPending send)).2.map (·.micro.sequence) = counted d.encoder.nextSequence send.requests.length ∧
      (d.call (.transmitPending send)).1.encoder.nextSequence =
        d.encoder.nextSequence + UInt16.ofNat send.requests.length := by
  obtain ⟨numbers, next⟩ := drain_sequences (P := P) d.encoder send.requests
  refine ⟨?_, next⟩
  rw [← numbers]
  exact List.map_map

lemma refreshFromCsr_armed {rf : RegisterFile} (armed : Armed rf) :
    (d.refreshFromCsr rf).2.encoder.nextSequence = 0 := by
  obtain ⟨d', built⟩ := armed_iff.mp armed
  rw [refreshFromCsr, built]
  exact nextSequence_fromCsr built

lemma refreshFromCsr_error {rf : RegisterFile} {e : ObgError} (failed : (d.refreshFromCsr rf).1 = .error e) :
    (d.refreshFromCsr rf).2 = d := by
  unfold refreshFromCsr at failed ⊢
  cases built : fromCsr P rf with
  | error err => rfl
  | ok d' =>
    rw [built] at failed
    cases failed

lemma call_unarmed {rf : RegisterFile} (unarmed : ¬ Armed rf) : d.call (.refreshFromCsr rf) = (d, []) := by
  cases built : fromCsr P rf with
  | error err =>
    have failed : (d.refreshFromCsr rf).1 = .error err := by rw [refreshFromCsr, built]
    exact congrArg (fun d => (d, [])) (refreshFromCsr_error failed)
  | ok d' => exact absurd (armed_iff.mpr ⟨d', built⟩) unarmed

/-! A call that transmits nothing. -/

lemma call_of_not_emits {c : DriverCall} (quiet : ¬ c.Emits) : (d.call c).2 = [] := by
  cases c with
  | transmitPending send => rw [call, transmitPending, not_not.mp quiet]; rfl
  | refreshFromCsr rf => rfl

lemma nextSequence_of_not_emits {c : DriverCall} (quiet : ¬ c.Emits) (fresh : d.encoder.nextSequence = 0) :
    (d.call c).1.encoder.nextSequence = 0 := by
  cases c with
  | transmitPending send =>
    rw [(call_transmitPending d send).2, not_not.mp quiet, fresh]
    rfl
  | refreshFromCsr rf =>
    by_cases armed : Armed rf
    case pos => exact refreshFromCsr_armed armed
    case neg => rwa [call_unarmed armed]

end SoftDriver

/-- A refresh that succeeds comes before a transmission. -/
def Resumed (calls : List DriverCall) : Prop :=
  ∃ before rf after, calls = before ++ .refreshFromCsr rf :: after ∧ Armed rf ∧ ∃ c ∈ after, c.Emits

/-- A refresh that succeeds comes between two transmissions. -/
def Interrupted (calls : List DriverCall) : Prop :=
  ∃ before rf after, calls = before ++ .refreshFromCsr rf :: after ∧ Armed rf ∧
    (∃ c ∈ before, c.Emits) ∧ ∃ c ∈ after, c.Emits

variable {calls : List DriverCall}

lemma Resumed.cons (c : DriverCall) (resumed : Resumed calls) : Resumed (c :: calls) := by
  obtain ⟨before, rf, after, rfl, armed, emits⟩ := resumed
  exact ⟨c :: before, rf, after, rfl, armed, emits⟩

lemma Interrupted.cons (c : DriverCall) (interrupted : Interrupted calls) :
    Interrupted (c :: calls) := by
  obtain ⟨before, rf, after, rfl, armed, ⟨c', mem, emits⟩, later⟩ := interrupted
  exact ⟨c :: before, rf, after, rfl, armed, ⟨c', List.mem_cons_of_mem c mem, emits⟩, later⟩

lemma Resumed.interrupted {c : DriverCall} (emits : c.Emits) (resumed : Resumed calls) :
    Interrupted (c :: calls) := by
  obtain ⟨before, rf, after, rfl, armed, later⟩ := resumed
  exact ⟨c :: before, rf, after, rfl, armed, ⟨c, List.mem_cons_self, emits⟩, later⟩

namespace SoftDriver

lemma sequences_quiet (quiet : ∀ c ∈ calls, ¬ c.Emits) : d.sequences calls = [] := by
  induction calls generalizing d with
  | nil => rfl
  | cons c calls ih =>
    have rest := fun c' (mem : c' ∈ calls) => quiet c' (List.mem_cons_of_mem c mem)
    rw [sequences_cons, ih rest, List.append_nil, call_of_not_emits (quiet c List.mem_cons_self), List.map_nil]

/-- A run in which no refresh that succeeds comes before a transmission counts on. -/
lemma sequences_of_not_resumed (steady : ¬ Resumed calls) :
    ∃ n, d.sequences calls = counted d.encoder.nextSequence n := by
  induction calls generalizing d with
  | nil => exact ⟨0, rfl⟩
  | cons c calls ih =>
    have rest : ¬ Resumed calls := fun resumed => steady (resumed.cons c)
    rw [sequences_cons]
    cases c with
    | transmitPending send =>
      obtain ⟨numbers, next⟩ := call_transmitPending d send
      obtain ⟨n, later⟩ := ih (d := (d.call (.transmitPending send)).1) rest
      exact ⟨send.requests.length + n, by rw [numbers, later, next, counted_add]⟩
    | refreshFromCsr rf =>
      by_cases armed : Armed rf
      case pos =>
        have quiet : ∀ c ∈ calls, ¬ c.Emits := fun c mem emits => steady ⟨[], rf, calls, rfl, armed, c, mem, emits⟩
        exact ⟨0, by rw [sequences_quiet quiet]; rfl⟩
      case neg =>
        obtain ⟨n, later⟩ := ih (d := d) rest
        exact ⟨n, by rw [call_unarmed armed]; exact later⟩

/-- A run in which no refresh that succeeds comes between two transmissions counts up. -/
lemma sequences_counted (whole : ¬ Interrupted calls) :
    ∃ s n, d.sequences calls = counted s n := by
  induction calls generalizing d with
  | nil => exact ⟨0, 0, rfl⟩
  | cons c calls ih =>
    have rest : ¬ Interrupted calls := fun interrupted => whole (interrupted.cons c)
    rw [sequences_cons]
    by_cases emits : c.Emits
    case pos =>
      cases c with
      | transmitPending send =>
        obtain ⟨numbers, next⟩ := call_transmitPending d send
        obtain ⟨n, later⟩ := sequences_of_not_resumed (d := (d.call (.transmitPending send)).1)
          fun resumed => whole (resumed.interrupted emits)
        exact ⟨d.encoder.nextSequence, send.requests.length + n, by rw [numbers, later, next, counted_add]⟩
      | refreshFromCsr rf => exact emits.elim
    case neg =>
      obtain ⟨s, n, later⟩ := ih (d := (d.call c).1) rest
      exact ⟨s, n, by rw [later, call_of_not_emits emits, List.map_nil, List.nil_append]⟩

/-- A run that transmits something, from a counter at zero, uses the number zero. -/
lemma zero_mem_sequences (fresh : d.encoder.nextSequence = 0) (emits : ∃ c ∈ calls, c.Emits) :
    0 ∈ d.sequences calls := by
  induction calls generalizing d with
  | nil =>
    obtain ⟨c, mem, _⟩ := emits
    cases mem
  | cons c calls ih =>
    rw [sequences_cons]
    by_cases now : c.Emits
    case pos =>
      cases c with
      | transmitPending send =>
        rw [(call_transmitPending d send).1, fresh]
        obtain ⟨request, requests, shape⟩ := List.exists_cons_of_ne_nil now
        rw [shape]
        exact List.mem_cons_self
      | refreshFromCsr rf => exact now.elim
    case neg =>
      have later : ∃ c ∈ calls, c.Emits := by
        obtain ⟨c', mem, emits⟩ := emits
        cases mem with
        | head => exact absurd emits now
        | tail _ mem => exact ⟨c', mem, emits⟩
      exact List.mem_append_right _ (ih (nextSequence_of_not_emits now fresh) later)

end SoftDriver

/-- What the trajectory HMAC takes of a Transient besides the payload. -/
def Transient.header (t : Transient P) : Wavelength × OamMode × UInt16 :=
  (t.wavelength, t.oam, t.micro.sequence)

/-- No two Transients have one sequence number, nor agree in wavelength, OAM mode and sequence number. -/
def NoReuse (transients : List (Transient P)) : Prop :=
  (transients.map (·.micro.sequence)).Nodup ∧ (transients.map (·.header)).Nodup

lemma noReuse_iff {transients : List (Transient P)} :
    NoReuse transients ↔ (transients.map (·.micro.sequence)).Nodup := by
  refine ⟨And.left, fun nodup => ⟨nodup, ?_⟩⟩
  have through : (transients.map (·.header)).map (fun header => header.2.2) = transients.map (·.micro.sequence) :=
    List.map_map
  rw [← through] at nodup
  exact nodup.of_map _

/-- The sequence numbers of a driver's run are different exactly if no refresh that succeeds comes between two
    transmissions; a refresh that fails changes nothing. -/
theorem sequence_unique_iff {rf : RegisterFile} (built : SoftDriver.fromCsr P rf = .ok d) (calls : List DriverCall)
    (few : (d.emitted calls).length < 65536) :
    (NoReuse (d.emitted calls) ↔ ¬ Interrupted calls) ∧
      ∀ (d : SoftDriver P) rf e, (d.refreshFromCsr rf).1 = .error e →
        ∀ calls, (d.refreshFromCsr rf).2.emitted calls = d.emitted calls := by
  refine ⟨noReuse_iff.trans ⟨?_, ?_⟩, ?_⟩
  · rintro nodup ⟨before, rf', after, rfl, armed, earlier, later⟩
    have first : 0 ∈ d.sequences before := SoftDriver.zero_mem_sequences (SoftDriver.nextSequence_fromCsr built) earlier
    have again : ∀ d : SoftDriver P, 0 ∈ d.sequences (.refreshFromCsr rf' :: after) := by
      intro d
      rw [SoftDriver.sequences_cons]
      exact List.mem_append_right _ (SoftDriver.zero_mem_sequences (SoftDriver.refreshFromCsr_armed armed) later)
    change (d.sequences (before ++ .refreshFromCsr rf' :: after)).Nodup at nodup
    rw [SoftDriver.sequences_append] at nodup
    exact (List.nodup_append.mp nodup).2.2 0 first 0 (again _) rfl
  · intro whole
    obtain ⟨s, n, numbers⟩ := SoftDriver.sequences_counted (d := d) whole
    have length : n < 65536 := by
      have same := congrArg List.length numbers
      rw [SoftDriver.sequences, List.length_map, counted_eq, List.length_map, List.length_range] at same
      omega
    change (d.sequences calls).Nodup
    rw [numbers]
    exact nodup_counted s length
  · intro d rf e failed calls
    rw [SoftDriver.refreshFromCsr_error failed]

lemma not_armed_new : ¬ Armed .new := by
  rintro ⟨_, _, _, loaded⟩
  rw [view.sharedSecret_eq, word_new] at loaded
  cases loaded

/-- A transmission of heartbeats. -/
def beats (n : Nat) : DriverCall :=
  .transmitPending {
    requests := List.replicate n (WorkRequest.new .heartbeat channel40 32 0, List.replicate 32 0)
    capacity := n }

theorem sequence_unique_iff_refreshFirst :
    SoftDriver.fromCsr .quarterTurns armedRf = .ok armedDriver ∧
      NoReuse (armedDriver.emitted [.refreshFromCsr armedRf, beats 2, .refreshFromCsr .new, beats 1]) := by
  have whole : ¬ Interrupted [.refreshFromCsr armedRf, beats 2, .refreshFromCsr .new, beats 1] := by
    rintro ⟨before, rf, after, shape, armed, ⟨c, mem, emits⟩, _⟩
    match before with
    | [] => cases mem
    | [_] => cases shape
    | [_, _] =>
      cases shape
      exact not_armed_new armed
    | [_, _, _] => cases shape
    | _ :: _ :: _ :: _ :: _ => simp at shape
  exact ⟨fromCsr_armedRf, (sequence_unique_iff fromCsr_armedRf _ (by decide +kernel)).1.mpr whole⟩

/-- Two heartbeats with a refresh from the same register file in between have one sequence number. -/
theorem not_sequence_unique :
    SoftDriver.fromCsr .quarterTurns armedRf = .ok armedDriver ∧
      (armedDriver.emitted [beats 1, .refreshFromCsr armedRf, beats 1]).map (·.header) =
        [(channel40, SchemaId.heartbeat.oamMode, 0), (channel40, SchemaId.heartbeat.oamMode, 0)] ∧
      ¬ NoReuse (armedDriver.emitted [beats 1, .refreshFromCsr armedRf, beats 1]) := by
  have headers : (armedDriver.emitted [beats 1, .refreshFromCsr armedRf, beats 1]).map (·.header) =
      [(channel40, SchemaId.heartbeat.oamMode, 0), (channel40, SchemaId.heartbeat.oamMode, 0)] := by
    decide +kernel
  refine ⟨fromCsr_armedRf, headers, fun fresh => ?_⟩
  have nodup := fresh.2
  rw [headers] at nodup
  exact absurd nodup (by decide)

/-! ## Runs of a receiving driver -/

namespace SoftDriver

/-- The queue after the Transients, received in order. -/
def receiveAll (d : SoftDriver P) (cq : CompletionQueue) (ts : List (Transient P)) : CompletionQueue :=
  ts.foldl (fun cq t => d.receive t cq) cq

/-- The driver reads the Transient: it is bound to its wavelength, and the payload is well-formed under its mode. -/
def Accepts (d : SoftDriver P) (t : Transient P) : Prop :=
  t.wavelength = d.decoder.expectedWavelength ∧ ∃ id : SchemaId, t.oam = id.oamMode ∧ WellFormed id t.payload

lemma accepts_of_completion {t : Transient P} {c : Completion} (completed : d.completion t = some c) : d.Accepts t := by
  by_cases bound : t.wavelength = d.decoder.expectedWavelength
  case pos =>
    cases decoded : AnySchemaValue.decode t.oam t.payload with
    | error err =>
      rw [completion, decode_wavelength bound, decoded] at completed
      cases completed
    | ok value =>
      obtain ⟨mode, wellFormed, _⟩ := AnySchemaValue.decode_ok decoded
      exact ⟨bound, value.schemaId, mode, wellFormed⟩
  case neg =>
    rw [completion, decode_otherWavelength bound] at completed
    cases completed

/-- What a Transient leads to depends on the Transient alone. -/
lemma exists_completion {t : Transient P} (accepts : d.Accepts t) (authentic : d.decoder.Authentic t) :
    ∃ c, d.completion t = some c ∧ c.authOk = true := by
  obtain ⟨bound, id, mode, wellFormed⟩ := accepts
  obtain ⟨value, decoded⟩ := AnySchemaValue.decode_isOk wellFormed
  rw [← mode] at decoded
  refine ⟨_, completion_of_decode bound decoded, ?_⟩
  dsimp only
  rw [authentic]
  rfl

/-- With room for all of them, the queue takes up the completions in order. -/
lemma completions_receiveAll {ts : List (Transient P)} {cq : CompletionQueue}
    (room : cq.completions.length + ts.length ≤ cq.capacity) :
    (d.receiveAll cq ts).completions = cq.completions ++ ts.filterMap d.completion := by
  induction ts generalizing cq with
  | nil => exact (List.append_nil _).symm
  | cons t ts ih =>
    rw [List.length_cons] at room
    change (d.receiveAll (d.receive t cq) ts).completions = _
    cases completed : d.completion t with
    | none =>
      have same : d.receive t cq = cq := by rw [receive, completed]
      rw [same, ih (by omega), List.filterMap_cons_none completed]
    | some c =>
      have pushed : d.receive t cq = { cq with completions := cq.completions ++ [c] } := by
        rw [receive, completed]
        exact completions_push (by omega) c
      have left : (cq.completions ++ [c]).length + ts.length ≤ cq.capacity := by
        rw [List.length_append, List.length_singleton]
        omega
      rw [pushed, ih left, List.filterMap_cons_some completed, List.append_assoc, List.singleton_append]

/-- Delivery `i` of the run adds a completion that says that the authentication succeeded. -/
def Completes (d : SoftDriver P) (cq : CompletionQueue) (ts : List (Transient P)) (i : Nat) : Prop :=
  ∃ c : Completion, c.authOk = true ∧
    (d.receiveAll cq (ts.take (i + 1))).completions = (d.receiveAll cq (ts.take i)).completions ++ [c]

/-- What a delivery adds depends on the Transient alone. -/
lemma completes_iff {cq : CompletionQueue} {ts : List (Transient P)}
    (room : cq.completions.length + ts.length ≤ cq.capacity) {i : Nat} {t : Transient P} (delivered : ts[i]? = some t) :
    d.Completes cq ts i ↔ ∃ c, d.completion t = some c ∧ c.authOk = true := by
  have fits : ∀ k, cq.completions.length + (ts.take k).length ≤ cq.capacity := by
    intro k
    have shorter := List.length_take_le' k ts
    omega
  have added : (d.receiveAll cq (ts.take (i + 1))).completions =
      (d.receiveAll cq (ts.take i)).completions ++ (d.completion t).toList := by
    rw [completions_receiveAll (fits _), completions_receiveAll (fits _), List.take_add_one, delivered,
      Option.toList_some, List.filterMap_append, List.append_assoc]
    cases completed : d.completion t with
    | none => rw [List.filterMap_cons_none completed]; rfl
    | some c => rw [List.filterMap_cons_some completed]; rfl
  unfold Completes
  rw [added]
  constructor
  · rintro ⟨c, authOk, same⟩
    exact ⟨c, Option.toList_eq_singleton_iff.mp (List.append_cancel_left same), authOk⟩
  · rintro ⟨c, completed, authOk⟩
    exact ⟨c, authOk, by rw [completed]; rfl⟩

end SoftDriver

/-- Each authentic Transient leads to one completion at most that says that the authentication succeeded, exactly if no
    authentic Transient that the driver reads is delivered twice. -/
theorem replay_iff (d : SoftDriver P) (ts : List (Transient P)) {cq : CompletionQueue}
    (room : cq.completions.length + ts.length ≤ cq.capacity) :
    (∀ t, d.decoder.Authentic t → {i : Nat | ts[i]? = some t ∧ d.Completes cq ts i}.Subsingleton) ↔
      ∀ t, d.decoder.Authentic t → d.Accepts t → {i : Nat | ts[i]? = some t}.Subsingleton := by
  constructor
  · intro once t authentic accepts i atI j atJ
    have completed := SoftDriver.exists_completion accepts authentic
    exact once t authentic ⟨atI, (SoftDriver.completes_iff room atI).mpr completed⟩
      ⟨atJ, (SoftDriver.completes_iff room atJ).mpr completed⟩
  · rintro once t authentic i ⟨atI, completes⟩ j ⟨atJ, _⟩
    obtain ⟨c, completed, _⟩ := (SoftDriver.completes_iff room atI).mp completes
    exact once t authentic (SoftDriver.accepts_of_completion completed) atI atJ

/-- The heartbeat that `armedDriver` emits first. -/
def firstBeat : Transient .quarterTurns :=
  (armedDriver.encoder.encodeRaw .quarterTurns SchemaId.heartbeat.oamMode (List.replicate 32 0)).1

lemma authentic_firstBeat : armedDriver.decoder.Authentic firstBeat :=
  authentic_encodeRaw rfl rfl _ _

/-- The heartbeat that comes next, -/
def secondBeat : Transient .quarterTurns :=
  ({ armedDriver.encoder with nextSequence := 1 }.encodeRaw .quarterTurns SchemaId.heartbeat.oamMode
    (List.replicate 32 0)).1

/-- and the first one with a trajectory that winds around `S3`. -/
def turnedBeat : Transient .quarterTurns :=
  let quarters : List (Int × Int) := [(1, 0), (0, 1), (-1, 0), (0, -1)]
  { firstBeat with polarization.samples := Vector.ofFn fun i =>
      ⟨(quarters.getD (i.val % 4) 0).1, (quarters.getD (i.val % 4) 0).2, (0 : Int)⟩ }

/-- Two heartbeats, and between them the first with another trajectory, which is reported as not authentic. -/
theorem replay_iff_turned :
    let ts := [firstBeat, turnedBeat, secondBeat]
    armedDriver.emitted [beats 2] = [firstBeat, secondBeat] ∧
      (armedDriver.receiveAll (.new 3) ts).completions.map (fun c => (c.authOk, c.sequence)) =
        [(true, 0), (false, 0), (true, 1)] ∧
      {i : Nat | ts[i]? = some firstBeat ∧ armedDriver.Completes (.new 3) ts i}.Subsingleton := by
  intro ts
  have distinct : ts.Nodup :=
    .of_map (fun t => (t.micro.sequence, t.polarization.windingNumberS3)) (by decide +kernel)
  have room : (CompletionQueue.new 3).completions.length + ts.length ≤ (CompletionQueue.new 3).capacity := le_rfl
  refine ⟨rfl, by decide +kernel, (replay_iff armedDriver ts room).mpr ?_ firstBeat authentic_firstBeat⟩
  intro t _ _ i atI j atJ
  exact (List.getElem?_inj (List.getElem?_eq_some_iff.mp atI).1 distinct).mp (atI.trans atJ.symm)

/-- A heartbeat that the sender emitted once, delivered twice, leads to two completions that say that the authentication
    succeeded. -/
theorem not_replay_prevented :
    SoftDriver.fromCsr .quarterTurns armedRf = .ok armedDriver ∧
      armedDriver.emitted [beats 1] = [firstBeat] ∧ armedDriver.decoder.Authentic firstBeat ∧
      (armedDriver.receiveAll (.new 2) [firstBeat, firstBeat]).completions.map (fun c => (c.authOk, c.sequence)) =
        [(true, 0), (true, 0)] ∧
      ¬ {i : Nat | [firstBeat, firstBeat][i]? = some firstBeat ∧
          armedDriver.Completes (.new 2) [firstBeat, firstBeat] i}.Subsingleton := by
  have accepts : armedDriver.Accepts firstBeat := ⟨rfl, .heartbeat, rfl, by decide⟩
  have completed := SoftDriver.exists_completion accepts authentic_firstBeat
  have room : (CompletionQueue.new 2).completions.length + [firstBeat, firstBeat].length ≤
      (CompletionQueue.new 2).capacity := le_rfl
  refine ⟨fromCsr_armedRf, rfl, authentic_firstBeat, by decide +kernel, fun once => ?_⟩
  have same : 0 = 1 := once ⟨rfl, (SoftDriver.completes_iff room rfl).mpr completed⟩
    ⟨rfl, (SoftDriver.completes_iff room rfl).mpr completed⟩
  cases same

end Otap.Obg
