import Otap.Lib.Run

/-!
# The coherence tracker

Embeds `DynamicCoherenceTracker` of `stage-chronos/drift.py`: the latch HEALTHY → ALARM → COMPROMISED over a stream of
frames. The arithmetic of the baseline is a parameter (`Numerics`), and the outcome of the test `z < -z_threshold` comes
with the frame, so that the results hold for every outcome.

A tracker's state is a function of its counter (`Tracker.Inv`), and outside COMPROMISED the counter is the length of
the run of shock frames that ends just before (`counts_run`). The latch and the edges are read off these two.
-/

namespace Otap.Chronos
open Otap.Lib

/-! ## The code -/

inductive LinkState where
  | healthy
  | alarm
  | compromised
  deriving DecidableEq

/-- The floating point arithmetic that the tracker uses, over the numbers `F`. -/
structure Numerics (F : Type) where
  zero : F
  one : F
  /-- `1e-4`. -/
  initialVariance : F
  mean : List F → F
  var : List F → F
  /-- `alpha * phi + (1 - alpha) * baseline`. -/
  ewma : (alpha phi baseline : F) → F
  /-- `(phi - baseline) / std if std > 0 else 0.0` with `std = sqrt(variance)`. -/
  zScore : (phi baseline variance : F) → F

structure Tracker (F : Type) where
  windowSize : Nat
  alpha : F
  confirmFrames : Nat
  history : List F
  baselinePhi : F
  phiVariance : F
  state : LinkState
  shockRun : Nat
  eventFrame : Option Int

/-- What `process` returns. -/
structure Report (F : Type) where
  state : LinkState
  baseline : F
  z : F
  edge : Bool

variable {F : Type} (num : Numerics F)

/-- `append` to a `deque` with a `maxlen`. -/
def pushHistory (maxlen : Nat) (history : List F) (phi : F) : List F :=
  (history ++ [phi]).drop (history.length + 1 - maxlen)

namespace Tracker

/-- `DynamicCoherenceTracker(window_size, alpha, z_threshold, confirm_frames)`. -/
def new (windowSize : Nat) (alpha : F) (confirmFrames : Nat) : Tracker F where
  windowSize := windowSize
  alpha := alpha
  confirmFrames := confirmFrames
  history := []
  baselinePhi := num.one
  phiVariance := num.initialVariance
  state := .healthy
  shockRun := 0
  eventFrame := none

def ack (tr : Tracker F) : Tracker F :=
  { tr with
    state := .healthy
    shockRun := 0
    history := []
    baselinePhi := num.one
    phiVariance := num.initialVariance }

/-- `process`, where `shock` is the outcome of the test `z < -z_threshold` if the call comes to it. -/
def process (tr : Tracker F) (currentPhi : F) (t : Int) (shock : Bool) : Report F × Tracker F :=
  if tr.history.length < tr.windowSize then
    let history := pushHistory tr.windowSize tr.history currentPhi
    let tr := { tr with history, baselinePhi := num.mean history }
    let tr := if 1 < history.length then { tr with phiVariance := num.var history } else tr
    ({ state := tr.state, baseline := tr.baselinePhi, z := num.zero, edge := false }, tr)
  else if tr.state = .compromised then
    ({ state := tr.state, baseline := tr.baselinePhi, z := num.zero, edge := false }, tr)
  else
    let z := num.zScore currentPhi tr.baselinePhi tr.phiVariance
    if shock then
      let tr := { tr with shockRun := tr.shockRun + 1 }
      let edge := tr.shockRun == 1
      let tr := if tr.shockRun = 1 then { tr with state := .alarm, eventFrame := some t } else tr
      let tr := if tr.shockRun ≥ tr.confirmFrames then { tr with state := .compromised } else tr
      ({ state := tr.state, baseline := tr.baselinePhi, z := z, edge := edge }, tr)
    else
      let tr := { tr with shockRun := 0 }
      let tr := if tr.state = .alarm then { tr with state := .healthy } else tr
      let tr := { tr with
        baselinePhi := num.ewma tr.alpha currentPhi tr.baselinePhi
        history := pushHistory tr.windowSize tr.history currentPhi }
      let tr := { tr with phiVariance := num.var tr.history }
      ({ state := tr.state, baseline := tr.baselinePhi, z := z, edge := false }, tr)

end Tracker

/-- A call on a tracker. -/
inductive Call (F : Type) where
  | process (currentPhi : F) (t : Int) (shock : Bool)
  | ack

/-- The tracker after a call. -/
def Tracker.step (tr : Tracker F) : Call F → Tracker F
  | .process currentPhi t shock => (tr.process num currentPhi t shock).2
  | .ack => tr.ack num

/-! ## What a frame does -/

/-- A frame comes to the test. -/
def Tracker.Tests (tr : Tracker F) : Prop :=
  tr.windowSize ≤ tr.history.length ∧ tr.state ≠ .compromised

/-- The state after one more shock frame. -/
def Tracker.shocked (tr : Tracker F) : LinkState :=
  if tr.shockRun + 1 ≥ tr.confirmFrames then .compromised else if tr.shockRun = 0 then .alarm else tr.state

/-- The state after a frame that is no shock. -/
def Tracker.calmed (tr : Tracker F) : LinkState :=
  if tr.state = .alarm then .healthy else tr.state

/-- What a frame can do: the outcome of the test, the edge, and the tracker after it. -/
inductive Tracker.Frame (tr : Tracker F) : (shock edge : Bool) → Tracker F → Prop where
  | warmUp {shock phi baseline variance} (filling : tr.history.length < tr.windowSize) :
    Frame tr shock false
      { tr with
        history := pushHistory tr.windowSize tr.history phi
        baselinePhi := baseline
        phiVariance := variance }
  | latched {shock} (full : tr.windowSize ≤ tr.history.length) (latched : tr.state = .compromised) :
    Frame tr shock false tr
  | shock {edge state event} (tests : tr.Tests) (rising : edge = true ↔ tr.shockRun = 0)
      (shocked : state = tr.shocked) :
    Frame tr true edge { tr with shockRun := tr.shockRun + 1, state := state, eventFrame := event }
  | calm {state phi baseline variance} (tests : tr.Tests) (calmed : state = tr.calmed) :
    Frame tr false false
      { tr with
        shockRun := 0
        state := state
        history := pushHistory tr.windowSize tr.history phi
        baselinePhi := baseline
        phiVariance := variance }

lemma Tracker.process_frame (tr : Tracker F) (phi : F) (t : Int) (shock : Bool) :
    tr.Frame shock (tr.process num phi t shock).1.edge (tr.process num phi t shock).2 := by
  unfold process
  split
  case isTrue filling =>
    dsimp only
    split
    case isTrue => exact .warmUp filling
    case isFalse => exact .warmUp filling
  case isFalse full =>
    split
    case isTrue latched => exact .latched (Nat.not_lt.mp full) latched
    case isFalse open_ =>
      have tests : tr.Tests := ⟨Nat.not_lt.mp full, open_⟩
      cases shock with
      | true =>
        rw [if_pos rfl]
        dsimp only
        have rising : (tr.shockRun + 1 == 1) = true ↔ tr.shockRun = 0 := by rw [beq_iff_eq, Nat.add_eq_right]
        by_cases first : tr.shockRun = 0
        case pos =>
          simp only [if_pos (Nat.add_eq_right.mpr first)]
          split
          case isTrue confirmed => exact .shock tests rising (if_pos confirmed).symm
          case isFalse pending => exact .shock tests rising ((if_neg pending).trans (if_pos first)).symm
        case neg =>
          simp only [if_neg fun e => first (Nat.add_eq_right.mp e)]
          split
          case isTrue confirmed => exact .shock tests rising (if_pos confirmed).symm
          case isFalse pending => exact .shock tests rising ((if_neg pending).trans (if_neg first)).symm
      | false =>
        rw [if_neg Bool.false_ne_true]
        dsimp only
        split
        case isTrue alarm => exact .calm tests (if_pos alarm).symm
        case isFalse other => exact .calm tests (if_neg other).symm

/-! ## The state and the counter -/

lemma length_pushHistory {maxlen : Nat} {history : List F} (le : history.length ≤ maxlen) (phi : F) :
    (pushHistory maxlen history phi).length = min (history.length + 1) maxlen := by
  rw [pushHistory, List.length_drop, List.length_append, List.length_singleton]
  omega

/-- The state that belongs to a counter. -/
def stateOf (confirmFrames shockRun : Nat) : LinkState :=
  if shockRun = 0 then .healthy else if shockRun < confirmFrames then .alarm else .compromised

section

variable {confirmFrames shockRun : Nat}

lemma stateOf_healthy : stateOf confirmFrames shockRun = .healthy ↔ shockRun = 0 := by
  unfold stateOf
  split_ifs <;> simp [*]

lemma stateOf_alarm : stateOf confirmFrames shockRun = .alarm ↔ 1 ≤ shockRun ∧ shockRun < confirmFrames := by
  unfold stateOf
  split_ifs <;> simp <;> omega

lemma stateOf_compromised (pos : 1 ≤ confirmFrames) (le : shockRun ≤ confirmFrames) :
    stateOf confirmFrames shockRun = .compromised ↔ shockRun = confirmFrames := by
  unfold stateOf
  split_ifs <;> simp <;> omega

end

/-- What holds of a tracker after every call. -/
structure Tracker.Inv (confirmFrames : Nat) (tr : Tracker F) : Prop where
  confirms : tr.confirmFrames = confirmFrames
  fits : tr.history.length ≤ tr.windowSize
  /-- The counter waits for the history to fill. -/
  filling : tr.history.length < tr.windowSize → tr.shockRun = 0
  run_le : tr.shockRun ≤ confirmFrames
  state_eq : tr.state = stateOf confirmFrames tr.shockRun

variable {num} {confirmFrames : Nat} {tr tr' : Tracker F}

lemma Tracker.Inv.new (windowSize : Nat) (alpha : F) :
    (Tracker.new num windowSize alpha confirmFrames).Inv confirmFrames where
  confirms := rfl
  fits := Nat.zero_le _
  filling _ := rfl
  run_le := Nat.zero_le _
  state_eq := rfl

/-- A tracker that tests is short of the frames to confirm. -/
lemma Tracker.Inv.run_lt (pos : 1 ≤ confirmFrames) (inv : tr.Inv confirmFrames) (tests : tr.state ≠ .compromised) :
    tr.shockRun < confirmFrames := by
  refine inv.run_le.lt_of_ne fun e => tests ?_
  rw [inv.state_eq]
  exact (stateOf_compromised pos inv.run_le).mpr e

/-- One more shock frame and the counter after it. -/
lemma Tracker.Inv.shocked_eq (inv : tr.Inv confirmFrames) (lt : tr.shockRun < confirmFrames) :
    tr.shocked = stateOf confirmFrames (tr.shockRun + 1) := by
  rw [Tracker.shocked, inv.confirms, stateOf, if_neg (Nat.succ_ne_zero _)]
  split
  case isTrue confirmed => rw [if_neg (Nat.not_lt.mpr confirmed)]
  case isFalse pending =>
    rw [if_pos (Nat.not_le.mp pending)]
    split
    case isTrue => rfl
    case isFalse ne =>
      rw [inv.state_eq]
      exact stateOf_alarm.mpr ⟨Nat.one_le_iff_ne_zero.mpr ne, lt⟩

lemma Tracker.calmed_eq (tests : tr.state ≠ .compromised) : tr.calmed = .healthy := by
  unfold Tracker.calmed
  cases state : tr.state with
  | healthy => rfl
  | alarm => rfl
  | compromised => exact absurd state tests

lemma Tracker.Inv.frame (pos : 1 ≤ confirmFrames) (inv : tr.Inv confirmFrames) {shock edge : Bool}
    (frame : tr.Frame shock edge tr') : tr'.Inv confirmFrames := by
  have fits := inv.fits
  cases frame with
  | @warmUp _ phi _ _ filling =>
    exact
      { confirms := inv.confirms
        fits := by
          dsimp only
          rw [length_pushHistory fits]
          omega
        filling := fun _ => inv.filling filling
        run_le := inv.run_le
        state_eq := inv.state_eq }
  | latched => exact inv
  | shock tests _ shocked =>
    have below := inv.run_lt pos tests.2
    exact
      { confirms := inv.confirms
        fits := fits
        filling := fun lt => absurd tests.1 (Nat.not_le.mpr lt)
        run_le := below
        state_eq := shocked.trans (inv.shocked_eq below) }
  | @calm _ phi _ _ tests calmed =>
    exact
      { confirms := inv.confirms
        fits := by
          dsimp only
          rw [length_pushHistory fits]
          omega
        filling := fun _ => rfl
        run_le := Nat.zero_le _
        state_eq := calmed.trans (Tracker.calmed_eq tests.2) }

lemma Tracker.Inv.step (pos : 1 ≤ confirmFrames) (inv : tr.Inv confirmFrames) (call : Call F) :
    (tr.step num call).Inv confirmFrames := by
  cases call with
  | process phi t shock => exact inv.frame pos (tr.process_frame num phi t shock)
  | ack =>
    exact
      { confirms := inv.confirms
        fits := Nat.zero_le _
        filling := fun _ => rfl
        run_le := Nat.zero_le _
        state_eq := rfl }

/-! ## Runs of shock frames -/

section

variable (num) (start : Tracker F) (calls : List (Call F))

/-- The tracker before call `i`. -/
def trackerAt (i : Nat) : Tracker F :=
  stateAt (Tracker.step num) start calls i

/-- Call `i` is a frame that the test is evaluated on, with the outcome yes. -/
def ShockFrame (i : Nat) : Prop :=
  ∃ phi t, calls[i]? = some (.process phi t true) ∧ (trackerAt num start calls i).Tests

/-- Call `i` is a frame that `process` reports an edge for. -/
def EdgeAt (i : Nat) : Prop :=
  ∃ phi t shock, calls[i]? = some (.process phi t shock) ∧
    ((trackerAt num start calls i).process num phi t shock).1.edge = true

end

variable {start : Tracker F} {calls : List (Call F)} {n : Nat}

lemma inv_trackerAt (num : Numerics F) (calls : List (Call F)) (pos : 1 ≤ confirmFrames) (inv : start.Inv confirmFrames)
    (n : Nat) : (trackerAt num start calls n).Inv confirmFrames :=
  run_inv _ inv fun _ call inv => inv.step pos call

lemma trackerAt_succ {call : Call F} (got : calls[n]? = some call) :
    trackerAt num start calls (n + 1) = (trackerAt num start calls n).step num call :=
  stateAt_succ got

/-- Past the last call nothing changes. -/
lemma trackerAt_succ_of_none (none : calls[n]? = none) :
    trackerAt num start calls (n + 1) = trackerAt num start calls n :=
  stateAt_succ_of_none none

lemma shockFrame_iff {phi : F} {t : Int} {shock : Bool} (got : calls[n]? = some (.process phi t shock)) :
    ShockFrame num start calls n ↔ shock = true ∧ (trackerAt num start calls n).Tests := by
  constructor
  · rintro ⟨phi', t', got', tests⟩
    cases got.symm.trans got'
    exact ⟨rfl, tests⟩
  · rintro ⟨rfl, tests⟩
    exact ⟨phi, t, got, tests⟩

/-- A frame of the run: the tracker after it, and whether it is an edge. -/
lemma frameAt (num : Numerics F) (start : Tracker F) {phi : F} {t : Int} {shock : Bool}
    (got : calls[n]? = some (.process phi t shock)) :
    ∃ edge tr', trackerAt num start calls (n + 1) = tr' ∧ (EdgeAt num start calls n ↔ edge = true) ∧
      (trackerAt num start calls n).Frame shock edge tr' := by
  refine ⟨_, _, trackerAt_succ got, ?_, Tracker.process_frame num _ phi t shock⟩
  constructor
  · rintro ⟨phi', t', shock', got', edge⟩
    cases got.symm.trans got'
    exact edge
  · intro edge
    exact ⟨phi, t, shock, got, edge⟩

/-- An edge is a shock frame that finds the counter at zero. -/
lemma edgeAt_iff :
    EdgeAt num start calls n ↔ ShockFrame num start calls n ∧ (trackerAt num start calls n).shockRun = 0 := by
  constructor
  · intro edgeAt
    obtain ⟨phi, t, shock, got, _⟩ := edgeAt
    obtain ⟨edge, tr', _, edge_iff, frame⟩ := frameAt num start got
    cases edge_iff.mp ⟨phi, t, shock, got, ‹_›⟩
    cases frame with
    | shock tests rising _ => exact ⟨⟨phi, t, got, tests⟩, rising.mp rfl⟩
  · rintro ⟨⟨phi, t, got, tests⟩, zero⟩
    obtain ⟨edge, tr', _, edge_iff, frame⟩ := frameAt num start got
    cases frame with
    | warmUp filling => exact absurd tests.1 (Nat.not_le.mpr filling)
    | latched _ latched => exact absurd latched tests.2
    | shock _ rising _ => exact edge_iff.mpr (rising.mpr zero)

/-- The calls before call `n` end with exactly `k` shock frames. -/
structure RunBefore (num : Numerics F) (start : Tracker F) (calls : List (Call F)) (n k : Nat) : Prop where
  le : k ≤ n
  shocks : ∀ i < n, n ≤ i + k → ShockFrame num start calls i
  maximal : ∀ i, i + k + 1 = n → ¬ ShockFrame num start calls i

lemma RunBefore.zero (calm : ¬ ShockFrame num start calls n) : RunBefore num start calls (n + 1) 0 where
  le := Nat.zero_le _
  shocks i lt le := absurd lt (Nat.not_lt.mpr le)
  maximal i e := by
    cases Nat.succ.inj e
    exact calm

lemma RunBefore.succ {n k : Nat} (run : RunBefore num start calls n k) (shock : ShockFrame num start calls n) :
    RunBefore num start calls (n + 1) (k + 1) where
  le := Nat.succ_le_succ run.le
  shocks i lt le := by
    rcases Nat.lt_succ_iff_lt_or_eq.mp lt with before | rfl
    · exact run.shocks i before (by omega)
    · exact shock
  maximal i e := run.maximal i (by omega)

/-- Outside COMPROMISED the counter is the length of the run of shock frames just before. -/
lemma counts_run (pos : 1 ≤ confirmFrames) (inv : start.Inv confirmFrames) (fresh : start.shockRun = 0)
    (le : n ≤ calls.length) (unlatched : (trackerAt num start calls n).state ≠ .compromised) :
    RunBefore num start calls n (trackerAt num start calls n).shockRun := by
  induction n with
  | zero =>
    have zero : (trackerAt num start calls 0).shockRun = 0 := fresh
    rw [zero]
    exact ⟨le_rfl, fun i lt => absurd lt (Nat.not_lt_zero i), fun i e => absurd e (Nat.succ_ne_zero _)⟩
  | succ n ih =>
    cases got : calls[n]? with
    | none => exact absurd (List.getElem?_eq_none_iff.mp got) (by omega)
    | some call =>
      cases call with
      | ack =>
        rw [trackerAt_succ got]
        refine .zero fun ⟨phi, t, got', _⟩ => ?_
        cases got.symm.trans got'
      | process phi t shock =>
        obtain ⟨edge, tr', next, _, frame⟩ := frameAt num start got
        rw [next] at unlatched ⊢
        cases frame with
        | warmUp filling =>
          rw [(inv_trackerAt num calls pos inv n).filling filling]
          exact .zero fun shock => absurd ((shockFrame_iff got).mp shock).2.1 (Nat.not_le.mpr filling)
        | latched _ latched => exact absurd latched unlatched
        | shock tests _ _ => exact (ih (by omega) tests.2).succ ((shockFrame_iff got).mpr ⟨rfl, tests⟩)
        | calm _ _ => exact .zero fun shock => Bool.false_ne_true ((shockFrame_iff got).mp shock).1

/-- COMPROMISED is entered by a shock frame that completes the run. -/
lemma enters_compromised (pos : 1 ≤ confirmFrames) (inv : start.Inv confirmFrames) (fresh : start.shockRun = 0)
    (before : (trackerAt num start calls n).state ≠ .compromised)
    (after : (trackerAt num start calls (n + 1)).state = .compromised) :
    RunBefore num start calls (n + 1) confirmFrames := by
  cases got : calls[n]? with
  | none =>
    rw [trackerAt_succ_of_none got] at after
    exact absurd after before
  | some call =>
    cases call with
    | ack =>
      rw [trackerAt_succ got] at after
      cases after
    | process phi t shock =>
      have le : n ≤ calls.length := (List.getElem?_eq_some_iff.mp got).1.le
      have here := inv_trackerAt num calls pos inv n
      have there := inv_trackerAt num calls pos inv (n + 1)
      obtain ⟨edge, tr', next, _, frame⟩ := frameAt num start got
      rw [next] at after there
      rw [there.state_eq] at after
      have full := (stateOf_compromised pos there.run_le).mp after
      cases frame with
      | warmUp filling => exact absurd (here.state_eq.trans after) before
      | latched _ latched => exact absurd latched before
      | shock tests _ _ =>
        rw [← full]
        exact (counts_run pos inv fresh le before).succ ((shockFrame_iff got).mpr ⟨rfl, tests⟩)
      | calm _ _ => cases after

/-- COMPROMISED stays until it is acknowledged, and no frame reports an edge. -/
lemma stays_compromised {n m : Nat} (le : n ≤ m) (latched : (trackerAt num start calls n).state = .compromised)
    (noAck : ∀ i, n ≤ i → i < m → calls[i]? ≠ some .ack) :
    (trackerAt num start calls m).state = .compromised := by
  induction m, le using Nat.le_induction with
  | base => exact latched
  | succ m le ih =>
    have still := ih fun i lo hi => noAck i lo (Nat.lt_succ_of_lt hi)
    cases got : calls[m]? with
    | none => rwa [trackerAt_succ_of_none got]
    | some call =>
      cases call with
      | ack => exact absurd got (noAck m le (Nat.lt_succ_self m))
      | process phi t shock =>
        obtain ⟨edge, tr', next, _, frame⟩ := frameAt num start got
        rw [next]
        cases frame with
        | warmUp => exact still
        | latched => exact still
        | shock tests _ _ => exact absurd still tests.2
        | calm tests _ => exact absurd still tests.2

/-- The state machine that the header of the source describes, along the calls on a tracker. -/
structure StateMachine (num : Numerics F) (start : Tracker F) (calls : List (Call F)) (confirmFrames : Nat) : Prop where
  /-- After every call the state is the one of the counter. -/
  states : ∀ n,
    ((trackerAt num start calls n).state = .healthy ↔ (trackerAt num start calls n).shockRun = 0) ∧
    ((trackerAt num start calls n).state = .alarm ↔
      1 ≤ (trackerAt num start calls n).shockRun ∧ (trackerAt num start calls n).shockRun < confirmFrames) ∧
    ((trackerAt num start calls n).state = .compromised ↔ (trackerAt num start calls n).shockRun = confirmFrames)
  /-- COMPROMISED is entered by the last of `confirmFrames` calls in a row that are shock frames. -/
  entered : ∀ n, (trackerAt num start calls n).state ≠ .compromised →
    (trackerAt num start calls (n + 1)).state = .compromised →
    confirmFrames ≤ n + 1 ∧ ∀ i ≤ n, n < i + confirmFrames → ShockFrame num start calls i
  /-- It stays until it is acknowledged, and no call reports an edge. -/
  latched : ∀ n m, n ≤ m → (trackerAt num start calls n).state = .compromised →
    (∀ i, n ≤ i → i < m → calls[i]? ≠ some .ack) →
    (trackerAt num start calls m).state = .compromised ∧ ¬ EdgeAt num start calls m
  /-- The edges are the first frames of the runs of shock frames. -/
  edges : ∀ n, EdgeAt num start calls n ↔
    ShockFrame num start calls n ∧ ∀ i, i + 1 = n → ¬ ShockFrame num start calls i

/-- Every new tracker follows the state machine, along every sequence of calls. -/
theorem coherence_tracker (num : Numerics F) (windowSize : Nat) (alpha : F) {confirmFrames : Nat}
    (pos : 1 ≤ confirmFrames) (calls : List (Call F)) :
    StateMachine num (Tracker.new num windowSize alpha confirmFrames) calls confirmFrames := by
  have inv : (Tracker.new num windowSize alpha confirmFrames).Inv confirmFrames := Tracker.Inv.new windowSize alpha
  refine ⟨fun n => ?_, fun n before after => ?_, fun n m le latched noAck => ?_, fun n => ?_⟩
  · have at_n := inv_trackerAt num calls pos inv n
    rw [at_n.state_eq]
    exact ⟨stateOf_healthy, stateOf_alarm, stateOf_compromised pos at_n.run_le⟩
  · have run := enters_compromised pos inv rfl before after
    exact ⟨run.le, fun i le lt => run.shocks i (by omega) (by omega)⟩
  · have still := stays_compromised le latched noAck
    refine ⟨still, fun edge => ?_⟩
    obtain ⟨⟨_, _, _, tests⟩, _⟩ := edgeAt_iff.mp edge
    exact tests.2 still
  · rw [edgeAt_iff]
    refine and_congr_right fun shock => ?_
    obtain ⟨phi, t, got, tests⟩ := shock
    have run := counts_run pos inv rfl (List.getElem?_eq_some_iff.mp got).1.le tests.2
    have le := run.le
    constructor
    · intro zero i e
      exact run.maximal i (by omega)
    · intro first
      by_contra ne
      exact first (n - 1) (by omega) (run.shocks (n - 1) (by omega) (by omega))

/-- Arithmetic to run examples with: whole numbers, and a variance that stays. -/
def Numerics.whole : Numerics Int where
  zero := 0
  one := 1
  initialVariance := 1
  mean l := l.sum / l.length
  var _ := 1
  ewma _ _ baseline := baseline
  zScore phi baseline _ := phi - baseline

/-- Two frames to fill the history, a dip of one frame, and a shock that stays. -/
def dipThenShock : List (Call Int) :=
  [ .process 1 0 false, .process 1 1 false, .process (-9) 2 true, .process 1 3 false, .process (-9) 4 true,
    .process (-9) 5 true, .process (-9) 6 true ]

/-- The shock that stays is an edge at its first frame, and confirmed by the third one. -/
theorem coherence_tracker_dipThenShock :
    1 ≤ 3 ∧ EdgeAt .whole (Tracker.new .whole 2 0 3) dipThenShock 4 ∧
      (trackerAt .whole (Tracker.new .whole 2 0 3) dipThenShock 7).state = .compromised ∧
      ∀ i ≤ 6, 6 < i + 3 → ShockFrame .whole (Tracker.new .whole 2 0 3) dipThenShock i := by
  have machine := coherence_tracker .whole 2 0 (show 1 ≤ 3 by decide) dipThenShock
  refine ⟨by decide, ⟨-9, 4, true, rfl, by decide⟩, by decide, ?_⟩
  exact (machine.entered 6 (by decide) (by decide)).2

end Otap.Chronos
