import Otap.Lib.Run
import Otap.Chronos.Layered

/-!
# The layer that a report names

`process` of `stage-chronos/layered.py` reports as `via` which layer has made the link COMPROMISED. It takes this from
the frames of `fast_event` and `slow_event`. The slow event is the frame at which the ratchet has latched; the fast one
is the first shock since the last `ack`, whether or not the fast layer has latched.

`Skeleton` is the tracker without its numbers, with the outcomes of the two tests as inputs; every `LayeredTracker` runs
as its skeleton does (`Simulates.process`). A latch of the fast layer is always named FAST. A latch of the ratchet is
named SLOW only if there was no shock since the last `ack` (`namesLayer_iff`).
-/

namespace Otap.Chronos
open Otap.Lib

/-! ## The skeleton -/

/-- The tracker without its numbers. `filled` is the length of the history, and `cause` the layer that made the
    transition into COMPROMISED since the last `ack`. -/
structure Skeleton where
  filled : Nat
  state : LinkState
  shock : Nat
  fastEvent : Option Int
  slowEvent : Option Int
  cause : Option Layer

/-- A call, with the outcomes of the tests of the two layers. -/
inductive LayeredCall where
  | process (t : Int) (shocked ratchets : Bool)
  | ack

def LayeredCall.frame : LayeredCall → Option Int
  | process t _ _ => some t
  | ack => none

namespace Skeleton

def new : Skeleton where
  filled := 0
  state := .healthy
  shock := 0
  fastEvent := none
  slowEvent := none
  cause := none

variable (window confirm : Nat) (s : Skeleton)

/-- `_via`. -/
def via : Option Layer :=
  match s.fastEvent, s.slowEvent with
  | some f, some s => some (if f ≤ s then .fast else .slow)
  | some _, none => some .fast
  | none, some _ => some .slow
  | none, none => none

/-- The fast layer on a shock, up to its confirmation. -/
def shocked (t : Int) : Skeleton :=
  let s := { s with shock := s.shock + 1 }
  if s.shock = 1 then { s with state := .alarm, fastEvent := s.fastEvent.or (some t) } else s

/-- The fast layer on a frame that is no shock. -/
def calmed : Skeleton :=
  { s with shock := 0, state := if s.state = .alarm then .healthy else s.state }

def slowLayer (t : Int) (ratchets : Bool) : Skeleton :=
  if ratchets then { s with slowEvent := s.slowEvent.or (some t), state := .compromised, cause := some .slow } else s

/-- `process`, with `via` of its report. -/
def process (t : Int) (shocked ratchets : Bool) : Option Layer × Skeleton :=
  if s.filled < window then (none, { s with filled := s.filled + 1 })
  else if s.state = .compromised then (s.via, s)
  else if shocked then
    let s := s.shocked t
    if s.shock ≥ confirm then
      let s := { s with state := .compromised, cause := some .fast }
      (s.via, s)
    else
      let s := s.slowLayer t ratchets
      (s.via, s)
  else
    let s := s.calmed.slowLayer t ratchets
    (s.via, s)

/-- The skeleton after a call. -/
def step : LayeredCall → Skeleton
  | .process t shocked ratchets => (s.process window confirm t shocked ratchets).2
  | .ack => new

/-! ## What is to hold -/

/-- A report of COMPROMISED after the warm-up names the layer that made the transition. -/
def NamesLayer (call : LayeredCall) : Prop :=
  ∀ t shocked ratchets, call = .process t shocked ratchets → window ≤ s.filled →
    (s.process window confirm t shocked ratchets).2.state = .compromised →
    ∀ layer, (s.process window confirm t shocked ratchets).1 = some layer ↔
      (s.process window confirm t shocked ratchets).2.cause = some layer

/-- The ratchet latches on the frame. -/
structure Latches (shocked ratchets : Bool) : Prop where
  filled : window ≤ s.filled
  unlatched : s.state ≠ .compromised
  unconfirmed : shocked = true → s.shock + 1 < confirm
  ratchets : ratchets = true

/-- If the ratchet latches on the frame, neither it nor one before it since the last `ack` is a shock. -/
def Undisguised (call : LayeredCall) : Prop :=
  ∀ t shocked ratchets, call = .process t shocked ratchets → s.Latches window confirm shocked ratchets →
    shocked = false ∧ s.fastEvent = none

/-! ## What a frame does -/

/-- The skeleton after the fast layer, unless it latches. -/
def fastLayer (t : Int) (shocked : Bool) : Skeleton :=
  if shocked then s.shocked t else s.calmed

/-- The skeleton after a latch of the ratchet. -/
def latched (t : Int) : Skeleton :=
  { s with slowEvent := s.slowEvent.or (some t), state := .compromised, cause := some .slow }

variable {window confirm s} {t : Int} {shocked ratchets : Bool} {f : Int} {call : LayeredCall}
  {calls : List LayeredCall}

/-- The first shock raises the alarm and is the fast event unless there is one; the next ones are only counted. -/
lemma shocked_eq (s : Skeleton) (t : Int) :
    s.shocked t =
      { s with
        shock := s.shock + 1
        state := if s.shock = 0 then .alarm else s.state
        fastEvent := if s.shock = 0 then s.fastEvent.or (some t) else s.fastEvent } := by
  rw [Skeleton.shocked]
  by_cases first : s.shock = 0
  · rw [if_pos (congrArg (· + 1) first), if_pos first, if_pos first]
  · rw [if_neg (mt Nat.succ.inj first), if_neg first, if_neg first]

lemma shocked_shock : (s.shocked t).shock = s.shock + 1 := by
  rw [shocked_eq]

lemma shocked_slowEvent : (s.shocked t).slowEvent = s.slowEvent := by
  rw [shocked_eq]

lemma fastLayer_slowEvent : (s.fastLayer t shocked).slowEvent = s.slowEvent := by
  cases shocked with
  | true => exact shocked_slowEvent
  | false => rfl

/-- A fast event is the one before or the frame. -/
lemma fastEvent_shocked (event : (s.shocked t).fastEvent = some f) : s.fastEvent = some f ∨ f = t := by
  rw [shocked_eq] at event
  dsimp only at event
  split at event
  case isTrue =>
    rcases Option.or_eq_some_iff.mp event with before | ⟨-, now⟩
    · exact .inl before
    · exact .inr (Option.some.inj now).symm
  case isFalse => exact .inl event

/-- The skeleton after a frame, once the warm-up is over. -/
lemma process_cases (full : window ≤ s.filled) (t : Int) (shocked ratchets : Bool) :
    (s.state = .compromised ∧ s.process window confirm t shocked ratchets = (s.via, s)) ∨
    (s.state ≠ .compromised ∧ shocked = true ∧ confirm ≤ s.shock + 1 ∧ (s.process window confirm t shocked ratchets).2 =
      { s.shocked t with state := .compromised, cause := some .fast }) ∨
    (s.Latches window confirm shocked ratchets ∧
      (s.process window confirm t shocked ratchets).2 = (s.fastLayer t shocked).latched t) ∨
    (s.state ≠ .compromised ∧ ¬ s.Latches window confirm shocked ratchets ∧
      (s.process window confirm t shocked ratchets).2 = s.fastLayer t shocked) := by
  rw [process, if_neg (Nat.not_lt.mpr full)]
  by_cases compromised : s.state = .compromised
  · exact .inl ⟨compromised, if_pos compromised⟩
  · rw [if_neg compromised]
    refine .inr ?_
    cases shocked with
    | true =>
      rw [if_pos rfl]
      dsimp only
      rw [shocked_shock, slowLayer]
      by_cases confirmed : s.shock + 1 ≥ confirm
      · rw [if_pos confirmed]
        exact .inl ⟨compromised, rfl, confirmed, rfl⟩
      · rw [if_neg confirmed]
        cases ratchets with
        | true => exact .inr (.inl ⟨⟨full, compromised, fun _ => Nat.not_le.mp confirmed, rfl⟩, rfl⟩)
        | false => exact .inr (.inr ⟨compromised, fun latches => Bool.false_ne_true latches.ratchets, rfl⟩)
    | false =>
      rw [if_neg Bool.false_ne_true]
      dsimp only
      rw [slowLayer]
      cases ratchets with
      | true => exact .inr (.inl ⟨⟨full, compromised, fun shocked => absurd shocked Bool.false_ne_true, rfl⟩, rfl⟩)
      | false => exact .inr (.inr ⟨compromised, fun latches => Bool.false_ne_true latches.ratchets, rfl⟩)

/-- After the warm-up `via` is taken from the events. -/
lemma process_via (full : window ≤ s.filled) :
    (s.process window confirm t shocked ratchets).1 = (s.process window confirm t shocked ratchets).2.via := by
  rw [process, if_neg (Nat.not_lt.mpr full)]
  split
  case isTrue => rfl
  case isFalse =>
    split
    case isTrue =>
      dsimp only
      split
      case isTrue => rfl
      case isFalse => rfl
    case isFalse => rfl

/-! ## The invariant -/

structure Inv (s : Skeleton) : Prop where
  shocks : 0 < s.shock → s.fastEvent.isSome
  unlatched : s.state ≠ .compromised → s.slowEvent = none
  named : s.state = .compromised → ∀ layer, s.via = some layer ↔ s.cause = some layer

lemma inv_new : new.Inv where
  shocks pos := by cases pos
  unlatched _ := rfl
  named compromised := by cases compromised

/-- There is a fast event after a shock. -/
lemma Inv.exists_fastEvent (inv : s.Inv) (t : Int) : ∃ f, (s.shocked t).fastEvent = some f := by
  rw [← Option.isSome_iff_exists, shocked_eq]
  dsimp only
  split
  case isTrue => rw [Option.isSome_or, Option.isSome_some, Bool.or_true]
  case isFalse again => exact inv.shocks (Nat.pos_of_ne_zero again)

lemma via_of_fast (fast : s.fastEvent = some f) (slow : s.slowEvent = none) : s.via = some .fast := by
  rw [via, fast, slow]

lemma via_of_slow (fast : s.fastEvent = none) (slow : s.slowEvent = some f) : s.via = some .slow := by
  rw [via, fast, slow]

lemma via_of_le {f g : Int} (fast : s.fastEvent = some f) (slow : s.slowEvent = some g) (le : f ≤ g) :
    s.via = some .fast := by
  rw [via, fast, slow]
  exact congrArg some (if_pos le)

lemma named_of_eq (same : s.via = s.cause) (layer : Layer) : s.via = some layer ↔ s.cause = some layer := by
  rw [same]

/-- The fast layer, unless it latches. -/
lemma Inv.fastLayer (inv : s.Inv) (unlatched : s.state ≠ .compromised) (t : Int) (shocked : Bool) :
    (s.fastLayer t shocked).Inv ∧ (s.fastLayer t shocked).state ≠ .compromised := by
  cases shocked with
  | true =>
    have state : (s.shocked t).state ≠ .compromised := by
      rw [shocked_eq]
      dsimp only
      split
      case isTrue => exact fun alarm => (by cases alarm)
      case isFalse => exact unlatched
    refine ⟨⟨fun _ => ?_, fun _ => ?_, fun latched => absurd latched state⟩, state⟩
    · exact Option.isSome_iff_exists.mpr (inv.exists_fastEvent t)
    · exact shocked_slowEvent.trans (inv.unlatched unlatched)
  | false =>
    have state : s.calmed.state ≠ .compromised := by
      rw [calmed]
      dsimp only
      split
      case isTrue => exact fun healthy => (by cases healthy)
      case isFalse => exact unlatched
    refine ⟨⟨fun pos => (by cases pos), fun _ => inv.unlatched unlatched, fun latched => absurd latched state⟩, state⟩

/-- The slow event of a latch is its frame. -/
lemma Inv.slowEvent_latched (inv : s.Inv) (unlatched : s.state ≠ .compromised) :
    ((s.fastLayer t shocked).latched t).slowEvent = some t := by
  rw [Skeleton.latched, fastLayer_slowEvent, inv.unlatched unlatched]
  rfl

/-- A frame on which the ratchet does not latch after a shock. -/
lemma Inv.process (inv : s.Inv) (undisguised : s.Undisguised window confirm (.process t shocked ratchets)) :
    (s.process window confirm t shocked ratchets).2.Inv := by
  by_cases full : window ≤ s.filled
  case neg =>
    rw [Skeleton.process, if_pos (Nat.not_le.mp full)]
    exact ⟨inv.shocks, inv.unlatched, inv.named⟩
  case pos =>
    rcases @process_cases window confirm s full t shocked ratchets with
      ⟨_, eq⟩ | ⟨unlatched, _, _, eq⟩ | ⟨latches, eq⟩ | ⟨unlatched, _, eq⟩
    · rwa [eq]
    · obtain ⟨f, fast⟩ := inv.exists_fastEvent t
      rw [eq]
      refine ⟨fun _ => Option.isSome_iff_exists.mpr ⟨f, fast⟩, fun other => absurd rfl other, fun _ => ?_⟩
      exact named_of_eq (via_of_fast fast (shocked_slowEvent.trans (inv.unlatched unlatched)))
    · obtain ⟨rfl, none⟩ := undisguised t shocked ratchets rfl latches
      rw [eq]
      refine ⟨fun pos => (by cases pos), fun other => absurd rfl other, fun _ => ?_⟩
      exact named_of_eq (via_of_slow none (inv.slowEvent_latched latches.unlatched))
    · rw [eq]
      exact (inv.fastLayer unlatched t shocked).1

/-- A call on which the ratchet does not latch after a shock. -/
lemma Inv.step (inv : s.Inv) (undisguised : s.Undisguised window confirm call) :
    (s.step window confirm call).Inv := by
  cases call with
  | process t shocked ratchets => exact inv.process undisguised
  | ack => exact inv_new

/-- It is answered with the right layer. -/
lemma Inv.namesLayer (inv : s.Inv) (undisguised : s.Undisguised window confirm call) :
    s.NamesLayer window confirm call := by
  rintro t shocked ratchets rfl full compromised layer
  rw [process_via full]
  exact (inv.process undisguised).named compromised layer

/-- A latch of the ratchet after a shock is attributed to the fast layer. -/
lemma Inv.undisguised (inv : s.Inv)
    (early : ∀ t shocked ratchets, call = .process t shocked ratchets → ∀ f, s.fastEvent = some f → f < t)
    (names : s.NamesLayer window confirm call) : s.Undisguised window confirm call := by
  rintro t shocked ratchets rfl latches
  have eq : (s.process window confirm t shocked ratchets).2 = (s.fastLayer t shocked).latched t := by
    rcases @process_cases window confirm s latches.filled t shocked ratchets with
      ⟨latched, _⟩ | ⟨_, shock, confirmed, _⟩ | ⟨_, eq⟩ | ⟨_, silent, _⟩
    · exact absurd latched latches.unlatched
    · exact absurd (latches.unconfirmed shock) (Nat.not_lt.mpr confirmed)
    · exact eq
    · exact absurd latches silent
  -- a fast event would be named, while the ratchet is the cause
  have unnamed (f : Int) (fast : (s.fastLayer t shocked).fastEvent = some f) (le : f ≤ t) : False := by
    have via : ((s.fastLayer t shocked).latched t).via = some .fast :=
      via_of_le fast (inv.slowEvent_latched latches.unlatched) le
    have named := names t shocked ratchets rfl latches.filled (by rw [eq]; rfl) .fast
    rw [process_via latches.filled, eq] at named
    cases named.mp via
  cases shocked with
  | true =>
    obtain ⟨f, fast⟩ := inv.exists_fastEvent t
    have le : f ≤ t := by
      rcases fastEvent_shocked fast with old | rfl
      · exact (early t true ratchets rfl f old).le
      · exact le_rfl
    exact (unnamed f fast le).elim
  | false =>
    refine ⟨rfl, Option.eq_none_iff_forall_ne_some.mpr fun f fast => ?_⟩
    exact unnamed f fast (early t false ratchets rfl f fast).le

/-! ## Runs -/

/-- The frame numbers of the calls. -/
def frames (calls : List LayeredCall) : List Int :=
  calls.filterMap LayeredCall.frame

/-- A fast event is before the frames that are still to come. -/
def Early (s : Skeleton) (calls : List LayeredCall) : Prop :=
  ∀ f, s.fastEvent = some f → ∀ t ∈ frames calls, f < t

lemma fastEvent_fastLayer (event : (s.fastLayer t shocked).fastEvent = some f) :
    s.fastEvent = some f ∨ f = t := by
  cases shocked with
  | true => exact fastEvent_shocked event
  | false => exact .inl event

lemma fastEvent_process (event : (s.process window confirm t shocked ratchets).2.fastEvent = some f) :
    s.fastEvent = some f ∨ f = t := by
  by_cases full : window ≤ s.filled
  case neg =>
    rw [Skeleton.process, if_pos (Nat.not_le.mp full)] at event
    exact .inl event
  case pos =>
    rcases @process_cases window confirm s full t shocked ratchets with
      ⟨_, eq⟩ | ⟨_, _, _, eq⟩ | ⟨_, eq⟩ | ⟨_, _, eq⟩
    · rw [eq] at event
      exact .inl event
    · rw [eq] at event
      exact fastEvent_shocked event
    · rw [eq] at event
      exact fastEvent_fastLayer event
    · rw [eq] at event
      exact fastEvent_fastLayer event

lemma Early.step (early : s.Early (call :: calls))
    (increasing : (frames (call :: calls)).Pairwise (· < ·)) : (s.step window confirm call).Early calls := by
  intro f event u later
  cases call with
  | ack => cases event
  | process t shocked ratchets =>
    rcases fastEvent_process event with before | rfl
    · exact early f before u (List.mem_cons_of_mem _ later)
    · exact List.rel_of_pairwise_cons increasing later

lemma pairwise_frames (increasing : (frames (call :: calls)).Pairwise (· < ·)) : (frames calls).Pairwise (· < ·) := by
  cases call with
  | ack => exact increasing
  | process t shocked ratchets => exact increasing.of_cons

/-- Of a run from a state with the invariant. -/
lemma along_namesLayer_iff (inv : s.Inv) (early : s.Early calls)
    (increasing : (frames calls).Pairwise (· < ·)) :
    Along (NamesLayer window confirm) (step window confirm) s calls ↔
      Along (Undisguised window confirm) (step window confirm) s calls := by
  induction calls generalizing s with
  | nil => exact Iff.rfl
  | cons call calls ih =>
    have rest (undisguised : s.Undisguised window confirm call) :=
      ih (inv.step undisguised) (early.step increasing) (pairwise_frames increasing)
    constructor
    · rintro ⟨names, run⟩
      have undisguised : s.Undisguised window confirm call := by
        refine inv.undisguised ?_ names
        rintro t shocked ratchets rfl f event
        exact early f event t List.mem_cons_self
      exact ⟨undisguised, (rest undisguised).mp run⟩
    · rintro ⟨undisguised, run⟩
      exact ⟨inv.namesLayer undisguised, (rest undisguised).mpr run⟩

end Skeleton

/-! ## The tracker and its skeleton -/

/-- A call on a tracker. -/
inductive LinkCall (K : Type) where
  | process (phi : K) (t : Int)
  | ack

namespace LayeredTracker

section Fields

variable {K : Type} {cfg : LayeredConfig K} {tr : LayeredTracker K} {s : Skeleton}

/-- The skeleton has what the tracker has besides its numbers. -/
structure Simulates (cfg : LayeredConfig K) (tr : LayeredTracker K) (s : Skeleton) : Prop where
  fits : tr.history.length ≤ cfg.window
  filled : s.filled = tr.history.length
  state : s.state = tr.state
  shock : s.shock = tr.shock
  fastEvent : s.fastEvent = tr.fastEvent
  slowEvent : s.slowEvent = tr.slowEvent

lemma Simulates.via (sim : tr.Simulates cfg s) : s.via = tr.via := by
  rewrite [Skeleton.via, LayeredTracker.via, sim.fastEvent, sim.slowEvent]
  cases tr.fastEvent with
  | none =>
    cases tr.slowEvent with
    | none => rfl
    | some t => rfl
  | some f =>
    cases tr.slowEvent with
    | none => rfl
    | some t => rfl

lemma Simulates.shocked (sim : tr.Simulates cfg s) (t : Int) : (tr.shocked t).Simulates cfg (s.shocked t) := by
  rw [LayeredTracker.shocked, Skeleton.shocked]
  dsimp only
  rw [sim.shock]
  split
  case isTrue => exact ⟨sim.fits, sim.filled, rfl, rfl, congrArg (Option.or · _) sim.fastEvent, sim.slowEvent⟩
  case isFalse => exact ⟨sim.fits, sim.filled, sim.state, rfl, sim.fastEvent, sim.slowEvent⟩

/-- Both report the same where both take `via` from the events. -/
def Together (cfg : LayeredConfig K) (r : LayeredReport × LayeredTracker K) (q : Option Layer × Skeleton) : Prop :=
  r.2.Simulates cfg q.2 ∧ r.1.via = q.1 ∧ r.1.state = q.2.state

lemma Simulates.together (sim : tr.Simulates cfg s) : Together cfg (tr.report tr.via, tr) (s.via, s) :=
  ⟨sim, sim.via.symm, sim.state.symm⟩

end Fields

variable {K : Type} [Field K] [LinearOrder K]

/-- `ack`, which sets every field as the constructor does. -/
def ack (_ : LayeredTracker K) : LayeredTracker K :=
  new

variable (cfg : LayeredConfig K) (sqrt : K → K) (tr : LayeredTracker K)

def step : LinkCall K → LayeredTracker K
  | .process phi t => (tr.process cfg sqrt phi t).2
  | .ack => tr.ack

/-- The tracker after the fast layer, unless it latches. -/
def fastLayer (phi : K) (t : Int) : LayeredTracker K :=
  if tr.zScore sqrt phi < -cfg.zThr then tr.shocked t else tr.calmed cfg phi

/-- The call with the outcomes that the tests have. -/
def tested : LinkCall K → LayeredCall
  | .process phi t =>
    .process t (decide (tr.zScore sqrt phi < -cfg.zThr))
      (decide (((tr.fastLayer cfg sqrt phi t).recorded cfg).Ratchets cfg))
  | .ack => .ack

/-- The calls of a run with the outcomes of their tests. -/
def testedRun : LayeredTracker K → List (LinkCall K) → List LayeredCall
  | _, [] => []
  | tr, call :: calls => tr.tested cfg sqrt call :: testedRun (tr.step cfg sqrt call) calls

variable {cfg sqrt tr} {s : Skeleton}

omit [LinearOrder K] in
lemma simulates_new : (new : LayeredTracker K).Simulates cfg .new :=
  ⟨Nat.zero_le _, rfl, rfl, rfl, rfl, rfl⟩

omit [LinearOrder K] in
lemma Simulates.warmUp (sim : tr.Simulates cfg s) (filling : tr.history.length < cfg.window) (phi : K) :
    (tr.warmUp cfg phi).Simulates cfg { s with filled := s.filled + 1 } := by
  have length : (pushHistory cfg.window tr.history phi).length = tr.history.length + 1 := by
    rw [length_pushHistory sim.fits, Nat.min_eq_left filling]
  exact ⟨length.trans_le filling, (congrArg (· + 1) sim.filled).trans length.symm, sim.state, sim.shock, sim.fastEvent,
    sim.slowEvent⟩

omit [LinearOrder K] in
lemma Simulates.calmed (sim : tr.Simulates cfg s) (full : cfg.window ≤ tr.history.length) (phi : K) :
    (tr.calmed cfg phi).Simulates cfg s.calmed := by
  have length : (pushHistory cfg.window tr.history phi).length = tr.history.length := by
    rw [length_pushHistory sim.fits, Nat.min_eq_right (Nat.le_succ_of_le full)]
    exact le_antisymm full sim.fits
  refine ⟨length.trans_le sim.fits, sim.filled.trans length.symm, ?_, rfl, sim.fastEvent, sim.slowEvent⟩
  rw [Skeleton.calmed, LayeredTracker.calmed, sim.state]

lemma Simulates.slowLayer (sim : tr.Simulates cfg s) (t : Int) :
    (tr.slowLayer cfg t).Simulates cfg (s.slowLayer t (decide ((tr.recorded cfg).Ratchets cfg))) := by
  by_cases ratchets : (tr.recorded cfg).Ratchets cfg
  · rw [LayeredTracker.slowLayer, if_pos ratchets, Skeleton.slowLayer, if_pos (decide_eq_true ratchets)]
    exact ⟨sim.fits, sim.filled, rfl, sim.shock, sim.fastEvent, congrArg (Option.or · _) sim.slowEvent⟩
  · rw [LayeredTracker.slowLayer, if_neg ratchets, Skeleton.slowLayer, if_neg (mt of_decide_eq_true ratchets)]
    exact ⟨sim.fits, sim.filled, sim.state, sim.shock, sim.fastEvent, sim.slowEvent⟩

/-- Tracker and skeleton report the same on a frame, and the skeleton stays the one of the tracker. -/
lemma Simulates.process (sim : tr.Simulates cfg s) (phi : K) (t : Int) :
    Together cfg (tr.process cfg sqrt phi t)
      (s.process cfg.window cfg.confirm t (decide (tr.zScore sqrt phi < -cfg.zThr))
        (decide (((tr.fastLayer cfg sqrt phi t).recorded cfg).Ratchets cfg))) := by
  by_cases filling : tr.history.length < cfg.window
  · rw [LayeredTracker.process, if_pos filling, Skeleton.process, if_pos (sim.filled.trans_lt filling)]
    exact ⟨sim.warmUp filling phi, rfl, sim.state.symm⟩
  have filled : ¬ s.filled < cfg.window := sim.filled ▸ filling
  rw [LayeredTracker.process, if_neg filling, Skeleton.process, if_neg filled]
  by_cases compromised : tr.state = .compromised
  · rw [if_pos compromised, if_pos (sim.state.trans compromised)]
    exact sim.together
  have unlatched : s.state ≠ .compromised := sim.state ▸ compromised
  rw [if_neg compromised, if_neg unlatched]
  by_cases shock : tr.zScore sqrt phi < -cfg.zThr
  · have shocked := sim.shocked t
    rw [if_pos shock, if_pos (decide_eq_true shock), fastLayer, if_pos shock]
    dsimp only
    by_cases confirmed : (tr.shocked t).shock ≥ cfg.confirm
    · have confirmed' : (s.shocked t).shock ≥ cfg.confirm := shocked.shock ▸ confirmed
      have latched : Simulates cfg { tr.shocked t with state := .compromised }
          { s.shocked t with state := .compromised, cause := some .fast } :=
        ⟨shocked.fits, shocked.filled, rfl, shocked.shock, shocked.fastEvent, shocked.slowEvent⟩
      rw [if_pos confirmed, if_pos confirmed']
      exact latched.together
    · have unconfirmed : ¬ (s.shocked t).shock ≥ cfg.confirm := shocked.shock ▸ confirmed
      rw [if_neg confirmed, if_neg unconfirmed]
      exact (shocked.slowLayer t).together
  · rw [if_neg shock, if_neg (mt of_decide_eq_true shock), fastLayer, if_neg shock]
    exact ((sim.calmed (Nat.not_lt.mp filling) phi).slowLayer t).together

lemma Simulates.step (sim : tr.Simulates cfg s) (call : LinkCall K) :
    (tr.step cfg sqrt call).Simulates cfg (s.step cfg.window cfg.confirm (tr.tested cfg sqrt call)) := by
  cases call with
  | process phi t => exact (sim.process phi t).1
  | ack => exact simulates_new

/-- The run of a tracker is a run of its skeleton. -/
theorem Simulates.run (sim : tr.Simulates cfg s) (calls : List (LinkCall K)) :
    (calls.foldl (LayeredTracker.step cfg sqrt) tr).Simulates cfg
      ((tr.testedRun cfg sqrt calls).foldl (Skeleton.step cfg.window cfg.confirm) s) := by
  induction calls generalizing tr s with
  | nil => exact sim
  | cons call calls ih => exact ih (sim.step call)

end LayeredTracker

/-! ## Main result -/

open Skeleton

/-- In a run with increasing frame numbers every report of COMPROMISED names the layer that made the transition exactly
    if the ratchet never latches when there was a shock since the last `ack`. -/
theorem namesLayer_iff (window confirm : Nat) (calls : List LayeredCall)
    (increasing : (frames calls).Pairwise (· < ·)) :
    Along (NamesLayer window confirm) (step window confirm) new calls ↔
      Along (Undisguised window confirm) (step window confirm) new calls :=
  along_namesLayer_iff inv_new (fun f event => by cases event) increasing

/-- A frame of warm-up and one on which the ratchet latches. -/
def ratcheted : List LayeredCall :=
  [.process 0 false false, .process 1 false true]

theorem namesLayer_ratcheted :
    (frames ratcheted).Pairwise (· < ·) ∧ Along (NamesLayer 1 3) (step 1 3) new ratcheted := by
  have increasing : (frames ratcheted).Pairwise (· < ·) := by decide
  have undisguised : Along (Undisguised 1 3) (step 1 3) new ratcheted := by
    refine ⟨fun t shocked ratchets call latches => ?_, fun t shocked ratchets call latches => ?_, trivial⟩
    · cases call
      exact ⟨rfl, rfl⟩
    · cases call
      exact ⟨rfl, rfl⟩
  exact ⟨increasing, (namesLayer_iff 1 3 ratcheted increasing).mpr undisguised⟩

/-- A dip of one frame before the ratchet latches. -/
def dippedThenRatcheted : List LayeredCall :=
  [.process 0 false false, .process 1 true false, .process 2 false false, .process 3 false true]

/-- The latch of the ratchet is reported as one of the fast layer. -/
theorem not_namesLayer :
    (frames dippedThenRatcheted).Pairwise (· < ·) ∧
      (dippedThenRatcheted.foldl (step 1 3) new).state = .compromised ∧
      (dippedThenRatcheted.foldl (step 1 3) new).cause = some .slow ∧
      (dippedThenRatcheted.foldl (step 1 3) new).via = some .fast ∧
      ¬ Along (NamesLayer 1 3) (step 1 3) new dippedThenRatcheted := by
  refine ⟨by decide, rfl, rfl, rfl, fun names => ?_⟩
  have named := names.2.2.2.1 3 false true rfl (by decide) rfl .fast
  cases named.mp rfl

end Otap.Chronos
