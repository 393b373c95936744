import Otap.Lib.Smoothing
import Otap.Chronos.Drift

/-!
# The layered tracker

Embeds `LayeredTracker` of `stage-chronos/layered.py` over the numbers of an ordered field, with the square root as a
parameter. A frame after the warm-up goes through the fast layer, which compares it with the smoothed baseline, and then
through the slow layer, which compares the baseline with the oldest one in its history.

In a run that does not end COMPROMISED the baseline follows the stream, held for fewer than `confirm` frames in a row
(`follows`), and falls by `ratchetThr` at most over the history of the slow layer (`ratchet_silent`). Nothing else of
the tracker matters to how far the baseline can come down unnoticed.
-/

namespace Otap.Chronos
open Otap.Lib

/-! ## The code -/

/-- The parameters of the constructor. With an empty `longWindow` there would be no oldest baseline. -/
structure LayeredConfig (K : Type) where
  window : Nat
  alpha : K
  zThr : K
  confirm : Nat
  longWindow : Nat
  ratchetThr : K
  longWindow_pos : 0 < longWindow

inductive Layer where
  | fast
  | slow
  deriving DecidableEq

/-- The rest of a `LayeredTracker`. The events are the frames of `("FAST", t)` and `("SLOW", t)`. -/
structure LayeredTracker (K : Type) where
  history : List K
  baseline : K
  var : K
  state : LinkState
  shock : Nat
  baselineHist : List K
  fastEvent : Option Int
  slowEvent : Option Int

/-- What `process` returns. -/
structure LayeredReport where
  state : LinkState
  fastEvent : Option Int
  slowEvent : Option Int
  via : Option Layer

variable {K : Type} [Field K] [LinearOrder K]

lemma defaultLongWindow_pos : 0 < 400 := by decide

/-- The default parameters. -/
def LayeredConfig.default : LayeredConfig K where
  window := 50
  alpha := 1 / 20
  zThr := 4
  confirm := 3
  longWindow := 400
  ratchetThr := 1 / 40
  longWindow_pos := defaultLongWindow_pos

namespace LayeredTracker

/-- A new tracker. -/
def new : LayeredTracker K where
  history := []
  baseline := 1
  var := 1 / 10000
  state := .healthy
  shock := 0
  baselineHist := []
  fastEvent := none
  slowEvent := none

/-- `_via`. -/
def via (tr : LayeredTracker K) : Option Layer :=
  match tr.fastEvent, tr.slowEvent with
  | some f, some s => some (if f ≤ s then .fast else .slow)
  | some _, none => some .fast
  | none, some _ => some .slow
  | none, none => none

def report (tr : LayeredTracker K) (via : Option Layer) : LayeredReport where
  state := tr.state
  fastEvent := tr.fastEvent
  slowEvent := tr.slowEvent
  via := via

variable (cfg : LayeredConfig K) (sqrt : K → K) (tr : LayeredTracker K)

/-- A frame that fills the history. -/
def warmUp (phi : K) : LayeredTracker K :=
  let history := pushHistory cfg.window tr.history phi
  { tr with
    history := history
    baseline := mean history
    var := if 1 < history.length then variance history else tr.var
    baselineHist := pushHistory cfg.longWindow tr.baselineHist (mean history) }

def zScore (phi : K) : K :=
  let std := sqrt tr.var
  if 0 < std then (phi - tr.baseline) / std else 0

/-- The fast layer on a shock, up to its confirmation. -/
def shocked (t : Int) : LayeredTracker K :=
  let tr := { tr with shock := tr.shock + 1 }
  if tr.shock = 1 then { tr with state := .alarm, fastEvent := tr.fastEvent.or (some t) } else tr

/-- The fast layer on a frame that is no shock. -/
def calmed (phi : K) : LayeredTracker K :=
  let history := pushHistory cfg.window tr.history phi
  { tr with
    shock := 0
    state := if tr.state = .alarm then .healthy else tr.state
    baseline := smooth cfg.alpha phi tr.baseline
    history := history
    var := variance history }

/-- `baseline_hist[0] - baseline_hist[-1]`. -/
def netDrop : K :=
  tr.baselineHist.headD 0 - tr.baselineHist.getLastD 0

/-- The baseline is put into the history of the slow layer. -/
def recorded : LayeredTracker K :=
  { tr with baselineHist := pushHistory cfg.longWindow tr.baselineHist tr.baseline }

/-- The slow layer has seen the baseline fall too far. -/
def Ratchets : Prop :=
  tr.baselineHist.length = cfg.longWindow ∧ cfg.ratchetThr < tr.netDrop

instance : Decidable (tr.Ratchets cfg) :=
  inferInstanceAs (Decidable (_ ∧ _))

def slowLayer (t : Int) : LayeredTracker K :=
  let tr := tr.recorded cfg
  if tr.Ratchets cfg then { tr with slowEvent := tr.slowEvent.or (some t), state := .compromised } else tr

/-- `process`. -/
def process (phi : K) (t : Int) : LayeredReport × LayeredTracker K :=
  if tr.history.length < cfg.window then
    let tr := tr.warmUp cfg phi
    (tr.report none, tr)
  else if tr.state = .compromised then (tr.report tr.via, tr)
  else if tr.zScore sqrt phi < -cfg.zThr then
    let tr := tr.shocked t
    if tr.shock ≥ cfg.confirm then
      let tr := { tr with state := .compromised }
      (tr.report tr.via, tr)
    else
      let tr := tr.slowLayer cfg t
      (tr.report tr.via, tr)
  else
    let tr := (tr.calmed cfg phi).slowLayer cfg t
    (tr.report tr.via, tr)

/-- The tracker after the first frames of a stream. -/
def after (phi : Nat → K) : Nat → LayeredTracker K
  | 0 => new
  | n + 1 => ((after phi n).process cfg sqrt (phi n) n).2

end LayeredTracker

/-! ## Histories -/

/-- The last `maxlen` of the first `n` values of a sequence. -/
def recent {F : Type} (maxlen : Nat) (v : Nat → F) (n : Nat) : List F :=
  (List.range' (n - maxlen) (min n maxlen)).map v

section Recent

variable {F : Type} {maxlen : Nat} {v : Nat → F} {n : Nat}

lemma length_recent : (recent maxlen v n).length = min n maxlen := by
  rw [recent, List.length_map, List.length_range']

lemma pushHistory_recent : pushHistory maxlen (recent maxlen v n) (v n) = recent maxlen v (n + 1) := by
  have concat : recent maxlen v n ++ [v n] = (List.range' (n - maxlen) (min n maxlen + 1)).map v := by
    have last : n - maxlen + min n maxlen = n := by omega
    rw [List.range'_1_concat, List.map_append, last]
    rfl
  rw [pushHistory, length_recent, concat, recent, ← List.map_drop]
  congr 1
  by_cases full : maxlen ≤ n
  · rw [Nat.min_eq_right full, Nat.min_eq_right (by omega), Nat.add_sub_cancel_left, List.drop_range']
    congr 1
    omega
  · rw [Nat.min_eq_left (by omega), Nat.min_eq_left (by omega), Nat.sub_eq_zero_of_le (by omega), List.drop_zero]
    congr 1
    omega

lemma recent_of_le (le : maxlen ≤ n) : recent maxlen v n = (List.range maxlen).map fun i => v (n - maxlen + i) := by
  rw [recent, Nat.min_eq_right le, List.range'_eq_map_range, List.map_map]
  rfl

lemma headD_recent {d : F} (pos : 0 < maxlen) (le : maxlen ≤ n) : (recent maxlen v n).headD d = v (n - maxlen) := by
  obtain ⟨k, rfl⟩ := Nat.exists_eq_succ_of_ne_zero pos.ne'
  rw [recent_of_le le, List.range_succ_eq_map]
  rfl

lemma getLastD_recent {d : F} (pos : 0 < maxlen) (le : maxlen ≤ n) : (recent maxlen v n).getLastD d = v (n - 1) := by
  obtain ⟨k, rfl⟩ := Nat.exists_eq_succ_of_ne_zero pos.ne'
  rw [recent_of_le le, List.range_succ, List.map_append]
  rw [List.map_singleton, List.getLastD_concat]
  congr 1
  omega

end Recent

/-! ## Frames -/

namespace LayeredTracker

variable {cfg : LayeredConfig K} {sqrt : K → K} {tr : LayeredTracker K} {phi : K} {t : Int}

lemma process_warmUp (filling : tr.history.length < cfg.window) :
    (tr.process cfg sqrt phi t).2 = tr.warmUp cfg phi := by
  rw [process, if_pos filling]

lemma process_latched (full : cfg.window ≤ tr.history.length) (latched : tr.state = .compromised) :
    (tr.process cfg sqrt phi t).2 = tr := by
  rw [process, if_neg (Nat.not_lt.mpr full), if_pos latched]

omit [Field K] [LinearOrder K] in
/-- A shock leaves the numbers as they are. -/
lemma shocked_eq :
    ∃ state event, tr.shocked t = { tr with shock := tr.shock + 1, state := state, fastEvent := event } := by
  unfold shocked
  dsimp only
  split
  case isTrue => exact ⟨_, _, rfl⟩
  case isFalse => exact ⟨_, _, rfl⟩

lemma slowLayer_silent (silent : ¬ (tr.recorded cfg).Ratchets cfg) : tr.slowLayer cfg t = tr.recorded cfg :=
  if_neg silent

/-- The slow layer passes what it does not latch. -/
lemma slowLayer_open (unlatched : (tr.slowLayer cfg t).state ≠ .compromised) :
    ¬ (tr.recorded cfg).Ratchets cfg ∧ tr.slowLayer cfg t = tr.recorded cfg := by
  by_cases ratchets : (tr.recorded cfg).Ratchets cfg
  case pos =>
    rw [slowLayer, if_pos ratchets] at unlatched
    exact absurd rfl unlatched
  case neg => exact ⟨ratchets, slowLayer_silent ratchets⟩

lemma process_calm (full : cfg.window ≤ tr.history.length) (unlatched : tr.state ≠ .compromised)
    (calm : ¬ tr.zScore sqrt phi < -cfg.zThr) :
    (tr.process cfg sqrt phi t).2 = (tr.calmed cfg phi).slowLayer cfg t := by
  rw [process, if_neg (Nat.not_lt.mpr full), if_neg unlatched, if_neg calm]

/-- The slow layer changes neither the frames nor the baseline. -/
lemma slowLayer_keeps :
    (tr.slowLayer cfg t).history = tr.history ∧ (tr.slowLayer cfg t).baseline = tr.baseline := by
  unfold slowLayer
  dsimp only
  split
  case isTrue => exact ⟨rfl, rfl⟩
  case isFalse => exact ⟨rfl, rfl⟩

/-- A full history stays full. -/
lemma length_history_process (full : tr.history.length = cfg.window) :
    (tr.process cfg sqrt phi t).2.history.length = cfg.window := by
  have pushed : (pushHistory cfg.window tr.history phi).length = cfg.window := by
    rw [length_pushHistory full.le]
    omega
  obtain ⟨state, event, shocked⟩ : ∃ state event, tr.shocked t = _ := shocked_eq
  unfold process
  rw [if_neg (by omega), shocked]
  split
  case isTrue => exact full
  case isFalse =>
    split
    case isTrue =>
      dsimp only
      split
      case isTrue => exact full
      case isFalse =>
        dsimp only
        rw [slowLayer_keeps.1]
        exact full
    case isFalse =>
      dsimp only
      rw [slowLayer_keeps.1]
      exact pushed

/-- What a frame does that comes through both layers. -/
structure Passed (cfg : LayeredConfig K) (tr : LayeredTracker K) (phi : K) (tr' : LayeredTracker K) : Prop where
  baselineHist : tr'.baselineHist = pushHistory cfg.longWindow tr.baselineHist tr'.baseline
  silent : ¬ tr'.Ratchets cfg
  baseline : (tr.shock + 1 < cfg.confirm ∧ tr'.shock = tr.shock + 1 ∧ tr'.baseline = tr.baseline) ∨
    (tr'.shock = 0 ∧ tr'.baseline = smooth cfg.alpha phi tr.baseline)

lemma passed (full : cfg.window ≤ tr.history.length)
    (unlatched : (tr.process cfg sqrt phi t).2.state ≠ .compromised) :
    tr.Passed cfg phi (tr.process cfg sqrt phi t).2 := by
  unfold process at unlatched ⊢
  rw [if_neg (Nat.not_lt.mpr full)] at unlatched ⊢
  split at unlatched
  case isTrue latched => exact absurd latched unlatched
  case isFalse open_ =>
    rw [if_neg open_]
    split at unlatched
    case isTrue shock =>
      rw [if_pos shock]
      dsimp only at unlatched ⊢
      split at unlatched
      case isTrue => exact absurd rfl unlatched
      case isFalse few =>
        rw [if_neg few]
        obtain ⟨silent, eq⟩ := slowLayer_open unlatched
        rw [eq]
        obtain ⟨state, event, shocked⟩ : ∃ state event, tr.shocked t = _ := shocked_eq
        rw [shocked] at few silent ⊢
        exact ⟨rfl, silent, .inl ⟨Nat.not_le.mp few, rfl, rfl⟩⟩
    case isFalse calm =>
      rw [if_neg calm]
      obtain ⟨silent, eq⟩ := slowLayer_open unlatched
      dsimp only
      rw [eq]
      exact ⟨rfl, silent, .inr ⟨rfl, rfl⟩⟩

end LayeredTracker

/-! ## Runs -/

namespace LayeredTracker

section Runs

variable (cfg : LayeredConfig K) (sqrt : K → K) (phi : Nat → K) {n N : Nat}

lemma after_succ (n : Nat) :
    after cfg sqrt phi (n + 1) = ((after cfg sqrt phi n).process cfg sqrt (phi n) n).2 := rfl

/-- The first frames fill the history. -/
lemma after_warmUp (le : n ≤ cfg.window) :
    (after cfg sqrt phi n).history = recent cfg.window phi n ∧ (after cfg sqrt phi n).state = .healthy ∧
      (after cfg sqrt phi n).shock = 0 := by
  induction n with
  | zero => exact ⟨rfl, rfl, rfl⟩
  | succ n ih =>
    obtain ⟨history, state, shock⟩ := ih (by omega)
    have filling : (after cfg sqrt phi n).history.length < cfg.window := by
      rw [history, length_recent]
      omega
    rw [after_succ, process_warmUp filling]
    refine ⟨?_, state, shock⟩
    rw [warmUp, history]
    exact pushHistory_recent

/-- A frame of the warm-up. -/
lemma after_filling (lt : n < cfg.window) :
    after cfg sqrt phi (n + 1) = (after cfg sqrt phi n).warmUp cfg (phi n) := by
  rw [after_succ, process_warmUp]
  rw [(after_warmUp cfg sqrt phi lt.le).1, length_recent]
  omega

lemma baseline_warmUp (lt : n < cfg.window) :
    (after cfg sqrt phi (n + 1)).baseline = mean (recent cfg.window phi (n + 1)) := by
  rw [after_filling cfg sqrt phi lt, warmUp, (after_warmUp cfg sqrt phi lt.le).1, pushHistory_recent]

lemma var_warmUp (some : 0 < n) (lt : n < cfg.window) :
    (after cfg sqrt phi (n + 1)).var = variance (recent cfg.window phi (n + 1)) := by
  rw [after_filling cfg sqrt phi lt, warmUp, (after_warmUp cfg sqrt phi lt.le).1, pushHistory_recent]
  refine if_pos ?_
  rw [length_recent]
  omega

/-- The history stays full. -/
lemma length_history (ge : cfg.window ≤ n) : (after cfg sqrt phi n).history.length = cfg.window := by
  induction n, ge using Nat.le_induction with
  | base => rw [(after_warmUp cfg sqrt phi le_rfl).1, length_recent, Nat.min_self]
  | succ n ge ih => exact length_history_process ih

/-- COMPROMISED is latched. -/
lemma unlatched_of_le (unlatched : (after cfg sqrt phi N).state ≠ .compromised) (le : n ≤ N) :
    (after cfg sqrt phi n).state ≠ .compromised := by
  induction N, le using Nat.le_induction with
  | base => exact unlatched
  | succ N le ih =>
    refine ih fun latched => unlatched ?_
    by_cases filling : N ≤ cfg.window
    · rw [(after_warmUp cfg sqrt phi filling).2.1] at latched
      cases latched
    · rw [after_succ, process_latched (length_history cfg sqrt phi (by omega)).ge latched]
      exact latched

section Unlatched

variable (unlatched : (after cfg sqrt phi N).state ≠ .compromised)
include unlatched

lemma passed_after (ge : cfg.window ≤ n) (lt : n < N) :
    (after cfg sqrt phi n).Passed cfg (phi n) (after cfg sqrt phi (n + 1)) :=
  passed (length_history cfg sqrt phi ge).ge (unlatched_of_le cfg sqrt phi unlatched lt)

/-- Until it is latched, the slow layer has the last baselines. -/
lemma baselineHist_after (le : n ≤ N) :
    (after cfg sqrt phi n).baselineHist =
      recent cfg.longWindow (fun t => (after cfg sqrt phi (t + 1)).baseline) n := by
  induction n with
  | zero =>
    rw [recent, Nat.zero_min]
    rfl
  | succ n ih =>
    have before := ih (by omega)
    rw [← pushHistory_recent, ← before]
    by_cases filling : n < cfg.window
    · rw [after_filling cfg sqrt phi filling]
      rfl
    · exact (passed_after cfg sqrt phi unlatched (by omega) le).baselineHist

/-- The baseline falls by `ratchetThr` at most over the history of the slow layer. -/
lemma ratchet_silent (pos : 0 < n) (warm : cfg.window + 1 ≤ n + (cfg.longWindow - 1))
    (le : n + (cfg.longWindow - 1) ≤ N) :
    (after cfg sqrt phi n).baseline - (after cfg sqrt phi (n + (cfg.longWindow - 1))).baseline ≤ cfg.ratchetThr := by
  obtain ⟨k, eq⟩ : ∃ k, n + (cfg.longWindow - 1) = k + 1 := ⟨n + (cfg.longWindow - 1) - 1, by omega⟩
  rw [eq] at warm le ⊢
  have longWindow_pos := cfg.longWindow_pos
  have silent := (passed_after cfg sqrt phi unlatched (by omega) le).silent
  have hist := baselineHist_after cfg sqrt phi unlatched le
  have full : (after cfg sqrt phi (k + 1)).baselineHist.length = cfg.longWindow := by
    rw [hist, length_recent]
    omega
  have drop := not_lt.mp fun ratchets => silent ⟨full, ratchets⟩
  rw [netDrop, hist, headD_recent longWindow_pos (by omega), getLastD_recent longWindow_pos (by omega)] at drop
  have first : k + 1 - cfg.longWindow + 1 = n := by omega
  rwa [first] at drop

/-- The baseline follows the stream after the warm-up. -/
lemma follows (confirm_pos : 0 < cfg.confirm) :
    Follows cfg.alpha cfg.confirm phi (fun n => (after cfg sqrt phi n).baseline)
      (fun n => (after cfg sqrt phi n).shock) cfg.window N where
  held_first := by rwa [(after_warmUp cfg sqrt phi le_rfl).2.2]
  step _ ge lt := (passed_after cfg sqrt phi unlatched ge lt).baseline

end Unlatched

end Runs

end LayeredTracker

end Otap.Chronos
