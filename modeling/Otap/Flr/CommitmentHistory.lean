import Otap.Flr.Commitment
import Otap.Flr.Lifecycle

/-!
# The history of commitments

Commitments over the life of an operator: `CommitMerkleTree` calls, restarts of the process, and changes of the
leases in between. `blockHeight` lives in memory only and `NewEngine` starts it at zero, so the first commitment
after a restart is stored at height 1 again, over the one that is there, and becomes the latest one.

`commitment_history`: as long as no commitment is made while the counter is behind the stored heights, heights
increase, a stored commitment stays, and the latest one is the highest.
-/

namespace Otap.Flr

open Otap.Lib

variable {P : Platform}

/-- A running process, and the commitments stored so far, the first one first. -/
structure CommitLog (P : Platform) where
  engine : Engine P
  stored : List MerkleCommitment

/-- What happens: a call with its surroundings, a restart with a signing key, or lease operations, of which
    only the leases they leave in the store matter here. -/
inductive CommitEvent (P : Platform) where
  | commit (env : Env)
  | restart (key : P.ecdsa.PrivateKey)
  | leases (leases : KV Lease)

namespace CommitLog

/-- A new process of the operator over a store. -/
def boot (P : Platform) (key : P.ecdsa.PrivateKey) (operatorID : Bytes) (store : Store) : Engine P :=
  newEngine store { operatorID, privateKey := key, signed := [], tokens := [] } operatorID

/-- The first process, over an empty store. -/
def start (P : Platform) (key : P.ecdsa.PrivateKey) (operatorID : Bytes) : CommitLog P where
  engine := boot P key operatorID .empty
  stored := []

def step (l : CommitLog P) : CommitEvent P → CommitLog P
  | .commit env =>
    let (result, engine) := l.engine.commitMerkleTree env
    { engine, stored := l.stored ++ result.toOption.toList }
  | .restart key => { l with engine := boot P key l.engine.operatorID l.engine.store }
  | .leases leases =>
    { l with engine := { l.engine with store := { l.engine.store with leases } } }

/-- A commitment is made only while the counter has not fallen behind a stored height, and can still move on. -/
def Ahead (l : CommitLog P) : CommitEvent P → Prop
  | .commit _ =>
    (∀ c ∈ l.stored, c.blockHeight ≤ l.engine.blockHeight) ∧ l.engine.blockHeight ≠ Int64.maxValue
  | _ => True

instance (l : CommitLog P) : ∀ event, Decidable (l.Ahead event)
  | .commit _ => inferInstanceAs (Decidable ((∀ c ∈ l.stored, _) ∧ _))
  | .restart _ => .isTrue trivial
  | .leases _ => .isTrue trivial

/-- Heights increase, every stored commitment is found at its height, and the latest one is the highest. -/
structure Sound (l : CommitLog P) : Prop where
  increasing : l.stored.Pairwise fun c c' => c.blockHeight < c'.blockHeight
  kept : ∀ c ∈ l.stored, l.engine.getCommitment l.engine.operatorID c.blockHeight = .ok c
  latest : ∀ c, l.engine.getLatestCommitment = .ok c ↔
    c ∈ l.stored ∧ ∀ c' ∈ l.stored, c'.blockHeight ≤ c.blockHeight

/-- The store holds the history: every commitment at its height, and the last one as the latest. -/
structure Inv (l : CommitLog P) : Prop where
  signer : l.engine.crypto.operatorID = l.engine.operatorID
  increasing : l.stored.Pairwise fun c c' => c.blockHeight < c'.blockHeight
  kept : ∀ c ∈ l.stored,
    l.engine.store.commitments.get (heightKey l.engine.operatorID c.blockHeight) = some c
  latest : l.engine.store.commitments.get (latestKey l.engine.operatorID) = l.stored.getLast?
  named : ∀ c ∈ l.stored, l.engine.operatorID ≠ []

lemma Inv.start (key : P.ecdsa.PrivateKey) (operatorID : Bytes) : (start P key operatorID).Inv where
  signer := rfl
  increasing := .nil
  kept _ mem := nomatch mem
  latest := rfl
  named _ mem := nomatch mem

lemma lt_add_one_of_ne_max {h : Int64} (ne : h ≠ Int64.maxValue) : h < h + 1 := by
  have lower := h.le_toInt
  have upper := h.toInt_lt
  have max : h.toInt ≠ 9223372036854775807 := fun e => ne (Int64.toInt_inj.mp e)
  rw [Int64.lt_iff_toInt_lt, Int64.toInt_add, show (1 : Int64).toInt = 1 from rfl,
    Int.bmod_eq_of_le (by omega) (by omega)]
  omega

/-- A commitment that is stored above all others. -/
lemma Inv.append {l : CommitLog P} (inv : l.Inv) {e : Engine P} {c : MerkleCommitment}
    (operator : e.operatorID = l.engine.operatorID) (signer : e.crypto.operatorID = e.operatorID)
    (own : c.operatorID = e.operatorID) (saved : l.engine.store.saveCommitment false c = .ok e.store)
    (above : ∀ c' ∈ l.stored, c'.blockHeight < c.blockHeight) :
    Inv { engine := e, stored := l.stored ++ [c] } := by
  obtain ⟨ne, store⟩ := Store.saveCommitment_eq saved
  rw [own] at ne store
  refine ⟨signer, ?_, ?_, ?_, fun _ _ => ne⟩
  case refine_1 =>
    refine List.pairwise_append.mpr ⟨inv.increasing, List.pairwise_singleton _ _, ?_⟩
    intro c' mem c'' mem'
    rw [List.mem_singleton.mp mem']
    exact above c' mem
  case refine_2 =>
    intro c' mem
    rw [store, KV.get_set_ne _ _ (heightKey_ne_latestKey _ _), KV.get_set]
    cases List.mem_append.mp mem with
    | inl old =>
      -- the new height is above, so its key is another one
      have other : heightKey e.operatorID c'.blockHeight ≠ heightKey e.operatorID c.blockHeight := by
        intro eq
        have lt := above c' old
        rw [heightKey_inj eq] at lt
        exact Int64.lt_irrefl lt
      rw [if_neg other, operator]
      exact inv.kept c' old
    | inr new => rw [List.mem_singleton.mp new, if_pos rfl]
  case refine_3 =>
    simp only [store, KV.get_set_self, List.getLast?_append, List.getLast?_singleton, Option.some_or]

lemma Inv.commit {l : CommitLog P} (inv : l.Inv) {env : Env} (ahead : l.Ahead (.commit env)) :
    (l.step (.commit env)).Inv := by
  rw [CommitLog.step]
  have other := l.engine.commitMerkleTree_other env
  cases h : l.engine.commitMerkleTree env with
  | mk result e =>
    rw [h] at other
    have signer : e.crypto.operatorID = e.operatorID := by
      rw [other.2.1, ← inv.signer]
      obtain same | ⟨m, _, same⟩ := other.2.2
      · rw [same]
      · rw [same]
    cases result with
    | error err =>
      obtain ⟨store, operator⟩ := Engine.commitMerkleTree_error h
      simp only [Except.toOption, Option.toList_none, List.append_nil]
      refine ⟨signer, inv.increasing, ?_, ?_, ?_⟩
      · rw [store, operator]
        exact inv.kept
      · rw [store, operator]
        exact inv.latest
      · rw [operator]
        exact inv.named
    | ok c =>
      obtain ⟨_, own, _, operator, height, saved, _⟩ := Engine.commitMerkleTree_ok h
      simp only [Except.toOption, Option.toList_some]
      refine inv.append operator signer (own.trans (inv.signer.trans operator.symm)) saved ?_
      intro c' mem
      rw [height]
      exact Int64.lt_of_le_of_lt (ahead.1 c' mem) (lt_add_one_of_ne_max ahead.2)

lemma Inv.step {l : CommitLog P} (inv : l.Inv) {event : CommitEvent P} (ahead : l.Ahead event) :
    (l.step event).Inv := by
  cases event with
  | commit env => exact inv.commit ahead
  | restart key =>
    exact { signer := rfl, increasing := inv.increasing, kept := inv.kept, latest := inv.latest,
            named := inv.named }
  | leases leases =>
    exact { signer := inv.signer, increasing := inv.increasing, kept := inv.kept,
            latest := inv.latest, named := inv.named }

/-- The last of a list of increasing heights is the highest. -/
lemma getLast?_eq_some_iff_highest {stored : List MerkleCommitment} {c : MerkleCommitment}
    (increasing : stored.Pairwise fun c c' => c.blockHeight < c'.blockHeight) :
    stored.getLast? = some c ↔ c ∈ stored ∧ ∀ c' ∈ stored, c'.blockHeight ≤ c.blockHeight := by
  cases stored using List.reverseRecOn with
  | nil => exact iff_of_false (fun e => nomatch e) fun h => nomatch h.1
  | append_singleton older last =>
    obtain ⟨-, -, below⟩ := List.pairwise_append.mp increasing
    have below (c' : MerkleCommitment) (mem : c' ∈ older) : c'.blockHeight < last.blockHeight :=
      below c' mem last (List.mem_singleton_self last)
    rw [List.getLast?_concat]
    refine ⟨fun e => ?_, fun ⟨mem, highest⟩ => ?_⟩
    · obtain rfl : last = c := Option.some.inj e
      refine ⟨List.mem_append_right _ (List.mem_singleton_self last), fun c' mem => ?_⟩
      cases List.mem_append.mp mem with
      | inl old => exact Int64.le_of_lt (below c' old)
      | inr new => rw [List.mem_singleton.mp new]; exact Int64.le_refl _
    · cases List.mem_append.mp mem with
      | inl old =>
        have le := highest last (List.mem_append_right _ (List.mem_singleton_self last))
        exact (Int64.lt_irrefl (Int64.lt_of_le_of_lt le (below c old))).elim
      | inr new => rw [List.mem_singleton.mp new]

lemma Inv.sound {l : CommitLog P} (inv : l.Inv) : l.Sound where
  increasing := inv.increasing
  kept c mem := by
    rw [Engine.getCommitment, Store.getCommitment, if_neg (inv.named c mem), inv.kept c mem]
  latest c := by
    rw [Engine.getLatestCommitment, Store.getLatestCommitment]
    split
    case isTrue none =>
      refine iff_of_false ?_ fun h => inv.named c h.1 none
      rintro ⟨⟩
    case isFalse =>
      rw [← getLast?_eq_some_iff_highest inv.increasing, inv.latest]
      cases l.stored.getLast? with
      | none =>
        refine iff_of_false ?_ ?_
        · rintro ⟨⟩
        · rintro ⟨⟩
      | some last => exact ⟨fun e => congrArg some (Except.ok.inj e), fun e => by cases e; rfl⟩

end CommitLog

/-- The history of commitments: in every run over an empty store in which no commitment is made while the
    counter is behind, heights increase, no stored commitment is replaced, and the latest is the highest. -/
theorem commitment_history {key : P.ecdsa.PrivateKey} {operatorID : Bytes}
    {events : List (CommitEvent P)}
    (run : Along CommitLog.Ahead CommitLog.step (CommitLog.start P key operatorID) events) :
    (events.foldl CommitLog.step (CommitLog.start P key operatorID)).Sound := by
  have inv : (events.foldl CommitLog.step (CommitLog.start P key operatorID)).Inv :=
    Along.inv (.start key operatorID) (fun _ _ inv ahead => inv.step ahead) run
  exact inv.sound

/-- Two commitments, of which the second fails to be saved, and a third one. -/
def threeCommitments : List (CommitEvent .plain) :=
  [ .commit (plainEnv 1 []),
    .commit { plainEnv 2 [] with fails := fun n => n == 1 },
    .commit (plainEnv 3 []) ]

theorem commitment_history_threeCommitments :
    (threeCommitments.foldl CommitLog.step (CommitLog.start .plain () (ascii "op"))).Sound :=
  commitment_history (by decide +kernel)

/-- A commitment, a restart, and another commitment. -/
def restartBetween : List (CommitEvent .plain) :=
  [.commit (plainEnv 1 []), .restart (), .commit (plainEnv 2 [])]

/-- After a restart a commitment is stored at height 1 over another one. -/
theorem not_commitment_history :
    ¬ ∀ (P : Platform) (key : P.ecdsa.PrivateKey) (operatorID : Bytes) (events : List (CommitEvent P)),
      (events.foldl CommitLog.step (CommitLog.start P key operatorID)).Sound := by
  intro sound
  have increasing := (sound .plain () (ascii "op") restartBetween).increasing
  have heights : (restartBetween.foldl CommitLog.step (CommitLog.start .plain () (ascii "op"))).stored.map
      MerkleCommitment.blockHeight = [1, 1] := by decide +kernel
  have increasing := List.pairwise_map.mpr increasing
  rw [heights] at increasing
  revert increasing
  decide

end Otap.Flr
