import Otap.D3.ReplayCache

/-!
# Disk errors of the replay cache

What a `check_and_insert` that returns a disk error leaves behind. The memory ring has the transcript already, while
`current_idx` is where it was. So the transcript is reported as a replay when it is tried again (`WellFormed.retry`),
whatever the operation that failed and however full the ring is, and `forgetsFailure_iff`: a failure is forgotten only
where there is none.

While the ring fills up the positions go wrong, too: the next transcript is one slot further in memory than on disk
(`not_aligned_filling`).
-/

namespace Otap.D3
open Otap.Lib

/-- A call of `check_and_insert`, with the disk operation that fails in it. -/
structure CacheCall where
  transcript : Transcript
  fault : Option DiskFault

/-- The errors of the disk. -/
def diskErrors : List String :=
  ["Disk seek error", "Disk write error", "Disk sync error"]

/-- Slot `i` of the file. -/
def File.slot (f : File) (i : Nat) : List UInt8 :=
  (f.data.drop (i * hashSize)).take hashSize

namespace PersistentReplayCache

/-- What holds of every cache that `open` returns and calls reach. -/
structure WellFormed (cache : PersistentReplayCache) : Prop where
  capacity_pos : 1 ≤ cache.capacity
  idx_lt : cache.currentIdx < cache.capacity
  length_le : cache.inMemoryCache.length ≤ cache.capacity

/-- The answer to a call, -/
def answer (cache : PersistentReplayCache) (call : CacheCall) : Except String Unit :=
  (cache.checkAndInsert call.fault call.transcript).1

/-- and the cache after it. -/
def call (cache : PersistentReplayCache) (call : CacheCall) : PersistentReplayCache :=
  (cache.checkAndInsert call.fault call.transcript).2

/-- The answers to a run of calls. -/
def answers (cache : PersistentReplayCache) : List CacheCall → List (Except String Unit)
  | [] => []
  | c :: calls => cache.answer c :: (cache.call c).answers calls

/-- The file has the transcripts of the memory ring, at the same positions. -/
def Aligned (cache : PersistentReplayCache) : Prop :=
  ∀ i t, cache.inMemoryCache[i]? = some t → cache.file.slot i = t.toList

/-- The transcripts are inserted one after the other, without an error. -/
inductive Inserts : PersistentReplayCache → List Transcript → PersistentReplayCache → Prop where
  | nil (cache) : Inserts cache [] cache
  | cons {cache cache' t ts} : cache.answer ⟨t, none⟩ = .ok () → Inserts (cache.call ⟨t, none⟩) ts cache' →
      Inserts cache (t :: ts) cache'

/-- A failed call is not remembered: later answers are those of a cache on which it was not made, the transcript is no
    replay, and after further inserts ring and file agree if they agreed before. -/
structure Forgets (cache : PersistentReplayCache) (c : CacheCall) : Prop where
  answers : ∀ calls, (cache.call c).answers calls = cache.answers calls
  retry : ∀ fault, (cache.call c).answer ⟨c.transcript, fault⟩ ≠ .error "ReplayDetected"
  aligned : cache.Aligned → ∀ t ts cache', Inserts (cache.call c) (t :: ts) cache' → cache'.Aligned

/-- Calls that return a disk error are not remembered. -/
def ForgetsFailure (cache : PersistentReplayCache) (c : CacheCall) : Prop :=
  (∃ err ∈ diskErrors, cache.answer c = .error err) → cache.Forgets c

/-! ## One call -/

/-- The memory ring with one more transcript. -/
def remembered (cache : PersistentReplayCache) (t : Transcript) : List Transcript :=
  if cache.inMemoryCache.length < cache.capacity then cache.inMemoryCache ++ [t]
  else cache.inMemoryCache.set cache.currentIdx t

/-- The file with a write at the current slot. -/
def written (cache : PersistentReplayCache) (bytes : List UInt8) : File :=
  (cache.file.seek (cache.currentIdx * hashSize)).writeAll bytes

variable {cache : PersistentReplayCache} {t : Transcript}

lemma checkAndInsert_replay (mem : t ∈ cache.inMemoryCache) (fault : Option DiskFault) :
    cache.checkAndInsert fault t = (.error "ReplayDetected", cache) :=
  if_pos mem

lemma checkAndInsert_ok (new : t ∉ cache.inMemoryCache) :
    cache.checkAndInsert none t =
      (.ok (), { cache with
        inMemoryCache := cache.remembered t
        file := cache.written t.toList
        currentIdx := (cache.currentIdx + 1) % cache.capacity }) :=
  if_neg new

/-- A disk operation that fails: the memory ring has the transcript, the file has some of it or all. -/
lemma checkAndInsert_fault (new : t ∉ cache.inMemoryCache) (fault : DiskFault) :
    ∃ err ∈ diskErrors, ∃ file, cache.checkAndInsert (some fault) t =
        (.error err, { cache with inMemoryCache := cache.remembered t, file := file }) ∧
      (file = cache.file ∨ ∃ bytes, bytes.length ≤ hashSize ∧ file = cache.written bytes) := by
  rw [checkAndInsert, if_neg new]
  cases fault with
  | seek => exact ⟨_, by decide, cache.file, rfl, .inl rfl⟩
  | write n =>
    refine ⟨_, by decide, _, rfl, .inr ⟨_, ?_, rfl⟩⟩
    rw [List.length_take, length_toList]
    exact Nat.min_le_right _ _
  | sync => exact ⟨_, by decide, _, rfl, .inr ⟨_, (length_toList t).le, rfl⟩⟩

/-- A call returns a disk error exactly if an operation fails and the scan does not return before. -/
lemma diskError_iff (c : CacheCall) :
    (∃ err ∈ diskErrors, cache.answer c = .error err) ↔ c.fault ≠ none ∧ c.transcript ∉ cache.inMemoryCache := by
  obtain ⟨t, fault⟩ := c
  constructor
  · rintro ⟨err, disk, answer⟩
    have new : t ∉ cache.inMemoryCache := by
      intro mem
      rw [PersistentReplayCache.answer, checkAndInsert_replay mem] at answer
      cases answer
      exact absurd disk (by decide)
    refine ⟨?_, new⟩
    rintro rfl
    rw [PersistentReplayCache.answer, checkAndInsert_ok new] at answer
    cases answer
  · rintro ⟨failed, new⟩
    obtain ⟨fault, rfl⟩ := Option.ne_none_iff_exists'.mp failed
    obtain ⟨err, disk, file, eq, -⟩ := checkAndInsert_fault new fault
    exact ⟨err, disk, congrArg Prod.fst eq⟩

lemma WellFormed.length_remembered (wf : cache.WellFormed) (t : Transcript) :
    (cache.remembered t).length ≤ cache.capacity := by
  rw [remembered]
  split
  case isTrue room =>
    rw [List.length_append, List.length_singleton]
    exact room
  case isFalse =>
    rw [List.length_set]
    exact wf.length_le

lemma WellFormed.mem_remembered (wf : cache.WellFormed) (t : Transcript) : t ∈ cache.remembered t := by
  rw [remembered]
  split
  case isTrue => exact List.mem_append_right _ (List.mem_singleton_self t)
  case isFalse full => exact List.mem_set (lt_of_lt_of_le wf.idx_lt (Nat.not_lt.mp full)) t

/-- What a call does besides its writes: nothing, or it adds the transcript to the ring, and moves on unless an
    operation fails. -/
lemma call_cases (cache : PersistentReplayCache) (c : CacheCall) :
    cache.call c = cache ∨ ∃ file, ∃ idx ∈ [cache.currentIdx, (cache.currentIdx + 1) % cache.capacity],
      cache.call c =
        { cache with inMemoryCache := cache.remembered c.transcript, file := file, currentIdx := idx } := by
  obtain ⟨t, fault⟩ := c
  rw [PersistentReplayCache.call]
  by_cases mem : t ∈ cache.inMemoryCache
  · rw [checkAndInsert_replay mem]
    exact .inl rfl
  · refine .inr ?_
    cases fault with
    | none =>
      rw [checkAndInsert_ok mem]
      exact ⟨_, _, List.mem_cons_of_mem _ List.mem_cons_self, rfl⟩
    | some fault =>
      obtain ⟨err, -, file, eq, -⟩ := checkAndInsert_fault mem fault
      rw [eq]
      exact ⟨file, _, List.mem_cons_self, rfl⟩

/-- Calls reach well-formed caches. -/
lemma WellFormed.call (wf : cache.WellFormed) (c : CacheCall) : (cache.call c).WellFormed := by
  rcases call_cases cache c with eq | ⟨file, idx, moved, eq⟩
  · rwa [eq]
  · rw [eq]
    refine ⟨wf.capacity_pos, ?_, wf.length_remembered c.transcript⟩
    rw [List.mem_pair] at moved
    rcases moved with rfl | rfl
    · exact wf.idx_lt
    · exact Nat.mod_lt _ wf.capacity_pos

end PersistentReplayCache

/-- The loop of `open` counts what it reads, and stops at the capacity. -/
lemma readLoop_length (capacity fuel : Nat) (file : File) (cache : List Transcript) (loaded : Nat)
    (length : cache.length = loaded) (lt : loaded < capacity) :
    (readLoop capacity fuel file cache loaded).2.1.length = (readLoop capacity fuel file cache loaded).2.2 ∧
      (readLoop capacity fuel file cache loaded).2.2 ≤ capacity := by
  induction fuel generalizing file cache loaded with
  | zero => exact ⟨length, lt.le⟩
  | succ fuel ih =>
    rw [readLoop]
    dsimp only
    split
    case isTrue full =>
      have length' (t : Transcript) : (cache ++ [t]).length = loaded + 1 := by
        rw [List.length_append, List.length_singleton, length]
      split
      case isTrue => exact ⟨length' _, lt⟩
      case isFalse more => exact ih _ _ _ (length' _) (Nat.not_le.mp more)
    case isFalse => exact ⟨length, lt.le⟩

lemma slot_writeAll_self (f : File) (i : Nat) {bytes : List UInt8} (length : bytes.length = hashSize) :
    ((f.seek (i * hashSize)).writeAll bytes).slot i = bytes := by
  have start : (f.data.take (i * hashSize) ++ List.replicate (i * hashSize - f.data.length) (0 : UInt8)).length =
      i * hashSize := by
    rw [List.length_append, List.length_take, List.length_replicate]
    omega
  rw [File.slot, File.writeAll, File.seek]
  dsimp only
  rw [List.append_assoc _ bytes, List.drop_left' start, List.take_left' length]

namespace PersistentReplayCache

lemma wellFormed_open (disk : Option (List UInt8)) {capacity : Nat} (pos : 1 ≤ capacity) :
    (PersistentReplayCache.open disk capacity).WellFormed := by
  obtain ⟨length, le⟩ := readLoop_length capacity ((disk.getD []).length + 1)
    ((File.mk (disk.getD []) 0).seek 0) [] 0 rfl pos
  refine ⟨pos, Nat.mod_lt _ pos, ?_⟩
  exact le_of_eq_of_le length le

/-! ## Positions -/

variable {cache : PersistentReplayCache} {t : Transcript}

lemma new_of_inserted (inserted : cache.answer ⟨t, none⟩ = .ok ()) : t ∉ cache.inMemoryCache := by
  intro mem
  rw [answer, checkAndInsert_replay mem] at inserted
  cases inserted

/-- While the ring fills up, the next transcript comes to stand behind the failed one in memory, and in its place on
    disk. -/
lemma not_aligned_filling {t' : Transcript} {fault : DiskFault} (idx : cache.currentIdx = cache.inMemoryCache.length)
    (room : cache.inMemoryCache.length + 1 < cache.capacity) (new : t ∉ cache.inMemoryCache)
    (inserted : (cache.call ⟨t, some fault⟩).answer ⟨t', none⟩ = .ok ()) :
    ¬ ((cache.call ⟨t, some fault⟩).call ⟨t', none⟩).Aligned := by
  obtain ⟨err, -, file, eq, -⟩ := checkAndInsert_fault new fault
  have ring : cache.remembered t = cache.inMemoryCache ++ [t] := if_pos (by omega)
  have called : cache.call ⟨t, some fault⟩ = { cache with inMemoryCache := cache.inMemoryCache ++ [t], file := file } :=
    (congrArg Prod.snd eq).trans (by rw [ring])
  rw [called] at inserted ⊢
  have new' : t' ∉ cache.inMemoryCache ++ [t] := new_of_inserted inserted
  intro aligned
  rw [call, checkAndInsert_ok new'] at aligned
  have failed := aligned cache.currentIdx t ?_
  · rw [written, slot_writeAll_self _ _ (length_toList t')] at failed
    exact new' (List.mem_append_right _ (List.mem_singleton.mpr (Vector.toList_inj.mp failed)))
  · dsimp only
    rw [remembered, if_pos (by simpa using room), idx, List.getElem?_append_left (by simp),
      List.getElem?_concat_length]

/-! ## Main result -/

/-- A failed call is remembered: its transcript is in the memory ring. -/
lemma WellFormed.retry (wf : cache.WellFormed) {c : CacheCall} (failed : c.fault ≠ none)
    (new : c.transcript ∉ cache.inMemoryCache) (fault : Option DiskFault) :
    (cache.call c).answer ⟨c.transcript, fault⟩ = .error "ReplayDetected" := by
  obtain ⟨t, f⟩ := c
  obtain ⟨f, rfl⟩ := Option.ne_none_iff_exists'.mp failed
  obtain ⟨err, -, file, eq, -⟩ := checkAndInsert_fault new f
  have mem : t ∈ (cache.call ⟨t, some f⟩).inMemoryCache := by
    rw [PersistentReplayCache.call, eq]
    exact wf.mem_remembered t
  rw [answer, checkAndInsert_replay mem]

/-- A call forgets its failure only if it has none: no operation fails, or the transcript is a replay. -/
theorem forgetsFailure_iff (wf : cache.WellFormed) (c : CacheCall) :
    cache.ForgetsFailure c ↔ c.fault = none ∨ c.transcript ∈ cache.inMemoryCache := by
  constructor
  · intro forgets
    by_contra fails
    obtain ⟨failed, new⟩ := not_or.mp fails
    have forgotten := forgets ((diskError_iff c).mpr ⟨failed, new⟩)
    exact forgotten.retry none (wf.retry failed new none)
  · intro fine error
    obtain ⟨failed, new⟩ := (diskError_iff c).mp error
    exact absurd fine (not_or.mpr ⟨failed, new⟩)

/-- In a cache of two that has inserted a transcript and failed to sync another: with the disk failing once more, the
    other counts as a replay. -/
theorem forgetsFailure_iff_retried :
    let cache := ((PersistentReplayCache.open none 2).call ⟨.replicate _ 1, none⟩).call ⟨.replicate _ 2, some .sync⟩
    let retry : CacheCall := ⟨.replicate _ 2, some (.write 3)⟩
    cache.WellFormed ∧ cache.answer retry = .error "ReplayDetected" ∧ cache.ForgetsFailure retry := by
  have opened : (PersistentReplayCache.open none 2).WellFormed := wellFormed_open none (by decide)
  have wf := (opened.call ⟨.replicate _ 1, none⟩).call ⟨.replicate _ 2, some .sync⟩
  exact ⟨wf, by decide, (forgetsFailure_iff wf _).mpr (.inr (by decide))⟩

/-- A sync fails in a new cache of three: the transcript counts as a replay when it is tried again, and after the next
    one memory and disk differ in slot 0. -/
theorem not_forgetsFailure :
    let cache := PersistentReplayCache.open none 3
    let c : CacheCall := ⟨.replicate _ 1, some .sync⟩
    cache.answers [c, ⟨.replicate _ 1, none⟩] = [.error "Disk sync error", .error "ReplayDetected"] ∧
      ((cache.call c).call ⟨.replicate _ 2, none⟩).inMemoryCache = [.replicate _ 1, .replicate _ 2] ∧
      ((cache.call c).call ⟨.replicate _ 2, none⟩).file.slot 0 = (Vector.replicate hashSize 2).toList ∧
      ¬ cache.ForgetsFailure c := by
  refine ⟨by decide, by decide, by decide, fun forgets => ?_⟩
  have forgotten := forgets ⟨"Disk sync error", by decide, by decide⟩
  exact forgotten.retry none (by decide)

end PersistentReplayCache

end Otap.D3
