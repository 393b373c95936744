import Otap.Lib.Ring
import Otap.Lib.Run

/-!
# Persistent replay cache

Embedding of `crates/luxstream-otap-d3/src/replay_cache.rs`: the on-disk ring of transcript hashes.
`PersistentReplayCache.open` and `PersistentReplayCache.checkAndInsert` follow the source statement by
statement over a byte-level file (`File`); a disk operation that fails is an input (`DiskFault`), so
that the error returns of `check_and_insert` are part of the model.

The specification is a FIFO of the last `capacity` accepted transcripts. A `Daemon` is a cache together
with the transcripts accepted so far; its calls are `check_and_insert` and a restart (drop the cache,
`open` the same file again). `Daemon.Correct` says that a call answers as the FIFO does.

`open` takes the zero padding that `set_len` left behind for stored transcripts and puts the write
position back to slot `0`. So the simulation (`Daemon.Inv`) needs every restart to find the write
position at slot `0`, and the all-zero transcript not to be checked while padding is in the ring
(`Daemon.Fits`); `replay_protection` is the refinement under that condition and
`not_replay_protection` a run in which a restart loses a transcript.
-/

namespace Otap.D3
open Otap.Lib

/-- `HASH_SIZE`. -/
def hashSize : Nat := 32

/-- A transcript hash, `[u8; HASH_SIZE]`. -/
abbrev Transcript := Vector UInt8 hashSize

/-- The bytes `set_len` extends a file with, read back as a transcript. -/
def zeroTranscript : Transcript := Vector.replicate hashSize 0

/-! ## Files -/

/-- An open file: its bytes and the cursor. -/
structure File where
  data : List UInt8
  pos : Nat

/-- `seek(SeekFrom::Start(offset))`. -/
def File.seek (f : File) (offset : Nat) : File :=
  { f with pos := offset }

/-- `read` into a buffer of `n` bytes: the bytes read and the file with the cursor moved. -/
def File.read (f : File) (n : Nat) : List UInt8 × File :=
  let buf := (f.data.drop f.pos).take n
  (buf, { f with pos := f.pos + buf.length })

/-- `set_len`: cut the file or extend it with zero bytes. -/
def File.setLen (f : File) (len : Nat) : File :=
  { f with data := f.data.take len ++ List.replicate (len - f.data.length) 0 }

/-- `write_all` at the cursor; a gap behind the end of the file is filled with zero bytes. -/
def File.writeAll (f : File) (buf : List UInt8) : File where
  data := f.data.take f.pos ++ List.replicate (f.pos - f.data.length) 0 ++ buf
    ++ f.data.drop (f.pos + buf.length)
  pos := f.pos + buf.length

/-- A disk operation of `check_and_insert` that fails; `write_all` may fail after some bytes. -/
inductive DiskFault where
  | seek
  | write (written : Nat)
  | sync
  deriving DecidableEq

/-! ## The cache -/

/-- `PersistentReplayCache`. -/
structure PersistentReplayCache where
  file : File
  capacity : Nat
  currentIdx : Nat
  inMemoryCache : List Transcript

/-- The `while let Ok(bytes_read) = file.read(&mut buf)` loop of `open`: the file, the transcripts
    read and their number. Each round reads `HASH_SIZE` bytes or ends the loop, so the size of the file
    is enough fuel. -/
def readLoop (capacity : Nat) : Nat → File → List Transcript → Nat → File × List Transcript × Nat
  | 0, file, cache, loaded => (file, cache, loaded)
  | fuel + 1, file, cache, loaded =>
    let (buf, file) := file.read hashSize
    if h : buf.length = hashSize then
      let cache := cache ++ [⟨buf.toArray, h⟩]
      let loaded := loaded + 1
      if loaded ≥ capacity then (file, cache, loaded) else readLoop capacity fuel file cache loaded
    else (file, cache, loaded)

/-- `PersistentReplayCache::open`; `disk` is the content of the path, `none` if no file is there. -/
def PersistentReplayCache.open (disk : Option (List UInt8)) (capacity : Nat) :
    PersistentReplayCache :=
  let file : File := { data := disk.getD [], pos := 0 }
  let (file, inMemoryCache, loaded) := readLoop capacity (file.data.length + 1) (file.seek 0) [] 0
  let currentIdx := loaded % capacity
  let expectedFileSize := capacity * hashSize
  let file := if file.data.length < expectedFileSize then file.setLen expectedFileSize else file
  { file, capacity, currentIdx, inMemoryCache }

/-- `PersistentReplayCache::check_and_insert`: the result and the cache after the call. The memory ring
    is updated before the disk is, and a disk error returns without moving `current_idx`. -/
def PersistentReplayCache.checkAndInsert (self : PersistentReplayCache) (fault : Option DiskFault)
    (transcript : Transcript) : Except String Unit × PersistentReplayCache :=
  if transcript ∈ self.inMemoryCache then
    (.error "ReplayDetected", self)
  else
    let inMemoryCache :=
      if self.inMemoryCache.length < self.capacity then self.inMemoryCache ++ [transcript]
      else self.inMemoryCache.set self.currentIdx transcript
    let offset := self.currentIdx * hashSize
    match fault with
    | some .seek => (.error "Disk seek error", { self with inMemoryCache })
    | some (.write n) =>
      let file := (self.file.seek offset).writeAll (transcript.toList.take n)
      (.error "Disk write error", { self with inMemoryCache, file })
    | some .sync =>
      let file := (self.file.seek offset).writeAll transcript.toList
      (.error "Disk sync error", { self with inMemoryCache, file })
    | none =>
      let file := (self.file.seek offset).writeAll transcript.toList
      let currentIdx := (self.currentIdx + 1) % self.capacity
      (.ok (), { self with inMemoryCache, file, currentIdx })

/-! ## Restarts and the FIFO specification -/

/-- A call on the cache: a check, or dropping the cache and opening the same file again. -/
inductive Call where
  | checkAndInsert (transcript : Transcript)
  | reopen

/-- A cache and the transcripts it has accepted, oldest first. -/
structure Daemon where
  cache : PersistentReplayCache
  accepted : List Transcript

/-- The daemon that opened a cache on a path where no file was. -/
def Daemon.start (capacity : Nat) : Daemon :=
  { cache := .open none capacity, accepted := [] }

/-- One call, with every disk operation succeeding. -/
def Daemon.step (d : Daemon) : Call → Daemon
  | .checkAndInsert transcript =>
    match d.cache.checkAndInsert none transcript with
    | (.ok (), cache) => { cache, accepted := d.accepted ++ [transcript] }
    | (.error _, cache) => { d with cache }
  | .reopen => { d with cache := .open (some d.cache.file.data) d.cache.capacity }

/-- The answer of the specification: a FIFO of the last `capacity` accepted transcripts. -/
def fifoAnswer (capacity : Nat) (accepted : List Transcript) (transcript : Transcript) :
    Except String Unit :=
  if transcript ∈ accepted.rtake capacity then .error "ReplayDetected" else .ok ()

/-- The call answers as the FIFO does. -/
def Daemon.Correct (d : Daemon) : Call → Prop
  | .checkAndInsert transcript =>
    (d.cache.checkAndInsert none transcript).1 = fifoAnswer d.cache.capacity d.accepted transcript
  | .reopen => True

/-- The calls for which the cache is what its file says: a restart finds the write position at slot
    `0`, and the all-zero transcript is not checked while zero padding is in the ring. -/
def Daemon.Fits (d : Daemon) : Call → Prop
  | .checkAndInsert transcript =>
    transcript = zeroTranscript → d.cache.inMemoryCache.length ≤ d.accepted.length
  | .reopen => d.cache.currentIdx = 0

instance (d : Daemon) : ∀ call, Decidable (d.Correct call)
  | .checkAndInsert _ => inferInstanceAs (Decidable (_ = _))
  | .reopen => .isTrue trivial

instance (d : Daemon) : ∀ call, Decidable (d.Fits call)
  | .checkAndInsert _ => inferInstanceAs (Decidable (_ → _))
  | .reopen => inferInstanceAs (Decidable (_ = _))

/-! ## Files of transcripts -/

/-- The file that stores the transcripts `l` one after the other. -/
def blocks (l : List Transcript) : List UInt8 :=
  l.flatMap Vector.toList

lemma length_toList (t : Transcript) : t.toList.length = hashSize := by simp

lemma length_blocks (l : List Transcript) : (blocks l).length = l.length * hashSize :=
  length_flatMap_records length_toList l

/-- The zero bytes of `set_len` are all-zero transcripts. -/
lemma blocks_zero (n : Nat) :
    blocks (List.replicate n zeroTranscript) = List.replicate (n * hashSize) 0 := by
  simp [blocks, List.flatMap_replicate, zeroTranscript]

/-- The bytes of a transcript read back as that transcript. -/
lemma mk_toList (t : Transcript) (h : t.toList.toArray.size = hashSize) :
    (⟨t.toList.toArray, h⟩ : Transcript) = t :=
  Vector.toArray_inj.mp (Array.toArray_toList ..)

/-- Reading at a record boundary returns that record. -/
lemma read_blocks (pre : List Transcript) (t : Transcript) (l : List Transcript) :
    (File.mk (blocks (pre ++ t :: l)) (pre.length * hashSize)).read hashSize
      = (t.toList, ⟨blocks (pre ++ t :: l), (pre ++ [t]).length * hashSize⟩) := by
  have e : ((blocks (pre ++ t :: l)).drop (pre.length * hashSize)).take hashSize = t.toList := by
    rw [blocks, drop_flatMap_records length_toList, List.drop_left, List.flatMap_cons,
      List.take_left' (length_toList t)]
  simp only [File.read, e, length_toList, List.length_append, List.length_singleton, Nat.succ_mul]

/-- The loop of `open` reads back a file that holds exactly `capacity` transcripts. -/
lemma readLoop_blocks {capacity : Nat} (fuel : Nat) (l pre cache : List Transcript) (loaded : Nat)
    (ne : l ≠ []) (hcap : loaded + l.length = capacity) (hfuel : l.length ≤ fuel) :
    ∃ pos, readLoop capacity fuel ⟨blocks (pre ++ l), pre.length * hashSize⟩ cache loaded
      = (⟨blocks (pre ++ l), pos⟩, cache ++ l, capacity) := by
  induction l generalizing fuel pre cache loaded with
  | nil => exact absurd rfl ne
  | cons t l ih =>
    cases fuel with
    | zero => simp at hfuel
    | succ fuel =>
      simp only [List.length_cons] at hcap hfuel
      rw [readLoop, read_blocks]
      simp only [length_toList, ↓reduceDIte, mk_toList]
      split
      case isTrue h =>
        obtain rfl : l = [] := List.length_eq_zero_iff.mp (by omega)
        have hc : loaded + 1 = capacity := by simpa using hcap
        exact ⟨(pre ++ [t]).length * hashSize, by simp [hc]⟩
      case isFalse h =>
        have ne' : l ≠ [] := by rintro rfl; simp at hcap; omega
        have := ih fuel (pre ++ [t]) (cache ++ [t]) (loaded + 1) ne' (by omega) (by omega)
        simpa using this

/-- Writing a transcript at slot `i` replaces the record of that slot. -/
lemma writeAll_blocks {l : List Transcript} {i pos : Nat} (t : Transcript) (hi : i < l.length) :
    (((File.mk (blocks l) pos).seek (i * hashSize)).writeAll t.toList).data = blocks (l.set i t) := by
  have le : i * hashSize ≤ (blocks l).length := by
    rw [length_blocks]
    exact Nat.mul_le_mul_right _ hi.le
  simp only [File.seek, File.writeAll, Nat.sub_eq_zero_of_le le, List.replicate_zero, List.append_nil,
    length_toList]
  exact overwrite_flatMap_records length_toList l t hi

/-! ## The simulation -/

/-- What the file holds besides the ring: zero padding up to the capacity. -/
def padded (c : Nat) (ring : List Transcript) : List Transcript :=
  ring ++ List.replicate (c - ring.length) zeroTranscript

/-- The simulation between a cache and the FIFO: the ring represents the accepted transcripts, or it
    is a ring that a restart filled up with padding before it was ever full. -/
structure Daemon.Inv (c : Nat) (d : Daemon) : Prop where
  capacity : d.cache.capacity = c
  idx : d.cache.currentIdx = d.accepted.length % c
  ring : RingRep c d.accepted d.cache.inMemoryCache ∨
    d.accepted.length < c ∧ d.cache.inMemoryCache = padded c d.accepted
  disk : d.cache.file.data = blocks (padded c d.cache.inMemoryCache)

lemma Daemon.Inv.length_le {c d} (inv : Daemon.Inv c d) : d.cache.inMemoryCache.length ≤ c := by
  rcases inv.ring with rep | ⟨lt, e⟩
  · have := rep.length
    omega
  · simp [e, padded]
    omega

lemma length_padded {c} {ring : List Transcript} (h : ring.length ≤ c) :
    (padded c ring).length = c := by
  simp [padded]
  omega

/-- `open` on a file that holds `capacity` transcripts. -/
lemma open_blocks {c} {l : List Transcript} (hc : 0 < c) (hl : l.length = c) :
    ∃ pos, PersistentReplayCache.open (some (blocks l)) c =
      { file := ⟨blocks l, pos⟩, capacity := c, currentIdx := 0, inMemoryCache := l } := by
  have ne : l ≠ [] := by rintro rfl; simp at hl; omega
  have hfuel : l.length ≤ (blocks l).length + 1 := by
    rw [length_blocks, hashSize]
    omega
  obtain ⟨pos, e⟩ := readLoop_blocks _ l [] [] 0 ne (by simpa using hl) hfuel
  simp only [List.length_nil, Nat.zero_mul, List.nil_append] at e
  refine ⟨pos, ?_⟩
  have hlen : (blocks l).length = c * hashSize := by rw [length_blocks, hl]
  simp only [PersistentReplayCache.open, File.seek, Option.getD_some, e]
  simp [hlen]

/-- The daemon starts in the simulation. -/
lemma Daemon.Inv.start {c} (hc : 0 < c) : Daemon.Inv c (.start c) := by
  have hsize : 0 < c * hashSize := Nat.mul_pos hc (by decide)
  have e : PersistentReplayCache.open none c =
      { file := ⟨List.replicate (c * hashSize) 0, 0⟩, capacity := c, currentIdx := 0,
        inMemoryCache := [] } := by
    simp [PersistentReplayCache.open, readLoop, File.seek, File.read, File.setLen, hashSize,
      show 0 < c * 32 from hsize]
  refine ⟨by simp [Daemon.start, e], by simp [Daemon.start, e], .inl ?_, ?_⟩
  · simpa [Daemon.start, e] using RingRep.nil
  · simp [Daemon.start, e, padded, blocks_zero]

/-- A restart that finds the write position at slot `0` keeps the simulation. -/
lemma Daemon.Inv.reopen {c d} (hc : 0 < c) (inv : Daemon.Inv c d) (h : d.cache.currentIdx = 0) :
    Daemon.Inv c (d.step .reopen) := by
  obtain ⟨pos, e⟩ := open_blocks (c := c) hc (length_padded inv.length_le)
  rw [← inv.disk] at e
  have hstep : d.step .reopen =
      { cache :=
          { file := ⟨d.cache.file.data, pos⟩
            capacity := c
            currentIdx := 0
            inMemoryCache := padded c d.cache.inMemoryCache }
        accepted := d.accepted } := by
    simp [Daemon.step, inv.capacity, e]
  have hmod : d.accepted.length % c = 0 := inv.idx ▸ h
  rw [hstep]
  refine ⟨rfl, hmod.symm, ?_, ?_⟩
  · show RingRep c d.accepted (padded c d.cache.inMemoryCache) ∨ _
    rcases inv.ring with rep | ⟨lt, eq⟩
    · have hlen := rep.length
      rcases Nat.eq_zero_or_pos d.accepted.length with h0 | hpos
      · -- the ring was never written: the restart fills it with padding
        have hnil : d.cache.inMemoryCache = [] := List.length_eq_zero_iff.mp (by omega)
        have hnil' : d.accepted = [] := List.length_eq_zero_iff.mp h0
        exact .inr ⟨by simp [hnil']; omega, by simp [hnil, hnil']⟩
      · -- a whole number of rounds: the ring is full and stays as it is
        have hge : c ≤ d.accepted.length := Nat.le_of_dvd hpos (Nat.dvd_of_mod_eq_zero hmod)
        left
        rwa [padded, show c - d.cache.inMemoryCache.length = 0 by omega, List.replicate_zero,
          List.append_nil]
    · refine .inr ⟨lt, ?_⟩
      rw [eq, padded, length_padded lt.le]
      simp
  · show d.cache.file.data = blocks (padded c (padded c d.cache.inMemoryCache))
    rw [inv.disk, padded.eq_def c (padded c _), length_padded inv.length_le]
    simp

/-- What an accepted check leaves behind. -/
lemma Daemon.step_accept {d : Daemon} {t} (h : t ∉ d.cache.inMemoryCache) :
    d.step (.checkAndInsert t) =
      { cache :=
          { d.cache with
            inMemoryCache :=
              if d.cache.inMemoryCache.length < d.cache.capacity then d.cache.inMemoryCache ++ [t]
              else d.cache.inMemoryCache.set d.cache.currentIdx t
            file := (d.cache.file.seek (d.cache.currentIdx * hashSize)).writeAll t.toList
            currentIdx := (d.cache.currentIdx + 1) % d.cache.capacity }
        accepted := d.accepted ++ [t] } := by
  simp [Daemon.step, PersistentReplayCache.checkAndInsert, h]

/-- A check that reports a replay changes nothing. -/
lemma Daemon.step_replay {d : Daemon} {t} (h : t ∈ d.cache.inMemoryCache) :
    d.step (.checkAndInsert t) = d := by
  simp [Daemon.step, PersistentReplayCache.checkAndInsert, h]

/-- Padding commutes with the write of one slot. -/
lemma padded_push {c i} {ring : List Transcript} (t : Transcript)
    (hlen : ring.length < c → i = ring.length) (hle : ring.length ≤ c) :
    padded c (if ring.length < c then ring ++ [t] else ring.set i t) = (padded c ring).set i t := by
  split
  case isTrue h =>
    obtain rfl := hlen h
    rw [padded, padded, List.set_append_right _ _ le_rfl, Nat.sub_self,
      show c - ring.length = (c - (ring ++ [t]).length) + 1 by simp; omega, List.replicate_succ]
    simp
  case isFalse h =>
    have e : c - ring.length = 0 := by omega
    simp [padded, e]

/-- A check keeps the simulation. -/
lemma Daemon.Inv.check {c d} (hc : 0 < c) (inv : Daemon.Inv c d) (t : Transcript) :
    Daemon.Inv c (d.step (.checkAndInsert t)) := by
  by_cases h : t ∈ d.cache.inMemoryCache
  · rwa [Daemon.step_replay h]
  · rw [Daemon.step_accept h, inv.capacity, inv.idx]
    have hmod := Nat.mod_lt d.accepted.length hc
    have hpos : d.cache.inMemoryCache.length < c →
        d.accepted.length % c = d.cache.inMemoryCache.length := by
      intro hlt
      rcases inv.ring with rep | ⟨lt, e⟩
      · have := rep.length
        rw [Nat.mod_eq_of_lt (by omega)]
        omega
      · rw [e, length_padded lt.le] at hlt
        omega
    refine ⟨inv.capacity, by simp, ?_, ?_⟩
    · rcases inv.ring with rep | ⟨lt, e⟩
      · exact .inl (rep.push hc t)
      · -- the write replaces the first padding record
        have heq : (padded c d.accepted).set d.accepted.length t = padded c (d.accepted ++ [t]) := by
          have := padded_push (c := c) t (i := d.accepted.length) (fun _ => rfl) lt.le
          rw [if_pos lt] at this
          exact this.symm
        simp only [e, length_padded lt.le, lt_irrefl, ↓reduceIte, Nat.mod_eq_of_lt lt, heq, and_true]
        rcases Nat.lt_or_ge (d.accepted.length + 1) c with hlt | hge
        · exact .inr (by simpa using hlt)
        · left
          have : c - (d.accepted ++ [t]).length = 0 := by simp; omega
          rw [padded, this, List.replicate_zero, List.append_nil]
          exact RingRep.of_le (by simp; omega)
    · have hfile : d.cache.file = ⟨blocks (padded c d.cache.inMemoryCache), d.cache.file.pos⟩ := by
        rw [← inv.disk]
      simp only
      rw [hfile, writeAll_blocks t (by rw [length_padded inv.length_le]; exact hmod),
        padded_push t hpos inv.length_le]

/-- In the simulation the ring detects what the FIFO remembers. -/
lemma Daemon.Inv.correct {c d call} (inv : Daemon.Inv c d) (fits : d.Fits call) :
    d.Correct call := by
  cases call with
  | reopen => trivial
  | checkAndInsert t =>
    have hmem : t ∈ d.cache.inMemoryCache ↔ t ∈ d.accepted.rtake c := by
      rcases inv.ring with rep | ⟨lt, e⟩
      · exact rep.mem_iff
      · have hz : t ≠ zeroTranscript := by
          intro h
          have hlen := fits h
          rw [e, length_padded lt.le] at hlen
          omega
        simp [e, padded, List.rtake, hz, show d.accepted.length - c = 0 by omega]
    rw [Daemon.Correct, fifoAnswer, inv.capacity, PersistentReplayCache.checkAndInsert]
    by_cases h : t ∈ d.cache.inMemoryCache
    · simp [h, hmem.mp h]
    · simp [h, mt hmem.mpr h]

/-- A call that fits keeps the simulation. -/
lemma Daemon.Inv.step {c d call} (hc : 0 < c) (inv : Daemon.Inv c d) (fits : d.Fits call) :
    Daemon.Inv c (d.step call) := by
  cases call with
  | checkAndInsert t => exact inv.check hc t
  | reopen => exact inv.reopen hc fits

/-- Replay protection across restarts: in every sequence of checks and restarts from a nonexistent file
    in which every call fits, every check answers `ReplayDetected` exactly for the last `capacity`
    accepted transcripts. -/
theorem replay_protection {c : Nat} (hc : 0 < c) {calls : List Call}
    (run : Along Daemon.Fits Daemon.step (.start c) calls) :
    Along Daemon.Correct Daemon.step (.start c) calls := by
  have inv := Daemon.Inv.start hc
  generalize Daemon.start c = d at run inv
  induction calls generalizing d with
  | nil => trivial
  | cons call calls ih =>
    obtain ⟨fits, run⟩ := run
    exact ⟨inv.correct fits, ih _ run (inv.step hc fits)⟩

/-- A full ring survives a restart at its wrap-around. -/
theorem replay_protection_full_ring :
    Along Daemon.Correct Daemon.step (.start 2)
      [.checkAndInsert (.replicate _ 1), .checkAndInsert (.replicate _ 2), .reopen,
        .checkAndInsert (.replicate _ 1)] :=
  replay_protection (by decide) (by decide)

/-- A restart of a ring of two that holds one transcript puts the write position back on it: the next
    accepted transcript replaces it, and it is accepted a second time. -/
theorem not_replay_protection :
    ¬ ∀ c, 0 < c → ∀ calls, Along Daemon.Correct Daemon.step (.start c) calls := by
  intro h
  have := h 2 (by decide)
    [.checkAndInsert (.replicate _ 1), .reopen, .checkAndInsert (.replicate _ 2),
      .checkAndInsert (.replicate _ 1)]
  revert this
  decide

end Otap.D3
