import Otap.Lib.Ring
import Otap.Rtl.RobBitweave

/-!
# Delivery of the reorder buffer

The output transfers of `otap_rob_bitweave` against the accepted packets. Stage 1 registers the match
of the current `commit_ptr`; the edge that commits a slot also registers, from the old pointer and the
old valid bit, a match of that same slot once more. In the cycle after a commit the registered match is
therefore stale (`Rob.Stale`), and a consumer that is ready in that cycle makes the commit block load
the same slot again and advance the pointer past a packet that was never loaded.
`not_rob_delivery` is such a run with a single packet.

In the runs in which the consumer is never ready in a stale cycle the buffer delivers the accepted
packets in order (`rob_delivery`). The invariant `Bench.Inv` counts the packets loaded into the output
register: `m` of the `n` accepted ones. The slots of the packets from `m` to `n` are the valid ones and
carry data and SID, the output register holds packet `m - 1` until it is transferred, and the registered
match points to the slot of packet `m`, or to nothing, or is the stale match of packet `m - 1`.
-/

namespace Otap.Rtl
open Otap.Lib

variable {P : Params} {t : Bench P} {m : Nat} {i : Stimulus P}

/-! ## Indices -/

lemma Params.Legal.robDepth_eq (legal : P.Legal) : P.robDepth = 2 ^ P.addrWidth := by
  obtain ⟨a, ha⟩ := legal.pow
  rw [legal.addr, ha, Nat.clog_pow 2 a (by decide)]

lemma Params.Legal.addr_le (legal : P.Legal) : P.addrWidth ≤ P.sidWidth := by
  have h := legal.le
  rw [legal.robDepth_eq] at h
  exact (Nat.pow_le_pow_iff_right (by decide)).mp h

lemma Params.Legal.depth_pos (legal : P.Legal) : 0 < P.robDepth := by
  have := legal.two_le
  omega

/-- Packet `n` is written to slot `n % ROB_DEPTH`. -/
lemma Rob.writeIdx_eq (legal : P.Legal) {s : Rob P} {n} (sid : s.ingressSid = BitVec.ofNat _ n) :
    s.writeIdx = n % P.robDepth := by
  rw [Rob.writeIdx, sid, BitVec.extractLsb'_toNat, BitVec.toNat_ofNat, Nat.shiftRight_zero,
    legal.robDepth_eq]
  exact Nat.mod_mod_of_dvd _ (Nat.pow_dvd_pow 2 legal.addr_le)

/-- A downward priority loop over a one-hot vector ends with its only bit. -/
lemma foldl_oneHot {α : Type*} {d j : Nat} (hj : j < d) (f : Nat → α) (init : α) (l : List Nat) :
    l.foldl (fun acc k => if (BitVec.twoPow d j).getLsbD k then f k else acc) init
      = if j ∈ l then f j else init := by
  induction l generalizing init with
  | nil => simp
  | cons k l ih =>
    rw [List.foldl_cons, ih]
    by_cases h : j = k
    · subst h
      simp [hj]
    · simp [h]

lemma Rob.matchIdx_oneHot (legal : P.Legal) {s : Rob P} {j} (hj : j < P.robDepth)
    (pipe : s.matchVectorPipe = BitVec.twoPow _ j) : s.matchIdx = j := by
  rw [Rob.matchIdx, pipe, foldl_oneHot hj, if_pos (by simpa using hj), BitVec.toNat_ofNat]
  exact Nat.mod_eq_of_lt (legal.robDepth_eq ▸ hj)

/-! ## The invariant -/

/-- The slot of packet number `k` holds the packet and its SID. -/
structure Rob.Holds (s : Rob P) (k : Nat) (p : Packet P) : Prop where
  valid : s.robValid (k % P.robDepth) = true
  data : s.robData (k % P.robDepth) = p.1
  keep : s.robKeep (k % P.robDepth) = p.2
  plane : ∀ b < P.sidWidth,
    (s.sidPlane b).getLsbD (k % P.robDepth) = (BitVec.ofNat P.sidWidth k).getLsbD b

/-- The registered match: of packet `m`, of nothing, or the stale one of packet `m - 1`. -/
inductive Rob.Pipe (s : Rob P) (m n : Nat) : Prop where
  | next (lt : m < n) (vec : s.matchVectorPipe = BitVec.twoPow _ (m % P.robDepth))
  | none (vec : s.matchVectorPipe = 0)
  | stale (pos : 0 < m) (vec : s.matchVectorPipe = BitVec.twoPow _ ((m - 1) % P.robDepth))
      (empty : s.robValid ((m - 1) % P.robDepth) = false) (out : s.mAxisTvalid = true)

/-- `m` of the accepted packets have been loaded into the output register. -/
structure Bench.Inv (t : Bench P) (m : Nat) : Prop where
  le : m ≤ t.accepted.length
  room : t.accepted.length ≤ m + P.robDepth
  sid : t.rob.ingressSid = BitVec.ofNat _ t.accepted.length
  ptr : t.rob.commitPtr = BitVec.ofNat _ m
  slot : ∀ k p, m ≤ k → t.accepted[k]? = some p → t.rob.Holds k p
  free : ∀ j < P.robDepth, (∀ k, m ≤ k → k < t.accepted.length → k % P.robDepth ≠ j) →
    t.rob.robValid j = false
  pipe : t.rob.Pipe m t.accepted.length
  pipeValid : t.rob.matchValidPipe = (t.rob.matchVectorPipe != 0)
  out : t.rob.mAxisTvalid = true → t.delivered.length + 1 = m ∧
    t.accepted[t.delivered.length]? = some (t.rob.mAxisTdata, t.rob.mAxisTkeep)
  idle : t.rob.mAxisTvalid = false → t.delivered.length = m
  order : t.delivered = t.accepted.take t.delivered.length

lemma Bench.Inv.reset (s : Rob P) (i : Stimulus P) : (Bench.reset s i).Inv 0 where
  le := Nat.zero_le _
  room := Nat.zero_le _
  sid := by simp [Bench.reset, Rob.step]
  ptr := by simp [Bench.reset, Rob.step]
  slot k p _ h := by simp [Bench.reset] at h
  free j _ _ := by simp [Bench.reset, Rob.step]
  pipe := .none (by simp [Bench.reset, Rob.step])
  pipeValid := by simp [Bench.reset, Rob.step]
  out h := by simp [Bench.reset, Rob.step] at h
  idle _ := rfl
  order := rfl

/-- A valid slot is the slot of a packet that waits. -/
lemma Bench.Inv.waiting {j} (inv : t.Inv m) (hj : j < P.robDepth) (valid : t.rob.robValid j = true) :
    ∃ k p, m ≤ k ∧ t.accepted[k]? = some p ∧ k % P.robDepth = j := by
  by_contra h
  have := inv.free j hj fun k hk hn e => h ⟨k, t.accepted[k], hk, List.getElem?_eq_getElem hn, e⟩
  simp [this] at valid

/-- Two packets that wait share neither slot nor SID. -/
lemma Bench.Inv.ptr_inj {k} (legal : P.Legal) (inv : t.Inv m) (hk : m ≤ k) (hn : k < t.accepted.length) :
    BitVec.ofNat P.sidWidth k = BitVec.ofNat P.sidWidth m ↔ k = m := by
  constructor
  · intro e
    have e' := congrArg BitVec.toNat e
    rw [BitVec.toNat_ofNat, BitVec.toNat_ofNat] at e'
    have hroom := inv.room
    have hle := legal.le
    exact ring_slot_inj (n := m + 2 ^ P.sidWidth) (by omega) (by omega) (by omega) (by omega) e'
  · rintro rfl
    rfl

/-- The match vector of stage 1 is the slot of packet `m`, if that packet has arrived. -/
lemma Bench.Inv.matchVector (legal : P.Legal) (inv : t.Inv m) :
    t.rob.matchVector
      = if m < t.accepted.length then BitVec.twoPow _ (m % P.robDepth) else 0 := by
  apply BitVec.eq_of_getLsbD_eq
  intro j hj
  rw [Rob.matchVector, BitVec.getLsbD_and, getLsbD_ofLanes _ hj, Bool.eq_iff_iff, Bool.and_eq_true,
    getLsbD_matchPlanes _ _ _ hj]
  have hm := Nat.mod_lt m legal.depth_pos
  constructor
  · rintro ⟨⟨_, hbits⟩, valid⟩
    obtain ⟨k, p, hk, hp, rfl⟩ := inv.waiting hj valid
    obtain ⟨hn, _⟩ := List.getElem?_eq_some_iff.mp hp
    have e := (lane_eq_iff (inv.slot k p hk hp).plane).mp hbits
    rw [inv.ptr, inv.ptr_inj legal hk hn] at e
    subst e
    simp [hn, hm]
  · intro h
    by_cases hn : m < t.accepted.length
    · rw [if_pos hn, BitVec.getLsbD_twoPow] at h
      obtain rfl : m % P.robDepth = j := by simpa [hm] using h
      have holds := inv.slot m t.accepted[m] le_rfl (List.getElem?_eq_getElem hn)
      refine ⟨⟨by simp [hj], fun b hb => ?_⟩, holds.valid⟩
      rw [holds.plane b hb, inv.ptr]
    · simp [hn] at h

/-- A commit takes the slot of packet `m`. -/
lemma Bench.Inv.commit (legal : P.Legal) (inv : t.Inv m) (ns : t.NotStale i) (hc : t.rob.commit i = true) :
    m < t.accepted.length ∧ t.rob.matchIdx = m % P.robDepth := by
  simp only [Rob.commit, Bool.and_eq_true, Bool.or_eq_true, Bool.not_eq_true'] at hc
  obtain ⟨enabled, valid⟩ := hc
  cases inv.pipe with
  | next lt vec => exact ⟨lt, Rob.matchIdx_oneHot legal (Nat.mod_lt m legal.depth_pos) vec⟩
  | none vec =>
    rw [inv.pipeValid, vec] at valid
    simp at valid
  | stale pos vec empty out =>
    -- the output register is occupied, so the commit needs a ready consumer
    have hidx := Rob.matchIdx_oneHot legal (Nat.mod_lt (m - 1) legal.depth_pos) vec
    have ready : i.mAxisTready = true := by simpa [out] using enabled
    exact absurd ⟨⟨valid, hidx ▸ empty⟩, ready⟩ ns

/-! ## One clock cycle -/

/-- The number of packets loaded after the cycle. -/
def Bench.loaded (t : Bench P) (i : Stimulus P) (m : Nat) : Nat :=
  if t.rob.commit i then m + 1 else m

lemma Bench.le_loaded : m ≤ t.loaded i m := by
  rw [Bench.loaded]
  split
  · exact Nat.le_succ m
  · exact le_rfl

lemma Bench.Inv.loaded_le (legal : P.Legal) (inv : t.Inv m) (ns : t.NotStale i) :
    t.loaded i m ≤ t.accepted.length := by
  rw [Bench.loaded]
  split
  case isTrue hc => exact (inv.commit legal ns hc).1
  case isFalse => exact inv.le

/-- An accepted packet goes to a slot that no waiting packet occupies. -/
lemma Bench.Inv.ingress (legal : P.Legal) (inv : t.Inv m) (hi : t.rob.ingress i = true) :
    t.rob.robValid (t.accepted.length % P.robDepth) = false ∧ t.accepted.length < m + P.robDepth := by
  have hw := Rob.writeIdx_eq legal inv.sid
  simp only [Rob.ingress, Rob.sAxisTready, Bool.and_eq_true, Bool.not_eq_true', hw] at hi
  refine ⟨hi.1.2, lt_of_le_of_ne inv.room fun e => ?_⟩
  -- a full buffer has packet `m` in the very slot of the new packet
  have hm : m < t.accepted.length := by
    have := legal.depth_pos
    omega
  have holds := inv.slot m t.accepted[m] le_rfl (List.getElem?_eq_getElem hm)
  have hvalid := holds.valid
  rw [show m % P.robDepth = t.accepted.length % P.robDepth by rw [e, Nat.add_mod_right], hi.1.2]
    at hvalid
  exact absurd hvalid (by decide)

/-- The two blocks never write the same slot, so their order does not matter. -/
lemma Bench.Inv.disjoint (legal : P.Legal) (inv : t.Inv m) (ns : t.NotStale i)
    (hi : t.rob.ingress i = true) (hc : t.rob.commit i = true) :
    t.accepted.length % P.robDepth ≠ m % P.robDepth := by
  obtain ⟨empty, _⟩ := inv.ingress legal hi
  obtain ⟨hm, _⟩ := inv.commit legal ns hc
  have holds := inv.slot m t.accepted[m] le_rfl (List.getElem?_eq_getElem hm)
  intro e
  rw [e, holds.valid] at empty
  exact absurd empty (by decide)

/-- The valid bits after the cycle. -/
lemma Bench.Inv.robValid (legal : P.Legal) (inv : t.Inv m) (hr : i.rst = false) (ns : t.NotStale i) (j : Nat) :
    (t.rob.step i).robValid j =
      if t.rob.ingress i = true ∧ j = t.accepted.length % P.robDepth then true
      else if t.rob.commit i = true ∧ j = m % P.robDepth then false
      else t.rob.robValid j := by
  have hw := Rob.writeIdx_eq legal inv.sid
  cases hi : t.rob.ingress i with
  | false =>
    cases hc : t.rob.commit i with
    | false => simp [Rob.step, hr, hi, hc]
    | true =>
      obtain ⟨_, hidx⟩ := inv.commit legal ns hc
      simp [Rob.step, hr, hi, hc, hidx, Function.update_apply]
  | true =>
    cases hc : t.rob.commit i with
    | false => simp [Rob.step, hr, hi, hc, hw, Function.update_apply]
    | true =>
      obtain ⟨_, hidx⟩ := inv.commit legal ns hc
      have ne := inv.disjoint legal ns hi hc
      cases hl : i.commitLast with
      | false => simp [Rob.step, hr, hi, hc, hl, hw, hidx, Function.update_apply]
      | true =>
        simp only [Rob.step, hr, hi, hc, hl, hw, hidx, Bool.false_eq_true, ↓reduceIte,
          Function.update_apply, true_and]
        split
        · rename_i e
          rw [if_neg (by rw [e]; exact ne.symm)]
        · rfl

/-- The lanes of the SID planes after the cycle. -/
lemma Bench.Inv.sidPlane (legal : P.Legal) (inv : t.Inv m) (hr : i.rst = false)
    (ns : t.NotStale i) (b j : Nat) :
    ((t.rob.step i).sidPlane b).getLsbD j =
      if t.rob.ingress i = true ∧ j = t.accepted.length % P.robDepth then t.rob.ingressSid.getLsbD b
      else if t.rob.commit i = true ∧ j = m % P.robDepth then false
      else (t.rob.sidPlane b).getLsbD j := by
  have hw := Rob.writeIdx_eq legal inv.sid
  have hn := Nat.mod_lt t.accepted.length legal.depth_pos
  have hm := Nat.mod_lt m legal.depth_pos
  cases hi : t.rob.ingress i with
  | false =>
    cases hc : t.rob.commit i with
    | false => simp [Rob.step, hr, hi, hc]
    | true =>
      obtain ⟨_, hidx⟩ := inv.commit legal ns hc
      simp [Rob.step, hr, hi, hc, hidx, getLsbD_writeBit _ hm]
  | true =>
    cases hc : t.rob.commit i with
    | false => simp [Rob.step, hr, hi, hc, hw, getLsbD_writeBit _ hn]
    | true =>
      obtain ⟨_, hidx⟩ := inv.commit legal ns hc
      have ne := inv.disjoint legal ns hi hc
      cases hl : i.commitLast with
      | false =>
        simp [Rob.step, hr, hi, hc, hl, hw, hidx, getLsbD_writeBit _ hn, getLsbD_writeBit _ hm]
      | true =>
        simp only [Rob.step, hr, hi, hc, hl, hw, hidx, Bool.false_eq_true, ↓reduceIte,
          getLsbD_writeBit _ hn, getLsbD_writeBit _ hm, true_and]
        split
        · rename_i e
          rw [if_neg (by rw [e]; exact ne.symm)]
        · rfl

/-- With single-beat packets an accepted beat is an ingress. -/
lemma Bench.accepted_cycle (sb : t.SingleBeat i) :
    (t.cycle i).accepted =
      if t.rob.ingress i then t.accepted ++ [(i.sAxisTdata, i.sAxisTkeep)] else t.accepted := by
  have e : (i.sAxisTvalid && t.rob.sAxisTready) = t.rob.ingress i := by
    rw [Rob.ingress]
    cases hv : i.sAxisTvalid with
    | false => rfl
    | true =>
      cases hrdy : t.rob.sAxisTready with
      | false => rfl
      | true => rw [sb.2 hv hrdy]; rfl
  rw [Bench.cycle, e]

lemma Bench.length_accepted_cycle (sb : t.SingleBeat i) :
    (t.cycle i).accepted.length
      = if t.rob.ingress i then t.accepted.length + 1 else t.accepted.length := by
  rw [Bench.accepted_cycle sb]
  split
  · exact List.length_append
  · rfl

lemma Bench.le_accepted_cycle (sb : t.SingleBeat i) :
    t.accepted.length ≤ (t.cycle i).accepted.length := by
  rw [Bench.length_accepted_cycle sb]
  split
  · exact Nat.le_succ _
  · exact le_rfl

lemma Bench.getElem?_accepted_cycle {k} (sb : t.SingleBeat i)
    (hk : k < t.accepted.length) : (t.cycle i).accepted[k]? = t.accepted[k]? := by
  rw [Bench.accepted_cycle sb]
  split
  · rw [List.getElem?_append_left hk]
  · rfl

/-- A waiting packet keeps its slot. -/
lemma Bench.Inv.slot_kept {k p} (legal : P.Legal) (inv : t.Inv m)
    (sb : t.SingleBeat i) (ns : t.NotStale i) (hk : t.loaded i m ≤ k)
    (hp : t.accepted[k]? = some p) : (t.rob.step i).Holds k p := by
  have hw := Rob.writeIdx_eq legal inv.sid
  have hroom := inv.room
  have hn : k < t.accepted.length := (List.getElem?_eq_some_iff.mp hp).1
  have hmk : m ≤ k := Bench.le_loaded.trans hk
  have holds := inv.slot k p hmk hp
  -- the slot is neither written nor committed
  have hnew : t.rob.ingress i = true → k % P.robDepth ≠ t.accepted.length % P.robDepth := by
    intro hi e
    obtain ⟨_, hlt⟩ := inv.ingress legal hi
    have := ring_slot_inj (n := m + P.robDepth) (by omega) hlt (by omega) (by omega) e
    omega
  have hold : t.rob.commit i = true → k % P.robDepth ≠ m % P.robDepth := by
    intro hc e
    rw [Bench.loaded, if_pos hc] at hk
    have hd := legal.depth_pos
    have := ring_slot_inj (n := m + P.robDepth) (by omega) (by omega) (by omega) (by omega) e
    omega
  constructor
  case valid =>
    rw [inv.robValid legal sb.1 ns, if_neg (fun h => hnew h.1 h.2), if_neg (fun h => hold h.1 h.2)]
    exact holds.valid
  case data =>
    rw [← holds.data]
    cases hi : t.rob.ingress i with
    | false => simp [Rob.step, sb.1, hi]
    | true => simp [Rob.step, sb.1, hi, hw, Function.update_of_ne (hnew hi)]
  case keep =>
    rw [← holds.keep]
    cases hi : t.rob.ingress i with
    | false => simp [Rob.step, sb.1, hi]
    | true => simp [Rob.step, sb.1, hi, hw, Function.update_of_ne (hnew hi)]
  case plane =>
    intro b hb
    rw [inv.sidPlane legal sb.1 ns, if_neg (fun h => hnew h.1 h.2), if_neg (fun h => hold h.1 h.2)]
    exact holds.plane b hb

/-- A new packet gets its slot. -/
lemma Bench.Inv.slot_new (legal : P.Legal) (inv : t.Inv m)
    (sb : t.SingleBeat i) (ns : t.NotStale i) (hi : t.rob.ingress i = true) :
    (t.rob.step i).Holds t.accepted.length (i.sAxisTdata, i.sAxisTkeep) := by
  have hw := Rob.writeIdx_eq legal inv.sid
  constructor
  case valid => rw [inv.robValid legal sb.1 ns, if_pos ⟨hi, rfl⟩]
  case data => simp [Rob.step, sb.1, hi, hw]
  case keep => simp [Rob.step, sb.1, hi, hw]
  case plane =>
    intro b _
    rw [inv.sidPlane legal sb.1 ns, if_pos ⟨hi, rfl⟩, inv.sid]

lemma Bench.Inv.slot_cycle {k p} (legal : P.Legal) (inv : t.Inv m)
    (sb : t.SingleBeat i) (ns : t.NotStale i) (hk : t.loaded i m ≤ k)
    (hp : (t.cycle i).accepted[k]? = some p) : (t.rob.step i).Holds k p := by
  rw [Bench.accepted_cycle sb] at hp
  split at hp
  case isTrue hi =>
    exact forall_getElem?_concat (P := fun k p => t.loaded i m ≤ k → (t.rob.step i).Holds k p)
      (fun k p hp hk => inv.slot_kept legal sb ns hk hp)
      (fun _ => inv.slot_new legal sb ns hi) k p hp hk
  case isFalse => exact inv.slot_kept legal sb ns hk hp

/-- The output register and the delivered packets after the cycle. -/
lemma Bench.Inv.out_cycle (legal : P.Legal) (inv : t.Inv m) (sb : t.SingleBeat i) (ns : t.NotStale i) :
    ((t.rob.step i).mAxisTvalid = true →
      (t.cycle i).delivered.length + 1 = t.loaded i m ∧
      t.accepted[(t.cycle i).delivered.length]?
        = some ((t.rob.step i).mAxisTdata, (t.rob.step i).mAxisTkeep)) ∧
    ((t.rob.step i).mAxisTvalid = false → (t.cycle i).delivered.length = t.loaded i m) := by
  have hstep : (t.rob.step i).mAxisTvalid
      = if i.mAxisTready || !t.rob.mAxisTvalid then t.rob.matchValidPipe else t.rob.mAxisTvalid := by
    simp [Rob.step, sb.1]
  cases he : (i.mAxisTready || !t.rob.mAxisTvalid) with
  | false =>
    -- the consumer stalls: nothing moves
    obtain ⟨hready, hvalid⟩ : i.mAxisTready = false ∧ t.rob.mAxisTvalid = true := by simpa using he
    have hc : t.rob.commit i = false := by simp [Rob.commit, hready, hvalid]
    have hd : (t.cycle i).delivered = t.delivered := by simp [Bench.cycle, hready]
    obtain ⟨hlen, hpkt⟩ := inv.out hvalid
    rw [hstep, he, hd, Bench.loaded, hc]
    refine ⟨fun _ => ⟨by simpa using hlen, ?_⟩, fun h => ?_⟩
    · simpa [Rob.step, sb.1, hc] using hpkt
    · simp [hvalid] at h
  | true =>
    have hlen : (t.cycle i).delivered.length = m := by
      cases hv : t.rob.mAxisTvalid with
      | false => simpa [Bench.cycle, hv] using inv.idle hv
      | true =>
        have hready : i.mAxisTready = true := by simpa [hv] using he
        simpa [Bench.cycle, hv, hready] using (inv.out hv).1
    have hc : t.rob.commit i = t.rob.matchValidPipe := by simp [Rob.commit, he]
    rw [hstep, he, if_pos rfl, hlen, Bench.loaded, hc]
    refine ⟨fun hm => ?_, fun hm => by simp [hm]⟩
    rw [hm] at hc
    obtain ⟨hn, hidx⟩ := inv.commit legal ns hc
    have hp := List.getElem?_eq_getElem hn
    have holds := inv.slot m t.accepted[m] le_rfl hp
    refine ⟨by simp [hm], ?_⟩
    have hdata : (t.rob.step i).mAxisTdata = t.accepted[m].1 := by
      simp [Rob.step, sb.1, hc, hidx, holds.data]
    have hkeep : (t.rob.step i).mAxisTkeep = t.accepted[m].2 := by
      simp [Rob.step, sb.1, hc, hidx, holds.keep]
    rw [hp, hdata, hkeep]

/-- The registered match after the cycle. -/
lemma Bench.Inv.pipe_cycle (legal : P.Legal) (inv : t.Inv m) (sb : t.SingleBeat i) (ns : t.NotStale i) :
    (t.rob.step i).Pipe (t.loaded i m) (t.cycle i).accepted.length := by
  have hvec : (t.rob.step i).matchVectorPipe = t.rob.matchVector := by simp [Rob.step, sb.1]
  have hle : t.accepted.length ≤ (t.cycle i).accepted.length := Bench.le_accepted_cycle sb
  rw [inv.matchVector legal] at hvec
  cases hc : t.rob.commit i with
  | false =>
    rw [Bench.loaded, hc]
    split at hvec
    · rename_i hn
      exact .next (by simpa using hn.trans_le hle) hvec
    · exact .none hvec
  | true =>
    obtain ⟨hn, hidx⟩ := inv.commit legal ns hc
    rw [if_pos hn] at hvec
    rw [Bench.loaded, hc, if_pos rfl]
    refine .stale (Nat.succ_pos m) hvec ?_ ?_
    · rw [Nat.add_sub_cancel, inv.robValid legal sb.1 ns,
        if_neg (fun h => inv.disjoint legal ns h.1 hc h.2.symm), if_pos ⟨hc, rfl⟩]
    · simp only [Rob.commit, Bool.and_eq_true] at hc
      simp [Rob.step, sb.1, hc.1, hc.2]

/-- A slot that no waiting packet uses after the cycle is empty after it. -/
lemma Bench.Inv.free_cycle {j} (legal : P.Legal) (inv : t.Inv m)
    (sb : t.SingleBeat i) (ns : t.NotStale i) (hj : j < P.robDepth)
    (hfree : ∀ k, t.loaded i m ≤ k → k < (t.cycle i).accepted.length → k % P.robDepth ≠ j) :
    (t.rob.step i).robValid j = false := by
  rw [inv.robValid legal sb.1 ns]
  split
  case isTrue h =>
    -- the slot of the new packet is not free
    have hlt : t.accepted.length < (t.cycle i).accepted.length := by
      rw [Bench.length_accepted_cycle sb, if_pos h.1]
      exact Nat.lt_succ_self _
    exact absurd h.2.symm (hfree _ (inv.loaded_le legal ns) hlt)
  case isFalse =>
    split
    case isTrue => rfl
    case isFalse kept =>
      apply inv.free j hj
      intro k hk hn e
      refine hfree k ?_ (hn.trans_le (Bench.le_accepted_cycle sb)) e
      rw [Bench.loaded]
      split
      case isTrue hc =>
        -- packet `m` is the one that leaves, and its slot is not `j`
        refine lt_of_le_of_ne hk ?_
        rintro rfl
        exact kept ⟨hc, e.symm⟩
      case isFalse => exact hk

/-- A transfer appends the packet the output register held. -/
lemma Bench.Inv.order_cycle (inv : t.Inv m) (sb : t.SingleBeat i) :
    (t.cycle i).delivered = (t.cycle i).accepted.take (t.cycle i).delivered.length := by
  have hd : (t.cycle i).delivered = t.accepted.take (t.cycle i).delivered.length := by
    cases hx : (t.rob.mAxisTvalid && i.mAxisTready) with
    | false => simpa [Bench.cycle, hx] using inv.order
    | true =>
      have hv : t.rob.mAxisTvalid = true := (Bool.and_eq_true_iff.mp hx).1
      obtain ⟨_, hp⟩ := inv.out hv
      have hdel : (t.cycle i).delivered
          = t.delivered ++ [(t.rob.mAxisTdata, t.rob.mAxisTkeep)] := by simp [Bench.cycle, hx]
      rw [hdel, List.length_append, List.length_singleton, List.take_add_one, hp, ← inv.order]
      rfl
  have hle : (t.cycle i).delivered.length ≤ t.accepted.length := by
    have := congrArg List.length hd
    rw [List.length_take] at this
    omega
  rw [Bench.accepted_cycle sb]
  split
  · rw [List.take_append_of_le_length hle]
    exact hd
  · exact hd

/-- A cycle keeps the invariant. -/
lemma Bench.Inv.cycle (legal : P.Legal) (inv : t.Inv m)
    (sb : t.SingleBeat i) (ns : t.NotStale i) : (t.cycle i).Inv (t.loaded i m) := by
  obtain ⟨hout, hidle⟩ := inv.out_cycle legal sb ns
  constructor
  case le => exact (inv.loaded_le legal ns).trans (Bench.le_accepted_cycle sb)
  case room =>
    refine le_trans ?_ (Nat.add_le_add_right Bench.le_loaded _)
    rw [Bench.length_accepted_cycle sb]
    split
    case isTrue hi => exact (inv.ingress legal hi).2
    case isFalse => exact inv.room
  case sid =>
    show (t.rob.step i).ingressSid = _
    rw [Bench.length_accepted_cycle sb]
    cases hi : t.rob.ingress i with
    | false => simp [Rob.step, sb.1, hi, inv.sid]
    | true => simp [Rob.step, sb.1, hi, inv.sid, BitVec.ofNat_add]
  case ptr =>
    show (t.rob.step i).commitPtr = _
    rw [Bench.loaded]
    cases hc : t.rob.commit i with
    | false => simp [Rob.step, sb.1, hc, inv.ptr]
    | true => simp [Rob.step, sb.1, hc, inv.ptr, BitVec.ofNat_add]
  case slot => exact fun k p hk hp => inv.slot_cycle legal sb ns hk hp
  case free => exact fun j hj hfree => inv.free_cycle legal sb ns hj hfree
  case pipe => exact inv.pipe_cycle legal sb ns
  case pipeValid =>
    show (t.rob.step i).matchValidPipe = ((t.rob.step i).matchVectorPipe != 0)
    simp [Rob.step, sb.1]
  case out =>
    intro h
    obtain ⟨hl, hp⟩ := hout h
    refine ⟨hl, ?_⟩
    obtain ⟨hk, _⟩ := List.getElem?_eq_some_iff.mp hp
    rw [Bench.getElem?_accepted_cycle sb hk]
    exact hp
  case idle => exact hidle
  case order => exact inv.order_cycle sb

/-- Reorder-buffer delivery: after a reset, as long as the consumer is never ready in a cycle in which
    the registered match is stale, the output transfers are a prefix of the accepted packets. -/
theorem rob_delivery (legal : P.Legal) (s : Rob P) (i : Stimulus P) {stim : List (Stimulus P)}
    (run : Along (fun t i => t.SingleBeat i ∧ t.NotStale i) Bench.cycle (Bench.reset s i) stim) :
    (stim.foldl Bench.cycle (Bench.reset s i)).delivered
      <+: (stim.foldl Bench.cycle (Bench.reset s i)).accepted := by
  have inv : ∃ m, (stim.foldl Bench.cycle (Bench.reset s i)).Inv m := by
    refine Along.inv (P := fun t => ∃ m, t.Inv m) ⟨0, Bench.Inv.reset s i⟩ ?_ run
    rintro t i ⟨m, inv⟩ ⟨sb, ns⟩
    exact ⟨_, inv.cycle legal sb ns⟩
  obtain ⟨m, inv⟩ := inv
  rw [inv.order]
  exact List.take_prefix _ _

/-- A buffer of two slots for packets of one byte. -/
def twoSlots : Params where
  dataWidth := 8
  strbWidth := 1
  sidWidth := 2
  robDepth := 2
  addrWidth := 1

lemma twoSlots_legal : twoSlots.Legal where
  pow := ⟨1, rfl⟩
  two_le := by decide
  le := by decide
  addr := by decide

/-- All registers zero. -/
def zeroRob : Rob twoSlots where
  ingressSid := 0
  robData := fun _ => 0
  robKeep := fun _ => 0
  robValid := fun _ => false
  sidPlane := fun _ => 0
  commitPtr := 0
  matchVectorPipe := 0
  matchValidPipe := false
  mAxisTdata := 0
  mAxisTkeep := 0
  mAxisTvalid := false
  mAxisTlast := false

/-- A cycle that offers a packet with the given byte, if any. -/
def beat (data : Option (BitVec 8)) (ready : Bool) : Stimulus twoSlots where
  rst := false
  sAxisTdata := data.getD 0
  sAxisTkeep := 1
  sAxisTvalid := data.isSome
  sAxisTlast := true
  mAxisTready := ready
  commitLast := true

/-- Two packets and a consumer that waits one cycle before it takes each. -/
def waitingConsumer : List (Stimulus twoSlots) :=
  [beat (some 7) false, beat (some 9) false, beat none false, beat none false, beat none true,
    beat none false, beat none true]

/-- The waiting consumer gets both packets. -/
theorem rob_delivery_waitingConsumer :
    (waitingConsumer.foldl Bench.cycle (Bench.reset zeroRob (beat none false))).delivered
      = [(7, 1), (9, 1)] ∧
    (waitingConsumer.foldl Bench.cycle (Bench.reset zeroRob (beat none false))).delivered
      <+: (waitingConsumer.foldl Bench.cycle (Bench.reset zeroRob (beat none false))).accepted :=
  ⟨by decide +kernel, rob_delivery twoSlots_legal _ _ (by decide +kernel)⟩

/-- A consumer that is always ready takes the first packet twice. -/
theorem not_rob_delivery :
    ¬ ∀ (P : Params), P.Legal → ∀ (s : Rob P) (i : Stimulus P) (stim : List (Stimulus P)),
      Along Bench.SingleBeat Bench.cycle (Bench.reset s i) stim →
      (stim.foldl Bench.cycle (Bench.reset s i)).delivered
        <+: (stim.foldl Bench.cycle (Bench.reset s i)).accepted := by
  intro h
  have := h twoSlots twoSlots_legal zeroRob (beat none true)
    [beat (some 7) true, beat none true, beat none true, beat none true, beat none true] (by decide)
  revert this
  decide

end Otap.Rtl
