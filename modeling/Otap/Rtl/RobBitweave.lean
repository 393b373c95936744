import Otap.Lib.BitPlane
import Otap.Lib.Run

/-!
# Reorder buffer

Embedding of `rtl/otap_rob_bitweave.v`: the reorder buffer with the pipelined bit-woven commit scan.
`Rob` holds the registers of the module and `Rob.step` is one rising clock edge: every right-hand side
is read from the state before the edge and all nonblocking assignments take effect together. The arrays
`rob_data`, `rob_keep`, `rob_valid` and `sid_plane` are functions of the index. The ingress block and the
commit block both write `rob_valid` and `sid_plane`; should they ever write the same bit at one edge,
the input `commitLast` decides which of the two assignments is the later one.
-/

namespace Otap.Rtl
open Otap.Lib

/-- The parameters of the module. -/
structure Params where
  dataWidth : Nat
  strbWidth : Nat
  sidWidth : Nat
  robDepth : Nat
  addrWidth : Nat

/-- The parameters the module is meant for: a power-of-two depth of at least `2` that the SIDs can
    tell apart, and the default `ADDR_WIDTH = $clog2(ROB_DEPTH)`. -/
structure Params.Legal (P : Params) : Prop where
  pow : ∃ a, P.robDepth = 2 ^ a
  two_le : 2 ≤ P.robDepth
  le : P.robDepth ≤ 2 ^ P.sidWidth
  addr : P.addrWidth = Nat.clog 2 P.robDepth

/-- The registers. -/
structure Rob (P : Params) where
  ingressSid : BitVec P.sidWidth
  robData : Nat → BitVec P.dataWidth
  robKeep : Nat → BitVec P.strbWidth
  robValid : Nat → Bool
  sidPlane : Nat → BitVec P.robDepth
  commitPtr : BitVec P.sidWidth
  matchVectorPipe : BitVec P.robDepth
  matchValidPipe : Bool
  mAxisTdata : BitVec P.dataWidth
  mAxisTkeep : BitVec P.strbWidth
  mAxisTvalid : Bool
  mAxisTlast : Bool

/-- The inputs of one clock cycle, and the order of the two blocks that write `rob_valid`. -/
structure Stimulus (P : Params) where
  rst : Bool
  sAxisTdata : BitVec P.dataWidth
  sAxisTkeep : BitVec P.strbWidth
  sAxisTvalid : Bool
  sAxisTlast : Bool
  mAxisTready : Bool
  commitLast : Bool

variable {P : Params}

/-- `write_idx = ingress_sid[ADDR_WIDTH-1:0]`. -/
def Rob.writeIdx (s : Rob P) : Nat :=
  (s.ingressSid.extractLsb' 0 P.addrWidth).toNat

/-- `s_axis_tready = !rob_valid[write_idx]`. -/
def Rob.sAxisTready (s : Rob P) : Bool :=
  !s.robValid s.writeIdx

/-- The match vector that stage 1 registers: `temp_match & valid_mask`. -/
def Rob.matchVector (s : Rob P) : BitVec P.robDepth :=
  let validMask := ofLanes P.robDepth s.robValid
  matchPlanes s.commitPtr s.sidPlane (BitVec.allOnes P.robDepth) &&& validMask

/-- Stage 2: the priority encoder over the registered match vector. The loop runs downwards, so the
    lowest set bit is assigned last. -/
def Rob.matchIdx (s : Rob P) : Nat :=
  ((List.range P.robDepth).reverse.foldl
    (fun idx k => if s.matchVectorPipe.getLsbD k then BitVec.ofNat P.addrWidth k else idx)
    (0#P.addrWidth)).toNat

/-- `s_axis_tvalid && s_axis_tready && s_axis_tlast`. -/
def Rob.ingress (s : Rob P) (i : Stimulus P) : Bool :=
  i.sAxisTvalid && s.sAxisTready && i.sAxisTlast

/-- The commit block loads the output register. -/
def Rob.commit (s : Rob P) (i : Stimulus P) : Bool :=
  (i.mAxisTready || !s.mAxisTvalid) && s.matchValidPipe

/-- One rising edge of `clk`. -/
def Rob.step (s : Rob P) (i : Stimulus P) : Rob P :=
  if i.rst then
    { s with
      ingressSid := 0
      robValid := fun _ => false
      sidPlane := fun _ => 0
      commitPtr := 0
      matchVectorPipe := 0
      matchValidPipe := false
      mAxisTvalid := false
      mAxisTlast := false }
  else
    let ingress := s.ingress i
    let commit := s.commit i
    let enabled := i.mAxisTready || !s.mAxisTvalid
    let ingressValid (valid : Nat → Bool) : Nat → Bool :=
      if ingress then Function.update valid s.writeIdx true else valid
    let commitValid (valid : Nat → Bool) : Nat → Bool :=
      if commit then Function.update valid s.matchIdx false else valid
    let ingressPlane (plane : Nat → BitVec P.robDepth) : Nat → BitVec P.robDepth :=
      if ingress then fun b => writeBit (plane b) s.writeIdx (s.ingressSid.getLsbD b) else plane
    let commitPlane (plane : Nat → BitVec P.robDepth) : Nat → BitVec P.robDepth :=
      if commit then fun b => writeBit (plane b) s.matchIdx false else plane
    { ingressSid := if ingress then s.ingressSid + 1 else s.ingressSid
      robData := if ingress then Function.update s.robData s.writeIdx i.sAxisTdata else s.robData
      robKeep := if ingress then Function.update s.robKeep s.writeIdx i.sAxisTkeep else s.robKeep
      robValid :=
        if i.commitLast then commitValid (ingressValid s.robValid)
        else ingressValid (commitValid s.robValid)
      sidPlane :=
        if i.commitLast then commitPlane (ingressPlane s.sidPlane)
        else ingressPlane (commitPlane s.sidPlane)
      commitPtr := if commit then s.commitPtr + 1 else s.commitPtr
      matchVectorPipe := s.matchVector
      matchValidPipe := s.matchVector != 0
      mAxisTdata := if commit then s.robData s.matchIdx else s.mAxisTdata
      mAxisTkeep := if commit then s.robKeep s.matchIdx else s.mAxisTkeep
      mAxisTvalid := if enabled then s.matchValidPipe else s.mAxisTvalid
      mAxisTlast := if enabled then s.matchValidPipe else s.mAxisTlast }

/-! ## Packets in and out -/

/-- A single-beat packet: its data and keep. -/
abbrev Packet (P : Params) := BitVec P.dataWidth × BitVec P.strbWidth

/-- The buffer with the packets accepted and delivered so far. -/
structure Bench (P : Params) where
  rob : Rob P
  accepted : List (Packet P)
  delivered : List (Packet P)

/-- The bench right after a reset edge, from whatever the registers held. -/
def Bench.reset (s : Rob P) (i : Stimulus P) : Bench P where
  rob := s.step { i with rst := true }
  accepted := []
  delivered := []

/-- One cycle: an input transfer, an output transfer and the clock edge. -/
def Bench.cycle (t : Bench P) (i : Stimulus P) : Bench P where
  rob := t.rob.step i
  accepted :=
    if i.sAxisTvalid && t.rob.sAxisTready then t.accepted ++ [(i.sAxisTdata, i.sAxisTkeep)]
    else t.accepted
  delivered :=
    if t.rob.mAxisTvalid && i.mAxisTready then t.delivered ++ [(t.rob.mAxisTdata, t.rob.mAxisTkeep)]
    else t.delivered

/-- The stimulus of the delivery result: no reset, and every accepted beat is the last of its packet. -/
def Bench.SingleBeat (t : Bench P) (i : Stimulus P) : Prop :=
  i.rst = false ∧ (i.sAxisTvalid = true → t.rob.sAxisTready = true → i.sAxisTlast = true)

/-- The registered match points to a slot that is empty again. -/
def Rob.Stale (s : Rob P) : Prop :=
  s.matchValidPipe = true ∧ s.robValid s.matchIdx = false

/-- The consumer is not ready in a cycle in which the registered match is stale. -/
def Bench.NotStale (t : Bench P) (i : Stimulus P) : Prop :=
  ¬ (t.rob.Stale ∧ i.mAxisTready = true)

instance (t : Bench P) (i : Stimulus P) : Decidable (t.SingleBeat i) :=
  inferInstanceAs (Decidable (_ ∧ _))

instance (s : Rob P) : Decidable s.Stale :=
  inferInstanceAs (Decidable (_ ∧ _))

instance (t : Bench P) (i : Stimulus P) : Decidable (t.NotStale i) :=
  inferInstanceAs (Decidable (¬ _))

end Otap.Rtl
