import Mathlib.Algebra.BigOperators.Group.Finset.Piecewise
import Mathlib.Data.List.Perm.Basic
import OpenwrtMisc.Mcp25xxfd.FrameCodec

/-! The statistics of transmitted frames, which two functions of the driver count. -/

namespace OpenwrtMisc.Mcp25xxfd

open BitMask

/-- The frame is a CAN FD frame, it is sent with the bit rate switched. -/
def Frame.isFd : Frame → Bool
  | .fd .. => true
  | .classic .. => false

def Frame.isBrs : Frame → Bool
  | .fd _ _ brs _ _ => brs
  | .classic .. => false

/-- The counters of `priv->stats` and of the net device that a transmission concerns. -/
structure TxCounts where
  txPackets : Nat
  txFdCount : Nat
  txBrsCount : Nat
  txDlcUsage : Nat → Nat

/-- The sum of the counters of all DLCs. -/
def usageSum (usage : Nat → Nat) : Nat := ∑ dlc ∈ Finset.range 16, usage dlc

variable {echo : EchoTable Nat}

/-- The counters as the transmit path sees them. -/
def XmitState.withCounts (counts : TxCounts) (xmit : XmitState echo) : XmitState echo :=
  { xmit with
    txFdCount := counts.txFdCount
    txBrsCount := counts.txBrsCount
    txDlcUsage := counts.txDlcUsage }

/-- The counters after a call of the transmit path, which does not touch `tx_packets`. -/
def TxCounts.afterXmit (counts : TxCounts) (xmit : XmitState echo) : TxCounts :=
  { counts with
    txFdCount := xmit.txFdCount
    txBrsCount := xmit.txBrsCount
    txDlcUsage := xmit.txDlcUsage }

/-- The counters as the delivery sees them. -/
def Delivery.withCounts (counts : TxCounts) (delivery : Delivery echo) : Delivery echo :=
  { delivery with
    txPackets := counts.txPackets
    txFdCount := counts.txFdCount
    txBrsCount := counts.txBrsCount
    txDlcUsage := counts.txDlcUsage }

/-- The counters after a call of the delivery. -/
def Delivery.counts (delivery : Delivery echo) : TxCounts where
  txPackets := delivery.txPackets
  txFdCount := delivery.txFdCount
  txBrsCount := delivery.txBrsCount
  txDlcUsage := delivery.txDlcUsage

/--
The transmit path and the delivery, with the counters that they share.

The frames only record what happened.
-/
structure StatState (echo : EchoTable Nat) where
  counts : TxCounts
  xmit : XmitState echo
  delivery : Delivery echo
  /-- The frames whose TEF entry is not processed yet, each with its message. -/
  outstanding : List (Frame × FillMessage)
  /-- The frames that `spi_async` has refused. -/
  refused : List Frame
  /-- The frames whose TEF entry was processed. -/
  transmitted : List Frame

/-- All frames that were handed to `mcp25xxfd_transmit_message` or to its sibling for CAN FD. -/
def StatState.handed (state : StatState echo) : List Frame :=
  state.refused ++ state.outstanding.map Prod.fst ++ state.transmitted

/-- The steps that concern the counters, and all others. -/
inductive StatLabel (echo : EchoTable Nat) where
  | startXmit (calls : XmitCalls) (frame : Frame)
  /-- The TEF entry of an outstanding frame was read to an address, and is processed. -/
  | processQueuedTef (place tef : Nat) (ts : BitVec 32)
  /-- No other function of the driver touches the counters, whatever else it changes. -/
  | other (xmit : XmitState echo) (delivery : Delivery echo)

variable (layout : TxLayout) (dlcs : DlcTable) (payloadSize : Nat)

/-- The FIFO that a call of `mcp25xxfd_start_xmit` hands its frame over for, if it gets that far. -/
def handedFifo (calls : XmitCalls) (xmit : XmitState echo) : Option Nat :=
  if calls.invalid then none else if xmit.busOff then none else allocateFifo layout xmit.tx

/-- One step, `none` when there is no such outstanding frame. -/
def statStep (state : StatState echo) : StatLabel echo → Option (StatState echo)
  | .startXmit calls frame =>
    let xmit := state.xmit.withCounts state.counts
    let (ret, left, after) := startXmit layout dlcs payloadSize calls frame xmit
    let next := { state with xmit := after, counts := state.counts.afterXmit after }
    match handedFifo layout calls xmit with
    | none => some next
    | some fifo =>
      match ret with
      | .ok =>
        let message := after.transmitFifos fifo
        some { next with outstanding := state.outstanding ++ [(left, message)] }
      | .busy => some { next with refused := state.refused ++ [left] }
  | .processQueuedTef place tef ts =>
    match state.outstanding[place]? with
    | none => none
    | some (frame, txm) =>
      -- The controller puts the flags word of the message into the entry.
      let entry := (txm.object ts 0).take tefReadSize
      let delivery := (state.delivery.withCounts state.counts).receiveTef tef entry
      let delivery := processQueuedTef dlcs tef delivery
      some { state with
        delivery := delivery
        counts := delivery.counts
        outstanding := state.outstanding.eraseIdx place
        transmitted := state.transmitted ++ [frame] }
  | .other xmit delivery => some { state with xmit := xmit, delivery := delivery }

/--
The state of an interface that was just opened.

`mcp25xxfd_open` clears `priv->stats`, and leaves `tx_packets` of the net device as it was.
-/
def StatState.opened (packets : Nat) (xmit : XmitState echo) (delivery : Delivery echo) :
    StatState echo where
  counts := { txPackets := packets, txFdCount := 0, txBrsCount := 0, txDlcUsage := fun _ => 0 }
  xmit := xmit
  delivery := delivery
  outstanding := []
  refused := []
  transmitted := []

/-- The machine of the statistics. -/
def statMachine (packets : Nat) (xmit : XmitState echo) (delivery : Delivery echo) :
    Machine (StatState echo) (StatLabel echo) where
  start := .opened packets xmit delivery
  step := statStep layout dlcs payloadSize

/-- What is asked of the statistics: each transmitted frame is counted once. -/
structure StatsRight (state : StatState echo) : Prop where
  usage : usageSum state.counts.txDlcUsage = state.counts.txPackets
  fd : state.counts.txFdCount = state.transmitted.countP Frame.isFd
  brs : state.counts.txBrsCount = state.transmitted.countP Frame.isBrs

/-- The frame that a step hands over, in a call that is valid and finds the bus on and a FIFO. -/
def handedFrame (state : StatState echo) : StatLabel echo → List Frame
  | .startXmit calls frame =>
    if (handedFifo layout calls (state.xmit.withCounts state.counts)).isSome then [frame] else []
  | .processQueuedTef .. => []
  | .other .. => []

/-- One more frame of this kind is counted, under some DLC, and so many packets more. -/
structure CountsOne (fd brs : Bool) (packets : Nat) (before after : TxCounts) : Prop where
  usage : usageSum after.txDlcUsage = usageSum before.txDlcUsage + 1
  packets : after.txPackets = before.txPackets + packets
  fd : after.txFdCount = before.txFdCount + fd.toNat
  brs : after.txBrsCount = before.txBrsCount + brs.toNat

/-- A message says what kind of a frame it carries. -/
def SaysKind (frame : Frame) (txm : FillMessage) : Prop :=
  txm.fillObj.flags.getLsbD 7 = frame.isFd ∧ txm.fillObj.flags.getLsbD 6 = frame.isBrs

/-- What the counters show in any state of a run, from the packets that the open has found. -/
structure Counted (packets : Nat) (state : StatState echo) : Prop where
  usage : usageSum state.counts.txDlcUsage = state.handed.length + state.transmitted.length
  packets : state.counts.txPackets = packets + state.transmitted.length
  fd : state.counts.txFdCount =
    state.handed.countP Frame.isFd + state.transmitted.countP Frame.isFd
  brs : state.counts.txBrsCount =
    state.handed.countP Frame.isBrs + state.transmitted.countP Frame.isBrs
  messages : ∀ pair ∈ state.outstanding, SaysKind pair.1 pair.2

/-- Counting under one of the sixteen DLCs adds one to the sum. -/
theorem usageSum_countAt {dlc : Nat} (inside : dlc < 16) (usage : Nat → Nat) :
    usageSum (countAt dlc usage) = usageSum usage + 1 := by
  -- Only one term of the sum changes, and it grows by one.
  have member : dlc ∈ Finset.range 16 := Finset.mem_range.mpr inside
  have rest := Finset.sum_eq_add_sum_sdiff_singleton_of_mem member usage
  rw [usageSum, countAt, Finset.sum_update_of_mem member, usageSum, rest]
  omega

variable {layout}

/-- A frame that is handed over is counted once, whether `spi_async` accepts it or not. -/
theorem transmit_counts (spiAsync : Bool) (fifo : Nat) (frame : Frame) (xmit : XmitState echo)
    (counts : TxCounts) :
    let done := transmit dlcs payloadSize spiAsync fifo frame (xmit.withCounts counts)
    CountsOne done.2.1.isFd done.2.1.isBrs 0 counts (counts.afterXmit done.2.2) := by
  -- Neither kind of frame is counted by what the two functions have in common.
  have common (obj : ObjHeader) (len : Nat) (data : List UInt8) (state : XmitState echo) :
      counts.afterXmit (transmitMessageCommon payloadSize spiAsync fifo obj len data state).2 =
        counts.afterXmit state := by
    cases spiAsync <;> rfl
  cases frame with
  | classic canId canDlc data =>
    refine ⟨?_, rfl, ?_, ?_⟩
    · show usageSum (counts.afterXmit (transmitMessageCommon ..).2).txDlcUsage = _
      rw [common]
      exact usageSum_countAt (by split <;> omega) counts.txDlcUsage
    · show (counts.afterXmit (transmitMessageCommon ..).2).txFdCount = _
      rw [common]
      rfl
    · show (counts.afterXmit (transmitMessageCommon ..).2).txBrsCount = _
      rw [common]
      rfl
  | fd canId len brs esi data =>
    refine ⟨?_, rfl, ?_, ?_⟩
    · show usageSum (counts.afterXmit (transmitMessageCommon ..).2).txDlcUsage = _
      rw [common]
      cases brs <;> exact usageSum_countAt (dlcs.inFlags len) counts.txDlcUsage
    · show (counts.afterXmit (transmitMessageCommon ..).2).txFdCount = _
      rw [common]
      cases brs <;> rfl
    · show (counts.afterXmit (transmitMessageCommon ..).2).txBrsCount = _
      rw [common]
      cases brs <;> rfl

/-- The message of a frame says what kind of a frame it is. -/
theorem transmit_saysKind (spiAsync : Bool) {fifo : Nat} (inside : fifo < 128) (frame : Frame)
    (xmit : XmitState echo) :
    let done := transmit dlcs payloadSize spiAsync fifo frame xmit
    SaysKind done.2.1 (done.2.2.transmitFifos fifo) := by
  -- The cases are the two kinds of frames.
  cases frame with
  | classic canId canDlc data =>
    -- The length that goes into the flags word is cut to eight, so the flags beside it are as set.
    have small : (if canDlc > 8 then 8 else canDlc) < 16 := by split <;> omega
    have say := frameFlags_say canId small inside
    rw [SaysKind]
    show ((transmitMessageCommon ..).2.transmitFifos fifo).fillObj.flags.getLsbD 7 = _ ∧
      ((transmitMessageCommon ..).2.transmitFifos fifo).fillObj.flags.getLsbD 6 = _
    rw [transmitMessageCommon_message]
    exact ⟨say.fdf, say.brs⟩
  | fd canId len brs esi data =>
    have say := fdFlags_say canId brs esi (dlcs.inFlags len) inside
    have message := transmitFdmessage_message dlcs payloadSize spiAsync fifo canId len brs esi data
      xmit
    dsimp only at message
    rw [SaysKind]
    show ((transmitFdmessage ..).2.2.transmitFifos fifo).fillObj.flags.getLsbD 7 = _ ∧
      ((transmitFdmessage ..).2.2.transmitFifos fifo).fillObj.flags.getLsbD 6 = _
    rw [message]
    exact ⟨say.fdf, say.brs⟩

/-- What a call of `mcp25xxfd_start_xmit` does that does not get to hand its frame over. -/
theorem startXmit_idle {calls : XmitCalls} {xmit : XmitState echo} (frame : Frame)
    (counts : TxCounts) (none : handedFifo layout calls (xmit.withCounts counts) = none) :
    counts.afterXmit
        (startXmit layout dlcs payloadSize calls frame (xmit.withCounts counts)).2.2 = counts := by
  -- The call returns before it hands the frame over, in one of the three ways.
  rw [handedFifo] at none
  rw [startXmit]
  split at none
  · rename_i invalid
    rw [if_pos invalid]
    rfl
  · rename_i valid
    rw [if_neg valid]
    split at none
    · rename_i off
      rw [if_pos off]
      rfl
    · rename_i on
      rw [if_neg on, none]
      rfl

/-- A call that hands its frame over does so after it has marked the FIFO. -/
theorem startXmit_handed {calls : XmitCalls} {xmit : XmitState echo} {fifo : Nat} (frame : Frame)
    (counts : TxCounts) (handed : handedFifo layout calls (xmit.withCounts counts) = some fifo) :
    ∃ marked : XmitState echo,
      let done := transmit dlcs payloadSize calls.spiAsync fifo frame (marked.withCounts counts)
      let ret := startXmit layout dlcs payloadSize calls frame (xmit.withCounts counts)
      ret.1 = done.1 ∧ ret.2.1 = done.2.1 ∧ ret.2.2.transmitFifos = done.2.2.transmitFifos ∧
        counts.afterXmit ret.2.2 = counts.afterXmit done.2.2 := by
  -- The FIFO is marked and counted before the frame is handed over.
  refine ⟨{ xmit with
    tx := submitFifo layout fifo xmit.tx
    fifoUsage := countAt fifo xmit.fifoUsage }, ?_⟩
  rw [handedFifo] at handed
  dsimp only
  rw [startXmit]
  split at handed
  · cases handed
  · rename_i valid
    rw [if_neg valid]
    split at handed
    · cases handed
    · rename_i on
      rw [if_neg on, handed]
      exact ⟨rfl, rfl, rfl, rfl⟩

/-- A FIFO that a frame is handed over for has a number that fits into the SEQ field. -/
theorem handedFifo_lt {calls : XmitCalls} {xmit : XmitState echo} {fifo : Nat}
    (handed : handedFifo layout calls xmit = some fifo) : fifo < 128 := by
  -- The FIFO is one of the layout's 32.
  rw [handedFifo] at handed
  split at handed
  · cases handed
  · split at handed
    · cases handed
    · have below := ((allocateFifo_eq_some layout).mp handed).1
      have inMask := layout.inMask
      omega

/-- The DLC of an object is one of the sixteen. -/
theorem ObjTs.dlc_lt (obj : ObjTs) : obj.dlc < 16 := by
  -- The DLC is what a mask of four bits leaves of the flags word.
  have mask : canObjFlagsDlcMask.toNat < 16 := by decide
  rw [ObjTs.dlc, BitVec.toNat_and]
  exact Nat.lt_of_le_of_lt Nat.and_le_right mask

/-- A TEF entry is counted once more, with its packet. -/
theorem processQueuedTef_counts {frame : Frame} {txm : FillMessage} (kind : SaysKind frame txm)
    (tef : Nat) (ts : BitVec 32) (delivery : Delivery echo) (counts : TxCounts) :
    let entry := (txm.object ts 0).take tefReadSize
    CountsOne frame.isFd frame.isBrs 1 counts
      (processQueuedTef dlcs tef
        ((delivery.withCounts counts).receiveTef tef entry)).counts := by
  intro entry
  -- The header of the entry has the flags word of the message, but for the mark of the driver.
  have flags := (header_receiveTef txm ts tef (delivery.withCounts counts)).2
  -- The mark of the driver is none of the two flags.
  have kept (flag : Nat) (low : flag < 31) :
      (((delivery.withCounts counts).receiveTef tef entry).queued.header tef).has (bit flag) =
        txm.fillObj.flags.getLsbD flag := by
    rw [ObjTs.has_bit, flags, canObjFlagsCustomIstef, getLsbD_set _ (by omega),
      decide_eq_false (by omega), Bool.or_false]
  have fd := kept 7 (by decide)
  have brs := kept 6 (by decide)
  rw [kind.1] at fd
  rw [kind.2] at brs
  refine ⟨usageSum_countAt (ObjTs.dlc_lt _) counts.txDlcUsage, rfl, ?_, ?_⟩
  · show (if ObjTs.has _ canObjFlagsFdf = true then counts.txFdCount + 1 else counts.txFdCount) = _
    rw [canObjFlagsFdf, fd]
    cases frame.isFd <;> rfl
  · show (if ObjTs.has _ canObjFlagsBrs = true then counts.txBrsCount + 1
      else counts.txBrsCount) = _
    rw [canObjFlagsBrs, brs]
    cases frame.isBrs <;> rfl

variable {dlcs payloadSize} {packets : Nat} {state next : StatState echo}

/-- One more frame in a list is one more of its kind, if it is of that kind. -/
theorem countP_cons_toNat (kind : Frame → Bool) (frame : Frame) (frames : List Frame) :
    (frame :: frames).countP kind = frames.countP kind + (kind frame).toNat := by
  -- The frame is of the kind or not.
  rw [List.countP_cons]
  cases kind frame <;> rfl

/-- One more frame in the account is one more frame that is counted. -/
theorem Counted.handOver (counted : Counted packets state) {frame : Frame}
    (one : CountsOne frame.isFd frame.isBrs 0 state.counts next.counts)
    (handed : next.handed.Perm (frame :: state.handed))
    (transmitted : next.transmitted = state.transmitted)
    (messages : ∀ pair ∈ next.outstanding, SaysKind pair.1 pair.2) : Counted packets next where
  -- One more frame is in both sums.
  usage := by
    rw [one.usage, counted.usage, handed.length_eq, List.length_cons, transmitted]
    omega
  packets := by rw [one.packets, counted.packets, transmitted, Nat.add_zero]
  fd := by
    rw [one.fd, counted.fd, handed.countP_eq, countP_cons_toNat, transmitted]
    omega
  brs := by
    rw [one.brs, counted.brs, handed.countP_eq, countP_cons_toNat, transmitted]
    omega
  messages := messages

/-- A frame that is reported stays in the account, and is counted a second time. -/
theorem Counted.report (counted : Counted packets state) {frame : Frame}
    (one : CountsOne frame.isFd frame.isBrs 1 state.counts next.counts)
    (handed : next.handed.Perm state.handed)
    (transmitted : next.transmitted = state.transmitted ++ [frame])
    (messages : ∀ pair ∈ next.outstanding, SaysKind pair.1 pair.2) : Counted packets next where
  -- The packet is new, and the frame was in the account before.
  usage := by
    rw [one.usage, counted.usage, handed.length_eq, transmitted, List.length_append]
    rfl
  packets := by rw [one.packets, counted.packets, transmitted, List.length_append]; rfl
  fd := by
    rw [one.fd, counted.fd, handed.countP_eq, transmitted, List.countP_append, countP_cons_toNat,
      List.countP_nil]
    omega
  brs := by
    rw [one.brs, counted.brs, handed.countP_eq, transmitted, List.countP_append, countP_cons_toNat,
      List.countP_nil]
    omega
  messages := messages

/-- An interface that was just opened has counted nothing. -/
theorem counted_opened (packets : Nat) (xmit : XmitState echo) (delivery : Delivery echo) :
    Counted packets (StatState.opened packets xmit delivery) where
  usage := Finset.sum_const_zero
  packets := rfl
  fd := rfl
  brs := rfl
  messages _ member := absurd member List.not_mem_nil

/-- A call of `mcp25xxfd_start_xmit` that hands its frame over adds it to the account. -/
theorem startXmit_handed_perm {calls : XmitCalls} {frame : Frame} {fifo : Nat}
    (handed : handedFifo layout calls (state.xmit.withCounts state.counts) = some fifo)
    (stepped : statStep layout dlcs payloadSize state (.startXmit calls frame) = some next) :
    next.handed.Perm ((startXmit layout dlcs payloadSize calls frame
      (state.xmit.withCounts state.counts)).2.1 :: state.handed) := by
  -- Whatever the call returns, it has handed the frame over.
  rw [statStep] at stepped
  simp only [handed] at stepped
  split at stepped
  · rw [Option.some.injEq] at stepped
    subst stepped
    -- The frame stands behind the outstanding ones.
    simp only [StatState.handed, List.map_append, List.map_cons, List.map_nil]
    rw [← List.append_assoc, List.append_assoc _ [_]]
    exact List.perm_middle
  · rw [Option.some.injEq] at stepped
    subst stepped
    simp only [StatState.handed, List.append_assoc]
    exact List.perm_middle

/-- The processing of a TEF entry moves its frame inside the account. -/
theorem processQueuedTef_handed_perm {place tef : Nat} {ts : BitVec 32}
    (stepped : statStep layout dlcs payloadSize state (.processQueuedTef place tef ts) =
      some next) :
    next.handed.Perm state.handed := by
  -- The entry names a frame that is outstanding.
  simp only [statStep] at stepped
  split at stepped
  · cases stepped
  · rename_i frame txm found
    obtain ⟨inside, here⟩ := List.getElem?_eq_some_iff.mp found
    rw [Option.some.injEq] at stepped
    subst stepped
    -- The frame leaves the outstanding ones and comes behind the transmitted ones.
    have moved := (List.getElem_cons_eraseIdx_perm inside).map Prod.fst
    rw [here, List.map_cons] at moved
    simp only [StatState.handed, List.append_assoc]
    refine List.Perm.append_left _ ?_
    rw [← List.append_assoc]
    exact (List.perm_append_singleton _ _).trans (moved.append_right _)

/-- A frame that is handed over stays of its kind, whatever length it is left with. -/
theorem startXmit_isFd (calls : XmitCalls) (frame : Frame) (xmit : XmitState echo) :
    (startXmit layout dlcs payloadSize calls frame xmit).2.1.isFd = frame.isFd := by
  -- Each of the two functions leaves a frame of the kind that it is for.
  rw [startXmit]
  split
  · rfl
  · split
    · rfl
    · split
      · rfl
      · cases frame <;> rfl

/-- A step adds to the account what it hands over. -/
theorem handed_step {label : StatLabel echo}
    (stepped : statStep layout dlcs payloadSize state label = some next) :
    (next.handed.map Frame.isFd).Perm
      (state.handed.map Frame.isFd ++ (handedFrame layout state label).map Frame.isFd) := by
  -- The cases are the two kinds of steps.
  cases label with
  | startXmit calls frame =>
    cases handed : handedFifo layout calls (state.xmit.withCounts state.counts) with
    | none =>
      rw [statStep] at stepped
      simp only [handed, Option.some.injEq] at stepped
      subst stepped
      simp [handedFrame, handed, StatState.handed]
    | some fifo =>
      -- The frame is left as it is sent, which does not change what kind of a frame it is.
      have added := (startXmit_handed_perm handed stepped).map Frame.isFd
      rw [List.map_cons, startXmit_isFd] at added
      rw [handedFrame, handed, Option.isSome_some, if_pos rfl]
      exact added.trans (List.perm_append_singleton _ _).symm
  | processQueuedTef place tef ts =>
    rw [handedFrame, List.map_nil, List.append_nil]
    exact (processQueuedTef_handed_perm stepped).map Frame.isFd
  | other xmit delivery =>
    simp only [statStep, Option.some.injEq] at stepped
    subst stepped
    rw [handedFrame, List.map_nil, List.append_nil]
    exact .refl _

/-- A call of `mcp25xxfd_start_xmit` keeps the account. -/
theorem Counted.startXmit (counted : Counted packets state) {calls : XmitCalls} {frame : Frame}
    (stepped : statStep layout dlcs payloadSize state (.startXmit calls frame) = some next) :
    Counted packets next := by
  -- No frame is handed over, or the message of one is counted.
  cases handed : handedFifo layout calls (state.xmit.withCounts state.counts) with
  | none =>
    rw [statStep] at stepped
    have counts := startXmit_idle dlcs payloadSize frame state.counts handed
    simp only [handed, Option.some.injEq] at stepped
    subst stepped
    exact ⟨by rw [counts]; exact counted.usage, by rw [counts]; exact counted.packets,
      by rw [counts]; exact counted.fd, by rw [counts]; exact counted.brs, counted.messages⟩
  | some fifo =>
    obtain ⟨marked, ret, left, fifos, after⟩ :=
      startXmit_handed dlcs payloadSize frame state.counts handed
    have one := transmit_counts dlcs payloadSize calls.spiAsync fifo frame marked state.counts
    have kind := transmit_saysKind dlcs payloadSize calls.spiAsync (handedFifo_lt handed) frame
      (marked.withCounts state.counts)
    dsimp only at one kind ret left fifos after
    rw [← left, ← after] at one
    rw [← left, ← fifos] at kind
    have added := startXmit_handed_perm handed stepped
    rw [statStep] at stepped
    simp only [handed] at stepped
    split at stepped
    · -- The frame is outstanding, with the message that was filled for it.
      rw [Option.some.injEq] at stepped
      subst stepped
      refine counted.handOver one added rfl fun pair member => ?_
      rcases List.mem_append.mp member with old | new
      · exact counted.messages pair old
      · rw [List.mem_singleton.mp new]
        exact kind
    · -- The frame was refused, with its counters already raised.
      rw [Option.some.injEq] at stepped
      subst stepped
      exact counted.handOver one added rfl counted.messages

/-- The processing of a TEF entry keeps the account. -/
theorem Counted.processQueuedTef (counted : Counted packets state) {place tef : Nat}
    {ts : BitVec 32}
    (stepped : statStep layout dlcs payloadSize state (.processQueuedTef place tef ts) =
      some next) :
    Counted packets next := by
  -- The entry names a frame that is outstanding, with the message that was sent for it.
  have moved := processQueuedTef_handed_perm stepped
  simp only [statStep] at stepped
  split at stepped
  · cases stepped
  · rename_i frame txm found
    -- The entry has the flags of the message, which say what kind of a frame it was.
    have kind := counted.messages (frame, txm) (List.mem_of_getElem? found)
    have one := processQueuedTef_counts dlcs kind tef ts state.delivery state.counts
    rw [Option.some.injEq] at stepped
    subst stepped
    refine counted.report one moved rfl fun pair member => ?_
    exact counted.messages pair (List.mem_of_mem_eraseIdx member)

section Runs

variable {xmit : XmitState echo} {delivery : Delivery echo} {labels : List (StatLabel echo)}
variable {last : StatState echo}
variable (ran : (statMachine layout dlcs payloadSize packets xmit delivery).exec
  (.opened packets xmit delivery) labels = some last)
include ran

/-- Every run keeps the account, whatever the rest of the driver does. -/
theorem counted_of_run : Counted packets last := by
  -- The step lemmas of the two functions keep it, and nothing else touches the counters.
  refine Machine.exec_invariant (fun state label next counted stepped => ?_) labels _ last
    (counted_opened packets xmit delivery) ran
  have stepped : statStep layout dlcs payloadSize state label = some next := stepped
  cases label with
  | startXmit calls frame => exact counted.startXmit stepped
  | processQueuedTef place tef ts => exact counted.processQueuedTef stepped
  | other xmit delivery =>
    simp only [statStep, Option.some.injEq] at stepped
    subst stepped
    -- The counters are the same for all that the rest of the driver does.
    exact ⟨counted.usage, counted.packets, counted.fd, counted.brs, counted.messages⟩

/-- A run that loses no frame counts each of its frames twice. -/
theorem counted_twice (settled : last.outstanding = []) (accepted : last.refused = []) :
    last.counts.txPackets = packets + last.transmitted.length ∧
      usageSum last.counts.txDlcUsage = 2 * last.transmitted.length ∧
      last.counts.txFdCount = 2 * last.transmitted.countP Frame.isFd ∧
      last.counts.txBrsCount = 2 * last.transmitted.countP Frame.isBrs := by
  have counted := counted_of_run ran
  -- All frames that were handed over are transmitted by then, so both counts are of the same ones.
  have handed : last.handed = last.transmitted := by
    rw [StatState.handed, settled, accepted]
    rfl
  have usage := counted.usage
  have fd := counted.fd
  have brs := counted.brs
  rw [handed] at usage fd brs
  exact ⟨counted.packets, by omega, by omega, by omega⟩

/-- The account of a run has the frames that its steps have handed over, each of its kind. -/
theorem handed_of_run :
    (last.handed.map Frame.isFd).Perm
      (((statMachine layout dlcs payloadSize packets xmit delivery).outputs (handedFrame layout)
        (.opened packets xmit delivery) labels).map Frame.isFd) :=
  -- The account is empty at the open, and every step adds what it hands over.
  Machine.exec_outputs (fun _ _ _ stepped => handed_step stepped) labels _ last ran

end Runs

/-- A frame that is sent with the bit rate switched is a CAN FD frame. -/
theorem Frame.isFd_of_isBrs {frame : Frame} (brs : frame.isBrs = true) : frame.isFd = true := by
  -- A classic frame has no such bit.
  cases frame with
  | classic canId canDlc data => cases brs
  | fd canId len brs esi data => rfl

/--
The statistics are right when as many frames were handed over as packets were there at the open.

Each frame that is handed over is counted once too often, which the sum of the DLCs hides only then,
and the other two counters for classic frames only.
This holds in every state of a run, so also in those with no frame outstanding.
The run is any sequence of calls and of TEF entries, whatever the rest of the driver does meanwhile.
-/
theorem statsRight_iff (layout : TxLayout) (dlcs : DlcTable) (payloadSize packets : Nat)
    (echo : EchoTable Nat) (xmit : XmitState echo) (delivery : Delivery echo)
    (labels : List (StatLabel echo)) (last : StatState echo)
    (ran : (statMachine layout dlcs payloadSize packets xmit delivery).exec
      (.opened packets xmit delivery) labels = some last) :
    StatsRight last ↔
      ((statMachine layout dlcs payloadSize packets xmit delivery).outputs (handedFrame layout)
        (.opened packets xmit delivery) labels).length = packets ∧
      ∀ frame ∈ (statMachine layout dlcs payloadSize packets xmit delivery).outputs
        (handedFrame layout) (.opened packets xmit delivery) labels, frame.isFd = false := by
  -- The counters are compared with the account of the run.
  have counted := counted_of_run ran
  have handed := handed_of_run ran
  have length := handed.length_eq
  rw [List.length_map, List.length_map] at length
  -- The frames of the account are classic ones just when those of the steps are.
  have classic : (∀ frame ∈ last.handed, frame.isFd = false) ↔
      ∀ frame ∈ (statMachine layout dlcs payloadSize packets xmit delivery).outputs
        (handedFrame layout) (.opened packets xmit delivery) labels, frame.isFd = false := by
    have same := fun fd => handed.mem_iff (a := fd)
    simp only [List.mem_map] at same
    simpa using not_congr (same true)
  rw [← length, ← classic]
  have usage := counted.usage
  have fd := counted.fd
  have brs := counted.brs
  constructor
  · intro right
    -- The first count of each frame is what the counters have too much.
    rw [right.usage, counted.packets] at usage
    rw [right.fd] at fd
    have none : last.handed.countP Frame.isFd = 0 := by omega
    refine ⟨by omega, fun frame member => ?_⟩
    simpa using List.countP_eq_zero.mp none frame member
  · rintro ⟨balanced, none⟩
    have noFd : last.handed.countP Frame.isFd = 0 :=
      List.countP_eq_zero.mpr fun frame member => by
        rw [none frame member]
        exact Bool.false_ne_true
    have noBrs : last.handed.countP Frame.isBrs = 0 := by
      refine List.countP_eq_zero.mpr fun frame member switched => ?_
      have kind := Frame.isFd_of_isBrs switched
      rw [none frame member] at kind
      cases kind
    exact
      { usage := by rw [usage, counted.packets, balanced]
        fd := by omega
        brs := by omega }

/-- A frame with eight bytes, sent with the bit rate switched and then reported. -/
def sentOnce : List (StatLabel (EchoTable.ofFunction Nat)) :=
  [.startXmit { invalid := false, spiAsync := true } (.fd 0x123 8 true false [0xaa]),
    .processQueuedTef 0 0 256]

/-- The transmit path and the delivery of an interface that was just opened. -/
def openedXmit : XmitState (EchoTable.ofFunction Nat) := .opened _ classicLayout

def openedDelivery : Delivery (EchoTable.ofFunction Nat) :=
  .begun _ { fifoData := fun _ => 0, header := fun _ => stamped 0 0, rxb := [] }

/-- The statistics of one frame on an interface that has not sent before. -/
theorem statsRight_iff_sentOnce :
    ∃ last, (statMachine classicLayout .canFd 8 0 openedXmit openedDelivery).exec
        (.opened 0 openedXmit openedDelivery) sentOnce = some last ∧
      (StatsRight last ↔
        ((statMachine classicLayout .canFd 8 0 openedXmit openedDelivery).outputs
          (handedFrame classicLayout) (.opened 0 openedXmit openedDelivery) sentOnce).length = 0 ∧
        ∀ frame ∈ (statMachine classicLayout .canFd 8 0 openedXmit openedDelivery).outputs
          (handedFrame classicLayout) (.opened 0 openedXmit openedDelivery) sentOnce,
          frame.isFd = false) :=
  ⟨_, rfl, statsRight_iff classicLayout .canFd 8 0 _ openedXmit openedDelivery sentOnce _ rfl⟩

/-- One frame is counted twice. -/
theorem sentOnce_not_right :
    ¬ ∀ (layout : TxLayout) (dlcs : DlcTable) (payloadSize packets : Nat) (echo : EchoTable Nat)
      (xmit : XmitState echo) (delivery : Delivery echo) (labels : List (StatLabel echo))
      (last : StatState echo),
      (statMachine layout dlcs payloadSize packets xmit delivery).exec
        (.opened packets xmit delivery) labels =
          some last → last.outstanding = [] → StatsRight last := by
  -- One frame is sent and reported, and counted with both.
  intro claim
  have right := claim classicLayout .canFd 8 0 (EchoTable.ofFunction Nat) openedXmit
    openedDelivery sentOnce _ rfl rfl
  exact absurd right.fd (by decide)

end OpenwrtMisc.Mcp25xxfd
