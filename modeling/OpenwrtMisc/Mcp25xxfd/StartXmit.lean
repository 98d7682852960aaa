import OpenwrtMisc.Mcp25xxfd.Delivery
import OpenwrtMisc.Mcp25xxfd.TxInvariant

/-! The transmission of a frame up to the SPI message, with its statistics and its failures. -/

namespace OpenwrtMisc.Mcp25xxfd

open BitMask

/-- `struct can_frame` and `struct canfd_frame`, as the data of an skb. -/
inductive Frame where
  | classic (canId : BitVec 32) (canDlc : Nat) (data : List UInt8)
  | fd (canId : BitVec 32) (len : Nat) (brs esi : Bool) (data : List UInt8)
  deriving DecidableEq, Repr

/-- `struct mcp25xxfd_obj`. -/
structure ObjHeader where
  id : BitVec 32
  flags : BitVec 32
  deriving DecidableEq, Repr

/-- The part of `struct mcp25xxfd_trigger_tx_message` that is filled for each frame. -/
structure FillMessage where
  fillObj : ObjHeader
  fillData : List UInt8
  /-- The length of `fill_xfer`. -/
  len : Nat
  deriving DecidableEq, Repr

/-- The results of `mcp25xxfd_start_xmit`. -/
inductive NetdevTx where
  | ok
  | busy
  deriving DecidableEq, Repr

/-- The state of the transmit path with the statistics that a frame is counted in. -/
structure XmitState (echo : EchoTable Nat) where
  tx : TxState echo
  /-- `priv->can.state` is `CAN_STATE_BUS_OFF`. -/
  busOff : Bool
  fifoUsage : Nat → Nat
  txDlcUsage : Nat → Nat
  txFdCount : Nat
  txBrsCount : Nat
  /-- `priv->spi_transmit_fifos`, by the number of the FIFO. -/
  transmitFifos : Nat → FillMessage

/-- What the calls into the kernel return to one call. -/
structure XmitCalls where
  /-- `can_dropped_invalid_skb` has dropped the skb. -/
  invalid : Bool
  /-- `spi_async` has accepted the message. -/
  spiAsync : Bool
  deriving DecidableEq, Repr

variable {echo : EchoTable Nat} (layout : TxLayout) (dlcs : DlcTable) (payloadSize : Nat)

/-- `mcp25xxfd_canid_to_mcpid`. -/
def canidToMcpid (canId : BitVec 32) : ObjHeader :=
  let header : ObjHeader :=
    if canId &&& bit 31 ≠ 0 then
      { id := (canId &&& span 0 18) <<< 11 ||| (canId &&& span 18 11) >>> 18
        flags := canObjFlagsIde }
    else { id := canId &&& span 0 11, flags := 0 }
  { header with
    flags := if canId &&& bit 30 ≠ 0 then header.flags ||| canObjFlagsRtr else header.flags }

/-- The flags that both kinds of frames get, with their DLC. -/
def frameFlags (canId flags : BitVec 32) (dlc : Nat) : BitVec 32 :=
  let flags := flags ||| BitVec.ofNat 32 dlc
  let flags := if canId &&& bit 31 ≠ 0 then flags ||| canObjFlagsIde else flags
  if canId &&& bit 30 ≠ 0 then flags ||| canObjFlagsRtr else flags

/-- `ALIGN(len, 4)`. -/
def align4 (len : Nat) : Nat := (len + 3) / 4 * 4

/-- `mcp25xxfd_transmit_message_common`. -/
def transmitMessageCommon (spiAsync : Bool) (fifo : Nat) (obj : ObjHeader) (len : Nat)
    (data : List UInt8) (state : XmitState echo) : NetdevTx × XmitState echo :=
  let txm : FillMessage :=
    { fillObj :=
        { obj with flags := obj.flags ||| BitVec.ofNat 32 fifo <<< canObjFlagsSeqShift }
      fillData := data.take len ++ List.replicate (payloadSize - len) 0
      -- The command and the header come before the data.
      len := 2 + 8 + align4 len }
  let state := { state with transmitFifos := Function.update state.transmitFifos fifo txm }
  if spiAsync then
    (.ok, { state with tx := { state.tx with spiQueue := state.tx.spiQueue ++ [fifo] } })
  else (.busy, state)

/-- `mcp25xxfd_transmit_fdmessage`, with the frame as it is left. -/
def transmitFdmessage (spiAsync : Bool) (fifo : Nat) (canId : BitVec 32) (len : Nat)
    (brs esi : Bool) (data : List UInt8) (state : XmitState echo) :
    NetdevTx × Frame × XmitState echo :=
  let dlc := dlcs.canLen2dlc len
  let len := dlcs.canDlc2len dlc
  let header := canidToMcpid canId
  let flags := frameFlags canId header.flags dlc
  let flags := if brs then flags ||| canObjFlagsBrs else flags
  let state := if brs then { state with txBrsCount := state.txBrsCount + 1 } else state
  let flags := if esi then flags ||| canObjFlagsEsi else flags
  let flags := flags ||| canObjFlagsFdf
  let state :=
    { state with
      txFdCount := state.txFdCount + 1
      txDlcUsage := countAt dlc state.txDlcUsage }
  let (ret, state) :=
    transmitMessageCommon payloadSize spiAsync fifo { header with flags := flags } len data state
  (ret, .fd canId len brs esi data, state)

/-- `mcp25xxfd_transmit_message`, with the frame as it is left. -/
def transmitMessage (spiAsync : Bool) (fifo : Nat) (canId : BitVec 32) (canDlc : Nat)
    (data : List UInt8) (state : XmitState echo) : NetdevTx × Frame × XmitState echo :=
  let canDlc := if canDlc > 8 then 8 else canDlc
  let state := { state with txDlcUsage := countAt canDlc state.txDlcUsage }
  let header := canidToMcpid canId
  let flags := frameFlags canId header.flags canDlc
  let (ret, state) :=
    transmitMessageCommon payloadSize spiAsync fifo { header with flags := flags } canDlc data state
  (ret, .classic canId canDlc data, state)

/-- The message of a frame, of either kind. -/
def transmit (spiAsync : Bool) (fifo : Nat) (frame : Frame) (state : XmitState echo) :
    NetdevTx × Frame × XmitState echo :=
  match frame with
  | .fd canId len brs esi data =>
    transmitFdmessage dlcs payloadSize spiAsync fifo canId len brs esi data state
  | .classic canId canDlc data =>
    transmitMessage payloadSize spiAsync fifo canId canDlc data state

/-- `mcp25xxfd_start_xmit`, with its result and the frame as it is left. -/
def startXmit (calls : XmitCalls) (frame : Frame) (state : XmitState echo) :
    NetdevTx × Frame × XmitState echo :=
  if calls.invalid then (.ok, frame, state)
  else if state.busOff then
    -- The macro passes the line of this call, 1898.
    (.busy, frame, { state with tx := stopQueue 1898 state.tx })
  else
    match allocateFifo layout state.tx with
    | none => (.busy, frame, state)
    | some fifo =>
      let skb := state.tx.frames
      let state :=
        { state with
          tx := submitFifo layout fifo state.tx
          fifoUsage := countAt fifo state.fifoUsage }
      -- Nothing from here on takes the mark of the FIFO back.
      let (ret, frame, state) := transmit dlcs payloadSize calls.spiAsync fifo frame state
      let tx :=
        match ret with
        | .ok => { state.tx with slots := echo.canPutEchoSkb skb fifo state.tx.slots }
        | .busy => state.tx
      (ret, frame, { state with tx := { tx with xmit := .idle } })

/-- What is expected of a call that has to be repeated: it leaves no trace. -/
structure LeavesNoTrace (before after : XmitState echo) : Prop where
  txSubmittedMask : after.tx.txSubmittedMask = before.tx.txSubmittedMask
  queueStopped : after.tx.queueStopped = before.tx.queueStopped
  txQueueStatus : after.tx.txQueueStatus = before.tx.txQueueStatus
  fifoUsage : after.fifoUsage = before.fifoUsage
  txDlcUsage : after.txDlcUsage = before.txDlcUsage
  txFdCount : after.txFdCount = before.txFdCount
  txBrsCount : after.txBrsCount = before.txBrsCount
  /-- The frame gets the same FIFO when it is offered again. -/
  sameFifo : allocateFifo layout after.tx = allocateFifo layout before.tx

/-- A FIFO is decided on when it is the next one above the used ones, or the first one. -/
theorem allocateFifo_eq_some {state : TxState echo} {fifo : Nat} :
    allocateFifo layout state = some fifo ↔
      fifo < layout.txFifoStart + layout.txFifos ∧
        fifo = if state.txPendingMask ||| state.txSubmittedMask ≠ 0 then
          fls (state.txPendingMask ||| state.txSubmittedMask) else layout.txFifoStart := by
  -- The candidate is the one that the masks leave.
  rw [allocateFifo]
  generalize (if state.txPendingMask ||| state.txSubmittedMask ≠ 0 then
    fls (state.txPendingMask ||| state.txSubmittedMask) else layout.txFifoStart) = next
  -- The decision is for the one candidate, or for none when it is not a transmit FIFO.
  by_cases valid : next ≥ layout.txFifoStart + layout.txFifos
  · rw [if_pos valid]
    constructor
    · intro none
      exact nomatch none
    · intro both
      rcases both with ⟨below, rfl⟩
      exact absurd below (Nat.not_lt.mpr valid)
  · rw [if_neg valid, Option.some.injEq]
    constructor
    · intro same
      exact ⟨by omega, same.symm⟩
    · exact fun both => both.2.symm

/-- No FIFO is in use from the one that is decided on upwards. -/
theorem allocateFifo_free {state : TxState echo} {fifo : Nat}
    (found : allocateFifo layout state = some fifo) {i : Nat} (above : fifo ≤ i) :
    (state.txPendingMask ||| state.txSubmittedMask).getLsbD i = false := by
  obtain ⟨_, next⟩ := (allocateFifo_eq_some layout).mp found
  -- With no FIFO in use there is nothing above; otherwise the FIFO lies above the highest one.
  by_cases used : state.txPendingMask ||| state.txSubmittedMask = 0
  · rw [used]
    exact BitVec.getLsbD_zero
  · rw [if_pos used] at next
    rw [next] at above
    exact getLsbD_of_fls_le above

/-- A FIFO that was marked as submitted is not decided on again. -/
theorem allocateFifo_submitFifo {state : TxState echo} {fifo : Nat}
    (found : allocateFifo layout state = some fifo) :
    allocateFifo layout (submitFifo layout fifo state) ≠ some fifo := by
  have valid := ((allocateFifo_eq_some layout).mp found).1
  have inMask := layout.inMask
  -- Only the mask of submitted FIFOs has a new bit, whether the queue is stopped or not.
  have marked : (submitFifo layout fifo state).txPendingMask |||
      (submitFifo layout fifo state).txSubmittedMask =
        (state.txPendingMask ||| state.txSubmittedMask) ||| bit fifo := by
    rw [BitVec.or_assoc, submitFifo]
    split <;> rfl
  -- The marked FIFO is the highest one, so the next one lies behind it.
  have top : fls ((state.txPendingMask ||| state.txSubmittedMask) ||| bit fifo) = fifo + 1 :=
    fls_set (by omega) fun i above => allocateFifo_free layout found (Nat.le_of_lt above)
  have used : (state.txPendingMask ||| state.txSubmittedMask) ||| bit fifo ≠ 0 := by
    intro none
    have zero : fls (0 : BitVec 32) = 0 := by decide
    rw [none, zero] at top
    exact absurd top (Nat.succ_ne_zero fifo).symm
  intro again
  have next := ((allocateFifo_eq_some layout).mp again).2
  rw [marked, if_pos used, top] at next
  exact absurd next (Nat.ne_of_lt (Nat.lt_succ_self fifo))

/-- The message of a frame that `spi_async` accepts is queued, and nothing else changes there. -/
theorem transmit_ok (fifo : Nat) (frame : Frame) (state : XmitState echo) :
    (transmit dlcs payloadSize true fifo frame state).1 = .ok ∧
      (transmit dlcs payloadSize true fifo frame state).2.2.tx =
        { state.tx with spiQueue := state.tx.spiQueue ++ [fifo] } := by
  -- The cases are the kinds of frames, which differ in what is counted.
  cases frame with
  | classic canId canDlc data => exact ⟨rfl, rfl⟩
  | fd canId len brs esi data =>
    cases brs with
    | true => exact ⟨rfl, rfl⟩
    | false => exact ⟨rfl, rfl⟩

/-- The message of a frame that `spi_async` refuses is counted all the same. -/
theorem transmit_error (fifo : Nat) (frame : Frame) (state : XmitState echo) :
    (transmit dlcs payloadSize false fifo frame state).1 = .busy ∧
      (transmit dlcs payloadSize false fifo frame state).2.2.tx = state.tx ∧
      (transmit dlcs payloadSize false fifo frame state).2.2.fifoUsage = state.fifoUsage ∧
      ∃ dlc, (transmit dlcs payloadSize false fifo frame state).2.2.txDlcUsage =
        countAt dlc state.txDlcUsage := by
  -- The cases are the kinds of frames, which differ in what is counted.
  cases frame with
  | classic canId canDlc data => exact ⟨rfl, rfl, rfl, _, rfl⟩
  | fd canId len brs esi data =>
    cases brs with
    | true => exact ⟨rfl, rfl, rfl, _, rfl⟩
    | false => exact ⟨rfl, rfl, rfl, _, rfl⟩

/-- Counting one more is seen. -/
theorem countAt_ne (index : Nat) (usage : Nat → Nat) : countAt index usage ≠ usage := by
  intro same
  -- The counter of the index itself has gone up.
  have here := congrFun same index
  rw [countAt, Function.update_self] at here
  omega

variable {layout}

/-- A call that `spi_async` fails leaves its FIFO marked, and its frame counted. -/
theorem startXmit_error_marks {calls : XmitCalls} {state : XmitState echo} {fifo : Nat}
    (frame : Frame) (valid : calls.invalid = false) (on : state.busOff = false)
    (found : allocateFifo layout state.tx = some fifo) (failed : calls.spiAsync = false) :
    (startXmit layout dlcs payloadSize calls frame state).1 = .busy ∧
      (startXmit layout dlcs payloadSize calls frame state).2.2.tx =
        { submitFifo layout fifo state.tx with xmit := .idle } ∧
      (startXmit layout dlcs payloadSize calls frame state).2.2.fifoUsage =
        countAt fifo state.fifoUsage ∧
      ∃ dlc, (startXmit layout dlcs payloadSize calls frame state).2.2.txDlcUsage =
        countAt dlc state.txDlcUsage := by
  -- The FIFO is marked and counted before the message is built, and so is the frame.
  obtain ⟨busy, tx, usage, dlc, counted⟩ := transmit_error dlcs payloadSize fifo frame
    { state with
      tx := submitFifo layout fifo state.tx
      fifoUsage := countAt fifo state.fifoUsage }
  have wake : ¬ state.busOff = true := by rw [on]; exact Bool.false_ne_true
  simp only [startXmit, valid, found, failed, Bool.false_eq_true, if_false, if_neg wake]
  refine ⟨busy, ?_, usage, dlc, counted⟩
  simp only [busy, tx]

/-- A call that `spi_async` fails always leaves a trace, and its frame will get another FIFO. -/
theorem startXmit_error_leaves_trace {calls : XmitCalls} {state : XmitState echo} {fifo : Nat}
    (frame : Frame) (valid : calls.invalid = false) (on : state.busOff = false)
    (found : allocateFifo layout state.tx = some fifo) (failed : calls.spiAsync = false) :
    (startXmit layout dlcs payloadSize calls frame state).1 = .busy ∧
      ¬ LeavesNoTrace layout state (startXmit layout dlcs payloadSize calls frame state).2.2 ∧
      allocateFifo layout (startXmit layout dlcs payloadSize calls frame state).2.2.tx ≠
        some fifo := by
  obtain ⟨busy, tx, usage, _⟩ := startXmit_error_marks dlcs payloadSize frame valid on found failed
  refine ⟨busy, ?_, ?_⟩
  · intro noTrace
    -- The usage of the FIFO is the trace that every call leaves, whichever frame it has.
    have same := noTrace.fifoUsage
    rw [usage] at same
    exact countAt_ne fifo state.fifoUsage same
  · rw [tx]
    exact allocateFifo_submitFifo layout found

/-- The transmit path of an interface that was just opened, with all statistics at zero. -/
def XmitState.opened (echo : EchoTable Nat) (layout : TxLayout) : XmitState echo where
  tx := TxState.opened layout
  busOff := false
  fifoUsage _ := 0
  txDlcUsage _ := 0
  txFdCount := 0
  txBrsCount := 0
  transmitFifos _ := { fillObj := { id := 0, flags := 0 }, fillData := [], len := 0 }

/-- The first frame of an interface finds `spi_async` failing. -/
theorem startXmit_error_first :
    (startXmit classicLayout DlcTable.canFd 8 { invalid := false, spiAsync := false }
        (.classic 0x123 1 [0xaa])
        (XmitState.opened (EchoTable.ofFunction Nat) classicLayout)).1 = .busy ∧
      ¬ LeavesNoTrace classicLayout (XmitState.opened (EchoTable.ofFunction Nat) classicLayout)
        (startXmit classicLayout DlcTable.canFd 8 { invalid := false, spiAsync := false }
          (.classic 0x123 1 [0xaa])
          (XmitState.opened (EchoTable.ofFunction Nat) classicLayout)).2.2 ∧
      allocateFifo classicLayout
        (startXmit classicLayout DlcTable.canFd 8 { invalid := false, spiAsync := false }
          (.classic 0x123 1 [0xaa])
          (XmitState.opened (EchoTable.ofFunction Nat) classicLayout)).2.2.tx ≠
        some classicLayout.txFifoStart :=
  startXmit_error_leaves_trace DlcTable.canFd 8 (.classic 0x123 1 [0xaa]) rfl rfl (by decide) rfl

/-- A frame that `spi_async` refuses is not forgotten, as it would have to be. -/
theorem startXmit_error_not_atomic :
    ¬ ∀ (echo : EchoTable Nat) (layout : TxLayout) (dlcs : DlcTable) (payloadSize : Nat)
      (calls : XmitCalls) (frame : Frame) (state : XmitState echo),
      (txMachine layout echo).Reachable state.tx → state.tx.xmit = .idle →
      state.tx.queueStopped = false → calls.invalid = false → state.busOff = false →
      calls.spiAsync = false →
      LeavesNoTrace layout state (startXmit layout dlcs payloadSize calls frame state).2.2 := by
  intro claim
  have noTrace := claim (EchoTable.ofFunction Nat) classicLayout DlcTable.canFd 8
    { invalid := false, spiAsync := false } (.classic 0x123 1 [0xaa])
    (XmitState.opened (EchoTable.ofFunction Nat) classicLayout) ⟨[], rfl⟩ rfl rfl rfl rfl rfl
  -- The submitted mask was empty, and has the bit of the first FIFO now.
  exact absurd noTrace.txSubmittedMask (by decide)

/-- A call that `spi_async` does not fail is the transmit machine's three steps in a row. -/
theorem startXmit_ok_steps {calls : XmitCalls} {state : XmitState echo} {fifo : Nat}
    (frame : Frame) (valid : calls.invalid = false) (on : state.busOff = false)
    (found : allocateFifo layout state.tx = some fifo) (accepted : calls.spiAsync = true)
    (awake : state.tx.queueStopped = false) (idle : state.tx.xmit = .idle) :
    (txMachine layout echo).exec state.tx [.startXmit, .spiAsync, .putEchoSkb] =
      some (startXmit layout dlcs payloadSize calls frame state).2.2.tx := by
  -- The first step takes the FIFO.
  obtain ⟨ok, tx⟩ := transmit_ok dlcs payloadSize fifo frame
    { state with
      tx := submitFifo layout fifo state.tx
      fifoUsage := countAt fifo state.fifoUsage }
  have wake : ¬ state.busOff = true := by rw [on]; exact Bool.false_ne_true
  have marked : (submitFifo layout fifo state.tx).xmit = .submitted fifo state.tx.frames := by
    rw [submitFifo]
    split <;> rfl
  have first : txStep layout layout.txFifoMask state.tx .startXmit =
      some (submitFifo layout fifo state.tx) := by
    rw [txStep, if_pos ⟨idle, awake⟩, found]
  -- The second step hands the message over, and the third one stores the skb.
  simp only [Machine.exec, txMachine, first, Option.bind_some]
  simp only [txStep, marked, Option.bind_some]
  simp only [startXmit, valid, found, accepted, Bool.false_eq_true, if_false, if_neg wake, ok, tx]

end OpenwrtMisc.Mcp25xxfd
