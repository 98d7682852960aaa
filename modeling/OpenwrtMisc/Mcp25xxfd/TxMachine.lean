import Mathlib.Logic.Function.Basic
import OpenwrtMisc.Kernel.EchoTable
import OpenwrtMisc.Lib.BitMask
import OpenwrtMisc.Lib.Machine

/-! The transmit path of the mcp25xxfd driver: xmit, SPI engine, controller and interrupt thread. -/

namespace OpenwrtMisc.Mcp25xxfd

open BitMask

/-- The part of `priv->fifos` that `mcp25xxfd_setup_fifo` fixes and the transmit path only reads. -/
structure TxLayout where
  txFifoStart : Nat
  txFifos : Nat
  tefFifos : Nat
  tefAddressStart : Nat
  nonempty : 0 < txFifos
  inMask : txFifoStart + txFifos ≤ 32
  tefHolds : txFifos ≤ tefFifos

/-- The bits of the transmit FIFOs, as the setup loop collects them. -/
def TxLayout.txFifoMask (layout : TxLayout) : BitVec 32 :=
  span layout.txFifoStart layout.txFifos

/-- The size of `struct mcp25xxfd_obj_tef`. -/
def sizeofTef : Nat := 12

/-- The last byte of the TEF in the FIFO RAM. -/
def TxLayout.tefAddressEnd (layout : TxLayout) : Nat :=
  layout.tefAddressStart + layout.tefFifos * sizeofTef - 1

/-- The values of `priv->tx_queue_status`. -/
def txQueueStatusRunning : Nat := 1
def txQueueStatusNeedsStart : Nat := 2
def txQueueStatusStopped : Nat := 3

/-- How far a call of `mcp25xxfd_start_xmit` has come, with its FIFO and its frame. -/
inductive Xmit where
  | idle
  /-- The FIFO is marked as submitted, and the SPI message is not queued yet. -/
  | submitted (fifo frame : Nat)
  /-- `spi_async` has accepted the message, and the echo skb is not stored yet. -/
  | queued (fifo frame : Nat)
  deriving DecidableEq, Repr

/-- How far a pass of `mcp25xxfd_can_ist` has come. -/
inductive Ist where
  | idle
  /-- The pending mask is copied, and the status is not read yet. -/
  | snapshot
  /-- In the loop of `mcp25xxfd_can_ist_handle_txatif`, before this FIFO. -/
  | txatif (fifo : Nat)
  | tefif
  /-- In `mcp25xxfd_can_ist_handle_tefif_count`, with this many entries left. -/
  | tefCount (left : Nat)
  /-- In `mcp25xxfd_can_ist_handle_tefif_conservative`, before it reads TEFSTA. -/
  | tefConservative
  /-- In the same loop, after it has seen the TEF not empty. -/
  | tefSingle
  /-- In `mcp25xxfd_process_queued_fifos`. -/
  | process
  /-- Before the test that wakes the net queue. -/
  | wake
  deriving DecidableEq, Repr

/--
The state that the parties of a transmission share.

`sent`, `frames`, `echoed` and `finished` only record what happened.
-/
structure TxState (echo : EchoTable Nat) where
  txSubmittedMask : BitVec 32
  txPendingMask : BitVec 32
  txPendingMaskInIrq : BitVec 32
  txProcessedMask : BitVec 32
  /-- The address of the next TEF entry, as the driver counts it. -/
  tefAddress : Nat
  /-- TEFIF of `priv->status.intf`. -/
  statusTefif : Bool
  statusTxatif : BitVec 32
  statusTxreq : BitVec 32
  txQueueStatus : Nat
  /-- `netif_stop_queue` was called after the last `netif_wake_queue`. -/
  queueStopped : Bool
  xmit : Xmit
  /-- The FIFOs of the transmit messages that wait in the SPI queue, the next one first. -/
  spiQueue : List Nat
  /-- The message whose transfers are done and whose completion callback is still to run. -/
  spiCompleting : Option Nat
  /-- The TXREQ bits of the controller. -/
  chipTxreq : BitVec 32
  /-- The TXATIF bits of the controller. -/
  chipTxatif : BitVec 32
  /-- The SEQ fields of the entries in the controller's TEF, the oldest first. -/
  chipTef : List Nat
  /-- The ring position of the oldest entry, which TEFUA points to. -/
  chipTefIndex : Nat
  ist : Ist
  /-- The FIFOs of the TEF objects in `priv->queued_fifos`. -/
  queuedTef : List Nat
  slots : echo.Slots
  /-- The frame last put into each FIFO. -/
  sent : Nat → Nat
  /-- The number of frames that were given to `mcp25xxfd_start_xmit`. -/
  frames : Nat
  /-- The skbs that `can_get_echo_skb` found, the latest first. -/
  echoed : List Nat
  /-- The frames whose TEF entry or abort was processed, the latest first. -/
  finished : List Nat

variable {echo : EchoTable Nat} (layout : TxLayout)

/-- TEFUA, the controller's own address of the oldest TEF entry. -/
def TxState.chipTefUA (state : TxState echo) : Nat :=
  layout.tefAddressStart + state.chipTefIndex * sizeofTef

/-- The state that `mcp25xxfd_open` leaves: no mask bit set, an empty TEF and the queue awake. -/
def TxState.opened : TxState echo where
  txSubmittedMask := 0
  txPendingMask := 0
  txPendingMaskInIrq := 0
  txProcessedMask := 0
  tefAddress := layout.tefAddressStart
  statusTefif := false
  statusTxatif := 0
  statusTxreq := 0
  txQueueStatus := txQueueStatusRunning
  queueStopped := false
  xmit := .idle
  spiQueue := []
  spiCompleting := none
  chipTxreq := 0
  chipTxatif := 0
  chipTef := []
  chipTefIndex := 0
  ist := .idle
  queuedTef := []
  slots := echo.fresh
  sent _ := 0
  frames := 0
  echoed := []
  finished := []

/-- `__mcp25xxfd_stop_queue`, with the line that the macro passes as `id`. -/
def stopQueue (id : Nat) (state : TxState echo) : TxState echo :=
  { state with
    txQueueStatus := if id ≠ 0 then id else txQueueStatusStopped
    queueStopped := true }

/-- `mcp25xxfd_wake_queue`. -/
def wakeQueue (state : TxState echo) : TxState echo :=
  { state with
    txPendingMask := 0
    txSubmittedMask := 0
    txProcessedMask := 0
    txQueueStatus := txQueueStatusRunning
    queueStopped := false }

/-- `mcp25xxfd_mark_tx_pending`, the completion callback of a transmit message. -/
def markTxPending (fifo : Nat) (state : TxState echo) : TxState echo :=
  { state with
    txPendingMask := state.txPendingMask ||| bit fifo
    spiCompleting := none }

/-- `mcp25xxfd_is_last_txfifo`. -/
def isLastTxfifo (fifo : Nat) : Bool := fifo == layout.txFifoStart + layout.txFifos - 1

/-- The FIFO that `mcp25xxfd_start_xmit` decides on, `none` when it is not a valid one. -/
def allocateFifo (state : TxState echo) : Option Nat :=
  let pendingMask := state.txPendingMask ||| state.txSubmittedMask
  let fifo := if pendingMask ≠ 0 then fls pendingMask else layout.txFifoStart
  if fifo ≥ layout.txFifoStart + layout.txFifos then none else some fifo

/-- `mcp25xxfd_start_xmit` up to the mark in the submitted mask, once the FIFO is decided. -/
def submitFifo (fifo : Nat) (state : TxState echo) : TxState echo :=
  -- The macro passes the line of this call, 1921.
  let state := if isLastTxfifo layout fifo then stopQueue 1921 state else state
  { state with
    txSubmittedMask := state.txSubmittedMask ||| bit fifo
    xmit := .submitted fifo state.frames
    sent := Function.update state.sent fifo state.frames
    frames := state.frames + 1 }

/-- `mcp25xxfd_mark_tx_processed`. -/
def markTxProcessed (fifo : Nat) (state : TxState echo) : TxState echo :=
  { state with
    txProcessedMask := state.txProcessedMask ||| bit fifo
    txQueueStatus :=
      if isLastTxfifo layout fifo then txQueueStatusNeedsStart else state.txQueueStatus }

/-- `can_get_echo_skb` for the frame of a FIFO that is now done with. -/
def getEchoSkb (fifo : Nat) (state : TxState echo) : TxState echo :=
  { state with
    slots := echo.canGetEchoSkb fifo state.slots
    echoed := (echo.slot state.slots fifo).toList ++ state.echoed
    finished := state.sent fifo :: state.finished }

/-- `mcp25xxfd_can_ist_handle_txatif_fifo`, which clears TXATIF and takes the echo skb back. -/
def handleTxatifFifo (fifo : Nat) (state : TxState echo) : TxState echo :=
  markTxProcessed layout fifo
    (getEchoSkb fifo { state with chipTxatif := state.chipTxatif &&& ~~~(bit fifo) })

/-- The address after a TEF entry, with the rollover at the end of the TEF. -/
def nextTefAddress (address : Nat) : Nat :=
  if address + sizeofTef > layout.tefAddressEnd then layout.tefAddressStart
  else address + sizeofTef

/--
The SEQ field in the bytes at the driver's TEF address.

Only the oldest entry is known to be there.
With the TEF empty, or at any other address, the RAM holds some older byte pattern.
-/
def readTef (stale : Nat) (state : TxState echo) : Nat :=
  if state.tefAddress = state.chipTefUA layout then state.chipTef.head?.getD stale else stale

/-- The write of UINC to TEFCON, on which the controller drops the oldest entry. -/
def incrementTef (state : TxState echo) : TxState echo :=
  match state.chipTef with
  | [] => state
  | _ :: rest =>
    { state with chipTef := rest, chipTefIndex := (state.chipTefIndex + 1) % layout.tefFifos }

/-- `mcp25xxfd_can_ist_handle_tefif_handle_single`, with all its transfers succeeding. -/
def handleTefifSingle (stale : Nat) (state : TxState echo) : TxState echo :=
  let fifo := readTef layout stale state
  let state := incrementTef layout state
  markTxProcessed layout fifo
    { state with
      queuedTef := state.queuedTef ++ [fifo]
      tefAddress := nextTefAddress layout state.tefAddress }

/-- The number of entries that `mcp25xxfd_can_ist_handle_tefif` expects to find. -/
def tefifCount (state : TxState echo) : Int :=
  let pending := state.txPendingMaskInIrq &&& ~~~state.txProcessedMask
  (hweight pending : Int) - hweight (state.statusTxreq &&& pending)

/-- The branch that `mcp25xxfd_can_ist_handle_tefif` takes on that number. -/
def handleTefif (state : TxState echo) : Ist :=
  if tefifCount state ≤ 0 then .tefConservative else .tefCount (tefifCount state).toNat

/-- The steps of the four parties. -/
inductive TxLabel where
  /-- `mcp25xxfd_start_xmit` takes a frame and marks its FIFO. -/
  | startXmit
  /-- `mcp25xxfd_start_xmit` hands the message to `spi_async`. -/
  | spiAsync
  /-- `mcp25xxfd_start_xmit` stores the echo skb and returns `NETDEV_TX_OK`. -/
  | putEchoSkb
  /-- The SPI engine fills and triggers the FIFO of the next message. -/
  | spiExecute
  /-- The SPI engine calls the completion callback of that message. -/
  | markTxPending
  /-- The controller has sent the frame of a FIFO. -/
  | chipSent (fifo : Nat)
  /-- The controller has given up on the frame of a FIFO. -/
  | chipAborted (fifo : Nat)
  /-- A loop of `mcp25xxfd_can_ist` begins with the copy of the pending mask. -/
  | istSnapshot
  /-- The status is read; `other` tells whether some other enabled flag is up. -/
  | istStatus (other : Bool)
  | istTxatif
  | istTefif
  /-- The next entry of the counted loop; `stale` is what an empty TEF would show. -/
  | istTefCount (stale : Nat)
  | istTefCheck
  | istTefSingle (stale : Nat)
  /-- The queued TEF object at this place of the list is processed. -/
  | istProcess (place : Nat)
  | istProcessed
  | istWake
  deriving DecidableEq, Repr

/--
One step of one party, `none` when that party cannot take it now.

`txFifoMask` is `priv->fifos.tx_fifo_mask`, which only the test before the wake reads.
-/
def txStep (txFifoMask : BitVec 32) (state : TxState echo) : TxLabel → Option (TxState echo)
  | .startXmit =>
    if state.xmit = .idle ∧ state.queueStopped = false then
      match allocateFifo layout state with
      -- "this should not happen": the frame goes back with `NETDEV_TX_BUSY`.
      | none => some state
      | some fifo => some (submitFifo layout fifo state)
    else none
  | .spiAsync =>
    match state.xmit with
    | .submitted fifo frame =>
      some { state with xmit := .queued fifo frame, spiQueue := state.spiQueue ++ [fifo] }
    | _ => none
  | .putEchoSkb =>
    match state.xmit with
    | .queued fifo frame =>
      some { state with xmit := .idle, slots := echo.canPutEchoSkb frame fifo state.slots }
    | _ => none
  | .spiExecute =>
    match state.spiCompleting, state.spiQueue with
    | none, fifo :: rest =>
      some { state with
        spiQueue := rest
        spiCompleting := some fifo
        chipTxreq := state.chipTxreq ||| bit fifo }
    | _, _ => none
  | .markTxPending =>
    match state.spiCompleting with
    | some fifo => some (markTxPending fifo state)
    | none => none
  | .chipSent fifo =>
    if state.chipTxreq.getLsbD fifo then
      some { state with
        chipTxreq := state.chipTxreq &&& ~~~(bit fifo)
        -- A full TEF drops the entry.
        chipTef :=
          if state.chipTef.length < layout.tefFifos then state.chipTef ++ [fifo]
          else state.chipTef }
    else none
  | .chipAborted fifo =>
    if state.chipTxreq.getLsbD fifo then
      some { state with
        chipTxreq := state.chipTxreq &&& ~~~(bit fifo)
        chipTxatif := state.chipTxatif ||| bit fifo }
    else none
  | .istSnapshot =>
    if state.ist = .idle then
      some { state with txPendingMaskInIrq := state.txPendingMask, ist := .snapshot }
    else none
  | .istStatus other =>
    -- A transfer of the interrupt thread waits for the callback of the message before it.
    if state.ist = .snapshot ∧ state.spiCompleting = none then
      let tefif := !state.chipTef.isEmpty
      let state :=
        { state with
          statusTefif := tefif, statusTxatif := state.chipTxatif, statusTxreq := state.chipTxreq }
      if tefif || other then
        -- `mcp25xxfd_can_ist_handle_status` clears the list of queued objects first.
        some { state with queuedTef := [], ist := .txatif layout.txFifoStart }
      else some { state with ist := .idle }
    else none
  | .istTxatif =>
    match state.ist with
    | .txatif fifo =>
      if fifo < layout.txFifoStart + layout.txFifos then
        if state.statusTxatif.getLsbD fifo then
          if state.spiCompleting = none then
            some { handleTxatifFifo layout fifo state with ist := .txatif (fifo + 1) }
          else none
        else some { state with ist := .txatif (fifo + 1) }
      else some { state with ist := .tefif }
    | _ => none
  | .istTefif =>
    if state.ist = .tefif then
      some { state with ist := if state.statusTefif then handleTefif state else .process }
    else none
  | .istTefCount stale =>
    match state.ist with
    | .tefCount 0 => some { state with ist := .process }
    | .tefCount (left + 1) =>
      if state.spiCompleting = none then
        some { handleTefifSingle layout stale state with ist := .tefCount left }
      else none
    | _ => none
  | .istTefCheck =>
    if state.ist = .tefConservative ∧ state.spiCompleting = none then
      if state.chipTef = [] then some { state with ist := .process }
      else some { state with tefAddress := state.chipTefUA layout, ist := .tefSingle }
    else none
  | .istTefSingle stale =>
    if state.ist = .tefSingle ∧ state.spiCompleting = none then
      some { handleTefifSingle layout stale state with ist := .tefConservative }
    else none
  | .istProcess place =>
    if state.ist = .process then
      match state.queuedTef[place]? with
      | some fifo =>
        some { getEchoSkb fifo state with queuedTef := state.queuedTef.eraseIdx place }
      | none => none
    else none
  | .istProcessed =>
    if state.ist = .process ∧ state.queuedTef = [] then some { state with ist := .wake }
    else none
  | .istWake =>
    if state.ist = .wake then
      if state.txProcessedMask = txFifoMask then
        some { wakeQueue state with ist := .idle }
      else some { state with ist := .idle }
    else none

/-- What a step does, with what it found: one constructor for each branch of the step. -/
inductive TxMove (txFifoMask : BitVec 32) (state : TxState echo) :
    TxLabel → TxState echo → Prop where
  | startXmitBusy (awake : state.queueStopped = false) (full : allocateFifo layout state = none) :
    TxMove txFifoMask state .startXmit state
  | startXmit {fifo : Nat} (idle : state.xmit = .idle) (awake : state.queueStopped = false)
    (allocated : allocateFifo layout state = some fifo) :
    TxMove txFifoMask state .startXmit (submitFifo layout fifo state)
  | spiAsync {fifo frame : Nat} (at_ : state.xmit = .submitted fifo frame) :
    TxMove txFifoMask state .spiAsync
      { state with xmit := .queued fifo frame, spiQueue := state.spiQueue ++ [fifo] }
  | putEchoSkb {fifo frame : Nat} (at_ : state.xmit = .queued fifo frame) :
    TxMove txFifoMask state .putEchoSkb
      { state with xmit := .idle, slots := echo.canPutEchoSkb frame fifo state.slots }
  | spiExecute {fifo : Nat} {rest : List Nat} (quiet : state.spiCompleting = none)
    (queue : state.spiQueue = fifo :: rest) :
    TxMove txFifoMask state .spiExecute
      { state with
        spiQueue := rest
        spiCompleting := some fifo
        chipTxreq := state.chipTxreq ||| bit fifo }
  | markTxPending {fifo : Nat} (completing : state.spiCompleting = some fifo) :
    TxMove txFifoMask state .markTxPending (markTxPending fifo state)
  | chipSent {fifo : Nat} (requested : state.chipTxreq.getLsbD fifo = true) :
    TxMove txFifoMask state (.chipSent fifo)
      { state with
        chipTxreq := state.chipTxreq &&& ~~~(bit fifo)
        chipTef :=
          if state.chipTef.length < layout.tefFifos then state.chipTef ++ [fifo]
          else state.chipTef }
  | chipAborted {fifo : Nat} (requested : state.chipTxreq.getLsbD fifo = true) :
    TxMove txFifoMask state (.chipAborted fifo)
      { state with
        chipTxreq := state.chipTxreq &&& ~~~(bit fifo)
        chipTxatif := state.chipTxatif ||| bit fifo }
  | istSnapshot (at_ : state.ist = .idle) :
    TxMove txFifoMask state .istSnapshot
      { state with txPendingMaskInIrq := state.txPendingMask, ist := .snapshot }
  | istStatus {other : Bool} (at_ : state.ist = .snapshot) (quiet : state.spiCompleting = none)
    (work : (!state.chipTef.isEmpty || other) = true) :
    TxMove txFifoMask state (.istStatus other)
      { state with
        statusTefif := !state.chipTef.isEmpty
        statusTxatif := state.chipTxatif
        statusTxreq := state.chipTxreq
        queuedTef := []
        ist := .txatif layout.txFifoStart }
  | istStatusIdle {other : Bool} (at_ : state.ist = .snapshot)
    (quiet : state.spiCompleting = none) (none : (!state.chipTef.isEmpty || other) = false) :
    TxMove txFifoMask state (.istStatus other)
      { state with
        statusTefif := !state.chipTef.isEmpty
        statusTxatif := state.chipTxatif
        statusTxreq := state.chipTxreq
        ist := .idle }
  | istTxatif {fifo : Nat} (at_ : state.ist = .txatif fifo)
    (inside : fifo < layout.txFifoStart + layout.txFifos)
    (aborted : state.statusTxatif.getLsbD fifo = true) (quiet : state.spiCompleting = none) :
    TxMove txFifoMask state .istTxatif
      { handleTxatifFifo layout fifo state with ist := .txatif (fifo + 1) }
  | istTxatifPassed {fifo : Nat} (at_ : state.ist = .txatif fifo)
    (inside : fifo < layout.txFifoStart + layout.txFifos)
    (passed : state.statusTxatif.getLsbD fifo = false) :
    TxMove txFifoMask state .istTxatif { state with ist := .txatif (fifo + 1) }
  | istTxatifEnded {fifo : Nat} (at_ : state.ist = .txatif fifo)
    (past : layout.txFifoStart + layout.txFifos ≤ fifo) :
    TxMove txFifoMask state .istTxatif { state with ist := .tefif }
  | istTefif (at_ : state.ist = .tefif) :
    TxMove txFifoMask state .istTefif
      { state with ist := if state.statusTefif then handleTefif state else .process }
  | istTefCounted {stale : Nat} (at_ : state.ist = .tefCount 0) :
    TxMove txFifoMask state (.istTefCount stale) { state with ist := .process }
  | istTefCount {stale left : Nat} (at_ : state.ist = .tefCount (left + 1))
    (quiet : state.spiCompleting = none) :
    TxMove txFifoMask state (.istTefCount stale)
      { handleTefifSingle layout stale state with ist := .tefCount left }
  | istTefEmpty (at_ : state.ist = .tefConservative) (empty : state.chipTef = []) :
    TxMove txFifoMask state .istTefCheck { state with ist := .process }
  | istTefCheck (at_ : state.ist = .tefConservative) (nonempty : state.chipTef ≠ []) :
    TxMove txFifoMask state .istTefCheck
      { state with tefAddress := state.chipTefUA layout, ist := .tefSingle }
  | istTefSingle {stale : Nat} (at_ : state.ist = .tefSingle)
    (quiet : state.spiCompleting = none) :
    TxMove txFifoMask state (.istTefSingle stale)
      { handleTefifSingle layout stale state with ist := .tefConservative }
  | istProcess {place fifo : Nat} (at_ : state.ist = .process)
    (found : state.queuedTef[place]? = some fifo) :
    TxMove txFifoMask state (.istProcess place)
      { getEchoSkb fifo state with queuedTef := state.queuedTef.eraseIdx place }
  | istProcessed (at_ : state.ist = .process) (empty : state.queuedTef = []) :
    TxMove txFifoMask state .istProcessed { state with ist := .wake }
  | istWake (at_ : state.ist = .wake) (done : state.txProcessedMask = txFifoMask) :
    TxMove txFifoMask state .istWake { wakeQueue state with ist := .idle }
  | istAsleep (at_ : state.ist = .wake) (waiting : state.txProcessedMask ≠ txFifoMask) :
    TxMove txFifoMask state .istWake { state with ist := .idle }

variable {layout}

/-- A step that can be taken does what one of its branches does. -/
theorem txMove_of_txStep {txFifoMask : BitVec 32} {state next : TxState echo} {label : TxLabel}
    (stepped : txStep layout txFifoMask state label = some next) :
    TxMove layout txFifoMask state label next := by
  -- A branch is taken as far as its tests go, and a step that cannot be taken has no next state.
  cases label with
  | startXmit =>
    simp only [txStep] at stepped
    split at stepped
    · rename_i ready
      split at stepped
      · rename_i full
        cases stepped
        exact .startXmitBusy ready.2 full
      · rename_i fifo allocated
        cases stepped
        exact .startXmit ready.1 ready.2 allocated
    · cases stepped
  | spiAsync =>
    simp only [txStep] at stepped
    split at stepped
    · rename_i fifo frame at_
      cases stepped
      exact .spiAsync at_
    · cases stepped
  | putEchoSkb =>
    simp only [txStep] at stepped
    split at stepped
    · rename_i fifo frame at_
      cases stepped
      exact .putEchoSkb at_
    · cases stepped
  | spiExecute =>
    simp only [txStep] at stepped
    split at stepped
    · rename_i fifo rest quiet queue
      cases stepped
      exact .spiExecute quiet queue
    · cases stepped
  | markTxPending =>
    simp only [txStep] at stepped
    split at stepped
    · rename_i fifo completing
      cases stepped
      exact .markTxPending completing
    · cases stepped
  | chipSent fifo =>
    simp only [txStep] at stepped
    split at stepped
    · rename_i requested
      cases stepped
      exact .chipSent requested
    · cases stepped
  | chipAborted fifo =>
    simp only [txStep] at stepped
    split at stepped
    · rename_i requested
      cases stepped
      exact .chipAborted requested
    · cases stepped
  | istSnapshot =>
    simp only [txStep] at stepped
    split at stepped
    · rename_i at_
      cases stepped
      exact .istSnapshot at_
    · cases stepped
  | istStatus other =>
    simp only [txStep] at stepped
    split at stepped
    · rename_i ready
      split at stepped
      · rename_i work
        cases stepped
        exact .istStatus ready.1 ready.2 work
      · rename_i none
        cases stepped
        exact .istStatusIdle ready.1 ready.2 ((Bool.not_eq_true _).mp none)
    · cases stepped
  | istTxatif =>
    simp only [txStep] at stepped
    split at stepped
    · rename_i fifo at_
      split at stepped
      · rename_i inside
        split at stepped
        · rename_i aborted
          split at stepped
          · rename_i quiet
            cases stepped
            exact .istTxatif at_ inside aborted quiet
          · cases stepped
        · rename_i passed
          cases stepped
          exact .istTxatifPassed at_ inside ((Bool.not_eq_true _).mp passed)
      · rename_i past
        cases stepped
        exact .istTxatifEnded at_ (Nat.le_of_not_lt past)
    · cases stepped
  | istTefif =>
    simp only [txStep] at stepped
    split at stepped
    · rename_i at_
      cases stepped
      exact .istTefif at_
    · cases stepped
  | istTefCount stale =>
    simp only [txStep] at stepped
    split at stepped
    · rename_i at_
      cases stepped
      exact .istTefCounted at_
    · rename_i left at_
      split at stepped
      · rename_i quiet
        cases stepped
        exact .istTefCount at_ quiet
      · cases stepped
    · cases stepped
  | istTefCheck =>
    simp only [txStep] at stepped
    split at stepped
    · rename_i ready
      split at stepped
      · rename_i empty
        cases stepped
        exact .istTefEmpty ready.1 empty
      · rename_i nonempty
        cases stepped
        exact .istTefCheck ready.1 nonempty
    · cases stepped
  | istTefSingle stale =>
    simp only [txStep] at stepped
    split at stepped
    · rename_i ready
      cases stepped
      exact .istTefSingle ready.1 ready.2
    · cases stepped
  | istProcess place =>
    simp only [txStep] at stepped
    split at stepped
    · rename_i at_
      split at stepped
      · rename_i fifo found
        cases stepped
        exact .istProcess at_ found
      · cases stepped
    · cases stepped
  | istProcessed =>
    simp only [txStep] at stepped
    split at stepped
    · rename_i ready
      cases stepped
      exact .istProcessed ready.1 ready.2
    · cases stepped
  | istWake =>
    simp only [txStep] at stepped
    split at stepped
    · rename_i at_
      split at stepped
      · rename_i done
        cases stepped
        exact .istWake at_ done
      · rename_i waiting
        cases stepped
        exact .istAsleep at_ waiting
    · cases stepped

variable (layout)

/-- The transmit machine of an interface that was just opened with all masks clear. -/
def txMachine (echo : EchoTable Nat) : Machine (TxState echo) TxLabel where
  start := TxState.opened layout
  step := txStep layout layout.txFifoMask

end OpenwrtMisc.Mcp25xxfd
