import Mathlib.Data.List.Forall2
import OpenwrtMisc.Mcp25xxfd.Clock
import OpenwrtMisc.Mcp25xxfd.Gpio

/-! A pass of the mcp25xxfd interrupt thread: the status, its handlers and the error state. -/

namespace OpenwrtMisc.Mcp25xxfd

open BitMask

/-- The flags of CAN_INT; the bits that enable them lie `CAN_INT_IE_SHIFT` above. -/
def canIntRxif : BitVec 32 := bit 1
def canIntTbcif : BitVec 32 := bit 2
def canIntModif : BitVec 32 := bit 3
def canIntTefif : BitVec 32 := bit 4
def canIntEccif : BitVec 32 := bit 8
def canIntRxovif : BitVec 32 := bit 11
def canIntSerrif : BitVec 32 := bit 12
def canIntCerrif : BitVec 32 := bit 13
def canIntWakif : BitVec 32 := bit 14
def canIntIvmif : BitVec 32 := bit 15
def canIntIeShift : Nat := 16

/-- The flags of CAN_TREC. -/
def canTrecRxwarn : BitVec 32 := bit 17
def canTrecTxwarn : BitVec 32 := bit 18
def canTrecRxbp : BitVec 32 := bit 19
def canTrecTxbp : BitVec 32 := bit 20
def canTrecTxbo : BitVec 32 := bit 21

/-- The flags of CAN_BDIAG1, for the nominal and for the data phase. -/
def canBdiag1Bit0err : BitVec 32 := bit 24 ||| bit 16
def canBdiag1Bit1err : BitVec 32 := bit 25 ||| bit 17
def canBdiag1Stuferr : BitVec 32 := bit 28 ||| bit 19
def canBdiag1Formerr : BitVec 32 := bit 27 ||| bit 20
def canBdiag1Nackerr : BitVec 32 := bit 18

/-- The classes of an error frame, and the bits of its data. -/
def canErrCrtl : BitVec 32 := 0x4
def canErrProt : BitVec 32 := 0x8
def canErrAck : BitVec 32 := 0x20
def canErrBusoff : BitVec 32 := 0x40
def canErrBuserror : BitVec 32 := 0x80
def canErrCrtlUnspec : BitVec 32 := 0
def canErrCrtlRxOverflow : BitVec 32 := 0x1
def canErrCrtlRxWarning : BitVec 32 := 0x4
def canErrCrtlTxWarning : BitVec 32 := 0x8
def canErrCrtlRxPassive : BitVec 32 := 0x10
def canErrCrtlTxPassive : BitVec 32 := 0x20
def canErrProtForm : BitVec 32 := 0x2
def canErrProtStuff : BitVec 32 := 0x4
def canErrProtBit0 : BitVec 32 := 0x8
def canErrProtBit1 : BitVec 32 := 0x10

/-- `enum can_state`. -/
inductive CanState where
  | errorActive
  | errorWarning
  | errorPassive
  | busOff
  | stopped
  | sleeping
  deriving DecidableEq, Repr

/-- The value of a state in the enumeration, which the code compares. -/
def CanState.value : CanState → Nat
  | .errorActive => 0
  | .errorWarning => 1
  | .errorPassive => 2
  | .busOff => 3
  | .stopped => 4
  | .sleeping => 5

/-- `enum can_mode`. -/
inductive CanMode where
  | stop
  | start
  | sleep
  deriving DecidableEq, Repr

/-- The words of `priv->status` that a pass looks at itself. -/
structure Status where
  intf : BitVec 32
  rxovif : BitVec 32
  txatif : BitVec 32
  trec : BitVec 32
  bdiag1 : BitVec 32
  deriving DecidableEq, Repr

/-- An error frame; its eight bytes are the first two words of `can_err_data`. -/
structure ErrorFrame where
  canId : BitVec 32
  data : BitVec 32 × BitVec 32
  deriving DecidableEq, Repr

/-- The statistics of the errors. -/
structure ErrorStats where
  errorWarning : Nat
  errorPassive : Nat
  busOff : Nat
  txMab : Nat
  rxMab : Nat
  rxOverflow : Nat
  rxFrameErrors : Nat
  deriving DecidableEq, Repr

/--
What a pass reads and writes, with the register CAN_INT of the controller.

`intWrites` only records what happened.
-/
structure IstState where
  status : Status
  canInt : BitVec 32
  canState : CanState
  newState : CanState
  canErrId : BitVec 32
  canErrData : Nat → BitVec 32
  bdiag1ClearMask : BitVec 32
  bdiag1ClearValue : BitVec 32
  /-- `priv->can.restart_ms`, which the user has set. -/
  restartMs : Nat
  forceQuit : Bool
  queueStopped : Bool
  clock : ClockState
  stats : ErrorStats
  /-- The error frames that were passed on. -/
  errorSkbs : List ErrorFrame
  /-- The register CAN_INT before and after each write to it. -/
  intWrites : List (BitVec 32 × BitVec 32)

/-- What the controller does to its flags between two transfers of a pass. -/
structure Meanwhile where
  /-- The flags that follow the FIFOs and the transmission. -/
  levels : BitVec 32
  /-- The events that it signals. -/
  raised : BitVec 32
  deriving DecidableEq, Repr

/-- What the transfers of a pass and the calls in it return, and what happens between them. -/
structure IstCalls where
  /-- The read of the status; its words other than CAN_INT are those that the label gives. -/
  read : Bool
  /-- The write that clears the flags. -/
  clear : Bool
  /-- The write in `mcp25xxfd_can_ist_handle_serrif`. -/
  serrif : Bool
  modif : Int
  txatif : Int
  tefif : Int
  /-- The write that clears the overflow of a FIFO. -/
  rxovif : Nat → Bool
  eccRead : Bool
  eccWrite : Bool
  /-- An error skb can be allocated. -/
  errorSkb : Bool
  /-- The handlers have left all transmit FIFOs processed. -/
  allProcessed : Bool
  disable : Bool
  sleep : Except Errno Unit
  bdiag1 : Bool
  beforeRead : Meanwhile
  beforeClear : Meanwhile
  beforeSerrif : Meanwhile
  beforeDisable : Meanwhile

/-- The flags that stay set until the driver clears them. -/
def canIntEvents : BitVec 32 :=
  canIntTbcif ||| canIntModif ||| canIntSerrif ||| canIntCerrif ||| canIntWakif ||| canIntIvmif

/-- The register CAN_INT after some time. -/
def elapse (meanwhile : Meanwhile) (canInt : BitVec 32) : BitVec 32 :=
  blend (span 0 16 &&& ~~~canIntEvents) canInt meanwhile.levels |||
    meanwhile.raised &&& canIntEvents

/-- A write to CAN_INT: a flag that is written as zero is cleared, and one is never set. -/
def writeCanInt (spi : Bool) (canInt data mask : BitVec 32) : Int × BitVec 32 :=
  cmdWriteMask spi canInt (canInt &&& data &&& span 0 16 ||| data &&& span 16 16) mask

/-- `mcp25xxfd_cmd_write_mask` of CAN_INT, after what the controller does before it. -/
def cmdWriteCanInt (spi : Bool) (meanwhile : Meanwhile) (data mask : BitVec 32)
    (state : IstState) : Int × IstState :=
  let before := elapse meanwhile state.canInt
  let written := writeCanInt spi before data mask
  (written.1, { state with
    canInt := written.2
    intWrites := state.intWrites ++ [(before, written.2)] })

/-- A flag of a word is set. -/
def hasFlag (word flag : BitVec 32) : Bool := decide (word &&& flag ≠ 0)

/-- More bits in the class and in one word of the data of the error. -/
def addError (id : BitVec 32) (index : Nat) (data : BitVec 32) (state : IstState) : IstState :=
  { state with
    canErrId := state.canErrId ||| id
    canErrData := Function.update state.canErrData index (state.canErrData index ||| data) }

/-- `mcp25xxfd_can_ist_handle_serrif`. -/
def handleSerrif (calls : IstCalls) (state : IstState) : Int × IstState :=
  let clear := canIntSerrif ||| canIntModif ||| canIntIvmif
  let (ret, state) := cmdWriteCanInt calls.serrif calls.beforeSerrif
    (state.status.intf &&& ~~~clear) clear state
  if ret ≠ 0 then (ret, state)
  else
    let state := addError canErrCrtl 1 canErrCrtlUnspec state
    let stats := state.stats
    if hasFlag state.status.intf canIntModif ∧ hasFlag state.status.intf canIntIvmif then
      (0, { state with stats := { stats with txMab := stats.txMab + 1 } })
    else if hasFlag state.status.intf canIntRxif then
      (0, { state with stats := { stats with rxMab := stats.rxMab + 1 } })
    else (0, state)

/-- The loop of `mcp25xxfd_can_ist_handle_rxovif` over the FIFOs from `i` on. -/
def rxovifLoop (written : Nat → Bool) : Nat → Nat → IstState → Int × IstState
  | 0, _, state => (0, state)
  | left + 1, i, state =>
    if state.status.rxovif.getLsbD i then
      if written i then
        let stats := state.stats
        let state := { state with stats := { stats with rxOverflow := stats.rxOverflow + 1 } }
        rxovifLoop written left (i + 1) (addError canErrCrtl 1 canErrCrtlRxOverflow state)
      else (-eio, state)
    else rxovifLoop written left (i + 1) state

/-- `mcp25xxfd_can_ist_handle_rxovif`. -/
def handleRxovif (calls : IstCalls) (state : IstState) : Int × IstState :=
  rxovifLoop calls.rxovif 32 0 state

/-- `mcp25xxfd_can_ist_handle_eccif`, which reads ECCSTAT and then clears it. -/
def handleEccif (calls : IstCalls) (state : IstState) : Int × IstState :=
  let state := addError canErrCrtl 1 canErrCrtlUnspec state
  if calls.eccRead then (if calls.eccWrite then 0 else -eio, state) else (-eio, state)

/-- `mcp25xxfd_can_ist_handle_ivmif`. -/
def handleIvmif (state : IstState) : Int × IstState :=
  if hasFlag state.status.intf canIntSerrif then (0, state)
  else
    let stats := state.stats
    let state := { state with stats := { stats with rxFrameErrors := stats.rxFrameErrors + 1 } }
    (0, addError canErrProt 2 canErrProtForm state)

/-- A bus error that CAN_BDIAG1 tells of, and that is to be cleared there. -/
def bdiag1Case (flags id data : BitVec 32) (state : IstState) : IstState :=
  if hasFlag state.status.bdiag1 flags then
    let state := addError id 2 data state
    { state with bdiag1ClearMask := state.bdiag1ClearMask ||| flags }
  else state

/-- `mcp25xxfd_can_ist_handle_cerrif`. -/
def handleCerrif (state : IstState) : Int × IstState :=
  let state := { state with canErrId := state.canErrId ||| canErrBuserror }
  let state := bdiag1Case canBdiag1Bit0err canErrBuserror canErrProtBit0 state
  let state := bdiag1Case canBdiag1Bit1err canErrBuserror canErrProtBit1 state
  let state := bdiag1Case canBdiag1Stuferr canErrBuserror canErrProtStuff state
  let state := bdiag1Case canBdiag1Formerr canErrBuserror canErrProtForm state
  -- A missing acknowledgement has a class of its own, and no data.
  (0, bdiag1Case canBdiag1Nackerr canErrAck 0 state)

/-- The handlers of a pass one after the other, up to the first one that fails. -/
def runHandlers : List (IstState → Int × IstState) → IstState → Int × IstState
  | [], state => (0, state)
  | handler :: rest, state =>
    let (ret, state) := handler state
    if ret ≠ 0 then (ret, state) else runHandlers rest state

/-- A handler that is called when the status asks for it. -/
def whenAsked (asks : Status → Bool) (handler : IstState → Int × IstState) (state : IstState) :
    Int × IstState :=
  if asks state.status then handler state else (0, state)

/-- A handler of which only the result matters here. -/
def returning (ret : Int) (state : IstState) : Int × IstState := (ret, state)

/--
The handlers of `mcp25xxfd_can_ist_handle_status` in their order.

The one for RXIF always returns zero, and so does not stop a pass; the result of
`mcp25xxfd_process_queued_fifos` is not looked at.
-/
def handlers (calls : IstCalls) : List (IstState → Int × IstState) :=
  [whenAsked (fun status => hasFlag status.intf canIntSerrif) (handleSerrif calls),
    whenAsked (fun status => hasFlag status.intf canIntModif) (returning calls.modif),
    whenAsked (fun status => decide (status.txatif ≠ 0)) (returning calls.txatif),
    whenAsked (fun status => hasFlag status.intf canIntTefif) (returning calls.tefif),
    whenAsked (fun status => decide (status.rxovif ≠ 0)) (handleRxovif calls),
    whenAsked (fun status => hasFlag status.intf canIntEccif) (handleEccif calls),
    whenAsked (fun status => hasFlag status.intf canIntIvmif) handleIvmif,
    whenAsked (fun status => hasFlag status.intf canIntCerrif) handleCerrif]

/-- One of the tests of CAN_TREC that raise the new state. -/
def trecCase (flag : BitVec 32) (newState : CanState) (data : BitVec 32) (state : IstState) :
    IstState :=
  if hasFlag state.status.trec flag then
    { addError canErrCrtl 1 data state with newState := newState }
  else state

/-- The last test, for the bus-off state. -/
def trecBusOff (state : IstState) : IstState :=
  if hasFlag state.status.trec canTrecTxbo then
    { state with newState := .busOff, canErrId := state.canErrId ||| canErrBusoff }
  else state

/-- The error counter handling, in the order of the source. -/
def handleTrec (state : IstState) : IstState :=
  let state := trecCase canTrecTxwarn .errorWarning canErrCrtlTxWarning state
  let state := trecCase canTrecRxwarn .errorWarning canErrCrtlRxWarning state
  let state := trecCase canTrecTxbp .errorPassive canErrCrtlTxPassive state
  let state := trecCase canTrecRxbp .errorPassive canErrCrtlRxPassive state
  trecBusOff state

/-- The statistics of the transition to the new state, whose first case falls through. -/
def countTransition (canState newState : CanState) (stats : ErrorStats) : ErrorStats :=
  let within (low : CanState) : Bool :=
    decide (low.value ≤ newState.value ∧ newState.value ≤ CanState.busOff.value)
  let warning : ErrorStats :=
    if canState = .errorActive ∧ within .errorWarning then
      { stats with errorWarning := stats.errorWarning + 1 }
    else stats
  if (canState = .errorActive ∨ canState = .errorWarning) ∧ within .errorPassive then
    { warning with errorPassive := warning.errorPassive + 1 }
  else warning

/-- `mcp25xxfd_error_skb`. -/
def errorSkb (calls : IstCalls) (state : IstState) : IstState :=
  if calls.errorSkb then
    let frame : ErrorFrame :=
      { canId := state.canErrId, data := (state.canErrData 0, state.canErrData 1) }
    { state with errorSkbs := state.errorSkbs ++ [frame] }
  else state

/-- `mcp25xxfd_hw_sleep`, whose first part is `mcp25xxfd_disable_interrupts`. -/
def hwSleep (calls : IstCalls) (state : IstState) : IstState :=
  let state := { state with status := { state.status with intf := 0 } }
  let (_, state) := cmdWriteCanInt calls.disable calls.beforeDisable 0 (-1) state
  { state with clock := stopClock .can calls.sleep state.clock }

/-- The change to the new state, with the error frame. -/
def enterState (calls : IstCalls) (state : IstState) : IstState :=
  let state :=
    { state with
      stats := countTransition state.canState state.newState state.stats
      canState := state.newState }
  if state.canErrId ≠ 0 then errorSkb calls state else state

/-- What follows from the state: the end of the interface in the bus-off state, or more frames. -/
def followState (calls : IstCalls) (state : IstState) : IstState :=
  if state.canState = .busOff then
    if state.restartMs = 0 then
      let stats := state.stats
      hwSleep calls
        { state with
          queueStopped := true
          forceQuit := true
          stats := { stats with busOff := stats.busOff + 1 } }
    else state
  -- `mcp25xxfd_wake_queue`.
  else if calls.allProcessed then { state with queueStopped := false }
  else state

/-- The flags that every pass clears. -/
def clearIrq : BitVec 32 :=
  canIntTbcif ||| canIntModif ||| canIntSerrif ||| canIntCerrif ||| canIntWakif ||| canIntIvmif

/-- The state of a pass that has just cleared the flags. -/
def beginPass (state : IstState) : IstState :=
  { state with
    bdiag1ClearValue := 0
    bdiag1ClearMask := 0
    canErrId := 0
    -- The call clears eight bytes, which are the first two of the words.
    canErrData := fun i => if i < 2 then 0 else state.canErrData i
    newState := state.canState }

/-- `mcp25xxfd_can_ist_handle_status`. -/
def handleStatus (calls : IstCalls) (state : IstState) : Int × IstState :=
  let (ret, state) := cmdWriteCanInt calls.clear calls.beforeClear
    (state.status.intf &&& ~~~clearIrq) clearIrq state
  if ret ≠ 0 then (ret, state)
  else
    let (ret, state) := runHandlers (handlers calls) (beginPass state)
    if ret ≠ 0 then (ret, state)
    else
      let state := followState calls (enterState calls (handleTrec state))
      (if state.bdiag1ClearMask ≠ 0 ∧ calls.bdiag1 = false then -eio else 0, state)

/-- What a turn of the loop of `mcp25xxfd_can_ist` comes to. -/
inductive Turn where
  /-- The status could not be read, or shows nothing that is enabled. -/
  | stopped
  /-- The status was handled, with this result. -/
  | handled (ret : Int)
  deriving DecidableEq, Repr

/-- A flag is set together with the bit that enables it. -/
def pendingIrq (intf : BitVec 32) : Bool := decide (intf &&& intf >>> canIntIeShift ≠ 0)

/-- The status that a turn reads. -/
def IstState.seen (state : IstState) (calls : IstCalls) (words : Status) : Status :=
  { words with intf := elapse calls.beforeRead state.canInt }

/-- The state of a turn that has just read the status. -/
def IstState.begun (state : IstState) (calls : IstCalls) (words : Status) : IstState :=
  { state with
    canInt := elapse calls.beforeRead state.canInt
    status := state.seen calls words }

/-- A turn of the loop of `mcp25xxfd_can_ist`; the words of the status are as the chip has them. -/
def istTurn (calls : IstCalls) (words : Status) (state : IstState) : Turn × IstState :=
  if calls.read then
    let state := state.begun calls words
    if pendingIrq state.status.intf then
      let (ret, state) := handleStatus calls state
      (.handled ret, state)
    else (.stopped, state)
  else (.stopped, { state with canInt := elapse calls.beforeRead state.canInt })

/-- `mcp25xxfd_do_set_mode`. -/
def doSetMode (mode : CanMode) : Int :=
  match mode with
  | .start => 0
  | _ => -95

/-- The turns of the interrupt thread, and the calls of `mcp25xxfd_do_set_mode` between them. -/
inductive IstLabel where
  | turn (calls : IstCalls) (words : Status)
  | doSetMode (mode : CanMode)

/-- One turn or one call; the thread takes no more turns once it is told to quit. -/
def istStep (state : IstState) : IstLabel → Option IstState
  | .turn calls words => if state.forceQuit then none else some (istTurn calls words state).2
  | .doSetMode _ => some state

/-- The interrupt thread from a given state on. -/
def istMachine (start : IstState) : Machine IstState IstLabel where
  start := start
  step := istStep

/-- A handler does not change what is seen of the state in this way. -/
def Keeps {α : Type} (view : IstState → α) (handler : IstState → Int × IstState) : Prop :=
  ∀ state, view (handler state).2 = view state

/-- A handler, and those after it when it has not failed. -/
theorem runHandlers_cons (handler : IstState → Int × IstState)
    (rest : List (IstState → Int × IstState)) (state : IstState) :
    runHandlers (handler :: rest) state =
      if (handler state).1 ≠ 0 then handler state else runHandlers rest (handler state).2 :=
  rfl

/-- A single handler. -/
theorem runHandlers_single (handler : IstState → Int × IstState) (state : IstState) :
    runHandlers [handler] state = handler state := by
  -- The handler fails or is the last one.
  rw [runHandlers_cons]
  by_cases failed : (handler state).1 ≠ 0
  · rw [if_pos failed]
  · rw [if_neg failed, runHandlers, ← not_not.mp failed]

/-- Handlers, and more of them when none has failed. -/
theorem runHandlers_append (first second : List (IstState → Int × IstState)) (state : IstState) :
    runHandlers (first ++ second) state =
      if (runHandlers first state).1 ≠ 0 then runHandlers first state
      else runHandlers second (runHandlers first state).2 := by
  -- The induction is on the first handlers, each of which may fail.
  induction first generalizing state with
  | nil => rfl
  | cons handler rest ih =>
    rw [List.cons_append, runHandlers_cons, runHandlers_cons]
    by_cases failed : (handler state).1 ≠ 0
    · rw [if_pos failed, if_pos failed, if_pos failed]
    · rw [if_neg failed, if_neg failed, ih]

/-- What each handler keeps, all of them in a row keep. -/
theorem runHandlers_keeps {α : Type} {view : IstState → α}
    {handlers : List (IstState → Int × IstState)}
    (keeps : ∀ handler ∈ handlers, Keeps view handler) : Keeps view (runHandlers handlers) := by
  -- The induction is on the handlers, and the state is the one that the first of them leaves.
  induction handlers with
  | nil =>
    intro state
    rfl
  | cons handler rest ih =>
    intro state
    have first := keeps handler List.mem_cons_self state
    rw [runHandlers_cons]
    by_cases failed : (handler state).1 ≠ 0
    · rw [if_pos failed]
      exact first
    · rw [if_neg failed, ih (fun other member => keeps other (.tail _ member)), first]

/-- Handlers in a row succeed when each of them does for the status of the pass. -/
theorem runHandlers_succeeds {status : Status} {oks : List Prop}
    {handlers : List (IstState → Int × IstState)}
    (keeps : ∀ handler ∈ handlers, Keeps IstState.status handler)
    (each : List.Forall₂ (fun ok handler =>
      ∀ state : IstState, state.status = status → ((handler state).1 = 0 ↔ ok)) oks handlers) :
    ∀ state : IstState, state.status = status →
      ((runHandlers handlers state).1 = 0 ↔ ∀ ok ∈ oks, ok) := by
  -- The first handler fails, or the others go on with the same status.
  induction each with
  | nil =>
    intro state _
    simp [runHandlers]
  | @cons ok handler oks rest first _ ih =>
    intro state seen
    have here := first state seen
    have later := ih (fun other member => keeps other (.tail _ member)) (handler state).2
      (by rw [keeps handler List.mem_cons_self, seen])
    rw [runHandlers_cons, List.forall_mem_cons, ← here, ← later]
    by_cases failed : (handler state).1 = 0
    · simp [failed]
    · simp [failed]

/-- A pass: the first write, the handlers, and the change of the state with the last write. -/
theorem handleStatus_eq (calls : IstCalls) (state : IstState) :
    handleStatus calls state =
      let first := cmdWriteCanInt calls.clear calls.beforeClear
        (state.status.intf &&& ~~~clearIrq) clearIrq state
      if first.1 ≠ 0 then first
      else
        let run := runHandlers (handlers calls) (beginPass first.2)
        if run.1 ≠ 0 then run
        else
          let last := followState calls (enterState calls (handleTrec run.2))
          (if last.bdiag1ClearMask ≠ 0 ∧ calls.bdiag1 = false then -eio else 0, last) :=
  rfl

/-- A turn handles the status that it has read, unless the status shows nothing. -/
theorem istTurn_eq (calls : IstCalls) (words : Status) (state : IstState) :
    istTurn calls words state =
      if calls.read then
        if pendingIrq (state.seen calls words).intf then
          (.handled (handleStatus calls (state.begun calls words)).1,
            (handleStatus calls (state.begun calls words)).2)
        else (.stopped, state.begun calls words)
      else (.stopped, { state with canInt := elapse calls.beforeRead state.canInt }) :=
  rfl

/-- A turn is only taken as long as the thread is not told to quit. -/
theorem istStep_turn {calls : IstCalls} {words : Status} {state next : IstState}
    (stepped : istStep state (.turn calls words) = some next) :
    next = (istTurn calls words state).2 := by
  -- A thread that is to quit takes no turn.
  rw [istStep] at stepped
  split at stepped
  · cases stepped
  · exact (Option.some.inj stepped).symm

/-- A handler that is not called keeps everything. -/
theorem whenAsked_keeps {α : Type} {view : IstState → α} (asks : Status → Bool)
    {handler : IstState → Int × IstState} (keeps : Keeps view handler) :
    Keeps view (whenAsked asks handler) := by
  -- The handler is called or not.
  intro state
  rw [whenAsked]
  split
  · exact keeps state
  · rfl

/-- A handler that is not called succeeds. -/
theorem whenAsked_succeeds {status : Status} {ok : Prop} (asks : Status → Bool)
    {handler : IstState → Int × IstState}
    (succeeds : ∀ state : IstState, state.status = status → ((handler state).1 = 0 ↔ ok))
    (state : IstState) (seen : state.status = status) :
    (whenAsked asks handler state).1 = 0 ↔ (asks status = true → ok) := by
  -- The handler is called or not.
  rw [whenAsked, seen]
  by_cases asked : asks status = true
  · simp [asked, succeeds state seen]
  · simp [asked]

/-- What is kept is kept in every part. -/
theorem Keeps.part {α β : Type} {view : IstState → α} {handler : IstState → Int × IstState}
    (keeps : Keeps view handler) (part : α → β) : Keeps (fun state => part (view state)) handler :=
  fun state => congrArg part (keeps state)

/-- The part of the state that no handler of a pass changes. -/
structure Core where
  status : Status
  canState : CanState
  newState : CanState
  restartMs : Nat
  forceQuit : Bool
  deriving DecidableEq, Repr

def IstState.core (state : IstState) : Core where
  status := state.status
  canState := state.canState
  newState := state.newState
  restartMs := state.restartMs
  forceQuit := state.forceQuit

/-- CAN_INT, with the writes to it. -/
def IstState.flags (state : IstState) : BitVec 32 × List (BitVec 32 × BitVec 32) :=
  (state.canInt, state.intWrites)

/-- All of this, with the mask of what is to be cleared in CAN_BDIAG1. -/
def IstState.wide (state : IstState) :
    Core × (BitVec 32 × List (BitVec 32 × BitVec 32)) × BitVec 32 :=
  (state.core, state.flags, state.bdiag1ClearMask)

/-- The handler that clears flags again changes only CAN_INT of this. -/
theorem handleSerrif_keeps (calls : IstCalls) :
    Keeps (fun state => (state.core, state.bdiag1ClearMask)) (handleSerrif calls) := by
  -- Every branch writes to CAN_INT at most.
  intro state
  unfold handleSerrif
  dsimp only
  split
  · rfl
  · split
    · rfl
    · split <;> rfl

/-- The handler of overflows counts them and fills the frame, and keeps the rest. -/
theorem handleRxovif_keeps (calls : IstCalls) : Keeps IstState.wide (handleRxovif calls) := by
  -- The loop is followed FIFO by FIFO.
  have rounds : ∀ left i, Keeps IstState.wide (rxovifLoop calls.rxovif left i) := by
    intro left
    -- The induction is on the FIFOs that are left, over the state that each round leaves.
    induction left with
    | zero =>
      intro i state
      rfl
    | succ left ih =>
      intro i state
      unfold rxovifLoop
      split
      · split
        · dsimp only
          rw [ih]
          rfl
        · rfl
      · exact ih (i + 1) state
  exact rounds 32 0

/-- The handler of RAM errors fills the frame, and keeps the rest. -/
theorem handleEccif_keeps (calls : IstCalls) : Keeps IstState.wide (handleEccif calls) := by
  -- Neither branch touches the flags or the counters.
  intro state
  unfold handleEccif
  dsimp only
  split <;> rfl

/-- The handler of invalid messages counts them and fills the frame, and keeps the rest. -/
theorem handleIvmif_keeps : Keeps IstState.wide handleIvmif := by
  -- Neither branch touches the flags or the counters.
  intro state
  unfold handleIvmif
  split <;> rfl

/-- A bus error is only noted down. -/
theorem bdiag1Case_keeps (flags id data : BitVec 32) (state : IstState) :
    (bdiag1Case flags id data state).core = state.core ∧
      (bdiag1Case flags id data state).flags = state.flags := by
  -- The flag is set or not.
  unfold bdiag1Case
  split
  · exact ⟨rfl, rfl⟩
  · exact ⟨rfl, rfl⟩

/-- The handler of bus errors keeps all but what it is to clear. -/
theorem handleCerrif_keeps : Keeps (fun state => (state.core, state.flags)) handleCerrif := by
  intro state
  unfold handleCerrif
  dsimp only
  -- Each of the five cases keeps what the state before it has.
  simp only [bdiag1Case_keeps]
  rfl

/-- All handlers of a pass keep the core of the state. -/
theorem handlers_keep_core (calls : IstCalls) :
    ∀ handler ∈ handlers calls, Keeps IstState.core handler := by
  -- What a handler keeps, it also keeps when it is only called on a condition.
  have returns (ret : Int) : Keeps IstState.core (returning ret) := fun _ => rfl
  simp only [handlers, List.forall_mem_cons, List.not_mem_nil, false_imp_iff, implies_true,
    and_true]
  refine ⟨?_, ?_, ?_, ?_, ?_, ?_, ?_, ?_⟩ <;> apply whenAsked_keeps
  · exact (handleSerrif_keeps calls).part Prod.fst
  · exact returns calls.modif
  · exact returns calls.txatif
  · exact returns calls.tefif
  · exact (handleRxovif_keeps calls).part Prod.fst
  · exact (handleEccif_keeps calls).part Prod.fst
  · exact handleIvmif_keeps.part Prod.fst
  · exact handleCerrif_keeps.part Prod.fst

end OpenwrtMisc.Mcp25xxfd
