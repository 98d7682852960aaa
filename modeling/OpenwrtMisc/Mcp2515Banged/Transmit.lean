import OpenwrtMisc.Kernel.EchoTable
import OpenwrtMisc.Lib.Machine

/-! The transmit path of the mcp2515-banged driver: xmit, interrupt thread, restart and bus-off. -/

namespace OpenwrtMisc.Mcp2515Banged

/-- `CAN_FRAME_MAX_DATA_LEN`. -/
def canFrameMaxDataLen : Nat := 8

/-- The flags of CANINTF and EFLG that the driver looks at. -/
def canintfTx : BitVec 8 := 0x1c
def canintfErr : BitVec 8 := 0x20
def canintfRx : BitVec 8 := 0x03
def eflgRxwar : BitVec 8 := 0x02
def eflgTxwar : BitVec 8 := 0x04
def eflgRxep : BitVec 8 := 0x08
def eflgTxep : BitVec 8 := 0x10
def eflgTxbo : BitVec 8 := 0x20
def eflgRx0ovr : BitVec 8 := 0x40
def eflgRx1ovr : BitVec 8 := 0x80

/-- `AFTER_SUSPEND_RESTART`. -/
def afterSuspendRestart : Nat := 8

/-- The states of `priv->can.state` while the interface is up. -/
inductive CanState where
  | errorActive
  | errorWarning
  | errorPassive
  | busOff
  deriving DecidableEq, Repr

/-- An skb that is given to `mcp2515_hard_start_xmit`, by the number of the call. -/
structure TxSkb where
  call : Nat
  canDlc : Nat
  /-- The sender wants its frame back: the `pkt_type` is `PACKET_LOOPBACK`. -/
  loopback : Bool
  deriving DecidableEq, Repr

/--
The state of one device.

`calls` and `outstanding` only record what happened.
-/
structure Device (echo : EchoTable Nat) where
  txSkb : Option TxSkb
  txLen : Nat
  forceQuit : Bool
  afterSuspend : Nat
  restartTx : Bool
  canState : CanState
  queueStopped : Bool
  slots : echo.Slots
  txPackets : Nat
  txBytes : Int
  txErrors : Nat
  rxErrors : Nat
  rxOverErrors : Nat
  errorWarning : Nat
  errorPassive : Nat
  /-- `mcp2515_hard_start_xmit` has set `tx_skb`, and does not have the lock yet. -/
  inXmit : Bool
  /-- A pass of `mcp2515_can_ist` has the lock. -/
  inIst : Bool
  /-- The number of calls of `mcp2515_hard_start_xmit` that were not turned away. -/
  calls : Nat
  /-- The data length of the frame that was handed to the controller and is not done with. -/
  outstanding : Option Nat

variable {echo : EchoTable Nat}

/-- The device after `mcp2515_open`. -/
def Device.opened (echo : EchoTable Nat) : Device echo where
  txSkb := none
  txLen := 0
  forceQuit := false
  afterSuspend := 0
  restartTx := false
  canState := .errorActive
  queueStopped := false
  slots := echo.fresh
  txPackets := 0
  txBytes := 0
  txErrors := 0
  rxErrors := 0
  rxOverErrors := 0
  errorWarning := 0
  errorPassive := 0
  inXmit := false
  inIst := false
  calls := 0
  outstanding := none

/-- `mcp2515_clean`. -/
def clean (state : Device echo) : Device echo :=
  { state with
    txErrors := if state.txSkb ≠ none ∨ state.txLen ≠ 0 then state.txErrors + 1 else state.txErrors
    slots := if state.txLen ≠ 0 then echo.canFreeEchoSkb 0 state.slots else state.slots
    txSkb := none
    txLen := 0
    outstanding := none }

/--
`mcp2515_hard_start_xmit` before it has the lock.

`invalid` tells whether `can_dropped_invalid_skb` drops the skb.
-/
def hardStartXmitEnter (invalid : Bool) (canDlc : Nat) (loopback : Bool) (state : Device echo) :
    Device echo :=
  if state.txSkb ≠ none ∨ state.txLen ≠ 0 then state
  else if invalid then state
  else
    { state with
      queueStopped := true
      txSkb := some { call := state.calls, canDlc := canDlc, loopback := loopback }
      inXmit := true
      calls := state.calls + 1 }

/-- `can_put_echo_skb`, which frees an skb that is not to be looped back by the device. -/
def canPutEchoSkb (iffEcho : Bool) (skb : TxSkb) (slots : echo.Slots) : echo.Slots :=
  if iffEcho && skb.loopback then echo.canPutEchoSkb skb.call 0 slots else slots

/-- `mcp2515_hard_start_xmit` under the lock, given whether `net->flags` has `IFF_ECHO`. -/
def hardStartXmitLocked (iffEcho : Bool) (state : Device echo) : Device echo :=
  let state := { state with inXmit := false }
  match state.txSkb with
  | none => state
  | some skb =>
    if state.canState = .busOff then clean state
    else
      let canDlc := if skb.canDlc > canFrameMaxDataLen then canFrameMaxDataLen else skb.canDlc
      { state with
        txLen := 1 + canDlc
        slots := canPutEchoSkb iffEcho skb state.slots
        txSkb := none
        outstanding := some canDlc }

/-- `mcp2515_do_set_mode(net, CAN_MODE_START)`. -/
def doSetModeStart (restartMs : Nat) (state : Device echo) : Device echo :=
  let state := clean state
  { state with
    canState := .errorActive
    restartTx := true
    afterSuspend := if restartMs = 0 then afterSuspendRestart else state.afterSuspend }

/-- The state that `mcp2515_can_ist` reads from EFLG. -/
def newState (eflag : BitVec 8) : CanState :=
  if eflag &&& eflgTxbo ≠ 0 then .busOff
  else if eflag &&& eflgTxep ≠ 0 then .errorPassive
  else if eflag &&& eflgRxep ≠ 0 then .errorPassive
  else if eflag &&& eflgTxwar ≠ 0 then .errorWarning
  else if eflag &&& eflgRxwar ≠ 0 then .errorWarning
  else .errorActive

/-- The statistics of the states; an active state counts for both, as its case falls through. -/
def updateCanStats (new : CanState) (state : Device echo) : Device echo :=
  let passive := decide (new = .errorPassive ∨ new = .busOff)
  match state.canState with
  | .errorActive =>
    { state with
      errorWarning := if new ≠ .errorActive then state.errorWarning + 1 else state.errorWarning
      errorPassive := if passive then state.errorPassive + 1 else state.errorPassive }
  | .errorWarning =>
    { state with errorPassive := if passive then state.errorPassive + 1 else state.errorPassive }
  | _ => state

/-- The overflows that EFLG tells of. -/
def handleOverflow (eflag : BitVec 8) (state : Device echo) : Device echo :=
  let overflows :=
    (if eflag &&& eflgRx0ovr ≠ 0 then 1 else 0) + (if eflag &&& eflgRx1ovr ≠ 0 then 1 else 0)
  { state with
    rxErrors := state.rxErrors + overflows
    rxOverErrors := state.rxOverErrors + overflows }

/-- The branch of `mcp2515_can_ist` for a sent frame; `tx_bytes` grows by -1 without one. -/
def handleTx (state : Device echo) : Device echo :=
  let state :=
    { state with
      txPackets := state.txPackets + 1
      txBytes := state.txBytes + ((state.txLen : Int) - 1) }
  let state :=
    if state.txLen ≠ 0 then
      { state with slots := echo.canGetEchoSkb 0 state.slots, txLen := 0, outstanding := none }
    else state
  { state with queueStopped := false }

/--
A turn of the loop of `mcp2515_can_ist`, with the values that CANINTF and EFLG are read as.

The frames in the receive buffers are left out: their delivery touches nothing of the transmission.
-/
def canIstTurn (restartMs : Nat) (intf eflag : BitVec 8) (state : Device echo) : Device echo :=
  let intf := intf &&& (canintfRx ||| canintfTx ||| canintfErr)
  let new := newState eflag
  let state := { updateCanStats new state with canState := new }
  let state := if intf &&& canintfErr ≠ 0 then handleOverflow eflag state else state
  if state.canState = .busOff ∧ restartMs = 0 then { state with forceQuit := true, inIst := false }
  else if intf = 0 then { state with inIst := false }
  else if intf &&& canintfTx ≠ 0 then handleTx state
  else state

/-- The steps of the device. -/
inductive Label where
  | xmitEnter (invalid : Bool) (canDlc : Nat) (loopback : Bool)
  | xmitLocked
  | setModeStart
  | istEnter
  | istTurn (intf eflag : BitVec 8)
  | istLeave
  deriving DecidableEq, Repr

/-- One step of the device, `none` when it cannot be taken now. -/
def step (iffEcho : Bool) (restartMs : Nat) (state : Device echo) : Label → Option (Device echo)
  | .xmitEnter invalid canDlc loopback =>
    if state.queueStopped = false ∧ state.inXmit = false then
      some (hardStartXmitEnter invalid canDlc loopback state)
    else none
  | .xmitLocked =>
    if state.inXmit = true ∧ state.inIst = false then some (hardStartXmitLocked iffEcho state)
    else none
  | .setModeStart => some (doSetModeStart restartMs state)
  | .istEnter => if state.inIst = false then some { state with inIst := true } else none
  | .istTurn intf eflag =>
    if state.inIst = true ∧ state.forceQuit = false then
      some (canIstTurn restartMs intf eflag state)
    else none
  | .istLeave =>
    if state.inIst = true ∧ state.forceQuit = true then some { state with inIst := false }
    else none

/-- The machine of an interface from its opening on. -/
def machine (echo : EchoTable Nat) (iffEcho : Bool) (restartMs : Nat) :
    Machine (Device echo) Label where
  start := Device.opened echo
  step := step iffEcho restartMs

/-- What is expected of a step, and of the state that it leaves when no call is under way. -/
structure TransmitSound (before : Device echo) (_ : Label) (after : Device echo) : Prop where
  /-- The queue is stopped only for a frame in the controller. -/
  stopped : after.inXmit = false → after.queueStopped = true → after.txLen ≠ 0
  skb : after.inXmit = false → after.txSkb = none
  /-- A frame is in the controller exactly when it is in the echo slot. -/
  echoed : after.txLen ≠ 0 ↔ echo.slot after.slots 0 ≠ none
  /-- The statistics change only when an outstanding frame is done with. -/
  counted :
    after.txPackets = before.txPackets ∧ after.txBytes = before.txBytes ∨
    ∃ length : Nat, before.outstanding = some length ∧ after.outstanding = none ∧
      after.txPackets = before.txPackets + 1 ∧ after.txBytes = before.txBytes + length

/-- A turn of the interrupt thread gets as far as the branch for a sent frame. -/
def SeesTx (restartMs : Nat) (intf eflag : BitVec 8) : Prop :=
  intf &&& canintfTx ≠ 0 ∧ ¬ (newState eflag = .busOff ∧ restartMs = 0)

/--
A frame that gets the lock is still there, the bus is not off, and the echo is stored;
a restart and a sent frame meet no frame, and a frame, in the controller.
-/
def Fits (iffEcho : Bool) (restartMs : Nat) (state : Device echo) : Label → Prop
  | .xmitLocked =>
    (∃ skb, state.txSkb = some skb ∧ (iffEcho && skb.loopback) = true) ∧ state.canState ≠ .busOff
  | .setModeStart => state.txLen = 0
  | .istTurn intf eflag => SeesTx restartMs intf eflag → state.txLen ≠ 0
  | _ => True

/-- The invariant of the transmission. -/
structure TransmitInv (state : Device echo) : Prop where
  /-- `tx_len` is one more than the length of the outstanding frame. -/
  outstanding : state.outstanding = if state.txLen = 0 then none else some (state.txLen - 1)
  echoed : state.txLen ≠ 0 ↔ echo.slot state.slots 0 ≠ none
  /-- A frame in the controller keeps the queue stopped, so that no call is under way. -/
  inFlight : state.txLen ≠ 0 → state.queueStopped = true ∧ state.inXmit = false
  stopped : state.inXmit = false → state.queueStopped = true → state.txLen ≠ 0
  skb : state.inXmit = false → state.txSkb = none
  entered : state.inXmit = true → state.queueStopped = true

/-- The invariant holds of a device that was just opened. -/
theorem transmitInv_opened (echo : EchoTable Nat) : TransmitInv (Device.opened echo) where
  outstanding := rfl
  echoed := by
    -- Nothing is in the controller, in the slot or on its way.
    rw [Device.opened, echo.slot_fresh]
    exact ⟨fun none => absurd rfl none, fun none => absurd rfl none⟩
  inFlight := fun none => absurd rfl none
  stopped := fun _ awake => absurd awake Bool.false_ne_true
  skb := fun _ => rfl
  entered := fun away => absurd away Bool.false_ne_true

/-- The part of the state that the transmission is about. -/
structure SameTransmission (first second : Device echo) : Prop where
  txSkb : second.txSkb = first.txSkb
  txLen : second.txLen = first.txLen
  queueStopped : second.queueStopped = first.queueStopped
  slots : second.slots = first.slots
  txPackets : second.txPackets = first.txPackets
  txBytes : second.txBytes = first.txBytes
  inXmit : second.inXmit = first.inXmit
  outstanding : second.outstanding = first.outstanding

/-- Two changes of other parts of the state are one such change. -/
theorem SameTransmission.trans {first second third : Device echo}
    (earlier : SameTransmission first second) (later : SameTransmission second third) :
    SameTransmission first third where
  txSkb := later.txSkb.trans earlier.txSkb
  txLen := later.txLen.trans earlier.txLen
  queueStopped := later.queueStopped.trans earlier.queueStopped
  slots := later.slots.trans earlier.slots
  txPackets := later.txPackets.trans earlier.txPackets
  txBytes := later.txBytes.trans earlier.txBytes
  inXmit := later.inXmit.trans earlier.inXmit
  outstanding := later.outstanding.trans earlier.outstanding

/-- The invariant is about the transmission only. -/
theorem TransmitInv.congr {first second : Device echo} (inv : TransmitInv first)
    (same : SameTransmission first second) : TransmitInv second where
  outstanding := by rw [same.outstanding, same.txLen]; exact inv.outstanding
  -- Each part looks at the transmission only.
  echoed := by rw [same.txLen, same.slots]; exact inv.echoed
  inFlight := by rw [same.txLen, same.queueStopped, same.inXmit]; exact inv.inFlight
  stopped := by rw [same.inXmit, same.queueStopped, same.txLen]; exact inv.stopped
  skb := by rw [same.inXmit, same.txSkb]; exact inv.skb
  entered := by rw [same.inXmit, same.queueStopped]; exact inv.entered

/-- The invariant gives what is expected of a step that leaves the statistics alone. -/
theorem TransmitInv.sound {before after : Device echo} {label : Label} (inv : TransmitInv after)
    (counted : after.txPackets = before.txPackets ∧ after.txBytes = before.txBytes ∨
      ∃ length : Nat, before.outstanding = some length ∧ after.outstanding = none ∧
        after.txPackets = before.txPackets + 1 ∧ after.txBytes = before.txBytes + length) :
    TransmitSound before label after where
  stopped := inv.stopped
  skb := inv.skb
  echoed := inv.echoed
  counted := counted

/-- A step that leaves the transmission alone keeps the invariant and is sound. -/
theorem TransmitInv.idle {before after : Device echo} {label : Label} (inv : TransmitInv before)
    (same : SameTransmission before after) :
    TransmitInv after ∧ TransmitSound before label after := by
  -- The counters of the transmission are not touched.
  have next := inv.congr same
  exact ⟨next, next.sound (Or.inl ⟨same.txPackets, same.txBytes⟩)⟩

/-- No frame is in the controller while a call is under way. -/
theorem TransmitInv.txLen_of_entered {state : Device echo} (inv : TransmitInv state)
    (entered : state.inXmit = true) : state.txLen = 0 := by
  -- A frame in the controller would mean that no call is under way.
  by_contra inFlight
  exact absurd ((inv.inFlight inFlight).2.symm.trans entered) Bool.false_ne_true

/-- The echo slot is empty when no frame is in the controller. -/
theorem TransmitInv.slot_eq_none {state : Device echo} (inv : TransmitInv state)
    (idle : state.txLen = 0) : echo.slot state.slots 0 = none := by
  -- A full slot belongs to a frame in the controller.
  by_contra full
  exact inv.echoed.mpr full idle

/-- A call that enters is turned away, drops its skb, or holds it before the lock. -/
theorem TransmitInv.xmitEnter {state : Device echo} (inv : TransmitInv state) {label : Label}
    (invalid : Bool) (canDlc : Nat) (loopback : Bool) :
    TransmitInv (hardStartXmitEnter invalid canDlc loopback state) ∧
      TransmitSound state label (hardStartXmitEnter invalid canDlc loopback state) := by
  -- The cases are those of the call: a frame is under way, the skb is no frame, or it is taken.
  rw [hardStartXmitEnter]
  by_cases busy : state.txSkb ≠ none ∨ state.txLen ≠ 0
  · rw [if_pos busy]
    exact inv.idle ⟨rfl, rfl, rfl, rfl, rfl, rfl, rfl, rfl⟩
  · rw [if_neg busy]
    cases invalid with
    | true => exact inv.idle ⟨rfl, rfl, rfl, rfl, rfl, rfl, rfl, rfl⟩
    | false =>
      -- Until the call has the lock, the queue is stopped for a frame that is not handed over yet.
      rw [not_or, not_not, not_not] at busy
      rw [if_neg Bool.false_ne_true]
      have next : TransmitInv
          { state with
            queueStopped := true
            txSkb := some { call := state.calls, canDlc := canDlc, loopback := loopback }
            inXmit := true
            calls := state.calls + 1 } := by
        refine ⟨inv.outstanding, inv.echoed, ?_, ?_, ?_, fun _ => rfl⟩
        · exact fun inFlight => absurd busy.2 inFlight
        · exact fun away => absurd away.symm Bool.false_ne_true
        · exact fun away => absurd away.symm Bool.false_ne_true
      exact ⟨next, next.sound (Or.inl ⟨rfl, rfl⟩)⟩

/-- A call that fits hands its frame to the controller and its skb to the echo slot. -/
theorem TransmitInv.xmitLocked {state : Device echo} (inv : TransmitInv state)
    (entered : state.inXmit = true) {iffEcho : Bool} {skb : TxSkb} (found : state.txSkb = some skb)
    (stored : (iffEcho && skb.loopback) = true) (on : state.canState ≠ .busOff) :
    TransmitInv (hardStartXmitLocked iffEcho state) ∧
      TransmitSound state .xmitLocked (hardStartXmitLocked iffEcho state) := by
  -- The slot was empty, so the frame finds it free and its length is told from nothing.
  have idle := inv.txLen_of_entered entered
  have empty := inv.slot_eq_none idle
  simp only [hardStartXmitLocked, found, if_neg on, canPutEchoSkb, stored, if_true]
  generalize (if skb.canDlc > canFrameMaxDataLen then canFrameMaxDataLen else skb.canDlc) = length
  have next : TransmitInv
      { state with
        inXmit := false
        txLen := 1 + length
        slots := echo.canPutEchoSkb skb.call 0 state.slots
        txSkb := none
        outstanding := some length } := by
    have full : 1 + length ≠ 0 := by omega
    refine ⟨?_, ?_, ?_, ?_, fun _ => rfl, ?_⟩
    · show some length = if 1 + length = 0 then none else some (1 + length - 1)
      rw [if_neg full, Nat.add_sub_cancel_left]
    · show 1 + length ≠ 0 ↔ echo.slot (echo.canPutEchoSkb skb.call 0 state.slots) 0 ≠ none
      rw [echo.slot_put _ _ _ _ empty, if_pos rfl]
      exact ⟨fun _ => Option.some_ne_none _, fun _ => full⟩
    · exact fun _ => ⟨inv.entered entered, rfl⟩
    · exact fun _ _ => full
    · exact fun away => absurd away Bool.false_ne_true
  exact ⟨next, next.sound (Or.inl ⟨rfl, rfl⟩)⟩

/-- A restart that meets no frame in the controller leaves the transmission in order. -/
theorem TransmitInv.setModeStart {state : Device echo} (inv : TransmitInv state)
    (idle : state.txLen = 0) (restartMs : Nat) :
    TransmitInv (doSetModeStart restartMs state) ∧
      TransmitSound state .setModeStart (doSetModeStart restartMs state) := by
  -- The echo slot is empty, so nothing is dropped with it.
  have empty := inv.slot_eq_none idle
  have next : TransmitInv (doSetModeStart restartMs state) := by
    refine ⟨rfl, ?_, fun full => absurd rfl full, ?_, fun _ => rfl, inv.entered⟩
    · -- The slot was empty, and is not even freed.
      show (0 : Nat) ≠ 0 ↔ echo.slot
        (if state.txLen ≠ 0 then echo.canFreeEchoSkb 0 state.slots else state.slots) 0 ≠ none
      rw [if_neg (not_not.mpr idle), empty]
      exact ⟨fun wrong => absurd rfl wrong, fun wrong => absurd rfl wrong⟩
    · exact fun away stopped => absurd idle (inv.stopped away stopped)
  exact ⟨next, next.sound (Or.inl ⟨rfl, rfl⟩)⟩

/-- The branch for a sent frame takes the outstanding frame back. -/
theorem TransmitInv.handleTx {state : Device echo} (inv : TransmitInv state)
    (inFlight : state.txLen ≠ 0) {label : Label} :
    TransmitInv (handleTx state) ∧ TransmitSound state label (handleTx state) := by
  -- What the branch does is written as one state, and the invariant is shown for that.
  have after : Mcp2515Banged.handleTx state =
      { state with
        txPackets := state.txPackets + 1
        txBytes := state.txBytes + ((state.txLen : Int) - 1)
        slots := echo.canGetEchoSkb 0 state.slots
        txLen := 0
        outstanding := none
        queueStopped := false } := by
    simp only [Mcp2515Banged.handleTx, if_pos inFlight]
  -- No call is under way, so waking the queue leaves no frame behind that it is stopped for.
  have away := (inv.inFlight inFlight).2
  rw [after]
  have next : TransmitInv
      { state with
        txPackets := state.txPackets + 1
        txBytes := state.txBytes + ((state.txLen : Int) - 1)
        slots := echo.canGetEchoSkb 0 state.slots
        txLen := 0
        outstanding := none
        queueStopped := false } := by
    refine ⟨rfl, ?_, fun full => absurd rfl full, ?_, inv.skb, ?_⟩
    · show (0 : Nat) ≠ 0 ↔ echo.slot (echo.canGetEchoSkb 0 state.slots) 0 ≠ none
      rw [echo.slot_get, if_pos rfl]
      exact ⟨fun wrong => absurd rfl wrong, fun wrong => absurd rfl wrong⟩
    · exact fun _ awake => absurd awake Bool.false_ne_true
    · exact fun entered => absurd (away.symm.trans entered) Bool.false_ne_true
  -- What is added to the bytes is the length of the outstanding frame.
  refine ⟨next, next.sound (Or.inr ⟨state.txLen - 1, ?_, rfl, rfl, ?_⟩)⟩
  · rw [inv.outstanding, if_neg inFlight]
  · show state.txBytes + ((state.txLen : Int) - 1) = state.txBytes + ((state.txLen - 1 : Nat) : Int)
    omega

/-- A turn up to its decisions: the statistics and the state of the bus are brought up to date. -/
theorem canIstTurn_updated (restartMs : Nat) (intf eflag : BitVec 8) (state : Device echo) :
    ∃ updated, SameTransmission state updated ∧
      canIstTurn restartMs intf eflag state =
        if newState eflag = .busOff ∧ restartMs = 0 then
          { updated with forceQuit := true, inIst := false }
        else if intf &&& (canintfRx ||| canintfTx ||| canintfErr) = 0 then
          { updated with inIst := false }
        else if intf &&& (canintfRx ||| canintfTx ||| canintfErr) &&& canintfTx ≠ 0 then
          handleTx updated
        else updated := by
  -- Counting the errors and noting the state leave the transmission as it was.
  have counted : SameTransmission state
      { updateCanStats (newState eflag) state with canState := newState eflag } := by
    rw [updateCanStats]
    split <;> exact ⟨rfl, rfl, rfl, rfl, rfl, rfl, rfl, rfl⟩
  -- Only the counters of errors depend on the error flag.
  by_cases error : intf &&& (canintfRx ||| canintfTx ||| canintfErr) &&& canintfErr ≠ 0
  · refine ⟨handleOverflow eflag
      { updateCanStats (newState eflag) state with canState := newState eflag }, ?_, ?_⟩
    · exact counted.trans ⟨rfl, rfl, rfl, rfl, rfl, rfl, rfl, rfl⟩
    · rw [canIstTurn]
      simp only [if_pos error]
      rfl
  · refine ⟨_, counted, ?_⟩
    rw [canIstTurn]
    simp only [if_neg error]

/-- A turn either handles a sent frame or leaves the transmission alone. -/
theorem canIstTurn_cases (restartMs : Nat) (intf eflag : BitVec 8) (state : Device echo) :
    ∃ same, SameTransmission state same ∧
      (SeesTx restartMs intf eflag ∧ canIstTurn restartMs intf eflag state = handleTx same ∨
        ¬ SeesTx restartMs intf eflag ∧ canIstTurn restartMs intf eflag state = same) := by
  obtain ⟨updated, same, turn⟩ := canIstTurn_updated restartMs intf eflag state
  -- The flags that are masked out are not those of a sent frame.
  have masked : intf &&& (canintfRx ||| canintfTx ||| canintfErr) &&& canintfTx =
      intf &&& canintfTx := by
    have within : (canintfRx ||| canintfTx ||| canintfErr) &&& canintfTx = canintfTx := by decide
    rw [BitVec.and_assoc, within]
  rw [turn]
  by_cases off : newState eflag = .busOff ∧ restartMs = 0
  · rw [if_pos off]
    refine ⟨_, same.trans ?_, Or.inr ⟨fun sees => sees.2 off, rfl⟩⟩
    exact ⟨rfl, rfl, rfl, rfl, rfl, rfl, rfl, rfl⟩
  · rw [if_neg off, masked]
    by_cases quiet : intf &&& (canintfRx ||| canintfTx ||| canintfErr) = 0
    · rw [if_pos quiet]
      have unsent : ¬ SeesTx restartMs intf eflag := by
        intro sees
        apply sees.1
        rw [← masked, quiet]
        rfl
      refine ⟨_, same.trans ?_, Or.inr ⟨unsent, rfl⟩⟩
      exact ⟨rfl, rfl, rfl, rfl, rfl, rfl, rfl, rfl⟩
    · rw [if_neg quiet]
      by_cases sent : intf &&& canintfTx ≠ 0
      · rw [if_pos sent]
        exact ⟨updated, same, Or.inl ⟨⟨sent, off⟩, rfl⟩⟩
      · rw [if_neg sent]
        exact ⟨updated, same, Or.inr ⟨fun sees => sent sees.1, rfl⟩⟩

/-- A step that fits keeps the invariant and does what is expected of it. -/
theorem step_fits {iffEcho : Bool} {restartMs : Nat} {state next : Device echo} {label : Label}
    (inv : TransmitInv state) (fits : Fits iffEcho restartMs state label)
    (stepped : step iffEcho restartMs state label = some next) :
    TransmitInv next ∧ TransmitSound state label next := by
  -- The cases are the steps of the driver, each with what its guard says of the state.
  cases label with
  | xmitEnter invalid canDlc loopback =>
    simp only [step, Option.ite_none_right_eq_some, Option.some.injEq] at stepped
    rw [← stepped.2]
    exact inv.xmitEnter invalid canDlc loopback
  | xmitLocked =>
    simp only [step, Option.ite_none_right_eq_some, Option.some.injEq] at stepped
    obtain ⟨⟨skb, found, stored⟩, on⟩ := fits
    rw [← stepped.2]
    exact inv.xmitLocked stepped.1.1 found stored on
  | setModeStart =>
    simp only [step, Option.some.injEq] at stepped
    rw [← stepped]
    exact inv.setModeStart fits restartMs
  | istEnter =>
    simp only [step, Option.ite_none_right_eq_some, Option.some.injEq] at stepped
    rw [← stepped.2]
    exact inv.idle ⟨rfl, rfl, rfl, rfl, rfl, rfl, rfl, rfl⟩
  | istTurn intf eflag =>
    simp only [step, Option.ite_none_right_eq_some, Option.some.injEq] at stepped
    rw [← stepped.2]
    obtain ⟨same, kept, turn⟩ := canIstTurn_cases restartMs intf eflag state
    rcases turn with ⟨sees, sent⟩ | ⟨_, idle⟩
    · -- The condition says that a frame is in the controller when one is reported as sent.
      have inFlight : same.txLen ≠ 0 := by
        rw [kept.txLen]
        exact fits sees
      obtain ⟨last, sound⟩ : TransmitInv (handleTx same) ∧
          TransmitSound same (.istTurn intf eflag) (handleTx same) :=
        (inv.congr kept).handleTx inFlight
      rw [sent]
      refine ⟨last, sound.stopped, sound.skb, sound.echoed, ?_⟩
      rw [← kept.txPackets, ← kept.txBytes, ← kept.outstanding]
      exact sound.counted
    · rw [idle]
      exact inv.idle kept
  | istLeave =>
    simp only [step, Option.ite_none_right_eq_some, Option.some.injEq] at stepped
    rw [← stepped.2]
    exact inv.idle ⟨rfl, rfl, rfl, rfl, rfl, rfl, rfl, rfl⟩

/-- A step that does what is expected of it fits. -/
theorem fits_of_sound {iffEcho : Bool} {restartMs : Nat} {state next : Device echo} {label : Label}
    (inv : TransmitInv state) (sound : TransmitSound state label next)
    (stepped : step iffEcho restartMs state label = some next) :
    Fits iffEcho restartMs state label := by
  -- For each step the condition is what its effect on the invariant needs.
  cases label with
  | xmitEnter invalid canDlc loopback => trivial
  | xmitLocked =>
    simp only [step, Option.ite_none_right_eq_some, Option.some.injEq] at stepped
    obtain ⟨⟨entered, _⟩, rfl⟩ := stepped
    have idle : state.txLen = 0 := inv.txLen_of_entered entered
    have stopped := inv.entered entered
    cases found : state.txSkb with
    | none =>
      -- The queue stays stopped for a frame that a restart took away.
      simp only [hardStartXmitLocked, found] at sound
      exact absurd idle (sound.stopped rfl stopped)
    | some skb =>
      by_cases off : state.canState = .busOff
      · -- The queue stays stopped for a frame that is dropped.
        simp only [hardStartXmitLocked, found, if_pos off] at sound
        exact absurd rfl (sound.stopped rfl stopped)
      · refine ⟨⟨skb, found, ?_⟩, off⟩
        -- A frame in the controller that is not in the slot is never echoed.
        by_contra unstored
        simp only [hardStartXmitLocked, found, if_neg off, canPutEchoSkb, if_neg unstored] at sound
        have full := sound.echoed.mp (by simp)
        exact inv.echoed.mpr full idle
  | setModeStart =>
    simp only [step, Option.some.injEq] at stepped
    subst stepped
    by_contra inFlight
    -- A restart frees the frame but does not wake the queue that it was stopped for.
    obtain ⟨stopped, away⟩ := inv.inFlight inFlight
    exact absurd rfl (sound.stopped away stopped)
  | istEnter => trivial
  | istTurn intf eflag =>
    simp only [step, Option.ite_none_right_eq_some, Option.some.injEq] at stepped
    obtain ⟨_, rfl⟩ := stepped
    intro sees idle
    obtain ⟨same, kept, turn⟩ := canIstTurn_cases restartMs intf eflag state
    rcases turn with ⟨_, sent⟩ | ⟨unsent, _⟩
    · -- Without a frame the branch still counts one, which was not outstanding.
      have one : (handleTx same).txPackets = state.txPackets + 1 := by
        rw [← kept.txPackets]
        simp only [handleTx]
        split <;> rfl
      rcases sound.counted with ⟨still, _⟩ | ⟨length, held, _⟩
      · rw [sent, one] at still
        exact absurd still (Nat.succ_ne_self _)
      · rw [inv.outstanding, if_pos idle] at held
        exact nomatch held
    · exact unsent sees
  | istLeave => trivial

/-- The transmission is in order along a run exactly when every step of the run fits. -/
theorem transmitSound_iff_fits (echo : EchoTable Nat) (iffEcho : Bool) (restartMs : Nat)
    (labels : List Label) :
    (machine echo iffEcho restartMs).Along TransmitSound (Device.opened echo) labels ↔
      (machine echo iffEcho restartMs).Along
        (fun state label _ => Fits iffEcho restartMs state label) (Device.opened echo) labels := by
  -- The invariant is carried along the run in both directions.
  apply Machine.along_iff_condition ?_ ?_ labels _ (transmitInv_opened echo)
  · exact fun state label next inv fits stepped => step_fits inv fits stepped
  · exact fun state label next inv sound stepped => fits_of_sound inv sound stepped

/-- A frame that finds the bus off leaves the queue stopped with nothing in the controller. -/
theorem busOff_stops_queue :
    ¬ ∀ (echo : EchoTable Nat) (iffEcho : Bool) (restartMs : Nat) (labels : List Label),
      (machine echo iffEcho restartMs).Along TransmitSound (Device.opened echo) labels := by
  intro claim
  -- The bus goes off with a restart to come, and the next frame is dropped under the lock.
  have sound := (claim (EchoTable.ofFunction Nat) true 100
    ([.istEnter, .istTurn 0 eflgTxbo, .xmitEnter false 1 true] ++ [.xmitLocked])).transition rfl rfl
  exact absurd rfl (sound.stopped rfl rfl)

end OpenwrtMisc.Mcp2515Banged
