import Mathlib.Logic.Function.Basic
import OpenwrtMisc.Lib.BitMask
import OpenwrtMisc.Lib.Machine

/-! The error interrupts of the sunxi-can driver, and the state of the interface that they leave. -/

namespace OpenwrtMisc.SunxiCan

open BitMask

/-- The flags of the interrupt register that `sun4i_can_err` looks at. -/
def sun4iIntBusErr : BitVec 8 := bit 7
def sun4iIntArbLost : BitVec 8 := bit 6
def sun4iIntErrPassive : BitVec 8 := bit 5
def sun4iIntDataOr : BitVec 8 := bit 3
def sun4iIntErrWrn : BitVec 8 := bit 2

/-- The flags of the low byte of the status register. -/
def sun4iStaBusOff : BitVec 8 := bit 7
def sun4iStaErrSta : BitVec 8 := bit 6

/-- The fields of the status register that tell of the last error. -/
def sun4iStaBitErr : BitVec 32 := 0x00 <<< 22
def sun4iStaFormErr : BitVec 32 := 0x01 <<< 22
def sun4iStaStuffErr : BitVec 32 := 0x02 <<< 22
def sun4iStaMaskErr : BitVec 32 := 0x03 <<< 22
def sun4iStaErrDir : BitVec 32 := bit 21
def sun4iStaErrSegCode : BitVec 32 := 0x1f <<< 16

/-- `SUN4I_MSEL_RESET_MODE` and `SUN4I_CMD_CLEAR_OR_FLAG`. -/
def sun4iMselResetMode : BitVec 32 := bit 0
def sun4iCmdClearOrFlag : BitVec 32 := bit 3

/-- The classes of an error frame, and the bits of its data. -/
def canErrFlag : BitVec 32 := 0x20000000
def canErrLostarb : BitVec 32 := 0x2
def canErrCrtl : BitVec 32 := 0x4
def canErrProt : BitVec 32 := 0x8
def canErrBusoff : BitVec 32 := 0x40
def canErrBuserror : BitVec 32 := 0x80
def canErrCrtlRxOverflow : BitVec 8 := 0x1
def canErrProtBit : BitVec 8 := 0x1
def canErrProtForm : BitVec 8 := 0x2
def canErrProtStuff : BitVec 8 := 0x4
def canErrProtTx : BitVec 8 := 0x80

/-- `CAN_ERR_DLC`, and the error that a failed allocation is reported with. -/
def canErrDlc : Nat := 8
def eNOMEM : Int := 12

/-- `enum can_state`. -/
inductive CanState where
  | errorActive
  | errorWarning
  | errorPassive
  | busOff
  | stopped
  | sleeping
  deriving DecidableEq, Repr

/-- The value of a state in the enumeration. -/
def CanState.value : CanState → Nat
  | .errorActive => 0
  | .errorWarning => 1
  | .errorPassive => 2
  | .busOff => 3
  | .stopped => 4
  | .sleeping => 5

/-- The larger one of two states. -/
def CanState.larger (first second : CanState) : CanState :=
  if first.value < second.value then second else first

/-- An error frame. -/
structure ErrFrame where
  canId : BitVec 32
  canDlc : Nat
  data : Nat → BitVec 8

/-- The frame of `alloc_can_err_skb`. -/
def ErrFrame.fresh : ErrFrame where
  canId := canErrFlag
  canDlc := canErrDlc
  data _ := 0

/-- More classes of a frame. -/
def ErrFrame.addClass (id : BitVec 32) (cf : ErrFrame) : ErrFrame :=
  { cf with canId := cf.canId ||| id }

/-- A byte of the data of a frame is stored, or gets more bits. -/
def ErrFrame.put (index : Nat) (byte : BitVec 8) (cf : ErrFrame) : ErrFrame :=
  { cf with data := Function.update cf.data index byte }

def ErrFrame.add (index : Nat) (byte : BitVec 8) (cf : ErrFrame) : ErrFrame :=
  cf.put index (cf.data index ||| byte)

/--
What the driver relies on of `can_change_state`.

The function belongs to the CAN layer and stays a parameter.
-/
structure CanLayer where
  /-- The stored state and the frame after the call, from the stored state and those given. -/
  canChangeState : CanState → CanState → CanState → ErrFrame → CanState × ErrFrame
  /-- The larger one of the two given states is stored. -/
  stores : ∀ state txState rxState cf,
    (canChangeState state txState rxState cf).1 = txState.larger rxState

/-- A layer that marks the frame as one of the bus-off state or of the controller. -/
def CanLayer.marking : CanLayer where
  canChangeState _ txState rxState cf :=
    (txState.larger rxState,
      cf.addClass (if txState.larger rxState = .busOff then canErrBusoff else canErrCrtl))
  stores _ _ _ _ := rfl

/-- The registers that are written while errors are handled. -/
inductive Reg where
  | msel
  | cmd
  deriving DecidableEq, Repr

/-- The statistics that errors are counted in. -/
structure ErrStats where
  rxOverErrors : Nat
  rxErrors : Nat
  txErrors : Nat
  rxPackets : Nat
  rxBytes : Nat
  busError : Nat
  arbitrationLost : Nat
  deriving DecidableEq, Repr

/--
The interface as far as errors concern it.

`busOffCalls`, `writes` and `errorSkbs` only record what happened.
-/
structure CanDevice where
  /-- `priv->can.state`. -/
  canState : CanState
  stats : ErrStats
  /-- The number of calls of `can_bus_off`. -/
  busOffCalls : Nat
  writes : List (Reg × BitVec 32)
  /-- The frames that were passed on. -/
  errorSkbs : List ErrFrame

/-- What a call of `sun4i_can_err` reads, and whether its skb can be allocated. -/
structure ErrCalls where
  skb : Bool
  errc : BitVec 32
  /-- The mode register before the reset mode is set, and before it is cleared. -/
  mselReset : BitVec 32
  mselNormal : BitVec 32
  ecc : BitVec 32
  alc : BitVec 32
  deriving DecidableEq, Repr

/-- What a call works on: the interface, the frame if there is one, and the state to enter. -/
structure ErrPass where
  device : CanDevice
  cf : Option ErrFrame
  state : CanState

/-- `rxerr` and `txerr`. -/
def ErrCalls.rxerr (calls : ErrCalls) : BitVec 32 := calls.errc >>> 16 &&& 0xff

def ErrCalls.txerr (calls : ErrCalls) : BitVec 32 := calls.errc &&& 0xff

/-- A write to a register. -/
def CanDevice.writel (reg : Reg) (value : BitVec 32) (device : CanDevice) : CanDevice :=
  { device with writes := device.writes ++ [(reg, value)] }

/-- The allocation of the frame, which gets the error counters. -/
def beginErr (calls : ErrCalls) (device : CanDevice) : ErrPass where
  device := device
  cf :=
    if calls.skb then
      some ((ErrFrame.fresh.put 6 (calls.txerr.setWidth 8)).put 7 (calls.rxerr.setWidth 8))
    else none
  state := device.canState

/-- The data overrun interrupt, which takes the controller through the reset mode. -/
def dataOverrun (calls : ErrCalls) (pass : ErrPass) : ErrPass :=
  let stats := pass.device.stats
  let device :=
    { pass.device with
      stats :=
        { stats with
          rxOverErrors := stats.rxOverErrors + 1
          rxErrors := stats.rxErrors + 1 } }
  -- Whether the mode was entered is only printed, and one turn of each loop sets the bit.
  let device := device.writel .msel (calls.mselReset ||| sun4iMselResetMode)
  let device := device.writel .msel (calls.mselNormal &&& ~~~sun4iMselResetMode)
  { pass with
    device := device.writel .cmd sun4iCmdClearOrFlag
    cf := pass.cf.map fun cf => (cf.addClass canErrCrtl).put 1 canErrCrtlRxOverflow }

/-- The error warning interrupt. -/
def errorWarning (status : BitVec 8) (pass : ErrPass) : ErrPass :=
  { pass with
    state :=
      if status &&& sun4iStaBusOff ≠ 0 then .busOff
      else if status &&& sun4iStaErrSta ≠ 0 then .errorWarning
      else .errorActive }

/-- The kind of a bus error in the data of the frame. -/
def busErrorKind (ecc : BitVec 32) (cf : ErrFrame) : ErrFrame :=
  let kind := ecc &&& sun4iStaMaskErr
  let cf :=
    if kind = sun4iStaBitErr then cf.add 2 canErrProtBit
    else if kind = sun4iStaFormErr then cf.add 2 canErrProtForm
    else if kind = sun4iStaStuffErr then cf.add 2 canErrProtStuff
    else cf.put 3 (((ecc &&& sun4iStaErrSegCode) >>> 16).setWidth 8)
  if ecc &&& sun4iStaErrDir = 0 then cf.add 2 canErrProtTx else cf

/-- The bus error interrupt. -/
def busError (calls : ErrCalls) (pass : ErrPass) : ErrPass :=
  let stats := pass.device.stats
  { pass with
    device :=
      { pass.device with
        stats := { stats with busError := stats.busError + 1, rxErrors := stats.rxErrors + 1 } }
    cf := pass.cf.map fun cf =>
      busErrorKind calls.ecc (cf.addClass (canErrProt ||| canErrBuserror)) }

/-- The error passive interrupt, which toggles the state that was chosen before. -/
def errorPassive (pass : ErrPass) : ErrPass :=
  { pass with state := if pass.state = .errorPassive then .errorWarning else .errorPassive }

/-- The arbitration lost interrupt. -/
def arbitrationLost (calls : ErrCalls) (pass : ErrPass) : ErrPass :=
  let stats := pass.device.stats
  { pass with
    device :=
      { pass.device with
        stats :=
          { stats with
            arbitrationLost := stats.arbitrationLost + 1
            txErrors := stats.txErrors + 1 } }
    cf := pass.cf.map fun cf =>
      (cf.addClass canErrLostarb).put 0 ((calls.alc >>> 8 &&& 0x1f).setWidth 8) }

/-- An interrupt that is handled when its flag is set. -/
def whenSet (isrc flag : BitVec 8) (handler : ErrPass → ErrPass) (pass : ErrPass) : ErrPass :=
  if isrc &&& flag ≠ 0 then handler pass else pass

/-- The call of `can_bus_off`, which is made for one state only. -/
def canBusOff (state : CanState) (device : CanDevice) : CanDevice :=
  if state = .busOff then { device with busOffCalls := device.busOffCalls + 1 } else device

/-- The change to a new state, which is told to the frame. -/
def changeState (layer : CanLayer) (calls : ErrCalls) (pass : ErrPass) : ErrPass :=
  if pass.state ≠ pass.device.canState then
    let txState := if calls.txerr ≥ calls.rxerr then pass.state else .errorActive
    let rxState := if calls.txerr ≤ calls.rxerr then pass.state else .errorActive
    let (canState, cf) :=
      match pass.cf with
      | some cf =>
        let changed := layer.canChangeState pass.device.canState txState rxState cf
        (changed.1, some changed.2)
      | none => (pass.state, none)
    { pass with
      cf := cf
      device := canBusOff pass.state { pass.device with canState := canState } }
  else pass

/-- The frame is passed on, and the result without one is an error. -/
def finishErr (pass : ErrPass) : Int × CanDevice :=
  match pass.cf with
  | some cf =>
    let stats := pass.device.stats
    (0, { pass.device with
      stats :=
        { stats with rxPackets := stats.rxPackets + 1, rxBytes := stats.rxBytes + cf.canDlc }
      errorSkbs := pass.device.errorSkbs ++ [cf] })
  | none => (-eNOMEM, pass.device)

/-- The interrupts of `sun4i_can_err` in their order. -/
def handleErr (isrc status : BitVec 8) (calls : ErrCalls) (pass : ErrPass) : ErrPass :=
  let pass := whenSet isrc sun4iIntDataOr (dataOverrun calls) pass
  let pass := whenSet isrc sun4iIntErrWrn (errorWarning status) pass
  let pass := whenSet isrc sun4iIntBusErr (busError calls) pass
  let pass := whenSet isrc sun4iIntErrPassive errorPassive pass
  whenSet isrc sun4iIntArbLost (arbitrationLost calls) pass

/-- `sun4i_can_err`. -/
def sun4iCanErr (layer : CanLayer) (isrc status : BitVec 8) (calls : ErrCalls)
    (device : CanDevice) : Int × CanDevice :=
  finishErr (changeState layer calls (handleErr isrc status calls (beginErr calls device)))

/-- What is expected of a call that is told of the bus-off state. -/
structure BusOffWins (before after : CanDevice) : Prop where
  state : after.canState = .busOff
  called : before.canState ≠ .busOff → after.busOffCalls = before.busOffCalls + 1

/-- The state that the warning interrupt chooses. -/
def warnedState (isrc status : BitVec 8) (state : CanState) : CanState :=
  if isrc &&& sun4iIntErrWrn ≠ 0 then
    if status &&& sun4iStaBusOff ≠ 0 then .busOff
    else if status &&& sun4iStaErrSta ≠ 0 then .errorWarning
    else .errorActive
  else state

/-- The state that the passive interrupt makes of another one. -/
def passiveState (isrc : BitVec 8) (state : CanState) : CanState :=
  if isrc &&& sun4iIntErrPassive ≠ 0 then
    if state = .errorPassive then .errorWarning else .errorPassive
  else state

/-- The state that the interrupts of a call choose. -/
def errState (isrc status : BitVec 8) (state : CanState) : CanState :=
  passiveState isrc (warnedState isrc status state)

/-- No state is larger than itself, and none is smaller than the first one. -/
theorem CanState.larger_eq (state : CanState) :
    state.larger state = state ∧ state.larger .errorActive = state ∧
      CanState.errorActive.larger state = state := by
  cases state <;> exact ⟨rfl, rfl, rfl⟩

/-- The larger one of the states for the two counters is the state that was chosen. -/
theorem larger_counters (txerr rxerr : BitVec 32) (state : CanState) :
    (if txerr ≥ rxerr then state else .errorActive).larger
      (if txerr ≤ rxerr then state else .errorActive) = state := by
  obtain ⟨both, first, second⟩ := state.larger_eq
  -- One of the counters is at least as high as the other one, so one side is the state.
  rcases BitVec.le_total txerr rxerr with below | above
  · rw [if_pos below]
    split
    · exact both
    · exact second
  · rw [if_pos above]
    split
    · exact both
    · exact first

/-- What decides about the state: the one that is stored, the one that was chosen, and the calls. -/
def ErrPass.view (pass : ErrPass) : CanState × CanState × Nat :=
  (pass.device.canState, pass.state, pass.device.busOffCalls)

/-- An interrupt that only counts and fills the frame leaves the state alone. -/
theorem whenSet_view {isrc flag : BitVec 8} {handler : ErrPass → ErrPass}
    (keeps : ∀ pass, (handler pass).view = pass.view) (pass : ErrPass) :
    (whenSet isrc flag handler pass).view = pass.view := by
  -- The handler is run, or the pass is left as it is.
  unfold whenSet
  split
  · exact keeps pass
  · rfl

/-- The warning interrupt chooses its state. -/
theorem errorWarning_view (isrc status : BitVec 8) (pass : ErrPass) :
    (whenSet isrc sun4iIntErrWrn (errorWarning status) pass).view =
      (pass.view.1, warnedState isrc status pass.view.2.1, pass.view.2.2) := by
  -- The handler is run, or the pass is left as it is.
  unfold whenSet warnedState
  split <;> rfl

/-- The passive interrupt chooses the other one of its two states. -/
theorem errorPassive_view (isrc : BitVec 8) (pass : ErrPass) :
    (whenSet isrc sun4iIntErrPassive errorPassive pass).view =
      (pass.view.1, passiveState isrc pass.view.2.1, pass.view.2.2) := by
  -- The handler is run, or the pass is left as it is.
  unfold whenSet passiveState
  split <;> rfl

/-- The interrupts of a call choose the state, and store nothing yet. -/
theorem handleErr_view (isrc status : BitVec 8) (calls : ErrCalls) (pass : ErrPass) :
    (handleErr isrc status calls pass).view =
      (pass.device.canState, errState isrc status pass.state, pass.device.busOffCalls) := by
  have overrun : ∀ pass, (dataOverrun calls pass).view = pass.view := fun _ => rfl
  have bus : ∀ pass, (busError calls pass).view = pass.view := fun _ => rfl
  have lost : ∀ pass, (arbitrationLost calls pass).view = pass.view := fun _ => rfl
  -- Only two of the five interrupts are about the state.
  unfold handleErr
  dsimp only
  rw [whenSet_view lost, errorPassive_view, whenSet_view bus, errorWarning_view,
    whenSet_view overrun]
  rfl

/-- The call of `can_bus_off` is counted, and the state stays. -/
theorem canBusOff_view (state : CanState) (device : CanDevice) :
    (canBusOff state device).canState = device.canState ∧
      (canBusOff state device).busOffCalls =
        device.busOffCalls + if state = .busOff then 1 else 0 := by
  -- The call is made in the one state only.
  unfold canBusOff
  split <;> exact ⟨rfl, rfl⟩

/-- The state that was chosen is stored, and `can_bus_off` is called on the way to the last one. -/
theorem changeState_view (layer : CanLayer) (calls : ErrCalls) (pass : ErrPass) :
    (changeState layer calls pass).device.canState = pass.state ∧
      (changeState layer calls pass).device.busOffCalls = pass.device.busOffCalls +
        if pass.state = .busOff ∧ pass.device.canState ≠ .busOff then 1 else 0 := by
  -- The state is the stored one already, or it is changed with or without a frame.
  unfold changeState
  by_cases same : pass.state = pass.device.canState
  · rw [if_neg (not_not_intro same), if_neg fun both => both.2 (same ▸ both.1)]
    exact ⟨same.symm, rfl⟩
  · have entered : (pass.state = .busOff ∧ pass.device.canState ≠ .busOff) =
        (pass.state = .busOff) := by
      rw [eq_iff_iff, and_iff_left_iff_imp]
      intro off was
      exact same (off.trans was.symm)
    rw [if_pos same]
    simp only [entered, (canBusOff_view _ _).1, (canBusOff_view _ _).2, and_true]
    -- With a frame the layer stores the state, and without one the driver does.
    cases pass.cf with
    | none => rfl
    | some cf => exact (layer.stores _ _ _ cf).trans (larger_counters _ _ _)

/-- A call stores the state that its interrupts choose, and counts the way to the last one. -/
theorem sun4iCanErr_state (layer : CanLayer) (isrc status : BitVec 8) (calls : ErrCalls)
    (device : CanDevice) :
    (sun4iCanErr layer isrc status calls device).2.canState =
        errState isrc status device.canState ∧
      (sun4iCanErr layer isrc status calls device).2.busOffCalls = device.busOffCalls +
        if errState isrc status device.canState = .busOff ∧ device.canState ≠ .busOff then 1
        else 0 := by
  have chosen := handleErr_view isrc status calls (beginErr calls device)
  have changed := changeState_view layer calls (handleErr isrc status calls (beginErr calls device))
  simp only [ErrPass.view, Prod.mk.injEq] at chosen
  obtain ⟨stored, state, count⟩ := chosen
  rw [state, stored, count] at changed
  -- Passing the frame on changes neither of them.
  unfold sun4iCanErr finishErr
  split <;> exact changed

/-- The bus-off state is told and not taken back just when there is no passive interrupt. -/
theorem errState_busOff {isrc status : BitVec 8} (state : CanState)
    (warned : isrc &&& sun4iIntErrWrn ≠ 0) (off : status &&& sun4iStaBusOff ≠ 0) :
    errState isrc status state = .busOff ↔ isrc &&& sun4iIntErrPassive = 0 := by
  have chosen : warnedState isrc status state = .busOff := by
    rw [warnedState, if_pos warned, if_pos off]
  rw [errState, chosen, passiveState]
  -- The passive interrupt takes any state to one of its own two.
  by_cases passive : isrc &&& sun4iIntErrPassive = 0
  · rw [if_neg (not_not_intro passive)]
    exact iff_of_true rfl passive
  · rw [if_pos passive]
    exact iff_of_false (by decide) passive

/--
The bus-off state wins over the other interrupts of its pass just when none is the passive one.

The call is any, from any state of the interface, with or without a frame.
-/
theorem busOffWins_iff (layer : CanLayer) (isrc status : BitVec 8) (calls : ErrCalls)
    (device : CanDevice) (warned : isrc &&& sun4iIntErrWrn ≠ 0)
    (off : status &&& sun4iStaBusOff ≠ 0) :
    BusOffWins device (sun4iCanErr layer isrc status calls device).2 ↔
      isrc &&& sun4iIntErrPassive = 0 := by
  -- The state behind the pass is the one that the interrupts choose, the passive one last.
  obtain ⟨state, count⟩ := sun4iCanErr_state layer isrc status calls device
  rw [← errState_busOff device.canState warned off, ← state]
  constructor
  · exact BusOffWins.state
  · intro wins
    refine ⟨wins, fun entered => ?_⟩
    rw [count, if_pos ⟨state ▸ wins, entered⟩]

/-- An interface that has just been started. -/
def CanDevice.started : CanDevice where
  canState := .errorActive
  stats := ⟨0, 0, 0, 0, 0, 0, 0⟩
  busOffCalls := 0
  writes := []
  errorSkbs := []

/-- Both error counters are at their end, and the bus-off state is told with a frame. -/
def ErrCalls.atEnd : ErrCalls where
  skb := true
  errc := 0x00ff00ff
  mselReset := 0
  mselNormal := 1
  ecc := 0
  alc := 0

/-- A warning with a bus error takes a started interface to the bus-off state. -/
theorem busOffWins_withBusError :
    BusOffWins .started (sun4iCanErr .marking (sun4iIntErrWrn ||| sun4iIntBusErr)
      (sun4iStaBusOff ||| sun4iStaErrSta) .atEnd .started).2 :=
  (busOffWins_iff .marking _ _ .atEnd .started (by decide) (by decide)).mpr (by decide)

/-- The passive interrupt of the same pass takes the interface out of the bus-off state. -/
theorem passive_takes_back :
    ¬ ∀ (layer : CanLayer) (isrc status : BitVec 8) (calls : ErrCalls) (device : CanDevice),
      isrc &&& sun4iIntErrWrn ≠ 0 → status &&& sun4iStaBusOff ≠ 0 →
        BusOffWins device (sun4iCanErr layer isrc status calls device).2 := by
  -- Both interrupts are in one register value.
  intro claim
  have wins := claim .marking (sun4iIntErrWrn ||| sun4iIntErrPassive)
    (sun4iStaBusOff ||| sun4iStaErrSta) .atEnd .started (by decide) (by decide)
  exact absurd wins.state (by decide)

end OpenwrtMisc.SunxiCan
