import OpenwrtMisc.SunxiCan.ModeSelect

/-! Opening and closing the interface of the sunxi-can driver, and the mode that an open leaves. -/

namespace OpenwrtMisc.SunxiCan

open BitMask

/-- `struct can_bittiming`, as far as the driver looks at it. -/
structure BitTiming where
  brp : BitVec 32
  sjw : BitVec 32
  propSeg : BitVec 32
  phaseSeg1 : BitVec 32
  phaseSeg2 : BitVec 32
  deriving DecidableEq, Repr

/--
The interface as far as opening and closing concern it.

`writes` only records the writes to the other registers.
-/
structure ModeDevice (State : Type) where
  port : ModePort State
  /-- `priv->can.ctrlmode`, `priv->can.bittiming` and `priv->can.state`. -/
  ctrlmode : BitVec 32
  bittiming : BitTiming
  canState : CanState
  up : Bool
  writes : List (Nat × BitVec 32)

section Device

variable {State : Type} (io : ModeIo State)

/-- A write to one of the other registers. -/
def ModeDevice.writel (value : BitVec 32) (addr : Nat) (device : ModeDevice State) :
    ModeDevice State :=
  { device with writes := device.writes ++ [(addr, value)] }

/-- `sun4ican_set_bittiming`, which always succeeds. -/
def setBittiming (device : ModeDevice State) : Int × ModeDevice State :=
  let bt := device.bittiming
  let cfg : BitVec 32 := (bt.brp - 1) &&& 0x3ff ||| ((bt.sjw - 1) &&& 0x3) <<< 14 |||
    ((bt.propSeg + bt.phaseSeg1 - 1) &&& 0xf) <<< 16 ||| ((bt.phaseSeg2 - 1) &&& 0x7) <<< 20
  let cfg := if device.ctrlmode &&& canCtrlmode3Samples ≠ 0 then cfg ||| 0x800000 else cfg
  (0, device.writel cfg sun4iRegBtimeAddr)

/-- The change of the mode register for the selected mode, which only sets bits. -/
def selectMode (ctrlmode modRegVal : BitVec 32) : BitVec 32 :=
  if ctrlmode &&& canCtrlmodePresumeAck ≠ 0 then modRegVal ||| sun4iMselLoopbackMode
  else if ctrlmode &&& canCtrlmodeListenonly ≠ 0 then modRegVal ||| sun4iMselListenOnlyMode
  else modRegVal

/-- The writes of `sun4i_can_start` between the reset mode and the selected mode. -/
def startWrites (device : ModeDevice State) : ModeDevice State :=
  let device := device.writel 0x00000000 sun4iRegAcpcAddr
  let device := device.writel 0xffffffff sun4iRegAcpmAddr
  let device := device.writel 0 sun4iRegErrcAddr
  if device.ctrlmode &&& canCtrlmodeBerrReporting ≠ 0 then device.writel 0xff sun4iRegIntenAddr
  else device.writel (0xff &&& ~~~sun4iIntenBerr) sun4iRegIntenAddr

/-- The part of `sun4i_can_start` in the reset mode. -/
def enterMode (device : ModeDevice State) : Int × ModeDevice State :=
  let device := startWrites device
  let (modRegVal, port) := device.port.readl io
  let port := port.writel io (selectMode device.ctrlmode modRegVal)
  setBittiming { device with port := port }

/-- `sun4i_can_start`. -/
def sun4iCanStart (device : ModeDevice State) : Int × ModeDevice State :=
  let (err, port) := setResetMode io device.port
  let device := { device with port := port }
  if err ≠ 0 then (err, device)
  else
    let (err, device) := enterMode io device
    if err ≠ 0 then (err, device)
    else
      let (err, port) := setNormalMode io device.port
      let device := { device with port := port }
      if err ≠ 0 then (err, device) else (0, { device with canState := .errorActive })

/-- `sun4i_can_stop`. -/
def sun4iCanStop (device : ModeDevice State) : Int × ModeDevice State :=
  let device := { device with canState := .stopped }
  let (err, port) := setResetMode io device.port
  let device := { device with port := port }
  if err ≠ 0 then (err, device) else (0, device.writel 0 sun4iRegIntenAddr)

/--
`sun4ican_open`, given the results of `open_candev`, `request_irq` and `clk_prepare_enable`.

After an error the interface stays down.
-/
def sun4icanOpen (openCandev requestIrq clkPrepareEnable : Int) (device : ModeDevice State) :
    Int × ModeDevice State :=
  if openCandev ≠ 0 then (openCandev, device)
  else if requestIrq ≠ 0 then (requestIrq, device)
  else if clkPrepareEnable ≠ 0 then (clkPrepareEnable, device)
  else
    let (err, device) := sun4iCanStart io device
    if err ≠ 0 then (err, device) else (0, { device with up := true })

/-- `sun4ican_close`, which does not look at the result of `sun4i_can_stop`. -/
def sun4icanClose (device : ModeDevice State) : Int × ModeDevice State :=
  (0, { (sun4iCanStop io device).2 with up := false })

/-- What happens to the interface. -/
inductive ModeLabel where
  | openDev (openCandev requestIrq clkPrepareEnable : Int)
  | closeDev
  | configure (ctrlmode : BitVec 32) (bittiming : BitTiming)
  deriving DecidableEq, Repr

/-- The interface is opened and configured while it is down, and closed while it is up. -/
def modeStep (device : ModeDevice State) : ModeLabel → Option (ModeDevice State)
  | .openDev openCandev requestIrq clkPrepareEnable =>
    if device.up then none
    else some (sun4icanOpen io openCandev requestIrq clkPrepareEnable device).2
  | .closeDev => if device.up then some (sun4icanClose io device).2 else none
  | .configure ctrlmode bittiming =>
    if device.up then none
    else some { device with ctrlmode := ctrlmode, bittiming := bittiming }

/-- The interface from a state on. -/
def modeMachine (start : ModeDevice State) : Machine (ModeDevice State) ModeLabel where
  start := start
  step := modeStep io

/-- What is expected of the mode register after a start, as its last read showed it. -/
structure FollowsCtrlmode (device : ModeDevice State) : Prop where
  loopback : device.port.modeRead &&& sun4iMselLoopbackMode ≠ 0 ↔
    device.ctrlmode &&& canCtrlmodePresumeAck ≠ 0
  listenOnly : device.port.modeRead &&& sun4iMselListenOnlyMode ≠ 0 ↔
    device.ctrlmode &&& canCtrlmodeListenonly ≠ 0 ∧ device.ctrlmode &&& canCtrlmodePresumeAck = 0
  reset : device.port.modeRead &&& sun4iMselResetMode = 0

/-- No bit of an earlier mode stands in the register that the selected mode does not have. -/
structure NoStaleMode (device : ModeDevice State) : Prop where
  loopback : io.others device.port.regs &&& sun4iMselLoopbackMode ≠ 0 →
    device.ctrlmode &&& canCtrlmodePresumeAck ≠ 0
  listenOnly : io.others device.port.regs &&& sun4iMselListenOnlyMode ≠ 0 →
    device.ctrlmode &&& canCtrlmodeListenonly ≠ 0 ∧ device.ctrlmode &&& canCtrlmodePresumeAck = 0

/-- Changing the mode keeps the bit `RESET_MODE` out of the other bits. -/
theorem selectMode_others (ctrlmode value : BitVec 32) :
    selectMode ctrlmode value &&& ~~~sun4iMselResetMode =
      selectMode ctrlmode (value &&& ~~~sun4iMselResetMode) := by
  -- The bits of the modes are other ones than that of the reset.
  have loopback : sun4iMselLoopbackMode &&& ~~~sun4iMselResetMode = sun4iMselLoopbackMode := by
    decide
  have listen : sun4iMselListenOnlyMode &&& ~~~sun4iMselResetMode = sun4iMselListenOnlyMode := by
    decide
  have distribute : ∀ word : BitVec 32, word &&& ~~~sun4iMselResetMode = word →
      (value ||| word) &&& ~~~sun4iMselResetMode = value &&& ~~~sun4iMselResetMode ||| word := by
    intro word kept
    rw [BitVec.and_comm, BitVec.and_or_distrib_left, BitVec.and_comm, BitVec.and_comm _ word, kept]
  unfold selectMode
  split
  · exact distribute _ loopback
  · split
    · exact distribute _ listen
    · rfl

/-- The writes to the other registers do not reach the mode register. -/
theorem startWrites_port (device : ModeDevice State) :
    (startWrites device).port = device.port ∧ (startWrites device).ctrlmode = device.ctrlmode ∧
      (startWrites device).up = device.up := by
  -- The control mode decides on one of the other registers only.
  unfold startWrites
  dsimp only
  split <;> exact ⟨rfl, rfl, rfl⟩

/-- The selected mode is added to the bits that the register had. -/
theorem enterMode_spec (device : ModeDevice State) :
    (enterMode io device).1 = 0 ∧ (enterMode io device).2.ctrlmode = device.ctrlmode ∧
      io.others (enterMode io device).2.port.regs =
        selectMode device.ctrlmode (io.others device.port.regs) := by
  obtain ⟨port, ctrlmode, _⟩ := startWrites_port device
  refine ⟨rfl, ctrlmode, (io.write_others _ _).trans ?_⟩
  -- The value that is written is the one that was read, with the bits of the mode.
  rw [port, ctrlmode, selectMode_others]
  exact congrArg (selectMode device.ctrlmode) (io.read_others device.port.regs)

/-- A start that succeeds shows the selected mode over the bits that the register had. -/
theorem sun4iCanStart_spec {device after : ModeDevice State}
    (started : sun4iCanStart io device = (0, after)) :
    after.ctrlmode = device.ctrlmode ∧
      after.port.modeRead &&& ~~~sun4iMselResetMode =
        selectMode device.ctrlmode (io.others device.port.regs) ∧
      after.port.modeRead &&& sun4iMselResetMode = 0 := by
  -- Each call of the start returns without an error, and the registers are followed through them.
  unfold sun4iCanStart at started
  dsimp only at started
  split at started
  · rename_i failed
    exact absurd (congrArg Prod.fst started) failed
  -- The mode is entered from what the reset mode left, and the normal mode keeps its bits.
  obtain ⟨_, kept, _⟩ := setResetMode_spec io device.port
  obtain ⟨none, ctrlmode, selected⟩ :=
    enterMode_spec io { device with port := (setResetMode io device.port).2 }
  generalize enterMode io { device with port := (setResetMode io device.port).2 } = entered
    at started none ctrlmode selected
  rw [if_neg (not_not_intro none)] at started
  obtain ⟨err, _, shown⟩ := setNormalMode_spec io entered.2.port
  split at started
  · rename_i failed
    exact absurd (congrArg Prod.fst started) failed
  · rename_i succeeded
    obtain rfl := congrArg Prod.snd started
    refine ⟨ctrlmode, shown.trans (selected.trans (congrArg _ kept)), ?_⟩
    by_contra set
    rw [if_pos set] at err
    exact succeeded fun zero => absurd (zero.symm.trans err) (by decide)

/-- A start does not say whether the interface is up. -/
theorem sun4iCanStart_up (device : ModeDevice State) :
    (sun4iCanStart io device).2.up = device.up := by
  -- Neither the writes to the registers nor the change of the mode touch the field.
  have entered : ∀ device : ModeDevice State, (enterMode io device).2.up = device.up :=
    fun device => (startWrites_port device).2.2
  unfold sun4iCanStart
  dsimp only
  split
  · rfl
  · split
    · exact entered _
    · split <;> exact entered _

/-- The interface goes up with a start that succeeds, and with nothing else. -/
theorem modeStep_up {device next : ModeDevice State} {label : ModeLabel}
    (stepped : modeStep io device label = some next) (up : next.up = true) :
    ∃ after, sun4iCanStart io device = (0, after) ∧ next = { after with up := true } := by
  -- One case for each step, of which the start is the only one that brings the interface up.
  cases label with
  | configure ctrlmode bittiming =>
    simp only [modeStep, Option.ite_none_left_eq_some, Option.some.injEq] at stepped
    obtain ⟨down, rfl⟩ := stepped
    exact absurd up down
  | closeDev =>
    simp only [modeStep, Option.ite_none_right_eq_some, Option.some.injEq] at stepped
    obtain ⟨_, rfl⟩ := stepped
    exact absurd up Bool.false_ne_true
  | openDev openCandev requestIrq clkPrepareEnable =>
    simp only [modeStep, Option.ite_none_left_eq_some, Option.some.injEq] at stepped
    obtain ⟨down, rfl⟩ := stepped
    have stays := sun4iCanStart_up io device
    revert up
    unfold sun4icanOpen
    -- After an error of any call the interface is down as before.
    split
    · exact fun up => absurd up down
    split
    · exact fun up => absurd up down
    split
    · exact fun up => absurd up down
    dsimp only
    split
    · exact fun up => absurd (stays.symm.trans up) down
    · rename_i succeeded
      exact fun _ => ⟨_, Prod.ext (not_not.mp succeeded) rfl, rfl⟩

/-- The bits of the selected mode are those that were set, and the one of the mode. -/
theorem selectMode_bits (ctrlmode others : BitVec 32) :
    (selectMode ctrlmode others &&& sun4iMselLoopbackMode ≠ 0 ↔
        others &&& sun4iMselLoopbackMode ≠ 0 ∨ ctrlmode &&& canCtrlmodePresumeAck ≠ 0) ∧
      (selectMode ctrlmode others &&& sun4iMselListenOnlyMode ≠ 0 ↔
        others &&& sun4iMselListenOnlyMode ≠ 0 ∨
          ctrlmode &&& canCtrlmodeListenonly ≠ 0 ∧ ctrlmode &&& canCtrlmodePresumeAck = 0) := by
  unfold selectMode sun4iMselLoopbackMode sun4iMselListenOnlyMode
  rw [and_bit_ne_zero, and_bit_ne_zero, and_bit_ne_zero, and_bit_ne_zero]
  -- Each mode sets its own bit, and the one of the presumed acknowledge goes first.
  by_cases presume : ctrlmode &&& canCtrlmodePresumeAck = 0
  · rw [if_neg (not_not_intro presume), or_iff_left (not_not_intro presume)]
    by_cases listen : ctrlmode &&& canCtrlmodeListenonly = 0
    · rw [if_neg (not_not_intro listen), or_iff_left fun both => both.1 listen]
      exact ⟨Iff.rfl, Iff.rfl⟩
    · rw [if_pos listen, getLsbD_set _ (by omega), getLsbD_set _ (by omega)]
      exact ⟨by simp, iff_of_true (by simp) (.inr ⟨listen, presume⟩)⟩
  · rw [if_pos presume, getLsbD_set _ (by omega), getLsbD_set _ (by omega)]
    refine ⟨iff_of_true (by simp) (.inr presume), ?_⟩
    rw [or_iff_left fun both => presume both.2]
    simp

/-- A bit other than `RESET_MODE` is read as it is without that one. -/
theorem and_others {word others mode : BitVec 32} (same : word &&& ~~~sun4iMselResetMode = others)
    (other : ~~~sun4iMselResetMode &&& mode = mode) : word &&& mode = others &&& mode := by
  rw [← same, BitVec.and_assoc, other]

/-- A started interface follows its mode just when no bit of an earlier mode was left. -/
theorem followsCtrlmode_iff {device after : ModeDevice State}
    (started : sun4iCanStart io device = (0, after)) :
    FollowsCtrlmode { after with up := true } ↔ NoStaleMode io device := by
  -- The bits that are shown are those that were left and those that are asked for.
  obtain ⟨ctrlmode, shown, clear⟩ := sun4iCanStart_spec io started
  obtain ⟨loopback, listen⟩ := selectMode_bits device.ctrlmode (io.others device.port.regs)
  rw [← and_others shown (by decide)] at loopback listen
  constructor
  · intro follows
    refine ⟨fun set => ?_, fun set => ?_⟩
    · exact ctrlmode ▸ follows.loopback.mp (loopback.mpr (.inl set))
    · exact ctrlmode ▸ follows.listenOnly.mp (listen.mpr (.inl set))
  · intro clean
    refine ⟨?_, ?_, clear⟩
    · show after.port.modeRead &&& _ ≠ 0 ↔ after.ctrlmode &&& _ ≠ 0
      rw [loopback, ctrlmode, or_iff_right_of_imp clean.loopback]
    · show after.port.modeRead &&& _ ≠ 0 ↔ after.ctrlmode &&& _ ≠ 0 ∧ after.ctrlmode &&& _ = 0
      rw [listen, ctrlmode, or_iff_right_of_imp clean.listenOnly]

/--
The mode register follows `ctrlmode` after every start of a run just when no start of the run
finds a bit of another mode.

The interface, the run, and what the bit `RESET_MODE` reads as are any.
-/
theorem modeMachine_follows_iff (start : ModeDevice State) (labels : List ModeLabel) :
    (modeMachine io start).Along (fun _ _ next => next.up = true → FollowsCtrlmode next) start
        labels ↔
      (modeMachine io start).Along (fun device _ next => next.up = true → NoStaleMode io device)
        start labels := by
  -- A step that leaves the interface up has started it.
  refine Machine.along_congr (fun device label next stepped => ?_) labels start
  refine forall_congr' fun up => ?_
  obtain ⟨after, started, rfl⟩ := modeStep_up io stepped up
  exact followsCtrlmode_iff io started

end Device

/-- An interface that is down, with a register that is all clear, for the mode of a presumed ack. -/
def ModeDevice.presuming : ModeDevice (ModeReg 0) where
  port := { regs := .normal 0, modeRead := 0 }
  ctrlmode := canCtrlmodePresumeAck
  bittiming := ⟨1, 1, 1, 1, 1⟩
  canState := .stopped
  up := false
  writes := []

/-- The interface is opened, closed, configured for the normal mode, and opened again. -/
def reopened : List ModeLabel :=
  [.openDev 0 0 0, .closeDev, .configure 0 ⟨1, 1, 1, 1, 1⟩, .openDev 0 0 0]

/-- The loopback mode of the first open is still there after the second one. -/
theorem reopened_loopback :
    ¬ ∀ (State : Type) (io : ModeIo State) (start : ModeDevice State) (labels : List ModeLabel),
      (modeMachine io start).Along (fun _ _ next => next.up = true → FollowsCtrlmode next) start
        labels := by
  intro claim
  -- The run is followed to its fourth step.
  have along := claim _ (ModeReg.io 0) .presuming reopened
  obtain ⟨_, along⟩ := along _ rfl
  obtain ⟨_, along⟩ := along _ rfl
  obtain ⟨_, along⟩ := along _ rfl
  obtain ⟨follows, _⟩ := along _ rfl
  have loopback := (follows (by decide)).loopback
  exact absurd (loopback.mp (by decide)) (by decide)

end OpenwrtMisc.SunxiCan
