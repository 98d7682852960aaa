import OpenwrtMisc.Lib.BitMask
import OpenwrtMisc.Lib.Machine

/-! The users of the mcp25xxfd clock: who holds it, how often it is enabled, and the chip's mode. -/

namespace OpenwrtMisc.Mcp25xxfd

open BitMask

/-- The operating modes of `CAN_CON` that the clock helpers switch between. -/
def canConModeSleep : Nat := 1
def canConModeConfig : Nat := 4

/-- The bits of the oscillator register. -/
def oscDis : BitVec 32 := bit 2
def oscPllRdy : BitVec 32 := bit 8
def oscOscRdy : BitVec 32 := bit 10
def oscSclkRdy : BitVec 32 := bit 12

/-- The fields of `CAN_CON` that hold the requested and the effective mode. -/
def canConReqopShift : Nat := 24
def canConOpmodShift : Nat := 21
def canConReqopMask : BitVec 32 := 0x7000000

/-- The errors that the clock helpers return. -/
inductive Errno where
  | spi
  | clk
  | noDev
  | timedOut
  deriving DecidableEq, Repr

/-- The users of the clock. -/
inductive ClkUser where
  | can
  | gpio0
  | gpio1
  deriving DecidableEq, Repr

/-- `MCP25XXFD_CLK_USER_CAN`, `MCP25XXFD_CLK_USER_GPIO0` and `MCP25XXFD_CLK_USER_GPIO1`. -/
def ClkUser.mask : ClkUser → BitVec 32
  | .can => bit 0
  | .gpio0 => bit 1
  | .gpio1 => bit 2

/-- The state that the users of the clock share. -/
structure ClockState where
  clkUserMask : BitVec 32
  /-- How often `priv->clk` is enabled. -/
  clkEnabled : Nat
  /-- `priv->regs.osc`, the driver's copy of the oscillator register. -/
  regsOsc : BitVec 32
  /-- `priv->regs.con`, the driver's copy of `CAN_CON`. -/
  regsCon : BitVec 32
  activeCanMode : Nat
  /-- The mode that the controller is in. -/
  chipMode : Nat
  /-- The users whose last call of `mcp25xxfd_start_clock` succeeded, until they stop it. -/
  started : ClkUser → Bool

/-- What the clock framework and the transfers of a call of `mcp25xxfd_start_clock` return. -/
structure StartOutcome where
  /-- The read of the oscillator register in `mcp25xxfd_hw_check_clock`. -/
  check : Except Errno (BitVec 32)
  enable : Except Errno Unit
  /-- The write of the oscillator register in `mcp25xxfd_wake_from_sleep`. -/
  wake : Except Errno Unit
  /-- The reads that follow it until the time is up. -/
  polls : List (Except Errno (BitVec 32))

/-- `mcp25xxfd_set_opmode`, with the result of the write to `CAN_CON`. -/
def setOpmode (mode : Nat) (written : Except Errno Unit) (state : ClockState) :
    ClockState × Except Errno Unit :=
  let val := state.regsCon &&& ~~~canConReqopMask
  let state :=
    { state with
      regsCon := val ||| BitVec.ofNat 32 mode <<< canConReqopShift |||
        BitVec.ofNat 32 mode <<< canConOpmodShift
      activeCanMode := mode }
  let state :=
    if mode = canConModeSleep then
      { state with
        regsOsc := (state.regsOsc &&& ~~~(oscOscRdy ||| oscPllRdy ||| oscSclkRdy)) ||| oscDis }
    else state
  match written with
  | .ok () => ({ state with chipMode := mode }, .ok ())
  | .error errno => (state, .error errno)

/-- The loop of `mcp25xxfd_wake_from_sleep` that waits for the oscillator. -/
def pollOsc : List (Except Errno (BitVec 32)) → ClockState → ClockState × Except Errno Unit
  | [], state => (state, .error .timedOut)
  -- A read clears its destination before the transfer.
  | .error errno :: _, state => ({ state with regsOsc := 0 }, .error errno)
  | .ok val :: rest, state =>
    if val &&& (oscOscRdy ||| oscDis) = oscOscRdy then
      ({ state with regsOsc := val, activeCanMode := canConModeConfig }, .ok ())
    else pollOsc rest { state with regsOsc := val }

/-- `mcp25xxfd_wake_from_sleep`, whose write brings a sleeping controller into its config mode. -/
def wakeFromSleep (outcome : StartOutcome) (state : ClockState) :
    ClockState × Except Errno Unit :=
  let state := { state with regsOsc := state.regsOsc &&& ~~~oscDis }
  match outcome.wake with
  | .error errno => (state, .error errno)
  | .ok () =>
    pollOsc outcome.polls
      { state with
        chipMode := if state.chipMode = canConModeSleep then canConModeConfig else state.chipMode }

/-- `mcp25xxfd_hw_check_clock`, which compares the register with the driver's copy. -/
def hwCheckClock (check : Except Errno (BitVec 32)) (regsOsc : BitVec 32) : Except Errno Unit :=
  match check with
  | .error errno => .error errno
  | .ok val =>
    if val = regsOsc then .ok ()
    -- The second try ignores all the ready bits.
    else if val &&& 0xff = regsOsc &&& 0xff then .ok ()
    else .error .noDev

/-- `mcp25xxfd_start_clock`. -/
def startClock (user : ClkUser) (outcome : StartOutcome) (state : ClockState) :
    ClockState × Except Errno Unit :=
  let state := { state with clkUserMask := state.clkUserMask ||| user.mask }
  if state.clkUserMask ≠ user.mask then (state, .ok ())
  else
    match hwCheckClock outcome.check state.regsOsc with
    | .error errno => (state, .error errno)
    | .ok () =>
      let state :=
        match outcome.enable with
        | .ok () => { state with clkEnabled := state.clkEnabled + 1 }
        | .error _ => state
      -- The result of the wake replaces that of the enable.
      if state.activeCanMode = canConModeSleep then wakeFromSleep outcome state
      else (state, outcome.enable)

/-- `mcp25xxfd_stop_clock`, with the result of the write that puts the controller to sleep. -/
def stopClock (user : ClkUser) (written : Except Errno Unit) (state : ClockState) : ClockState :=
  let state := { state with clkUserMask := state.clkUserMask &&& ~~~user.mask }
  if state.clkUserMask = 0 then state
  else
    let state := (setOpmode canConModeSleep written state).1
    { state with clkEnabled := state.clkEnabled - 1 }

/-- The calls of the users. -/
inductive ClockLabel where
  | startClock (user : ClkUser) (outcome : StartOutcome)
  | stopClock (user : ClkUser) (written : Except Errno Unit)

/-- One call, `none` when the user is to stop what it has not started. -/
def clockStep (state : ClockState) : ClockLabel → Option ClockState
  | .startClock user outcome =>
    let (next, ret) := startClock user outcome state
    some { next with
      started := fun other => (other = user && ret = .ok ()) || state.started other }
  | .stopClock user written =>
    if state.started user then
      some { stopClock user written state with
        started := fun other => other ≠ user && state.started other }
    else none

/-- The machine of the three users, from a given state on. -/
def clockMachine (start : ClockState) : Machine ClockState ClockLabel where
  start := start
  step := clockStep

/-- No user holds the clock: it is disabled and the controller sleeps. -/
def ClockState.asleep (osc con : BitVec 32) : ClockState where
  clkUserMask := 0
  clkEnabled := 0
  regsOsc := osc
  regsCon := con
  activeCanMode := canConModeSleep
  chipMode := canConModeSleep
  started _ := false

/-- The CAN side holds the clock, as `mcp25xxfd_can_probe` takes it for the first setup. -/
def ClockState.probed (osc con : BitVec 32) : ClockState where
  clkUserMask := ClkUser.can.mask
  clkEnabled := 1
  regsOsc := osc
  regsCon := con
  activeCanMode := canConModeConfig
  chipMode := canConModeConfig
  started user := user = .can

/-- The clock and the mode are as the mask of the users asks for. -/
structure ClockCounted (state : ClockState) : Prop where
  used : state.clkUserMask ≠ 0 → state.clkEnabled = 1 ∧ state.chipMode ≠ canConModeSleep
  unused : state.clkUserMask = 0 → state.clkEnabled = 0 ∧ state.chipMode = canConModeSleep

/-- What is expected of a call: a counted clock, and on error the same users and count. -/
structure ClockSound (state : ClockState) (label : ClockLabel) (next : ClockState) : Prop where
  counted : ClockCounted next
  atomic : ∀ user outcome errno, label = .startClock user outcome →
    (startClock user outcome state).2 = .error errno →
    next.clkUserMask = state.clkUserMask ∧ next.clkEnabled = state.clkEnabled

/-- Whether some read, with none failing before it, shows the oscillator as ready and enabled. -/
def oscReady : List (Except Errno (BitVec 32)) → Bool
  | [] => false
  | .error _ :: _ => false
  | .ok val :: rest => val &&& (oscOscRdy ||| oscDis) == oscOscRdy || oscReady rest

/--
The calls that the code handles as expected.

The first user finds the chip in order and gets it to run, a second start by the only user fails,
and nobody ever stops the clock.
-/
def ClockCallSafe (state : ClockState) : ClockLabel → Prop
  | .startClock user outcome =>
    (state.clkUserMask = 0 → hwCheckClock outcome.check state.regsOsc = .ok () ∧
      outcome.enable = .ok () ∧ outcome.wake = .ok () ∧ oscReady outcome.polls = true) ∧
    (state.clkUserMask = user.mask → hwCheckClock outcome.check state.regsOsc = .ok () →
      outcome.enable ≠ .ok ())
  | .stopClock _ _ => False

/-- The invariant of the clock, as long as all calls are handled as expected. -/
structure ClockInv (state : ClockState) : Prop where
  counted : ClockCounted state
  mode : state.activeCanMode = canConModeSleep ↔ state.clkUserMask = 0
  started : ∀ user, state.started user = true → state.clkUserMask &&& user.mask = user.mask

/-- The mask of a user is not empty. -/
theorem ClkUser.mask_ne_zero (user : ClkUser) : user.mask ≠ 0 := by
  cases user <;> decide

/-- A user joins a mask that holds no other user if and only if it is empty or its own. -/
theorem ClkUser.or_mask_eq (user : ClkUser) (mask : BitVec 32) :
    mask ||| user.mask = user.mask ↔ mask = 0 ∨ mask = user.mask := by
  cases user <;> exact or_bit_eq _

/-- The wait for the oscillator changes the driver's two copies only. -/
theorem pollOsc_frame (polls : List (Except Errno (BitVec 32))) (state : ClockState) :
    (pollOsc polls state).1.clkUserMask = state.clkUserMask ∧
      (pollOsc polls state).1.clkEnabled = state.clkEnabled ∧
      (pollOsc polls state).1.chipMode = state.chipMode ∧
      (pollOsc polls state).1.started = state.started := by
  -- The reads are taken one by one until one of them fails or shows the oscillator ready.
  -- The wait goes on as long as a poll succeeds and the oscillator is not ready.
  induction polls generalizing state with
  | nil => exact ⟨rfl, rfl, rfl, rfl⟩
  | cons poll rest ih =>
    cases poll with
    | error errno => exact ⟨rfl, rfl, rfl, rfl⟩
    | ok val =>
      simp only [pollOsc]
      split
      · exact ⟨rfl, rfl, rfl, rfl⟩
      · exact ih { state with regsOsc := val }

/-- The wait succeeds, and records the new mode, just when the oscillator gets ready. -/
theorem pollOsc_ok_iff (polls : List (Except Errno (BitVec 32))) (state : ClockState) :
    (pollOsc polls state).2 = .ok () ↔ oscReady polls = true := by
  -- The mode is recorded with the poll that finds the oscillator ready.
  induction polls generalizing state with
  | nil => simp [pollOsc, oscReady]
  | cons poll rest ih =>
    cases poll with
    | error errno => simp [pollOsc, oscReady]
    | ok val =>
      simp only [pollOsc, oscReady, Bool.or_eq_true, beq_iff_eq]
      split
      · rename_i ready
        simp [ready]
      · rename_i waiting
        simp [waiting, ih]

/-- A successful wait leaves the driver with the config mode. -/
theorem pollOsc_mode {polls : List (Except Errno (BitVec 32))} {state : ClockState}
    (ready : oscReady polls = true) :
    (pollOsc polls state).1.activeCanMode = canConModeConfig := by
  -- The induction is on the polls, the first ready one of which sets the mode.
  induction polls generalizing state with
  | nil => cases ready
  | cons poll rest ih =>
    cases poll with
    | error errno => cases ready
    | ok val =>
      simp only [pollOsc]
      split
      · rfl
      · rename_i waiting
        exact ih (by simpa [oscReady, waiting] using ready)

/-- The wake changes neither users nor count, and wakes the chip once its write is through. -/
theorem wakeFromSleep_frame (outcome : StartOutcome) (state : ClockState) :
    (wakeFromSleep outcome state).1.clkUserMask = state.clkUserMask ∧
      (wakeFromSleep outcome state).1.clkEnabled = state.clkEnabled ∧
      (wakeFromSleep outcome state).1.started = state.started ∧
      (outcome.wake = .ok () → (wakeFromSleep outcome state).1.chipMode ≠ canConModeSleep) := by
  -- The write of the wake fails, or the wait follows it.
  unfold wakeFromSleep
  cases woken : outcome.wake with
  | error errno => exact ⟨rfl, rfl, rfl, fun ok => by cases ok⟩
  | ok _ =>
    -- The write wakes the chip, and the wait behind it leaves the mode of the chip alone.
    obtain ⟨mask, count, mode, started⟩ := pollOsc_frame outcome.polls
      { state with
        regsOsc := state.regsOsc &&& ~~~oscDis
        chipMode := if state.chipMode = canConModeSleep then canConModeConfig else state.chipMode }
    refine ⟨mask, count, started, fun _ => ?_⟩
    dsimp only at mode ⊢
    rw [mode]
    split
    · exact (by decide : canConModeConfig ≠ canConModeSleep)
    · assumption

/-- The wake succeeds just when its write does and the oscillator gets ready. -/
theorem wakeFromSleep_ok_iff (outcome : StartOutcome) (state : ClockState) :
    (wakeFromSleep outcome state).2 = .ok () ↔
      outcome.wake = .ok () ∧ oscReady outcome.polls = true := by
  -- The oscillator is only polled when the write went out.
  unfold wakeFromSleep
  cases woken : outcome.wake with
  | error errno => simp
  | ok _ => simp [pollOsc_ok_iff]

/-- A user that finds another one only adds itself to the mask. -/
theorem startClock_shared {state : ClockState} {user : ClkUser} (outcome : StartOutcome)
    (used : state.clkUserMask ≠ 0) (shared : state.clkUserMask ≠ user.mask) :
    startClock user outcome state =
      ({ state with clkUserMask := state.clkUserMask ||| user.mask }, .ok ()) := by
  -- Some other user is in the mask, so the call returns before it touches the clock.
  have others : state.clkUserMask ||| user.mask ≠ user.mask := by
    rw [Ne, user.or_mask_eq]
    exact not_or.mpr ⟨used, shared⟩
  simp only [startClock]
  rw [if_pos others]

/-- The state of a sole user after the check, with the result of the enable. -/
def ClockState.claim (user : ClkUser) (enable : Except Errno Unit) (state : ClockState) :
    ClockState :=
  { state with
    clkUserMask := user.mask
    clkEnabled := state.clkEnabled + if enable = .ok () then 1 else 0 }

/-- A call that gets past the mask: the check, the enable, and then the wake of a sleeping chip. -/
theorem startClock_sole {state : ClockState} {user : ClkUser} (outcome : StartOutcome)
    (sole : state.clkUserMask = 0 ∨ state.clkUserMask = user.mask) :
    startClock user outcome state =
      match hwCheckClock outcome.check state.regsOsc with
      | .error errno => ({ state with clkUserMask := user.mask }, .error errno)
      | .ok () =>
        if state.activeCanMode = canConModeSleep then
          wakeFromSleep outcome (state.claim user outcome.enable)
        else (state.claim user outcome.enable, outcome.enable) := by
  -- No other user is in the mask, so the call goes past the early return.
  have same : state.clkUserMask ||| user.mask = user.mask := (user.or_mask_eq _).mpr sole
  simp only [startClock, same, ne_eq, not_true_eq_false, if_false]
  cases hwCheckClock outcome.check state.regsOsc with
  | error errno => rfl
  | ok _ => cases outcome.enable <;> rfl

/-- The first user, past the check, gets the result of the wake whatever the enable returned. -/
theorem startClock_first {state : ClockState} {user : ClkUser} {outcome : StartOutcome}
    (unused : state.clkUserMask = 0) (asleep : state.activeCanMode = canConModeSleep)
    (check : hwCheckClock outcome.check state.regsOsc = .ok ()) :
    startClock user outcome state =
      wakeFromSleep outcome (state.claim user outcome.enable) := by
  -- The check has passed, and the mode asks for the wake.
  rw [startClock_sole outcome (Or.inl unused), check]
  exact if_pos asleep

/-- A sole user that starts again, past the check, only enables the clock once more. -/
theorem startClock_again {state : ClockState} {user : ClkUser} {outcome : StartOutcome}
    (sole : state.clkUserMask = user.mask) (awake : state.activeCanMode ≠ canConModeSleep)
    (check : hwCheckClock outcome.check state.regsOsc = .ok ()) :
    startClock user outcome state = (state.claim user outcome.enable, outcome.enable) := by
  -- The check has passed, and the mode asks for no wake.
  rw [startClock_sole outcome (Or.inr sole), check]
  exact if_neg awake

/-- A sole user whose check fails is left in the mask. -/
theorem startClock_refused {state : ClockState} {user : ClkUser} {outcome : StartOutcome}
    {errno : Errno} (sole : state.clkUserMask = 0 ∨ state.clkUserMask = user.mask)
    (check : hwCheckClock outcome.check state.regsOsc = .error errno) :
    startClock user outcome state = ({ state with clkUserMask := user.mask }, .error errno) := by
  rw [startClock_sole outcome sole, check]

/-- A mask keeps its users when another one joins. -/
theorem ClkUser.mask_kept {user other : ClkUser} {mask : BitVec 32}
    (held : mask &&& other.mask = other.mask) :
    (mask ||| user.mask) &&& other.mask = other.mask := by
  -- The bit of the one user is compared with that of the other.
  rw [BitVec.and_comm] at held ⊢
  rw [BitVec.and_or_distrib_left, held]
  cases user <;> cases other <;> decide

/-- A user that has joined a mask is in it. -/
theorem ClkUser.mask_joined (user : ClkUser) (mask : BitVec 32) :
    (mask ||| user.mask) &&& user.mask = user.mask := by
  -- Bit by bit, the mask of the user is part of the union.
  refine BitMask.ext fun i => ?_
  rw [BitVec.getLsbD_and, BitVec.getLsbD_or]
  cases mask.getLsbD i <;> simp

/-- A start that is safe keeps the invariant, and does not change anything when it fails. -/
theorem startClock_sound {state : ClockState} {user : ClkUser} {outcome : StartOutcome}
    (inv : ClockInv state) (safe : ClockCallSafe state (.startClock user outcome)) :
    ClockCounted (startClock user outcome state).1 ∧
      ((startClock user outcome state).1.activeCanMode = canConModeSleep ↔
        (startClock user outcome state).1.clkUserMask = 0) ∧
      (startClock user outcome state).1.clkUserMask = state.clkUserMask ||| user.mask ∧
      ∀ errno, (startClock user outcome state).2 = .error errno →
        (startClock user outcome state).1.clkUserMask = state.clkUserMask ∧
        (startClock user outcome state).1.clkEnabled = state.clkEnabled := by
  -- The call is one of the first user, of another user, or of the one that is there already.
  have own := user.mask_ne_zero
  by_cases unused : state.clkUserMask = 0
  · -- The first user gets the clock and the chip to run.
    obtain ⟨check, enable, wake, ready⟩ := safe.1 unused
    rw [startClock_first unused (inv.mode.mpr unused) check]
    obtain ⟨mask, count, _, mode⟩ :=
      wakeFromSleep_frame outcome (state.claim user outcome.enable)
    -- The write and the wait succeed, so the call does.
    have woken := (wakeFromSleep_ok_iff outcome (state.claim user outcome.enable)).mpr
      ⟨wake, ready⟩
    have active : (wakeFromSleep outcome (state.claim user outcome.enable)).1.activeCanMode =
        canConModeConfig := by
      simp only [wakeFromSleep, wake]
      exact pollOsc_mode ready
    have used : (wakeFromSleep outcome (state.claim user outcome.enable)).1.clkUserMask ≠ 0 :=
      fun zero => own (mask.symm.trans zero)
    refine ⟨⟨fun _ => ⟨?_, mode wake⟩, fun zero => (used zero).elim⟩, ?_, ?_, ?_⟩
    · rw [count, ClockState.claim, if_pos enable, (inv.counted.unused unused).1]
    · rw [active]
      exact ⟨fun same => absurd same (by decide), fun zero => (used zero).elim⟩
    · rw [mask, unused]
      exact BitVec.zero_or.symm
    · intro errno failed
      rw [woken] at failed
      cases failed
  · have running := inv.counted.used unused
    have awake : state.activeCanMode ≠ canConModeSleep := fun same => unused (inv.mode.mp same)
    by_cases sole : state.clkUserMask = user.mask
    · -- A second start by the only user fails, and leaves everything as it is.
      have failing := safe.2 sole
      have union : state.clkUserMask ||| user.mask = state.clkUserMask := by
        rw [sole, BitVec.or_self]
      have same : (startClock user outcome state).1 = state := by
        cases check : hwCheckClock outcome.check state.regsOsc with
        | error errno =>
          rw [startClock_refused (Or.inr sole) check, ← sole]
        | ok _ =>
          rw [startClock_again sole awake check, ClockState.claim, if_neg (failing check), ← sole]
          rfl
      rw [same, union]
      exact ⟨inv.counted, inv.mode, rfl, fun _ _ => ⟨rfl, rfl⟩⟩
    · -- With another user in the mask, only the mask changes.
      rw [startClock_shared outcome unused sole]
      have used : state.clkUserMask ||| user.mask ≠ 0 := by
        intro zero
        exact unused (BitVec.or_eq_zero_iff.mp zero).1
      refine ⟨⟨fun _ => running, fun zero => (used zero).elim⟩, ?_, rfl, ?_⟩
      · exact ⟨fun same => (awake same).elim, fun zero => (used zero).elim⟩
      · intro errno failed
        cases failed

/-- A start that leaves the clock as expected is a safe one. -/
theorem startClock_safe {state : ClockState} {user : ClkUser} {outcome : StartOutcome}
    (inv : ClockInv state) (counted : ClockCounted (startClock user outcome state).1)
    (atomic : ∀ errno, (startClock user outcome state).2 = .error errno →
      (startClock user outcome state).1.clkUserMask = state.clkUserMask ∧
      (startClock user outcome state).1.clkEnabled = state.clkEnabled) :
    ClockCallSafe state (.startClock user outcome) := by
  -- What the mask shows after the call is what the clock has to do.
  have own := user.mask_ne_zero
  constructor
  · intro unused
    have disabled := (inv.counted.unused unused).1
    -- The mask is set in any case, so the call may not fail and has to enable the clock.
    cases check : hwCheckClock outcome.check state.regsOsc with
    | error errno =>
      rw [startClock_refused (Or.inl unused) check] at atomic
      exact (own ((atomic errno rfl).1.trans unused)).elim
    | ok _ =>
      rw [startClock_first unused (inv.mode.mpr unused) check] at counted atomic
      obtain ⟨mask, count, _, _⟩ :=
        wakeFromSleep_frame outcome (state.claim user outcome.enable)
      have enabled := (counted.used fun zero => own (mask.symm.trans zero)).1
      rw [count, ClockState.claim, disabled] at enabled
      refine ⟨rfl, ?_, ?_⟩
      · by_contra failed
        simp [failed] at enabled
      · cases woken : (wakeFromSleep outcome (state.claim user outcome.enable)).2 with
        | ok _ => exact (wakeFromSleep_ok_iff outcome _).mp woken
        | error errno => exact (own (mask.symm.trans ((atomic errno woken).1.trans unused))).elim
  · intro sole check enabled
    -- A second enable would count the clock twice for the one user.
    have used : state.clkUserMask ≠ 0 := sole ▸ own
    have awake : state.activeCanMode ≠ canConModeSleep := fun same => used (inv.mode.mp same)
    rw [startClock_again sole awake check, ClockState.claim, if_pos enabled] at counted
    have count := (counted.used own).1
    have running := (inv.counted.used used).1
    simp only [running] at count
    omega

/-- No stop leaves the clock as expected: it keeps an unused clock and stops a used one. -/
theorem stopClock_not_counted {state : ClockState} (inv : ClockInv state) {user : ClkUser}
    (held : state.started user = true) (written : Except Errno Unit) :
    ¬ ClockCounted (stopClock user written state) := by
  intro counted
  -- The user is in the mask, so the clock is running before the stop.
  have own := inv.started user held
  have used : state.clkUserMask ≠ 0 := by
    intro zero
    rw [zero] at own
    exact user.mask_ne_zero (own.symm.trans BitVec.zero_and)
  have running := inv.counted.used used
  simp only [stopClock] at counted
  -- The test is the wrong way round: the last user leaves the clock running, any other stops it.
  by_cases last : state.clkUserMask &&& ~~~user.mask = 0
  · rw [if_pos last] at counted
    have stopped := (counted.unused last).1
    simp only [running.1] at stopped
    omega
  · rw [if_neg last] at counted
    have frame : ∀ state, (setOpmode canConModeSleep written state).1.clkUserMask =
        state.clkUserMask ∧
        (setOpmode canConModeSleep written state).1.clkEnabled = state.clkEnabled := by
      intro state
      cases written <;> exact ⟨rfl, rfl⟩
    have stopped := counted.used (by simp only [frame]; exact last)
    simp only [frame, running.1] at stopped
    omega

/-- A safe call keeps the invariant and is as expected. -/
theorem clockStep_sound {state next : ClockState} (label : ClockLabel) (inv : ClockInv state)
    (safe : ClockCallSafe state label) (stepped : clockStep state label = some next) :
    ClockInv next ∧ ClockSound state label next := by
  -- The cases are the two calls.
  cases label with
  | startClock user outcome =>
    obtain ⟨counted, mode, mask, atomic⟩ := startClock_sound inv safe
    simp only [clockStep, Option.some.injEq] at stepped
    subst stepped
    -- Users that have started are in the mask: the new one by its own bit, the others as before.
    refine ⟨⟨⟨counted.used, counted.unused⟩, mode, ?_⟩, ⟨counted.used, counted.unused⟩, ?_⟩
    · intro other held
      simp only [Bool.or_eq_true, Bool.and_eq_true, decide_eq_true_eq] at held
      simp only [mask]
      rcases held with ⟨same, _⟩ | held
      · rw [same]
        exact user.mask_joined _
      · exact ClkUser.mask_kept (inv.started other held)
    · intro called given errno same failed
      cases same
      exact atomic errno failed
  | stopClock user written => exact safe.elim

/-- A call that is as expected is a safe one. -/
theorem clockStep_safe {state next : ClockState} (label : ClockLabel) (inv : ClockInv state)
    (sound : ClockSound state label next) (stepped : clockStep state label = some next) :
    ClockCallSafe state label := by
  -- The cases are the calls, each of which has something to be safe about.
  cases label with
  | startClock user outcome =>
    simp only [clockStep, Option.some.injEq] at stepped
    subst stepped
    have counted := sound.counted
    exact startClock_safe inv ⟨counted.used, counted.unused⟩
      fun errno failed => sound.atomic user outcome errno rfl failed
  | stopClock user written =>
    simp only [clockStep] at stepped
    split at stepped
    · rename_i held
      cases stepped
      have counted := sound.counted
      exact stopClock_not_counted inv held written ⟨counted.used, counted.unused⟩
    · cases stepped

/-- Over any calls of the users, the clock is as expected if and only if all calls are safe. -/
theorem clockSound_iff_safe (osc con : BitVec 32) (labels : List ClockLabel) :
    ((clockMachine (.asleep osc con)).Along ClockSound (.asleep osc con) labels ↔
      (clockMachine (.asleep osc con)).Along (fun state label _ => ClockCallSafe state label)
        (.asleep osc con) labels) ∧
    ((clockMachine (.probed osc con)).Along ClockSound (.probed osc con) labels ↔
      (clockMachine (.probed osc con)).Along (fun state label _ => ClockCallSafe state label)
        (.probed osc con) labels) := by
  -- The run begins asleep or as the probe leaves it.
  have asleep : ClockInv (.asleep osc con) :=
    { counted := ⟨fun used => (used rfl).elim, fun _ => ⟨rfl, rfl⟩⟩
      mode := ⟨fun _ => rfl, fun _ => rfl⟩
      started := fun user held => by cases held }
  have probed : ClockInv (.probed osc con) :=
    { counted :=
        ⟨fun _ => ⟨rfl, (by decide : canConModeConfig ≠ canConModeSleep)⟩,
          fun zero => (ClkUser.can.mask_ne_zero zero).elim⟩
      mode := ⟨fun same => (by cases same), fun zero => (ClkUser.can.mask_ne_zero zero).elim⟩
      started := fun user held => by
        have same : user = .can := by simpa [ClockState.probed] using held
        rw [same]
        exact BitVec.and_self }
  -- The invariant holds at both starts, and the two machines take the same steps.
  have keeps : ∀ start state label next, ClockInv state → ClockCallSafe state label →
      (clockMachine start).step state label = some next →
      ClockInv next ∧ ClockSound state label next :=
    fun _ _ label _ inv safe stepped => clockStep_sound label inv safe stepped
  have breaks : ∀ start state label next, ClockInv state → ClockSound state label next →
      (clockMachine start).step state label = some next → ClockCallSafe state label :=
    fun _ _ label _ inv sound stepped => clockStep_safe label inv sound stepped
  exact ⟨Machine.along_iff_condition (keeps _) (breaks _) labels _ asleep,
    Machine.along_iff_condition (keeps _) (breaks _) labels _ probed⟩

/-- A controller in order, whose oscillator is ready at the first read. -/
def promptStart : StartOutcome where
  check := .ok oscDis
  enable := .ok ()
  wake := .ok ()
  polls := [.ok oscOscRdy]

/-- After the interface was up once, no user is left and the clock still runs. -/
theorem upAndDown_not_sound :
    ¬ (clockMachine (.asleep oscDis 0)).Along ClockSound (.asleep oscDis 0)
      ([.startClock .can promptStart] ++ [.stopClock .can (.ok ())]) := by
  -- The run is one start and one stop.
  intro along
  have sound := Machine.Along.transition along
    (Option.some_get (by decide)).symm (Option.some_get (by decide)).symm
  have stopped := (sound.counted.unused (by decide)).1
  revert stopped
  decide

end OpenwrtMisc.Mcp25xxfd
