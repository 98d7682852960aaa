import OpenwrtMisc.SunxiCan.ErrorInterrupt

/-! The mode select register of the sunxi-can driver, and the functions that change it. -/

namespace OpenwrtMisc.SunxiCan

open BitMask

/-- `SUN4I_MODE_MAX_RETRIES`, and the error of a mode that is not entered. -/
def sun4iModeMaxRetries : Nat := 100
def eTIMEDOUT : Int := 110

/-- The addresses of the registers that `sun4i_can_start` and `sun4i_can_stop` write. -/
def sun4iRegIntenAddr : Nat := 0x0010
def sun4iRegBtimeAddr : Nat := 0x0014
def sun4iRegErrcAddr : Nat := 0x001c
def sun4iRegAcpcAddr : Nat := 0x0040
def sun4iRegAcpmAddr : Nat := 0x0044

/-- The other bits of the mode select register. -/
def sun4iMselLoopbackMode : BitVec 32 := bit 2
def sun4iMselListenOnlyMode : BitVec 32 := bit 1

/-- `SUN4I_INTEN_BERR`. -/
def sun4iIntenBerr : BitVec 32 := bit 7

/-- The bits of `priv->can.ctrlmode`. -/
def canCtrlmodeListenonly : BitVec 32 := 0x02
def canCtrlmode3Samples : BitVec 32 := 0x04
def canCtrlmodeBerrReporting : BitVec 32 := 0x10
def canCtrlmodePresumeAck : BitVec 32 := 0x40

/--
A mode select register: its bits other than `RESET_MODE` are storage.

What the bit `RESET_MODE` reads as is up to the controller.
-/
structure ModeIo (State : Type) where
  readl : State → BitVec 32 × State
  writel : BitVec 32 → State → State
  /-- The bits other than `RESET_MODE`. -/
  others : State → BitVec 32
  read_others : ∀ state, (readl state).1 &&& ~~~sun4iMselResetMode = others state
  read_keeps : ∀ state, others (readl state).2 = others state
  write_others : ∀ value state, others (writel value state) = value &&& ~~~sun4iMselResetMode

/-- A register, and what its last read showed, which is only recorded. -/
structure ModePort (State : Type) where
  regs : State
  modeRead : BitVec 32

section Functions

variable {State : Type} (io : ModeIo State)

/-- A read of the register, and a write. -/
def ModePort.readl (port : ModePort State) : BitVec 32 × ModePort State :=
  let (value, regs) := io.readl port.regs
  (value, { regs := regs, modeRead := value })

def ModePort.writel (value : BitVec 32) (port : ModePort State) : ModePort State :=
  { port with regs := io.writel value port.regs }

/-- The body of the loops of `set_normal_mode` and `set_reset_mode`, with `mod_reg_val`. -/
def modeTurn (modify : BitVec 32 → BitVec 32) (port : ModePort State) :
    BitVec 32 × ModePort State :=
  let (modRegVal, port) := port.readl io
  let modRegVal := modify modRegVal
  (modRegVal, port.writel io modRegVal)

/-- The loop, whose counter is looked at before it is decremented. -/
def modeTurns (modify : BitVec 32 → BitVec 32) (again : BitVec 32 → Bool) :
    Nat → ModePort State → ModePort State
  | 0, port => (modeTurn io modify port).2
  | retry + 1, port =>
    let (modRegVal, port) := modeTurn io modify port
    if again modRegVal then modeTurns modify again retry port else port

/-- The loop and the check after it. -/
def switchMode (modify : BitVec 32 → BitVec 32) (again : BitVec 32 → Bool)
    (port : ModePort State) : Int × ModePort State :=
  let port := modeTurns io modify again sun4iModeMaxRetries port
  let (value, port) := port.readl io
  (if again value then -eTIMEDOUT else 0, port)

/-- `set_normal_mode`. -/
def setNormalMode : ModePort State → Int × ModePort State :=
  switchMode io (· &&& ~~~sun4iMselResetMode) fun value => value &&& sun4iMselResetMode ≠ 0

/-- `set_reset_mode`. -/
def setResetMode : ModePort State → Int × ModePort State :=
  switchMode io (· ||| sun4iMselResetMode) fun value => value &&& sun4iMselResetMode = 0

end Functions

/-- A value in which the bit was just set has it. -/
theorem set_reset (value : BitVec 32) :
    (value ||| sun4iMselResetMode) &&& sun4iMselResetMode ≠ 0 := by
  -- The bit is one of those that are set.
  refine and_bit_ne_zero.mpr ?_
  rw [sun4iMselResetMode, getLsbD_set value (by omega), decide_eq_true rfl, Bool.or_true]

/-- One in which it was just cleared has not. -/
theorem clear_reset (value : BitVec 32) :
    (value &&& ~~~sun4iMselResetMode) &&& sun4iMselResetMode = 0 := by
  -- The two masks have no bit in common.
  rw [BitVec.and_assoc, show ~~~sun4iMselResetMode &&& sun4iMselResetMode = 0 by decide]
  exact BitVec.and_zero

/--
A controller whose bit `RESET_MODE` takes the last written value after so many further reads.

Writing the value that was written last does not start the delay again.
-/
structure ModeReg (delay : Nat) where
  /-- The other bits. -/
  others : BitVec 32
  clear : others &&& sun4iMselResetMode = 0
  bit : Bool
  written : Bool
  /-- The reads that are left until the bit takes the written value. -/
  left : Nat
  within : left ≤ delay
  settled : left = 0 → bit = written

/-- What the register reads as. -/
def ModeReg.content {delay : Nat} (reg : ModeReg delay) : BitVec 32 :=
  reg.others ||| if reg.bit then sun4iMselResetMode else 0

/-- The register after a read. -/
def ModeReg.afterRead {delay : Nat} (reg : ModeReg delay) : ModeReg delay :=
  { reg with
    bit := if reg.left ≤ 1 then reg.written else reg.bit
    left := reg.left - 1
    within := by have := reg.within; omega
    settled := fun last => if_pos (by omega) }

/-- The register after a write. -/
def ModeReg.afterWrite {delay : Nat} (value : BitVec 32) (reg : ModeReg delay) : ModeReg delay :=
  let others := value &&& ~~~sun4iMselResetMode
  have clear : others &&& sun4iMselResetMode = 0 := clear_reset value
  let written := value.getLsbD 0
  if written = reg.written then { reg with others := others, clear := clear }
  else
    { others := others
      clear := clear
      bit := if delay = 0 then written else reg.bit
      written := written
      left := delay
      within := Nat.le_refl delay
      settled := fun none => if_pos none }

/-- A word without a bit that it did not have is the word. -/
theorem and_not_reset {word : BitVec 32} (clear : word &&& sun4iMselResetMode = 0) :
    word &&& ~~~sun4iMselResetMode = word := by
  -- The word is cut into the bit and the others.
  have whole : word &&& (~~~sun4iMselResetMode ||| sun4iMselResetMode) = word := by
    rw [show ~~~sun4iMselResetMode ||| sun4iMselResetMode = BitVec.allOnes 32 by decide]
    exact BitVec.and_allOnes
  rw [BitVec.and_or_distrib_left, clear] at whole
  exact BitVec.or_zero.symm.trans whole

/-- The other bits read as they are. -/
theorem ModeReg.content_others {delay : Nat} (reg : ModeReg delay) :
    reg.content &&& ~~~sun4iMselResetMode = reg.others := by
  -- The level of the bit is outside the other bits.
  have none : (if reg.bit then sun4iMselResetMode else 0) &&& ~~~sun4iMselResetMode = 0 := by
    cases reg.bit <;> decide
  unfold content
  rw [BitVec.and_comm, BitVec.and_or_distrib_left, BitVec.and_comm, and_not_reset reg.clear,
    BitVec.and_comm, none]
  exact BitVec.or_zero

/-- The bit `RESET_MODE` reads as its level. -/
theorem ModeReg.content_reset {delay : Nat} (reg : ModeReg delay) :
    reg.content &&& sun4iMselResetMode = 0 ↔ reg.bit = false := by
  -- The other bits are outside the mask of the bit.
  unfold content
  rw [BitVec.and_comm, BitVec.and_or_distrib_left, BitVec.and_comm, reg.clear]
  cases reg.bit <;> decide

/-- The reads and writes of such a controller. -/
def ModeReg.io (delay : Nat) : ModeIo (ModeReg delay) where
  readl reg := (reg.content, reg.afterRead)
  writel value reg := reg.afterWrite value
  others reg := reg.others
  read_others := ModeReg.content_others
  read_keeps _ := rfl
  write_others value reg := by
    show (reg.afterWrite value).others = _
    unfold ModeReg.afterWrite
    dsimp only
    split <;> rfl

section Switch

variable {State : Type} (io : ModeIo State)

/-- The loop ends after its first turn, because it looks at the value that it has just changed. -/
theorem modeTurns_eq {modify : BitVec 32 → BitVec 32} {again : BitVec 32 → Bool}
    (stops : ∀ value, again (modify value) = false) (retry : Nat) (port : ModePort State) :
    modeTurns io modify again retry port = (modeTurn io modify port).2 := by
  cases retry with
  | zero => rfl
  | succ retry =>
    -- The value is looked at before the register is read again.
    have first : again (modeTurn io modify port).1 = false := stops _
    unfold modeTurns
    simp only [first]
    rfl

/-- One change of the register decides, and the other bits stay. -/
theorem switchMode_spec {modify : BitVec 32 → BitVec 32} (again : BitVec 32 → Bool)
    (stops : ∀ value, again (modify value) = false)
    (same : ∀ value, modify value &&& ~~~sun4iMselResetMode = value &&& ~~~sun4iMselResetMode)
    (port : ModePort State) :
    let result := switchMode io modify again port
    result.1 = (if again result.2.modeRead then -eTIMEDOUT else 0) ∧
      io.others result.2.regs = io.others port.regs ∧
      result.2.modeRead &&& ~~~sun4iMselResetMode = io.others port.regs := by
  -- The other bits go through the read, the change, the write and the last read.
  have written : io.others ((modeTurn io modify port).2.regs) = io.others port.regs := by
    refine (io.write_others _ _).trans ?_
    rw [same]
    exact io.read_others port.regs
  unfold switchMode
  rw [modeTurns_eq io stops]
  refine ⟨rfl, ?_, ?_⟩
  · exact (io.read_keeps _).trans written
  · exact (io.read_others _).trans written

/-- `set_reset_mode` succeeds when its last read shows the bit. -/
theorem setResetMode_spec (port : ModePort State) :
    let result := setResetMode io port
    result.1 = (if result.2.modeRead &&& sun4iMselResetMode = 0 then -eTIMEDOUT else 0) ∧
      io.others result.2.regs = io.others port.regs ∧
      result.2.modeRead &&& ~~~sun4iMselResetMode = io.others port.regs := by
  -- The bit is set in the value that the loop looks at, and the mask takes it off again.
  have stops : ∀ value : BitVec 32,
      decide ((value ||| sun4iMselResetMode) &&& sun4iMselResetMode = 0) = false :=
    fun value => decide_eq_false (set_reset value)
  have same : ∀ value, (value ||| sun4iMselResetMode) &&& ~~~sun4iMselResetMode =
      value &&& ~~~sun4iMselResetMode := by
    intro value
    rw [BitVec.and_comm, BitVec.and_or_distrib_left,
      show ~~~sun4iMselResetMode &&& sun4iMselResetMode = 0 by decide, BitVec.and_comm]
    exact BitVec.or_zero
  have spec := switchMode_spec io (fun value => value &&& sun4iMselResetMode = 0) stops same port
  simp only [decide_eq_true_eq] at spec
  exact spec

/-- `set_normal_mode` succeeds when its last read does not show the bit. -/
theorem setNormalMode_spec (port : ModePort State) :
    let result := setNormalMode io port
    result.1 = (if result.2.modeRead &&& sun4iMselResetMode ≠ 0 then -eTIMEDOUT else 0) ∧
      io.others result.2.regs = io.others port.regs ∧
      result.2.modeRead &&& ~~~sun4iMselResetMode = io.others port.regs := by
  -- The bit is clear in the value that the loop looks at.
  have stops : ∀ value : BitVec 32,
      decide ((value &&& ~~~sun4iMselResetMode) &&& sun4iMselResetMode ≠ 0) = false :=
    fun value => decide_eq_false (not_not_intro (clear_reset value))
  have same : ∀ value, (value &&& ~~~sun4iMselResetMode) &&& ~~~sun4iMselResetMode =
      value &&& ~~~sun4iMselResetMode := by
    intro value
    rw [BitVec.and_assoc, BitVec.and_self]
  have spec := switchMode_spec io (fun value => value &&& sun4iMselResetMode ≠ 0) stops same port
  simp only [decide_eq_true_eq] at spec
  exact spec

end Switch

/-- The mode of a controller with a delay is what was asked for; its other bits are as before. -/
structure Switched {delay : Nat} (reset : Bool) (before : ModeReg delay)
    (result : Int × ModePort (ModeReg delay)) : Prop where
  err : result.1 = 0
  mode : result.2.regs.bit = reset
  others : result.2.regs.others = before.others

/-- The level that a bit has after a write and at the read that follows it. -/
theorem ModeReg.afterWrite_bit {delay : Nat} (reg : ModeReg delay) (value : BitVec 32) :
    (reg.afterWrite value).bit = (if delay = 0 then value.getLsbD 0 else reg.bit) ∧
      (reg.afterWrite value).written = value.getLsbD 0 := by
  -- The write changes the bit or not, and a change takes as many reads as the delay.
  unfold afterWrite
  dsimp only
  by_cases same : value.getLsbD 0 = reg.written
  · rw [if_pos same]
    refine ⟨?_, same.symm⟩
    -- Without a delay the bit has the written value already.
    split
    · rename_i none
      exact (reg.settled (Nat.le_zero.mp (none ▸ reg.within))).trans same.symm
    · rfl
  · rw [if_neg same]
    exact ⟨rfl, rfl⟩

/-- A bit that has the written value keeps it. -/
theorem ModeReg.afterRead_bit {delay : Nat} {reg : ModeReg delay}
    (reached : reg.bit = reg.written) : reg.afterRead.bit = reg.bit := by
  -- The read may put the written value in place, which is the same.
  unfold afterRead
  dsimp only
  split
  · exact reached.symm
  · rfl

/-- The bit that a read, a write and a read leave is the written one just when it came in time. -/
theorem ModeReg.switched {delay : Nat} (reg : ModeReg delay) {value : BitVec 32} {reset : Bool}
    (asked : value.getLsbD 0 = reset) :
    ((reg.afterRead.afterWrite value).bit = reset ↔ delay = 0 ∨ reg.afterRead.bit = reset) ∧
      ((reg.afterRead.afterWrite value).bit = reset →
        (reg.afterRead.afterWrite value).afterRead.bit = reset) := by
  -- Without a delay the written bit is there at once, and else the one before it.
  obtain ⟨level, written⟩ := reg.afterRead.afterWrite_bit value
  constructor
  · rw [level, asked]
    by_cases none : delay = 0
    · rw [if_pos none]
      exact iff_of_true rfl (.inl none)
    · rw [if_neg none, or_iff_right none]
  · intro reached
    exact (afterRead_bit (reached.trans (written.trans asked).symm)).trans reached

/-- What a switch leaves of such a controller, and what its last read shows. -/
theorem ModeReg.switchMode_port {delay : Nat} {modify : BitVec 32 → BitVec 32}
    {again : BitVec 32 → Bool} (stops : ∀ value, again (modify value) = false)
    (port : ModePort (ModeReg delay)) :
    (switchMode (io delay) modify again port).2 =
      { regs := (port.regs.afterRead.afterWrite (modify port.regs.content)).afterRead
        modeRead := (port.regs.afterRead.afterWrite (modify port.regs.content)).content } := by
  unfold switchMode
  -- The loop takes one turn: a read, a write, and then the read that decides.
  rw [modeTurns_eq (io delay) stops]
  rfl

/-- `set_reset_mode` works just when the controller does not delay, or has the bit already. -/
theorem setResetMode_switched {delay : Nat} (port : ModePort (ModeReg delay)) :
    Switched true port.regs (setResetMode (ModeReg.io delay) port) ↔
      delay = 0 ∨ port.regs.afterRead.bit = true := by
  -- The write asks for the reset mode, and the read behind it tells whether the level follows.
  have asked : (port.regs.content ||| sun4iMselResetMode).getLsbD 0 = true :=
    and_bit_ne_zero.mp (set_reset port.regs.content)
  obtain ⟨level, stays⟩ := port.regs.switched asked
  obtain ⟨err, others, _⟩ := setResetMode_spec (ModeReg.io delay) port
  have left : (setResetMode (ModeReg.io delay) port).2 = _ :=
    ModeReg.switchMode_port (fun value => decide_eq_false (set_reset value)) port
  rw [left] at err
  rw [← level]
  constructor
  · intro switched
    -- The result is the one of the last read, which shows the level.
    by_contra absent
    have clear := (ModeReg.content_reset _).mpr ((Bool.not_eq_true _).mp absent)
    rw [if_pos clear] at err
    exact absurd (err.symm.trans switched.err) (by decide)
  · intro reached
    refine ⟨?_, ?_, others⟩
    · rw [if_neg fun clear => Bool.false_ne_true
        (((ModeReg.content_reset _).mp clear).symm.trans reached)] at err
      exact err
    · rw [left]
      exact stays reached

/-- `set_normal_mode` works just when the controller does not delay, or lacks the bit already. -/
theorem setNormalMode_switched {delay : Nat} (port : ModePort (ModeReg delay)) :
    Switched false port.regs (setNormalMode (ModeReg.io delay) port) ↔
      delay = 0 ∨ port.regs.afterRead.bit = false := by
  -- The bit is asked to be clear, and what the last read shows decides.
  have asked : (port.regs.content &&& ~~~sun4iMselResetMode).getLsbD 0 = false := by
    rw [sun4iMselResetMode, getLsbD_clear, decide_eq_false (not_not_intro rfl), Bool.and_false]
  obtain ⟨level, stays⟩ := port.regs.switched asked
  obtain ⟨err, others, _⟩ := setNormalMode_spec (ModeReg.io delay) port
  have left : (setNormalMode (ModeReg.io delay) port).2 = _ :=
    ModeReg.switchMode_port
      (fun value => decide_eq_false (not_not_intro (clear_reset value))) port
  rw [left] at err
  rw [← level]
  constructor
  · intro switched
    by_contra present
    have shown := mt (ModeReg.content_reset _).mp present
    rw [if_pos shown] at err
    exact absurd (err.symm.trans switched.err) (by decide)
  · intro reached
    refine ⟨?_, ?_, others⟩
    · rw [if_neg (not_not_intro ((ModeReg.content_reset _).mpr reached))] at err
      exact err
    · rw [left]
      exact stays reached

/--
Both switches work just when the controller does not delay or has the mode after the first read.

The delay and the content of the register are any.
-/
theorem switchMode_delayed_iff (delay : Nat) (port : ModePort (ModeReg delay)) :
    (Switched true port.regs (setResetMode (ModeReg.io delay) port) ↔
        delay = 0 ∨ port.regs.afterRead.bit = true) ∧
      (Switched false port.regs (setNormalMode (ModeReg.io delay) port) ↔
        delay = 0 ∨ port.regs.afterRead.bit = false) :=
  ⟨setResetMode_switched port, setNormalMode_switched port⟩

/-- A register in the normal mode, with all other bits clear. -/
def ModeReg.normal (delay : Nat) : ModeReg delay where
  others := 0
  clear := by decide
  bit := false
  written := false
  left := 0
  within := Nat.zero_le delay
  settled _ := rfl

/-- A delay of one read is too long for `set_reset_mode`. -/
theorem setResetMode_delayed :
    ¬ ∀ (delay : Nat) (port : ModePort (ModeReg delay)), delay < 100 →
      Switched true port.regs (setResetMode (ModeReg.io delay) port) ∧
        Switched false port.regs (setNormalMode (ModeReg.io delay) port) := by
  intro claim
  -- The bit is not there yet when it is read back.
  have switched := (claim 1 { regs := .normal 1, modeRead := 0 } (by decide)).1
  rcases (setResetMode_switched _).mp switched with none | reached
  · exact absurd none (by decide)
  · exact absurd reached (by decide)

end OpenwrtMisc.SunxiCan
