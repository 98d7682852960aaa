import OpenwrtMisc.C2Tool.FlashCommand

/-! The setup script of a family, on a port whose device answers every access as it likes. -/

namespace OpenwrtMisc.C2Tool.Setup

/-- What the tool does to its port, and the pauses between. -/
inductive Op where
  | writeAr (addr : UInt8)
  | readAr
  | writeDr (data : UInt8)
  | readDr
  | usleep (time : Nat)
  deriving DecidableEq, Repr

/-- What was done so far, the first of it first. -/
abbrev History := List Op

/-- The byte that an access ends with after such a history, `none` when it fails. -/
abbrev Device := History → Op → Option UInt8

/-- A call of the tool, which adds to the history. -/
abbrev Call (α : Type) := StateM History α

variable (device : Device) (fpdat : UInt8)

/-- One operation. -/
def ioctl (op : Op) : Call (Option UInt8) := fun history => (device history op, history ++ [op])

/-- `c2_write_ar`, which has no result: the driver writes the address without waiting. -/
def c2WriteAr (addr : UInt8) : Call Unit := do
  let _ ← ioctl device (.writeAr addr)

/-- `c2_write_dr`. -/
def c2WriteDr (data : UInt8) : Call Int := do
  match ← ioctl device (.writeDr data) with
  | none => return -1
  | some _ => return 0

/-- `c2_read_dr`, `none` where it is less than 0. -/
def c2ReadDr : Call (Option UInt8) := ioctl device .readDr

/-- The loops of `c2_poll_in_busy` and `c2_poll_out_ready` with so many turns left. -/
def pollAr (leaves : UInt8 → Bool) : Nat → Call Int
  | 0 => return -eio
  | timeout + 1 => do
    match ← ioctl device .readAr with
    | none => return -eio
    | some addr =>
      if leaves addr then return 0
      else
        let _ ← ioctl device (.usleep 1)
        pollAr leaves timeout

/-- `c2_poll_in_busy`. -/
def c2PollInBusy : Call Int := pollAr device (fun addr => addr &&& 0x02 == 0) 20

/-- `c2_poll_out_ready`. -/
def c2PollOutReady : Call Int := pollAr device (fun addr => addr &&& 0x01 != 0) 10000

/-- `c2_read_sfr`, whose result is the byte that was read or an error. -/
def c2ReadSfr (sfr : UInt8) : Call Int := do
  c2WriteAr device sfr
  match ← c2ReadDr device with
  | none => return -eio
  | some data => return data.toNat

/-- `c2_write_sfr`. -/
def c2WriteSfr (sfr data : UInt8) : Call Int := do
  c2WriteAr device sfr
  if (← c2WriteDr device data) < 0 then return -eio else return 0

/-- `c2_pi_write_command`. -/
def c2PiWriteCommand (command : UInt8) : Call Int := do
  if (← c2WriteDr device command) < 0 then return -eio
  else if (← c2PollInBusy device) < 0 then return -eio
  else return 0

/-- `C2_FPDAT_RETURN_COMMAND_OK`, `C2_FPDAT_DIRECT_READ` and `C2_FPDAT_DIRECT_WRITE`. -/
def c2FpdatReturnCommandOk : UInt8 := 0x0d
def c2FpdatDirectRead : UInt8 := 0x09
def c2FpdatDirectWrite : UInt8 := 0x0a

/-- `c2_pi_check_command`, with `c2_pi_get_data` in it. -/
def c2PiCheckCommand : Call Int := do
  if (← c2PollOutReady device) < 0 then return -eio
  else
    match ← c2ReadDr device with
    | none => return -eio
    | some response => if response ≠ c2FpdatReturnCommandOk then return -eio else return 0

/-- `c2_pi_command` with a check and without a result. -/
def c2PiCommand (command : UInt8) : Call Int := do
  if (← c2PiWriteCommand device command) < 0 then return -eio
  else if (← c2PiCheckCommand device) < 0 then return -eio
  else return 0

/-- `c2_read_direct`, whose result is the byte that was read or an error. -/
def c2ReadDirect (reg : UInt8) : Call Int := do
  c2WriteAr device fpdat
  if (← c2PiCommand device c2FpdatDirectRead) ≠ 0 then return -eio
  else if (← c2PiWriteCommand device reg) ≠ 0 then return -eio
  else if (← c2PiWriteCommand device 0x01) ≠ 0 then return -eio
  else if (← c2PollOutReady device) < 0 then return -eio
  else
    match ← c2ReadDr device with
    | none => return -eio
    | some data => return data.toNat

/-- `c2_write_direct`. -/
def c2WriteDirect (reg value : UInt8) : Call Int := do
  c2WriteAr device fpdat
  if (← c2PiCommand device c2FpdatDirectWrite) ≠ 0 then return -eio
  else if (← c2PiWriteCommand device reg) ≠ 0 then return -eio
  else if (← c2PiWriteCommand device 0x01) ≠ 0 then return -eio
  else if (← c2PiWriteCommand device value) ≠ 0 then return -eio
  else return 0

/-- `process_setupcmd` for a command other than `C2_DONE`. -/
def processSetupcmd (setupcmd : C2Setupcmd) : Call Int :=
  match setupcmd with
  | .writeSfr reg value => c2WriteSfr device reg value
  | .writeDirect reg value => c2WriteDirect device fpdat reg value
  | .readSfr reg => c2ReadSfr device reg
  | .readDirect reg => c2ReadDirect device fpdat reg
  | .waitUs time => do
    let _ ← ioctl device (.usleep time)
    return 0

/-- The loop of `c2family_setup`, with the result that it is left with. -/
def setupLoop : List C2Setupcmd → Call Int
  -- `C2_DONE`.
  | [] => return 1
  | setupcmd :: rest => do
    let res ← processSetupcmd device fpdat setupcmd
    if res = 0 then setupLoop rest else return res

/-- `c2family_setup`. -/
def c2familySetup (setup : Option (List C2Setupcmd)) : Call Int :=
  match setup with
  | none => return 0
  | some commands => do
    let res ← setupLoop device fpdat commands
    if res = 1 then return 0 else return -eio

/-- All commands in their order, up to the first access that fails, and whether none does. -/
def runCommands : List C2Setupcmd → Call Bool
  | [] => return true
  | setupcmd :: rest => do
    let res ← processSetupcmd device fpdat setupcmd
    if res < 0 then return false else runCommands rest

/-- What is expected of the setup: it runs all commands, and is successful when they are. -/
structure RunsWhole (setup : List C2Setupcmd) (history : History) : Prop where
  operations : (c2familySetup device fpdat (some setup) history).2 =
    (runCommands device fpdat setup history).2
  result : (c2familySetup device fpdat (some setup) history).1 = 0 ↔
    (runCommands device fpdat setup history).1 = true

/-- The commands that end with a byte of the device. -/
def isRead : C2Setupcmd → Bool
  | .readSfr _ | .readDirect _ => true
  | _ => false

/-- Every read before the first failure yields 0, except that the last command may read a 1. -/
def ReadsPass : List C2Setupcmd → History → Prop
  | [], _ => True
  | setupcmd :: rest, history =>
    let (res, next) := processSetupcmd device fpdat setupcmd history
    (isRead setupcmd = true → 0 ≤ res → res = 0 ∨ res = 1 ∧ rest = []) ∧
      (res = 0 → ReadsPass rest next)

/-- A call only adds to the history. -/
def Extends {α : Type} (call : Call α) : Prop := ∀ history, history <+: (call history).2

namespace Extends

variable {α β : Type}

/-- A result alone adds nothing. -/
theorem pure (value : α) : Extends (Pure.pure value) := fun history => List.prefix_refl history

/-- Calls in a row add one behind the other. -/
theorem bind {first : Call α} {next : α → Call β} (begun : Extends first)
    (ended : ∀ value, Extends (next value)) : Extends (first >>= next) :=
  fun history => (begun history).trans (ended (first history).1 (first history).2)

/-- Either branch adds to the history. -/
theorem ite {condition : Prop} [Decidable condition] {first second : Call α}
    (one : Extends first) (other : Extends second) :
    Extends (if condition then first else second) := by
  -- Whichever branch is taken.
  split
  · exact one
  · exact other

/-- What is done with a byte, or without one, adds to the history. -/
theorem option {without : Call α} {next : UInt8 → Call α} (none : Extends without)
    (some : ∀ byte, Extends (next byte)) (answer : Option UInt8) :
    Extends (match answer with | .none => without | .some byte => next byte) := by
  -- With a byte or without one.
  cases answer with
  | none => exact none
  | some byte => exact some byte

end Extends

/-- One operation is added to the history. -/
theorem ioctl_extends (op : Op) : Extends (ioctl device op) :=
  fun history => List.prefix_append history [op]

/-- A poll adds its reads and pauses. -/
theorem pollAr_extends (leaves : UInt8 → Bool) (timeout : Nat) :
    Extends (pollAr device leaves timeout) := by
  -- The induction is on the turns that are left.
  induction timeout with
  | zero => exact .pure _
  | succ timeout ih =>
    refine (ioctl_extends device .readAr).bind (.option (.pure _) fun addr => ?_)
    refine .ite (.pure _) ?_
    exact (ioctl_extends device (.usleep 1)).bind fun _ => ih

/-- A byte of a command adds its write and the poll behind it. -/
theorem c2PiWriteCommand_extends (command : UInt8) :
    Extends (c2PiWriteCommand device command) := by
  -- The write, and the poll unless it failed.
  have written : Extends (c2WriteDr device command) :=
    (ioctl_extends device _).bind (.option (.pure _) fun _ => .pure _)
  refine written.bind fun _ => .ite (.pure _) ?_
  exact (pollAr_extends device _ 20).bind fun _ => .ite (.pure _) (.pure _)

/-- A command with its check adds both. -/
theorem c2PiCommand_extends (command : UInt8) : Extends (c2PiCommand device command) := by
  -- The check polls and reads, and comes behind the write.
  have checked : Extends (c2PiCheckCommand device) := by
    refine (pollAr_extends device _ 10000).bind fun _ => .ite (.pure _) ?_
    exact (ioctl_extends device _).bind (.option (.pure _) fun _ => .ite (.pure _) (.pure _))
  refine (c2PiWriteCommand_extends device command).bind fun _ => .ite (.pure _) ?_
  exact checked.bind fun _ => .ite (.pure _) (.pure _)

/-- A call begins with this operation, and only adds to the history after it. -/
def Begins {α : Type} (op : Op) (call : Call α) : Prop :=
  ∀ history, history ++ [op] <+: (call history).2

/-- What begins with an operation still does with more calls behind it. -/
theorem Begins.bind {α β : Type} {op : Op} {first : Call α} {next : α → Call β}
    (begins : Begins op first) (rest : ∀ value, Extends (next value)) :
    Begins op (first >>= next) :=
  fun history => (begins history).trans (rest (first history).1 (first history).2)

/-- Every command begins with an operation. -/
theorem processSetupcmd_begins (setupcmd : C2Setupcmd) :
    ∃ op, Begins op (processSetupcmd device fpdat setupcmd) := by
  -- The cases are the commands.
  have command := c2PiCommand_extends device
  have write := c2PiWriteCommand_extends device
  have read : Extends (do
      match ← c2ReadDr device with
      | none => return -eio
      | some data => return (data.toNat : Int)) :=
    (ioctl_extends device _).bind (.option (.pure _) fun _ => .pure _)
  have addressed (addr : UInt8) : Begins (.writeAr addr) (c2WriteAr device addr) :=
    fun history => List.prefix_refl _
  -- What comes after the first operation is followed branch by branch.
  cases setupcmd with
  | writeSfr reg value =>
    refine ⟨_, (addressed reg).bind fun _ => ?_⟩
    have written : Extends (c2WriteDr device value) :=
      (ioctl_extends device _).bind (.option (.pure _) fun _ => .pure _)
    exact written.bind fun _ => .ite (.pure _) (.pure _)
  | writeDirect reg value =>
    refine ⟨_, (addressed fpdat).bind fun _ => ?_⟩
    refine (command _).bind fun _ => .ite (.pure _) ?_
    refine (write _).bind fun _ => .ite (.pure _) ?_
    refine (write _).bind fun _ => .ite (.pure _) ?_
    exact (write _).bind fun _ => .ite (.pure _) (.pure _)
  | readSfr reg => exact ⟨_, (addressed reg).bind fun _ => read⟩
  | readDirect reg =>
    refine ⟨_, (addressed fpdat).bind fun _ => ?_⟩
    refine (command _).bind fun _ => .ite (.pure _) ?_
    refine (write _).bind fun _ => .ite (.pure _) ?_
    refine (write _).bind fun _ => .ite (.pure _) ?_
    exact (pollAr_extends device _ 10000).bind fun _ => .ite (.pure _) read
  | waitUs time => exact ⟨.usleep time, fun history => List.prefix_refl _⟩

/-- A call that reads nothing for its caller returns 0 or an error. -/
def Writes (call : Call Int) : Prop := ∀ history, (call history).1 = 0 ∨ (call history).1 < 0

namespace Writes

/-- A success is no error. -/
theorem ok : Writes (return 0) := fun _ => .inl rfl

/-- An error is one. -/
theorem error : Writes (return -eio) := fun _ => .inr (show -eio < 0 by decide)

/-- The result is that of the last call. -/
theorem bind {α : Type} {first : Call α} {next : α → Call Int}
    (last : ∀ value, Writes (next value)) : Writes (first >>= next) :=
  fun history => last (first history).1 (first history).2

/-- A call that may fail is followed by another one. -/
theorem orError {condition : Prop} [Decidable condition] {rest : Call Int} (writes : Writes rest) :
    Writes (if condition then return -eio else rest) := by
  -- Either of the two results leaves the writes as they are.
  split
  · exact error
  · exact writes

end Writes

/-- A command that does not read is successful with 0. -/
theorem processSetupcmd_writes {setupcmd : C2Setupcmd} (plain : isRead setupcmd = false) :
    Writes (processSetupcmd device fpdat setupcmd) := by
  cases setupcmd with
  | readSfr reg => cases plain
  | readDirect reg => cases plain
  | writeSfr reg value => exact .bind fun _ => .bind fun _ => .orError .ok
  | waitUs time => exact .bind fun _ => .ok
  | writeDirect reg value =>
    -- Four bytes are written, and each of them may be the last.
    refine .bind fun _ => .bind fun _ => .orError ?_
    refine .bind fun _ => .orError ?_
    refine .bind fun _ => .orError ?_
    exact .bind fun _ => .orError .ok

/-- The loop goes on behind a command that returns 0, and is left with any other result. -/
theorem setupLoop_cons (setupcmd : C2Setupcmd) (rest : List C2Setupcmd) (history : History) :
    setupLoop device fpdat (setupcmd :: rest) history =
      if (processSetupcmd device fpdat setupcmd history).1 = 0 then
        setupLoop device fpdat rest (processSetupcmd device fpdat setupcmd history).2
      else processSetupcmd device fpdat setupcmd history := by
  -- One round is unfolded.
  show (if (processSetupcmd device fpdat setupcmd history).1 = 0 then setupLoop device fpdat rest
    else return (processSetupcmd device fpdat setupcmd history).1)
      (processSetupcmd device fpdat setupcmd history).2 = _
  split <;> rfl

/-- All commands are run up to the first one that fails. -/
theorem runCommands_cons (setupcmd : C2Setupcmd) (rest : List C2Setupcmd) (history : History) :
    runCommands device fpdat (setupcmd :: rest) history =
      if (processSetupcmd device fpdat setupcmd history).1 < 0 then
        (false, (processSetupcmd device fpdat setupcmd history).2)
      else runCommands device fpdat rest (processSetupcmd device fpdat setupcmd history).2 := by
  -- One round is unfolded.
  show (if (processSetupcmd device fpdat setupcmd history).1 < 0 then return false
    else runCommands device fpdat rest) (processSetupcmd device fpdat setupcmd history).2 = _
  split <;> rfl

/-- Commands that are left are seen in the history, whether they fail or not. -/
theorem runCommands_changes {rest : List C2Setupcmd} (left : rest ≠ []) (history : History) :
    (runCommands device fpdat rest history).2 ≠ history := by
  -- The first command begins with an operation, and nothing takes it back.
  have only : ∀ (commands : List C2Setupcmd), Extends (runCommands device fpdat commands) := by
    intro commands
    induction commands with
    | nil => exact .pure true
    | cons setupcmd rest ih =>
      obtain ⟨op, begins⟩ := processSetupcmd_begins device fpdat setupcmd
      have added : Extends (processSetupcmd device fpdat setupcmd) :=
        fun history => (List.prefix_append history [op]).trans (begins history)
      exact added.bind fun _ => .ite (.pure _) ih
  cases rest with
  | nil => exact absurd rfl left
  | cons setupcmd rest =>
    -- Already the first operation makes the history longer.
    obtain ⟨op, begins⟩ := processSetupcmd_begins device fpdat setupcmd
    have run : Begins op (runCommands device fpdat (setupcmd :: rest)) :=
      begins.bind fun _ => .ite (.pure _) (only rest)
    intro same
    have longer := (run history).length_le
    rw [same, List.length_append, List.length_singleton] at longer
    omega

/-- The loop runs all commands, and is left with 1 when they succeed, just when the reads pass. -/
theorem setupLoop_iff (setup : List C2Setupcmd) (history : History) :
    ((setupLoop device fpdat setup history).2 = (runCommands device fpdat setup history).2 ∧
      ((setupLoop device fpdat setup history).1 = 1 ↔
        (runCommands device fpdat setup history).1 = true)) ↔
      ReadsPass device fpdat setup history := by
  -- The induction follows the script, over the histories that its commands lead to.
  induction setup generalizing history with
  | nil => exact iff_of_true ⟨rfl, iff_of_true rfl rfl⟩ trivial
  | cons setupcmd rest ih =>
    have writes := fun (plain : isRead setupcmd = false) =>
      processSetupcmd_writes device fpdat plain history
    have later := ih (processSetupcmd device fpdat setupcmd history).2
    have changes := fun (left : rest ≠ []) =>
      runCommands_changes device fpdat left (processSetupcmd device fpdat setupcmd history).2
    rw [setupLoop_cons, runCommands_cons, ReadsPass]
    generalize processSetupcmd device fpdat setupcmd history = done at *
    obtain ⟨res, next⟩ := done
    dsimp only at *
    rcases Int.lt_trichotomy res 0 with failed | zero | read
    · -- A failure is the same for both, and is no value that was read.
      rw [if_neg (by omega), if_pos failed]
      refine iff_of_true ⟨rfl, iff_of_false (by omega) Bool.false_ne_true⟩ ⟨?_, by omega⟩
      omega
    · rw [if_pos zero, if_neg (by omega), later]
      exact ⟨fun passes => ⟨fun _ _ => .inl zero, fun _ => passes⟩, fun passes => passes.2 zero⟩
    · -- The loop is left here, while the commands behind this one are still to be run.
      have reads : isRead setupcmd = true := by
        by_contra plain
        rcases writes (Bool.eq_false_of_not_eq_true plain) with zero | failed <;> omega
      rw [if_neg (by omega), if_neg (by omega)]
      by_cases last : rest = []
      · subst last
        constructor
        · intro same
          exact ⟨fun _ _ => .inr ⟨same.2.mpr rfl, rfl⟩, by omega⟩
        · intro passes
          have one := (passes.1 reads (by omega)).resolve_left (by omega)
          exact ⟨rfl, iff_of_true one.1 rfl⟩
      · refine iff_of_false (fun same => changes last same.1.symm) fun passes => ?_
        exact (passes.1 reads (by omega)).elim (by omega) fun one => last one.2

/--
The setup runs its whole script, and is successful when that is, just when the reads pass.

The device is any, also one whose answers depend on all that was done before.
-/
theorem runsWhole_iff_readsPass (setup : List C2Setupcmd) (history : History) :
    RunsWhole device fpdat setup history ↔ ReadsPass device fpdat setup history := by
  rw [← setupLoop_iff]
  -- The setup does what its loop does, and turns the result of the loop into its own.
  have result : (c2familySetup device fpdat (some setup) history) =
      (if (setupLoop device fpdat setup history).1 = 1 then 0 else -eio,
        (setupLoop device fpdat setup history).2) := by
    show (if (setupLoop device fpdat setup history).1 = 1 then return 0 else return -eio : Call Int)
      (setupLoop device fpdat setup history).2 = _
    split <;> rfl
  -- The setup returns 0 just when its loop is left with 1.
  have success : (if (setupLoop device fpdat setup history).1 = 1 then (0 : Int) else -eio) = 0 ↔
      (setupLoop device fpdat setup history).1 = 1 := by
    split
    · exact iff_of_true rfl (by assumption)
    · exact iff_of_false (by decide) (by assumption)
  constructor
  · intro whole
    have operations := whole.operations
    have ret := whole.result
    rw [result] at operations ret
    exact ⟨operations, success.symm.trans ret⟩
  · intro both
    constructor
    · rw [result]
      exact both.1
    · rw [result]
      exact success.trans both.2

/-- A register that reads as 5, on a device that is ready whenever it is asked. -/
def readsFive : Device := fun _ _ => some 5

/-- A multiplier is started, read and selected, as some families do. -/
def multiplierScript : List C2Setupcmd := [.readSfr 0xbe, .writeSfr 0xa9 0x02]

/-- The value of the register ends the setup with an error, and nothing is selected. -/
theorem readsFive_not_whole :
    ¬ ∀ (device : Device) (fpdat : UInt8) (setup : List C2Setupcmd) (history : History),
      RunsWhole device fpdat setup history := by
  -- The script reads a register, whose value is taken for an error.
  intro claim
  have whole := claim readsFive 0xb4 multiplierScript []
  exact absurd whole.operations (by decide)

end OpenwrtMisc.C2Tool.Setup
