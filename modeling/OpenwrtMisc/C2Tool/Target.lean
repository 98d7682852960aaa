import OpenwrtMisc.Lib.Patch

/-! The flash target behind the C2 programming interface, and the transfers that reach it. -/

namespace OpenwrtMisc.C2Tool

/-- The commands of the programming interface that flash programming uses. -/
def fpdatBlockRead : UInt8 := 0x06
def fpdatBlockWrite : UInt8 := 0x07
def fpdatPageErase : UInt8 := 0x08

/-- The number of bytes of the flash, which 16-bit addresses reach. -/
def flashSize : Nat := 65536

/-- What the target expects or offers next in FPDAT. -/
inductive Phase where
  | idle
  /-- A block command with the argument bytes received so far. -/
  | block (write : Bool) (args : List UInt8)
  /-- A block read with this many bytes left, the next one from this address. -/
  | reading (address left : Nat)
  /-- A block write with this many bytes left, the next one to this address. -/
  | writing (address left : Nat)
  /-- A page erase, from its page number on. -/
  | erase (page : Option UInt8)
  deriving DecidableEq, Repr

/-- A target and the fate of the transfers to come. -/
structure Target where
  flash : Nat → UInt8
  pageSize : Nat
  phase : Phase
  /-- Whether the transfer that comes after so many others fails. -/
  fails : Nat → Bool

/-- A target that waits for a command and whose transfers all succeed. -/
def Target.reliable (pageSize : Nat) (flash : Nat → UInt8) : Target where
  flash := flash
  pageSize := pageSize
  phase := .idle
  fails _ := false

/-- The block length that a length byte stands for. -/
def blockLength (length : UInt8) : Nat := if length = 0 then 256 else length.toNat

/-- The address behind another one, which stays within 16 bits. -/
def nextAddress (address : Nat) : Nat := (address + 1) % flashSize

/-- The phase with this many bytes left, which is the idle one after the last. -/
def Phase.more (phase : Nat → Phase) : Nat → Phase
  | 0 => .idle
  | left + 1 => phase (left + 1)

/-- The target takes a byte that was written to FPDAT. -/
def Target.receive (byte : UInt8) (target : Target) : Target :=
  match target.phase with
  | .idle =>
    if byte = fpdatBlockRead then { target with phase := .block false [] }
    else if byte = fpdatBlockWrite then { target with phase := .block true [] }
    else if byte = fpdatPageErase then { target with phase := .erase none }
    else target
  | .block write [high, low] =>
    let address := high.toNat * 256 + low.toNat
    { target with
      phase :=
        if write then .writing address (blockLength byte) else .reading address (blockLength byte) }
  | .block write args => { target with phase := .block write (args ++ [byte]) }
  | .writing address left =>
    { target with
      flash := patch address [byte] target.flash
      phase := .more (.writing (nextAddress address)) (left - 1) }
  | .erase none => { target with phase := .erase (some byte) }
  | .erase (some page) =>
    -- The byte after the page number starts the erase.
    { target with
      flash := patch (page.toNat * target.pageSize) (List.replicate target.pageSize 0xff)
        target.flash
      phase := .idle }
  | .reading _ _ => target

/-- The target offers a byte to a read of FPDAT. -/
def Target.send (target : Target) : UInt8 × Target :=
  match target.phase with
  | .reading address left =>
    (target.flash address,
      { target with phase := .more (.reading (nextAddress address)) (left - 1) })
  | _ => (0, target)

/-- A call on the target: its result, `none` for `-EIO`, and the target after it. -/
def C2 (α : Type) : Type := Target → Option α × Target

instance : Monad C2 where
  pure value target := (some value, target)
  bind call next target :=
    match call target with
    | (none, target) => (none, target)
    | (some value, target) => next value target

/-- One transfer, which only succeeds or fails. -/
def transfer : C2 Unit := fun target =>
  (if target.fails 0 then none else some (),
    { target with fails := fun n => target.fails (n + 1) })

/-- `c2_write_dr`. -/
def c2WriteDr (data : UInt8) : C2 Unit := do
  transfer
  fun target => (some (), target.receive data)

/-- `c2_read_dr`. -/
def c2ReadDr : C2 UInt8 := do
  transfer
  fun target => (some target.send.1, target.send.2)

/-- `c2_pi_write_command`, whose second transfer is the poll until the byte is taken. -/
def c2PiWriteCommand (command : UInt8) : C2 Unit := do
  c2WriteDr command
  transfer

/-- `c2_pi_get_data`, which waits for a byte and reads it. -/
def c2PiGetData : C2 UInt8 := do
  transfer
  c2ReadDr

/-- `c2_pi_check_command`: the wait for a response and its read, which fails for any but an OK. -/
def c2PiCheckCommand : C2 Unit := do
  transfer
  transfer

/-- `c2_pi_command` without a result. -/
def c2PiCommand (command : UInt8) (verify : Bool) : C2 Unit := do
  c2PiWriteCommand command
  if verify then c2PiCheckCommand else pure ()

/-- A call that succeeds hands its result to the next one. -/
theorem C2.bind_ok {α β : Type} {call : C2 α} {next : α → C2 β} {before after : Target} {value : α}
    (ok : call before = (some value, after)) : (call >>= next) before = next value after := by
  -- The sequence looks at the outcome of the first call.
  show (match call before with
    | (none, target) => (none, target)
    | (some value, target) => next value target) = next value after
  rw [ok]

/-- A call that fails leaves the next one out. -/
theorem C2.bind_fail {α β : Type} {call : C2 α} {next : α → C2 β} {before after : Target}
    (failed : call before = (none, after)) : (call >>= next) before = (none, after) := by
  -- The sequence looks at the outcome of the first call.
  show (match call before with
    | (none, target) => (none, target)
    | (some value, target) => next value target) = (none, after)
  rw [failed]

/-- A call in two parts succeeds when both parts do, one after the other. -/
theorem C2.bind_eq_some {α β : Type} {call : C2 α} {next : α → C2 β} {before after : Target}
    {result : β} (ran : (call >>= next) before = (some result, after)) :
    ∃ value between, call before = (some value, between) ∧
      next value between = (some result, after) := by
  -- The first call has succeeded, since a failed one would be the end.
  cases first : call before with
  | mk value between =>
    cases value with
    | none =>
      rw [C2.bind_fail first] at ran
      exact nomatch ran
    | some value =>
      rw [C2.bind_ok first] at ran
      exact ⟨value, between, rfl, ran⟩

/-- The transfers of a target all succeed. -/
def Target.Reliable (target : Target) : Prop := target.fails = fun _ => false

/-- A byte does not change the fate of the transfers. -/
theorem Target.Reliable.receive {target : Target} (reliable : target.Reliable) (byte : UInt8) :
    (target.receive byte).Reliable := by
  -- No phase of the target changes the fate of a transfer.
  have same : (target.receive byte).fails = target.fails := by
    unfold Target.receive
    repeat' split
    all_goals rfl
  exact same.trans reliable

/-- A transfer of a reliable target succeeds and changes nothing. -/
theorem transfer_ok {target : Target} (reliable : target.Reliable) :
    transfer target = (some (), target) := by
  -- The fate of the next transfer is the one of all.
  unfold Target.Reliable at reliable
  obtain ⟨flash, pageSize, phase, fails⟩ := target
  subst reliable
  rfl

/-- A command byte reaches a reliable target, whether its response is checked or not. -/
theorem c2PiCommand_ok {target : Target} (reliable : target.Reliable) (command : UInt8)
    (verify : Bool) : c2PiCommand command verify target = (some (), target.receive command) := by
  -- The write is a transfer and a poll, and the target takes the byte between them.
  have received := reliable.receive command
  have written : c2PiWriteCommand command target = (some (), target.receive command) := by
    have sent : c2WriteDr command target = (some (), target.receive command) :=
      C2.bind_ok (transfer_ok reliable)
    exact (C2.bind_ok sent).trans (transfer_ok received)
  refine (C2.bind_ok written).trans ?_
  cases verify
  · rfl
  · exact (C2.bind_ok (transfer_ok received)).trans (transfer_ok received)

/-- A byte is read from a reliable target. -/
theorem c2PiGetData_ok {target : Target} (reliable : target.Reliable) :
    c2PiGetData target = (some target.send.1, target.send.2) := by
  -- Neither the wait nor the read fails.
  refine (C2.bind_ok (transfer_ok reliable)).trans ?_
  exact C2.bind_ok (transfer_ok reliable)

/-- Two targets that only the fate of their transfers tells apart. -/
structure Target.Like (first second : Target) : Prop where
  flash : first.flash = second.flash
  pageSize : first.pageSize = second.pageSize
  phase : first.phase = second.phase

namespace Target.Like

variable {first second third : Target}

/-- A target is like itself. -/
theorem refl (target : Target) : target.Like target := ⟨rfl, rfl, rfl⟩

/-- Two targets that are like a third one are like each other. -/
theorem trans (left : first.Like second) (right : second.Like third) : first.Like third :=
  ⟨left.flash.trans right.flash, left.pageSize.trans right.pageSize,
    left.phase.trans right.phase⟩

/-- What a target takes does not depend on the fate of its transfers. -/
theorem receive (like : first.Like second) (byte : UInt8) :
    (first.receive byte).Like (second.receive byte) := by
  -- The targets differ in the fate of their transfers, at which no phase looks.
  obtain ⟨flash, pageSize, phase, fails⟩ := first
  obtain ⟨_, _, _, fails'⟩ := second
  obtain ⟨rfl, rfl, rfl⟩ := like
  unfold Target.receive
  dsimp only
  repeat' split
  all_goals exact ⟨rfl, rfl, rfl⟩

/-- What a target offers does not depend on the fate of its transfers. -/
theorem send (like : first.Like second) :
    first.send.1 = second.send.1 ∧ first.send.2.Like second.send.2 := by
  -- The targets differ in the fate of their transfers, at which no phase looks.
  obtain ⟨flash, pageSize, phase, fails⟩ := first
  obtain ⟨_, _, _, fails'⟩ := second
  obtain ⟨rfl, rfl, rfl⟩ := like
  unfold Target.send
  dsimp only
  split
  all_goals exact ⟨rfl, rfl, rfl, rfl⟩

end Target.Like

/-- A transfer that succeeds changes nothing else. -/
theorem transfer_some {before after : Target} {value : Unit}
    (ran : transfer before = (some value, after)) : after.Like before := by
  -- What is behind the transfer is the target with one fate less.
  have same : (transfer before).2 = after := congrArg Prod.snd ran
  rw [← same]
  exact ⟨rfl, rfl, rfl⟩

/-- A command byte that is reported as taken was taken. -/
theorem c2PiCommand_some {before after : Target} {value : Unit} {command : UInt8} {verify : Bool}
    (ran : c2PiCommand command verify before = (some value, after)) :
    after.Like (before.receive command) := by
  obtain ⟨_, written, write, check⟩ := C2.bind_eq_some ran
  -- The target takes the byte between the first transfer and the poll.
  obtain ⟨_, polled, sent, poll⟩ := C2.bind_eq_some write
  obtain ⟨_, moved, transferred, taken⟩ := C2.bind_eq_some sent
  have received : moved.receive command = polled := congrArg Prod.snd taken
  have like : written.Like (before.receive command) := by
    rw [← received] at poll
    exact (transfer_some poll).trans ((transfer_some transferred).receive command)
  -- The response is not looked at, or only waited for and read.
  cases verify with
  | false =>
    have same : written = after := congrArg Prod.snd check
    rw [← same]
    exact like
  | true =>
    obtain ⟨_, waited, wait, read⟩ := C2.bind_eq_some check
    exact ((transfer_some read).trans (transfer_some wait)).trans like

/-- A byte that is read is what the target offers. -/
theorem c2PiGetData_some {before after : Target} {value : UInt8}
    (ran : c2PiGetData before = (some value, after)) :
    value = before.send.1 ∧ after.Like before.send.2 := by
  -- Two transfers have succeeded in front of the byte.
  obtain ⟨_, waited, wait, read⟩ := C2.bind_eq_some ran
  obtain ⟨_, moved, transferred, offered⟩ := C2.bind_eq_some read
  have offer : (some moved.send.1, moved.send.2) = (some value, after) := offered
  simp only [Prod.mk.injEq, Option.some.injEq] at offer
  obtain ⟨rfl, rfl⟩ := offer
  exact ((transfer_some transferred).trans (transfer_some wait)).send

end OpenwrtMisc.C2Tool
