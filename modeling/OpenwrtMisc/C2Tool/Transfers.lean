import OpenwrtMisc.C2Tool.Flash

/-! How many transfers a call takes, and that it fails just when one of these does. -/

namespace OpenwrtMisc.C2Tool

/-- What holds below a sum holds below its first part and, shifted by it, below the second. -/
theorem forall_lt_add {property : Nat → Prop} {first second : Nat} :
    (∀ n < first + second, property n) ↔
      (∀ n < first, property n) ∧ ∀ n < second, property (first + n) := by
  constructor
  · intro all
    exact ⟨fun n small => all n (by omega), fun n small => all (first + n) (by omega)⟩
  · intro parts n small
    obtain ⟨early, late⟩ := parts
    -- A number is one of the first part, or of the second by what it exceeds the first.
    by_cases before : n < first
    · exact early n before
    · have place : first + (n - first) = n := by omega
      exact place ▸ late (n - first) (by omega)

/--
A call that takes this many transfers, whatever the target.

It succeeds just when none of them fails, and then leaves the fate of the later ones as it was.
-/
structure C2.Takes {α : Type} (call : C2 α) (count : Nat) (result : α → Prop) : Prop where
  succeeds : ∀ target : Target, (∀ n < count, target.fails n = false) →
    ∃ value after, call target = (some value, after) ∧ result value ∧
      after.fails = fun n => target.fails (count + n)
  needs : ∀ {target after : Target} {value : α}, call target = (some value, after) →
    ∀ n < count, target.fails n = false

namespace C2.Takes

variable {α β : Type} {call : C2 α} {next : α → C2 β} {count more : Nat} {result : α → Prop}
  {final : β → Prop}

/-- A call that does nothing takes no transfer. -/
theorem pure (value : α) : C2.Takes (Pure.pure value) 0 (· = value) where
  succeeds target _ := by
    -- No transfer is asked for, so none can be needed.
    refine ⟨value, target, rfl, rfl, ?_⟩
    simp only [Nat.zero_add]
  needs _ n small := by omega

/-- What only changes the target takes no transfer, when it leaves the fate of these alone. -/
theorem change {move : Target → Option α × Target} {value : Target → α}
    {moved : Target → Target} (same : ∀ target, move target = (some (value target), moved target))
    (fails : ∀ target, (moved target).fails = target.fails) :
    C2.Takes (move : C2 α) 0 fun _ => True where
  succeeds target _ := by
    -- No transfer is asked for, so none can be needed.
    refine ⟨value target, moved target, same target, trivial, ?_⟩
    simp only [Nat.zero_add]
    exact fails target
  needs _ n small := by omega

/-- What is known of the result may be forgotten. -/
theorem weaken (takes : C2.Takes call count result) {less : α → Prop}
    (implied : ∀ value, result value → less value) : C2.Takes call count less where
  succeeds target good := by
    -- The call runs as before, and less is said of its result.
    obtain ⟨value, after, ran, known, fails⟩ := takes.succeeds target good
    exact ⟨value, after, ran, implied value known, fails⟩
  needs := takes.needs

/-- What a call that has succeeded gave, and how it left the later transfers. -/
theorem of_ran (takes : C2.Takes call count result) {target after : Target} {value : α}
    (ran : call target = (some value, after)) :
    result value ∧ after.fails = fun n => target.fails (count + n) := by
  -- There is one way in which the call can have succeeded.
  obtain ⟨same, final, again, known, fails⟩ := takes.succeeds target (takes.needs ran)
  rw [ran] at again
  simp only [Prod.mk.injEq, Option.some.injEq] at again
  obtain ⟨rfl, rfl⟩ := again
  exact ⟨known, fails⟩

/-- Two calls take the transfers of the first and then those of the second. -/
theorem bind (first : C2.Takes call count result)
    (second : ∀ value, result value → C2.Takes (next value) more final) :
    C2.Takes (call >>= next) (count + more) final where
  succeeds target good := by
    obtain ⟨early, late⟩ := forall_lt_add.mp good
    obtain ⟨value, between, ran, known, fails⟩ := first.succeeds target early
    -- The second call starts with the transfers behind those of the first.
    have later : ∀ n < more, between.fails n = false := by
      rw [fails]
      exact late
    obtain ⟨last, after, ended, reached, rest⟩ := (second value known).succeeds between later
    refine ⟨last, after, (C2.bind_ok ran).trans ended, reached, ?_⟩
    rw [rest, fails]
    funext n
    rw [Nat.add_assoc]
  needs {target after last} ran := by
    obtain ⟨value, between, begun, ended⟩ := C2.bind_eq_some ran
    obtain ⟨known, fails⟩ := first.of_ran begun
    have late := (second value known).needs ended
    rw [fails] at late
    exact forall_lt_add.mpr ⟨first.needs begun, late⟩

/-- The number may be written as another sum. -/
theorem of_eq (takes : C2.Takes call count result) {total : Nat} (same : count = total) :
    C2.Takes call total result := same ▸ takes

end C2.Takes

/-- A byte leaves the fate of the transfers alone. -/
@[simp] theorem Target.receive_fails (target : Target) (byte : UInt8) :
    (target.receive byte).fails = target.fails := by
  -- Every phase keeps the fate of the transfers.
  unfold Target.receive
  repeat' split
  all_goals rfl

/-- So does offering one. -/
@[simp] theorem Target.send_fails (target : Target) : target.send.2.fails = target.fails := by
  -- A read in progress goes on, any other phase stays.
  unfold Target.send
  split <;> rfl

/-- A transfer is one transfer. -/
theorem transfer_takes : C2.Takes transfer 1 fun _ => True where
  succeeds target good := by
    have first := good 0 Nat.one_pos
    refine ⟨(), { target with fails := fun n => target.fails (n + 1) }, ?_, trivial, ?_⟩
    · simp [transfer, first]
    · funext n
      rw [Nat.add_comm]
  needs {target after value} ran n small := by
    -- The only transfer of the call is the first one of the target.
    have only : n = 0 := by omega
    subst only
    by_contra failed
    have fails : target.fails 0 = true := by simpa using failed
    simp [transfer, fails] at ran

/-- A write of the data register is one transfer. -/
theorem c2WriteDr_takes (data : UInt8) : C2.Takes (c2WriteDr data) 1 fun _ => True := by
  -- One transfer, and a byte behind it.
  refine (transfer_takes.bind fun _ _ => ?_).of_eq (Nat.add_zero 1)
  exact C2.Takes.change (fun _ => rfl) fun target => target.receive_fails data

/-- A read of the data register is one transfer. -/
theorem c2ReadDr_takes : C2.Takes c2ReadDr 1 fun _ => True := by
  -- One transfer, and a byte behind it.
  refine (transfer_takes.bind fun _ _ => ?_).of_eq (Nat.add_zero 1)
  exact C2.Takes.change (fun _ => rfl) fun target => target.send_fails

/-- A byte of a command is written in two transfers. -/
theorem c2PiWriteCommand_takes (command : UInt8) :
    C2.Takes (c2PiWriteCommand command) 2 fun _ => True := by
  exact (c2WriteDr_takes command).bind fun _ _ => transfer_takes

/-- A byte is taken from the target in two transfers. -/
theorem c2PiGetData_takes : C2.Takes c2PiGetData 2 fun _ => True := by
  exact transfer_takes.bind fun _ _ => c2ReadDr_takes

/-- The number of transfers of `c2_pi_command`. -/
def commandTransfers (verify : Bool) : Nat := if verify then 4 else 2

/-- The transfers of `c2_pi_command`, with its response checked or not. -/
theorem c2PiCommand_takes (command : UInt8) (verify : Bool) :
    C2.Takes (c2PiCommand command verify) (commandTransfers verify) fun _ => True := by
  have written := c2PiWriteCommand_takes command
  cases verify with
  | false =>
    exact written.bind fun _ _ => (C2.Takes.pure ()).weaken fun _ _ => trivial
  | true =>
    -- The check waits for the response and reads it.
    have checked : C2.Takes c2PiCheckCommand 2 fun _ => True :=
      transfer_takes.bind fun _ _ => transfer_takes
    exact written.bind fun _ _ => checked

/-- What opens a block takes twelve transfers. -/
theorem blockCommand_takes (command : UInt8) (addr length : Nat) :
    C2.Takes (blockCommand command addr length) 12 fun _ => True := by
  -- The command and the length are checked, the bytes of the address are not.
  have length := c2PiCommand_takes (lengthByte length) true
  have low := (c2PiCommand_takes (UInt8.ofNat (addr &&& 0xff)) false).bind fun _ _ => length
  have high := (c2PiCommand_takes (UInt8.ofNat (addr >>> 8)) false).bind fun _ _ => low
  exact (c2PiCommand_takes command true).bind fun _ _ => high

/-- Two transfers for each byte that is read, and as many bytes as were asked for. -/
theorem readBlock_takes (left : Nat) :
    C2.Takes (readBlock left) (2 * left) fun block => block.length = left := by
  induction left with
  | zero => exact (C2.Takes.pure []).weaken fun block none => by rw [none, List.length_nil]
  | succ left ih =>
    -- The two transfers of this byte come before those of the bytes that are left.
    have count : 2 * (left + 1) = 2 + (2 * left + 0) := by omega
    rw [count]
    refine c2PiGetData_takes.bind fun data _ => ih.bind fun rest length => ?_
    exact (C2.Takes.pure (data :: rest)).weaken fun block same => by
      rw [same, List.length_cons, length]

/-- Two transfers for each byte that is written. -/
theorem writeBlock_takes (block : List UInt8) :
    C2.Takes (writeBlock block) (2 * block.length) fun _ => True := by
  induction block with
  | nil => exact (C2.Takes.pure ()).weaken fun _ _ => trivial
  | cons data rest ih =>
    -- As for a read, with nothing to give back.
    have count : 2 * (data :: rest).length = 2 + 2 * rest.length := by
      rw [List.length_cons]
      omega
    rw [count]
    exact (c2PiCommand_takes data false).bind fun _ _ => ih

/-- The number of transfers of `c2_flash_read` and `c2_flash_write`: blocks and their bytes. -/
def blockTransfers (length : Nat) : Nat := 12 * ((length + 255) / 256) + 2 * length

/-- A block at a time makes up all of them. -/
theorem blockTransfers_step {length : Nat} (positive : length ≠ 0) :
    blockTransfers length =
      12 + (2 * blocksize length + blockTransfers (length - blocksize length)) := by
  -- A block more than 256 bytes long counts twelve more for the next one.
  unfold blockTransfers blocksize
  split <;> omega

/-- The transfers of `c2_flash_read`, which reads as many bytes as it is asked for. -/
theorem c2FlashRead_takes (length : Nat) :
    ∀ addr, C2.Takes (c2FlashRead addr length) (blockTransfers length)
      fun bytes => bytes.length = length := by
  -- The induction is on the length, which gets shorter by a block.
  induction length using Nat.strongRecOn with
  | _ length ih =>
    intro addr
    rw [c2FlashRead]
    by_cases empty : length = 0
    · subst empty
      rw [dif_pos rfl]
      exact (C2.Takes.pure []).weaken fun bytes none => by rw [none, List.length_nil]
    · obtain ⟨positive, fits⟩ := blocksize_bounds empty
      have rest := ih (length - blocksize length) (by omega)
      rw [dif_neg empty, blockTransfers_step empty]
      -- The command, the bytes of the block, and the blocks behind it.
      refine (blockCommand_takes _ _ _).bind fun _ _ => ?_
      refine (readBlock_takes _).bind fun block filled => ?_
      refine ((rest _).bind fun later others => ?_).of_eq (Nat.add_zero _)
      exact (C2.Takes.pure (block ++ later)).weaken fun bytes same => by
        rw [same, List.length_append, filled, others]
        omega

/-- The transfers of `c2_flash_write`. -/
theorem c2FlashWrite_takes (length : Nat) :
    ∀ addr (src : List UInt8), src.length = length →
      C2.Takes (c2FlashWrite addr src) (blockTransfers length) fun _ => True := by
  -- The induction is on the length, which gets shorter by a block.
  induction length using Nat.strongRecOn with
  | _ length ih =>
    intro addr src size
    rw [c2FlashWrite]
    by_cases empty : src.length = 0
    · have none : length = 0 := by omega
      subst none
      rw [dif_pos empty]
      exact (C2.Takes.pure ()).weaken fun _ _ => trivial
    · subst size
      obtain ⟨positive, fits⟩ := blocksize_bounds empty
      have taken : (src.take (blocksize src.length)).length = blocksize src.length := by
        rw [List.length_take]
        omega
      -- The command, the bytes of the block, and the blocks behind it.
      have block := writeBlock_takes (src.take (blocksize src.length))
      rw [taken] at block
      rw [dif_neg empty, blockTransfers_step empty]
      refine (blockCommand_takes _ _ _).bind fun _ _ => block.bind fun _ _ => ?_
      exact ih _ (by omega) _ _ (by rw [List.length_drop])

/-- The transfers of `c2_flash_erase`. -/
theorem c2FlashErase_takes (page : Nat) : C2.Takes (c2FlashErase page) 12 fun _ => True := by
  -- Three commands, each of four transfers.
  have last := c2PiCommand_takes 0 true
  have page := (c2PiCommand_takes (UInt8.ofNat page) true).bind fun _ _ => last
  exact (c2PiCommand_takes fpdatPageErase true).bind fun _ _ => page

end OpenwrtMisc.C2Tool
