import OpenwrtMisc.Lib.Trace
import Mathlib.Algebra.Order.Ring.Nat
import Mathlib.Tactic.Ring

/-! Transfers of the I2C master, told by the registers that it writes. -/

namespace OpenwrtMisc.I2cRalink

/-- The registers. -/
def regConfigReg : Nat := 0x00
def regClkdivReg : Nat := 0x04
def regDevaddrReg : Nat := 0x08
def regDataoutReg : Nat := 0x10
def regStartxfrReg : Nat := 0x1c
def regBytecntReg : Nat := 0x20

/-- The bits of the status register. -/
def i2cAckerr : UInt32 := (1 : UInt32) <<< 3
def i2cDatardy : UInt32 := (1 : UInt32) <<< 2
def i2cSdoempty : UInt32 := (1 : UInt32) <<< 1
def i2cBusy : UInt32 := (1 : UInt32) <<< 0

/-- The configuration, the commands, and the sizes of loops. -/
def i2cDevadlen7 : UInt32 := (6 : UInt32) <<< 2
def i2cAddrdis : UInt32 := (1 : UInt32) <<< 1
def clkdivValue : UInt32 := 131
def readCmd : UInt32 := 0x01
def writeCmd : UInt32 := 0x00
def readBlock : Nat := 64
def i2cRetry : Nat := 0x400

/-- `EIO`, `EINVAL` and `ETIMEDOUT`. -/
def eio : Int := 5
def einval : Int := 22
def etimedout : Int := 110

/-- The flags of a message: a read, and an address of ten bits. -/
def i2cMRd : UInt16 := 0x0001
def i2cMTen : UInt16 := 0x0010

/-- `struct i2c_msg`. -/
structure I2cMsg where
  addr : UInt16
  flags : UInt16
  len : UInt16
  buf : Nat → UInt8

/-- What the driver does that can be seen: writes of registers, bytes that it fetches and stores. -/
inductive Event where
  | wrote (val : UInt32) (reg : Nat)
  | fetched (val : UInt32)
  | stored (pos : Nat) (byte : UInt8)
  deriving DecidableEq, Repr

/-- Functions of the driver: they count their reads, and fail with an error number. -/
abbrev Xfer (α : Type) : Type := Traced Int Nat Event α

section Driver

variable (answers : Nat → UInt32)

/-- `rt_i2c_w32`. -/
def rtI2cW32 (val : UInt32) (reg : Nat) : Xfer Unit := emit (.wrote val reg)

/-- `rt_i2c_r32` of the status register, which the device answers. -/
def readStatus : Xfer UInt32 := quiet fun reads => (answers reads, reads + 1)

/-- `rt_i2c_r32` of the register with the data. -/
def readDatain : Xfer UInt32 := do
  let val ← quiet fun reads => (answers reads, reads + 1)
  emit (.fetched val)
  return val

/-- `rt_i2c_get_ack`. -/
def rtI2cGetAck : Xfer Unit := do
  if (← readStatus answers) &&& i2cAckerr ≠ 0 then throw (-eio)

/-- The loop of the three functions that wait: whether the status was as wanted in time. -/
def poll (wanted : UInt32 → Bool) : Nat → Xfer Bool
  | 0 => return false
  | retries + 1 => do
    if wanted (← readStatus answers) then return true else poll wanted retries

/-- `rt_i2c_wait_rx_done`. -/
def rtI2cWaitRxDone : Xfer Unit := do
  if !(← poll answers (fun status => status &&& i2cDatardy != 0) i2cRetry) then throw (-etimedout)

/-- `rt_i2c_wait_idle`: whether it was in vain. -/
def rtI2cWaitIdle : Xfer Bool := do
  return !(← poll answers (fun status => status &&& i2cBusy == 0) i2cRetry)

/-- `rt_i2c_wait_tx_done`. -/
def rtI2cWaitTxDone : Xfer Unit := do
  if !(← poll answers (fun status => status &&& i2cSdoempty != 0) i2cRetry) then
    throw (-etimedout)

/-- The loop that reads so many bytes, and stores them from a position on. -/
def readBytes : Nat → Nat → Xfer Nat
  | 0, pos => return pos
  | count + 1, pos => do
    rtI2cWaitRxDone answers
    rtI2cGetAck answers
    let val ← readDatain answers
    emit (.stored pos val.toUInt8)
    readBytes count (pos + 1)

/-- One transfer of a read. -/
def readPart (bytecnt : UInt32) (count pos : Nat) : Xfer Nat := do
  if ← rtI2cWaitIdle answers then throw (-etimedout)
  rtI2cW32 bytecnt regBytecntReg
  rtI2cW32 readCmd regStartxfrReg
  readBytes answers count pos

/-- The loop over the blocks of a read. -/
def readBlocks : Nat → Nat → Xfer Nat
  | 0, pos => return pos
  | nblock + 1, pos => do
    let pos ← readPart answers (UInt32.ofInt (readBlock - 1)) readBlock pos
    readBlocks nblock pos

/-- The loop that writes the bytes of a message. -/
def writeBytes (msg : I2cMsg) : Nat → Nat → Xfer Unit
  | 0, _ => return ()
  | count + 1, i => do
    rtI2cW32 (msg.buf i).toUInt32 regDataoutReg
    rtI2cW32 writeCmd regStartxfrReg
    rtI2cWaitTxDone answers
    rtI2cGetAck answers
    writeBytes msg count (i + 1)

/-- `rt_i2c_handle_msg`. -/
def rtI2cHandleMsg (msg : I2cMsg) : Xfer Unit := do
  let nblock := msg.len.toNat / readBlock
  let rem := msg.len.toNat % readBlock
  if msg.flags &&& i2cMTen ≠ 0 then throw (-einval)
  if msg.flags &&& i2cMRd ≠ 0 then
    let pos ← readBlocks answers nblock 0
    let _ ← readPart answers (UInt32.ofInt (rem - 1)) rem pos
  else
    if ← rtI2cWaitIdle answers then throw (-etimedout)
    rtI2cW32 (UInt32.ofInt (msg.len.toNat - 1)) regBytecntReg
    writeBytes answers msg msg.len.toNat 0

/-- The loop over the messages, with what was done for each of them. -/
def handleMsgs (m : Nat → I2cMsg) : Nat → Nat → Xfer (List (List Event))
  | 0, _ => return []
  | count + 1, i => do
    let (_, events) ← collect (rtI2cHandleMsg answers (m i))
    return events :: (← handleMsgs m count (i + 1))

/-- A call that succeeds: its result, and what was done before the messages and for each. -/
structure XferRun where
  ret : Int
  setup : List Event
  messages : List (List Event)

/-- `rt_i2c_master_xfer`. -/
def rtI2cMasterXfer (m : Nat → I2cMsg) (n : Nat) : Xfer XferRun := do
  let (_, setup) ← collect do
    if ← rtI2cWaitIdle answers then throw (-etimedout)
    -- The device is reset here, before any register is set.
    rtI2cW32 (m 0).addr.toUInt32 regDevaddrReg
    rtI2cW32 (i2cDevadlen7 ||| i2cAddrdis) regConfigReg
    rtI2cW32 clkdivValue regClkdivReg
  let messages ← handleMsgs answers m n 0
  return ⟨n, setup, messages⟩

end Driver

/-- The registers of the controller that a transfer depends on. -/
structure Registers where
  devaddr : UInt32
  bytecnt : UInt32

/-- The registers after an event. -/
def Registers.after (registers : Registers) : Event → Registers
  | .wrote val reg =>
    if reg = regDevaddrReg then { registers with devaddr := val }
    else if reg = regBytecntReg then { registers with bytecnt := val }
    else registers
  | _ => registers

/--
The transfers that are started: the address of each, and how many bytes it requests.

The controller counts in so many bits, and one byte more than it is told.
-/
def transfers (width : Nat) : Registers → List Event → List (UInt32 × Nat)
  | _, [] => []
  | registers, event :: rest =>
    let later := transfers width (registers.after event) rest
    match event with
    | .wrote _ reg =>
      if reg = regStartxfrReg then
        (registers.devaddr, registers.bytecnt.toNat % 2 ^ width + 1) :: later
      else later
    | _ => later

/-- The values that were fetched. -/
def fetchedOf (events : List Event) : List UInt32 :=
  events.filterMap fun
    | .fetched val => some val
    | _ => none

/-- The bytes that were stored, each at its position. -/
def storedOf (events : List Event) : List (Nat × UInt8) :=
  events.filterMap fun
    | .stored pos byte => some (pos, byte)
    | _ => none

/-- The values that were sent. -/
def sentOf (events : List Event) : List UInt32 :=
  events.filterMap fun
    | .wrote val reg => if reg = regDataoutReg then some val else none
    | _ => none

/-- Whether a message is a read. -/
def I2cMsg.Reads (msg : I2cMsg) : Prop := msg.flags &&& i2cMRd ≠ 0

/-- What is expected of the events of a message, from the registers before them. -/
structure AsAsked (width : Nat) (msg : I2cMsg) (registers : Registers) (events : List Event) :
    Prop where
  address : ∀ transfer ∈ transfers width registers events, transfer.1 = msg.addr.toUInt32
  requested : ((transfers width registers events).map Prod.snd).sum = msg.len.toNat
  stored : msg.Reads → (fetchedOf events).length = msg.len.toNat ∧
    storedOf events = (fetchedOf events).mapIdx fun i val => (i, val.toUInt8)
  sent : ¬ msg.Reads → sentOf events = (List.range msg.len.toNat).map fun i => (msg.buf i).toUInt32

/-- Two parts of a run start the transfers of both. -/
theorem transfers_append (width : Nat) (registers : Registers) (first second : List Event) :
    transfers width registers (first ++ second) =
      transfers width registers first ++
        transfers width (first.foldl Registers.after registers) second := by
  -- The registers are carried through the first part, and only a start register makes a transfer.
  induction first generalizing registers with
  | nil => rfl
  | cons event rest ih =>
    cases event with
    | wrote val reg =>
      simp only [List.cons_append, transfers, List.foldl_cons, ih]
      by_cases start : reg = regStartxfrReg
      · rw [if_pos start, if_pos start, List.cons_append]
      · rw [if_neg start, if_neg start]
    | fetched val => exact ih registers
    | stored pos byte => exact ih registers

/-- What a part of a read has done: its requests, and the bytes that it fetched and stored. -/
structure ReadDone (width pos count : Nat) (requests : List Nat) (events : List Event) : Prop where
  transfers : ∀ registers, transfers width registers events =
    requests.map fun size => (registers.devaddr, size)
  devaddr : ∀ registers : Registers,
    (events.foldl Registers.after registers).devaddr = registers.devaddr
  size : (fetchedOf events).length = count
  stored : storedOf events = (fetchedOf events).mapIdx fun i val => (pos + i, val.toUInt8)

/-- Nothing was done. -/
theorem ReadDone.nil (width pos : Nat) : ReadDone width pos 0 [] [] :=
  ⟨fun _ => rfl, fun _ => rfl, rfl, rfl⟩

/-- Two parts of a read are one. -/
theorem ReadDone.append {width pos count more : Nat} {requests others : List Nat}
    {events later : List Event} (first : ReadDone width pos count requests events)
    (second : ReadDone width (pos + count) more others later) :
    ReadDone width pos (count + more) (requests ++ others) (events ++ later) := by
  -- Fetches and stores are picked from both parts, and the second part leaves the address alone.
  have fetched : fetchedOf (events ++ later) = fetchedOf events ++ fetchedOf later :=
    List.filterMap_append
  have stored : storedOf (events ++ later) = storedOf events ++ storedOf later :=
    List.filterMap_append
  refine ⟨fun registers => ?_, fun registers => ?_, ?_, ?_⟩
  · rw [transfers_append, first.transfers, second.transfers, first.devaddr, List.map_append]
  · rw [List.foldl_append, second.devaddr, first.devaddr]
  · rw [fetched, List.length_append, first.size, second.size]
  · rw [fetched, stored, first.stored, second.stored, List.mapIdx_append, first.size]
    have shifted : ∀ i, pos + count + i = pos + (i + count) := fun i => by omega
    simp only [shifted]

section Emitted

variable (answers : Nat → UInt32)

/-- Waiting leaves no event. -/
theorem poll_emits (wanted : UInt32 → Bool) (retries : Nat) :
    Emits (poll answers wanted retries) fun _ events => events = [] := by
  -- Every retry reads the status once more, which the trace does not hold.
  induction retries with
  | zero => exact (Emits.pure false).weaken fun _ _ given => given.2
  | succ retries ih =>
    exact Emits.silently (Emits.quiet _) fun status => Emits.ite
      (fun _ => (Emits.pure true).weaken fun _ _ given => given.2) fun _ => ih

/-- A check that fails ends the call, and leaves no event otherwise. -/
theorem check_emits {condition : Prop} [Decidable condition] (fault : Int) :
    Emits (if condition then throw fault else pure () : Xfer Unit) fun _ events => events = [] :=
  Emits.ite (fun _ => Emits.throw fault) fun _ => (Emits.pure ()).weaken fun _ _ given => given.2

/-- Looking for an acknowledgement leaves no event. -/
theorem rtI2cGetAck_emits : Emits (rtI2cGetAck answers) fun _ events => events = [] :=
  Emits.silently (Emits.quiet _) fun _ => check_emits (-eio)

/-- Nor does waiting for a received byte. -/
theorem rtI2cWaitRxDone_emits : Emits (rtI2cWaitRxDone answers) fun _ events => events = [] :=
  Emits.silently (poll_emits answers _ _) fun _ => check_emits (-etimedout)

/-- Nor does waiting for a sent one. -/
theorem rtI2cWaitTxDone_emits : Emits (rtI2cWaitTxDone answers) fun _ events => events = [] :=
  Emits.silently (poll_emits answers _ _) fun _ => check_emits (-etimedout)

/-- Nor does waiting for the bus to be idle. -/
theorem rtI2cWaitIdle_emits : Emits (rtI2cWaitIdle answers) fun _ events => events = [] :=
  Emits.silently (poll_emits answers _ _) fun _ =>
    (Emits.pure _).weaken fun _ _ given => given.2

/-- What is fetched is in the trace. -/
theorem readDatain_emits :
    Emits (readDatain answers) fun val events => events = [.fetched val] := by
  -- The one event stands behind a read that leaves none.
  refine Emits.silently (Emits.quiet _) fun val => ?_
  refine (Emits.emit _).bind fun _ events one => (Emits.pure val).weaken fun found more given => ?_
  rw [one, given.1, given.2]
  rfl

/-- One byte of a read. -/
theorem ReadDone.byte (width pos : Nat) (val : UInt32) :
    ReadDone width pos 1 [] [.fetched val, .stored pos val.toUInt8] :=
  ⟨fun _ => rfl, fun _ => rfl, rfl, rfl⟩

/-- The bytes of a read are fetched and stored one after the other. -/
theorem readBytes_emits (width count pos : Nat) :
    Emits (readBytes answers count pos) fun last events =>
      last = pos + count ∧ ReadDone width pos count [] events := by
  -- The induction is on the bytes that are left, each of which is waited for before it is
  -- fetched.
  induction count generalizing pos with
  | zero =>
    refine (Emits.pure pos).weaken fun last events given => ?_
    rw [given.2]
    exact ⟨given.1, .nil width pos⟩
  | succ count ih =>
    refine Emits.silently (rtI2cWaitRxDone_emits answers) fun _ => ?_
    refine Emits.silently (rtI2cGetAck_emits answers) fun _ => ?_
    refine (readDatain_emits answers).bind fun val first fetched => ?_
    refine (Emits.emit _).bind fun _ second stored => ?_
    refine (ih (pos + 1)).weaken fun last events given => ?_
    obtain ⟨rfl, done⟩ := given
    subst fetched stored
    refine ⟨by omega, ?_⟩
    rw [Nat.add_comm count 1]
    exact (ReadDone.byte width pos val).append done

/-- A transfer of a read makes one request. -/
theorem ReadDone.start (width pos : Nat) (bytecnt : UInt32) :
    ReadDone width pos 0 [bytecnt.toNat % 2 ^ width + 1]
      [.wrote bytecnt regBytecntReg, .wrote readCmd regStartxfrReg] :=
  ⟨fun _ => rfl, fun _ => rfl, rfl, rfl⟩

/-- A transfer of a read. -/
theorem readPart_emits (width : Nat) (bytecnt : UInt32) (count pos : Nat) :
    Emits (readPart answers bytecnt count pos) fun last events =>
      last = pos + count ∧ ReadDone width pos count [bytecnt.toNat % 2 ^ width + 1] events := by
  -- The size and the start come before the bytes, and a busy bus ends the part with an error.
  refine Emits.silently (rtI2cWaitIdle_emits answers) fun busy => ?_
  refine Emits.ite (fun _ => Emits.fails (-etimedout)) fun _ => ?_
  refine (Emits.emit _).bind fun _ first sized => ?_
  refine (Emits.emit _).bind fun _ second started => ?_
  refine (readBytes_emits answers width count pos).weaken fun last events given => ?_
  obtain ⟨rfl, done⟩ := given
  subst sized started
  have whole := (ReadDone.start width pos bytecnt).append done
  rw [Nat.zero_add] at whole
  exact ⟨rfl, whole⟩

/-- The blocks of a read request 64 bytes each. -/
theorem readBlocks_emits {width : Nat} (wide : 6 ≤ width) (nblock pos : Nat) :
    Emits (readBlocks answers nblock pos) fun last events =>
      last = pos + nblock * readBlock ∧
        ReadDone width pos (nblock * readBlock) (List.replicate nblock readBlock) events := by
  -- A block asks for 64 bytes, which six bits of the register are enough for.
  have size : (UInt32.ofInt (readBlock - 1)).toNat % 2 ^ width + 1 = readBlock := by
    have power : 2 ^ 6 ≤ 2 ^ width := Nat.pow_le_pow_right (by decide) wide
    have value : (UInt32.ofInt (readBlock - 1)).toNat = 63 := by decide
    rw [value, Nat.mod_eq_of_lt (by omega)]
    rfl
  induction nblock generalizing pos with
  | zero =>
    refine (Emits.pure pos).weaken fun last events given => ?_
    rw [given.2, Nat.zero_mul]
    exact ⟨given.1, .nil width pos⟩
  | succ nblock ih =>
    refine (readPart_emits answers width _ readBlock pos).bind fun middle first given => ?_
    obtain ⟨rfl, done⟩ := given
    refine (ih _).weaken fun last events given => ?_
    obtain ⟨rfl, rest⟩ := given
    have whole := done.append rest
    have total : readBlock + nblock * readBlock = (nblock + 1) * readBlock := by ring
    rw [size, total] at whole
    exact ⟨by rw [Nat.add_assoc, total], whole⟩

end Emitted

end OpenwrtMisc.I2cRalink
