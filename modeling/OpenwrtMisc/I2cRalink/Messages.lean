import OpenwrtMisc.I2cRalink.Transfer
import Mathlib.Algebra.BigOperators.Group.List.Basic

/-! The messages of a call of the I2C master, and when each is transferred as asked. -/

namespace OpenwrtMisc.I2cRalink

instance (msg : I2cMsg) : Decidable msg.Reads := inferInstanceAs (Decidable (_ ≠ _))

/-- What the bytes of a write have done: one transfer each, of the size that was set before. -/
structure WriteDone (width : Nat) (msg : I2cMsg) (i count : Nat) (events : List Event) : Prop where
  transfers : ∀ registers, transfers width registers events =
    List.replicate count (registers.devaddr, registers.bytecnt.toNat % 2 ^ width + 1)
  registers : ∀ registers : Registers, events.foldl Registers.after registers = registers
  sent : sentOf events = (List.range count).map fun j => (msg.buf (i + j)).toUInt32

/-- The events of one byte of a write. -/
def byteEvents (msg : I2cMsg) (i : Nat) : List Event :=
  [.wrote (msg.buf i).toUInt32 regDataoutReg, .wrote writeCmd regStartxfrReg]

/-- One byte more is written in front. -/
theorem WriteDone.byte {width i count : Nat} {msg : I2cMsg} {events : List Event}
    (rest : WriteDone width msg (i + 1) count events) :
    WriteDone width msg i (count + 1) (byteEvents msg i ++ events) := by
  -- A byte loads the data register and starts one transfer, and leaves the address as it is.
  have kept : ∀ registers : Registers,
      (byteEvents msg i).foldl Registers.after registers = registers := fun _ => rfl
  have sent : sentOf (byteEvents msg i ++ events) = sentOf (byteEvents msg i) ++ sentOf events :=
    List.filterMap_append
  refine ⟨fun registers => ?_, fun registers => ?_, ?_⟩
  · rw [transfers_append, kept, rest.transfers]
    rfl
  · rw [List.foldl_append, kept, rest.registers]
  · rw [sent, rest.sent, List.range_succ_eq_map, List.map_cons, List.map_map]
    have shifted : ∀ j, i + 1 + j = i + (j + 1) := fun j => by omega
    simp only [shifted]
    rfl

section Emitted

variable (answers : Nat → UInt32)

/-- The bytes of a write are sent one after the other. -/
theorem writeBytes_emits (width : Nat) (msg : I2cMsg) (count i : Nat) :
    Emits (writeBytes answers msg count i) fun _ events => WriteDone width msg i count events := by
  -- Each byte is loaded, started, waited for and acknowledged before the next one.
  induction count generalizing i with
  | zero =>
    refine (Emits.pure ()).weaken fun _ events given => ?_
    rw [given.2]
    exact ⟨fun _ => rfl, fun _ => rfl, rfl⟩
  | succ count ih =>
    refine (Emits.emit _).bind fun _ first loaded => ?_
    refine (Emits.emit _).bind fun _ second started => ?_
    refine Emits.silently (rtI2cWaitTxDone_emits answers) fun _ => ?_
    refine Emits.silently (rtI2cGetAck_emits answers) fun _ => ?_
    refine (ih (i + 1)).weaken fun _ events rest => ?_
    subst loaded started
    exact rest.byte

end Emitted

/-- The sizes that the transfers of a message request. -/
def requestsOf (width : Nat) (msg : I2cMsg) : List Nat :=
  if msg.Reads then
    List.replicate (msg.len.toNat / readBlock) readBlock ++
      [(UInt32.ofInt ((msg.len.toNat % readBlock : Nat) - 1)).toNat % 2 ^ width + 1]
  else
    List.replicate msg.len.toNat ((UInt32.ofInt (msg.len.toNat - 1)).toNat % 2 ^ width + 1)

/-- What a message that was handled has done, whatever its address. -/
structure Handled (width : Nat) (msg : I2cMsg) (events : List Event) : Prop where
  transfers : ∀ registers, transfers width registers events =
    (requestsOf width msg).map fun size => (registers.devaddr, size)
  devaddr : ∀ registers : Registers,
    (events.foldl Registers.after registers).devaddr = registers.devaddr
  stored : msg.Reads → (fetchedOf events).length = msg.len.toNat ∧
    storedOf events = (fetchedOf events).mapIdx fun i val => (i, val.toUInt8)
  sent : ¬ msg.Reads → sentOf events = (List.range msg.len.toNat).map fun i => (msg.buf i).toUInt32

/-- A read that is done has handled its message. -/
theorem ReadDone.handled {width : Nat} {msg : I2cMsg} {events : List Event} (reads : msg.Reads)
    (done : ReadDone width 0 msg.len.toNat (requestsOf width msg) events) :
    Handled width msg events := by
  -- A read owes nothing for a write.
  refine ⟨done.transfers, done.devaddr, fun _ => ⟨done.size, ?_⟩, fun writes => absurd reads writes⟩
  rw [done.stored]
  simp only [Nat.zero_add]

/-- A write that is done has handled its message, once its size is set. -/
theorem WriteDone.handled {width : Nat} {msg : I2cMsg} {events : List Event}
    (writes : ¬ msg.Reads) (done : WriteDone width msg 0 msg.len.toNat events) :
    Handled width msg
      (.wrote (UInt32.ofInt (msg.len.toNat - 1)) regBytecntReg :: events) := by
  -- The size is set once, and every byte starts a transfer of that size.
  refine ⟨fun registers => ?_, fun registers => ?_, fun reads => absurd reads writes, fun _ => ?_⟩
  · rw [requestsOf, if_neg writes, List.map_replicate]
    exact done.transfers (registers.after (.wrote _ regBytecntReg))
  · rw [List.foldl_cons, done.registers]
    rfl
  · have sent := done.sent
    simp only [Nat.zero_add] at sent
    exact sent

/-- A message that is handled without an error is handled as described. -/
theorem rtI2cHandleMsg_emits (answers : Nat → UInt32) {width : Nat} (wide : 6 ≤ width)
    (msg : I2cMsg) :
    Emits (rtI2cHandleMsg answers msg) fun _ events => Handled width msg events := by
  -- A message without bytes is refused, and the others are read or written.
  refine Emits.ite (fun _ => Emits.fails (-einval)) fun _ => ?_
  refine Emits.ite (fun (reads : msg.Reads) => ?_) fun (writes : ¬ msg.Reads) => ?_
  · -- The blocks and the rest of a read.
    refine (readBlocks_emits answers wide _ 0).bind fun middle first given => ?_
    obtain ⟨rfl, blocks⟩ := given
    refine (readPart_emits answers width _ _ _).bind fun last second given => ?_
    obtain ⟨rfl, rest⟩ := given
    refine (Emits.pure ()).weaken fun _ events given => ?_
    have whole := blocks.append rest
    have total : msg.len.toNat / readBlock * readBlock + msg.len.toNat % readBlock =
        msg.len.toNat := Nat.div_add_mod' _ _
    rw [total] at whole
    rw [given.2, List.append_nil]
    refine ReadDone.handled reads ?_
    rw [requestsOf, if_pos reads]
    exact whole
  · refine Emits.silently (rtI2cWaitIdle_emits answers) fun busy => ?_
    refine Emits.ite (fun _ => Emits.fails (-etimedout)) fun _ => ?_
    refine (Emits.emit _).bind fun _ first sized => ?_
    refine (writeBytes_emits answers width msg _ 0).weaken fun _ events done => ?_
    rw [sized]
    exact WriteDone.handled writes done

/-- One less than a size is counted as it is, unless the size is nothing. -/
theorem toNat_ofInt_pred {size : Nat} (some : 1 ≤ size) (fits : size ≤ 2 ^ 32) :
    (UInt32.ofInt (size - 1)).toNat = size - 1 := by
  -- The size is at least one, so nothing is borrowed.
  have value : (((size : Int) - 1) % 2 ^ 32).toNat = size - 1 := by omega
  unfold UInt32.ofInt
  rw [value, UInt32.toNat_ofNat', Nat.mod_eq_of_lt (by omega)]

/-- All ones stay all ones in fewer bits. -/
theorem ones_mod {width total : Nat} (narrow : width ≤ total) :
    (2 ^ total - 1) % 2 ^ width = 2 ^ width - 1 := by
  -- The higher power is a multiple of the lower one, less the one that both lack.
  have split : 2 ^ total = 2 ^ width * 2 ^ (total - width) := by
    rw [← Nat.pow_add, Nat.add_sub_cancel' narrow]
  obtain ⟨rest, more⟩ := Nat.exists_eq_succ_of_ne_zero (Nat.two_pow_pos (total - width)).ne'
  have positive : 0 < 2 ^ width := Nat.two_pow_pos width
  have ones : 2 ^ total - 1 = 2 ^ width - 1 + 2 ^ width * rest := by
    rw [split, more, Nat.mul_succ]
    omega
  rw [ones, Nat.add_mul_mod_self_left, Nat.mod_eq_of_lt (by omega)]

/-- The transfers of a read request its length exactly when that is no multiple of a block. -/
theorem sum_requestsOf_read {width : Nat} (wide : 6 ≤ width) (narrow : width ≤ 32) {msg : I2cMsg}
    (reads : msg.Reads) :
    (requestsOf width msg).sum = msg.len.toNat ↔ ¬ readBlock ∣ msg.len.toNat := by
  -- A read is cut into whole blocks and a rest, which may be nothing.
  have low : 2 ^ 6 ≤ 2 ^ width := Nat.pow_le_pow_right (by decide) wide
  have whole : msg.len.toNat / readBlock * readBlock + msg.len.toNat % readBlock =
      msg.len.toNat := Nat.div_add_mod' _ _
  have sum : (requestsOf width msg).sum = msg.len.toNat / readBlock * readBlock +
      ((UInt32.ofInt ((msg.len.toNat % readBlock : Nat) - 1)).toNat % 2 ^ width + 1) := by
    rw [requestsOf, if_pos reads, List.sum_append, List.sum_replicate_nat,
      List.sum_singleton]
  rw [sum, Nat.dvd_iff_mod_eq_zero]
  have small : msg.len.toNat % readBlock < 64 := Nat.mod_lt _ (by decide)
  generalize msg.len.toNat / readBlock * readBlock = blocks at whole
  generalize msg.len.toNat % readBlock = rem at whole small
  cases rem with
  | zero =>
    -- The count of nothing is all ones: as much is requested as the controller can count.
    have ones : (UInt32.ofInt ((0 : Nat) - 1)).toNat = 2 ^ 32 - 1 := by decide
    rw [ones, ones_mod narrow]
    omega
  | succ rem =>
    have positive : 1 ≤ rem + 1 := Nat.le_add_left 1 rem
    rw [toNat_ofInt_pred positive (by omega), Nat.mod_eq_of_lt (by omega)]
    omega

/-- The transfers of a write request its length exactly when that is one byte. -/
theorem sum_requestsOf_write {width : Nat} {msg : I2cMsg} (writes : ¬ msg.Reads)
    (some : 1 ≤ msg.len.toNat) (fits : msg.len.toNat ≤ 2 ^ width) :
    (requestsOf width msg).sum = msg.len.toNat ↔ msg.len.toNat = 1 := by
  -- As many transfers as bytes, each of the whole length, add up to the square of it.
  have value := toNat_ofInt_pred some (msg.len.toNat_lt.le.trans (by decide))
  rw [requestsOf, if_neg writes, value, Nat.mod_eq_of_lt (by omega), Nat.sub_add_cancel some,
    List.sum_replicate_nat]
  exact Nat.mul_eq_left (by omega)

/-- When the transfers that a message needs are the ones that are made for it. -/
structure Suits (first msg : I2cMsg) : Prop where
  address : msg.addr = first.addr
  read : msg.Reads → ¬ readBlock ∣ msg.len.toNat
  write : ¬ msg.Reads → msg.len.toNat = 1

/-- The lengths that a message may have: a byte at least, and what the controller can count. -/
structure I2cMsg.Fits (width : Nat) (msg : I2cMsg) : Prop where
  some : 1 ≤ msg.len.toNat
  write : ¬ msg.Reads → msg.len.toNat ≤ 2 ^ width

/-- The transfers request the length of a message exactly in these cases. -/
theorem sum_requestsOf {width : Nat} (wide : 6 ≤ width) (narrow : width ≤ 32) {msg : I2cMsg}
    (fits : msg.Fits width) :
    (requestsOf width msg).sum = msg.len.toNat ↔
      (msg.Reads → ¬ readBlock ∣ msg.len.toNat) ∧ (¬ msg.Reads → msg.len.toNat = 1) := by
  -- A message is a read or a write, and each has its own sum.
  by_cases reads : msg.Reads
  · rw [sum_requestsOf_read wide narrow reads]
    exact ⟨fun rest => ⟨fun _ => rest, fun writes => absurd reads writes⟩, fun both => both.1 reads⟩
  · rw [sum_requestsOf_write reads fits.some (fits.write reads)]
    exact ⟨fun one => ⟨fun given => absurd given reads, fun _ => one⟩, fun both => both.2 reads⟩

/-- At least one transfer is made for a message. -/
theorem requestsOf_ne_nil {width : Nat} {msg : I2cMsg} (fits : msg.Fits width) :
    requestsOf width msg ≠ [] := by
  -- A read ends with the transfer of its rest, and a write makes one for each byte.
  have some := fits.some
  unfold requestsOf
  split
  · exact List.append_ne_nil_of_right_ne_nil _ (List.cons_ne_nil _ _)
  · rw [Ne, List.replicate_eq_nil_iff]
    omega

/-- What the transfers of a message request in total. -/
theorem Handled.sum_sizes {width : Nat} {msg : I2cMsg} {events : List Event}
    (handled : Handled width msg events) (registers : Registers) :
    ((I2cRalink.transfers width registers events).map Prod.snd).sum =
      (requestsOf width msg).sum := by
  -- The transfers are the requests under the address of the register.
  rw [handled.transfers, List.map_map]
  exact congrArg List.sum (List.map_id _)

/-- A message that was handled was transferred as asked exactly when the address was its own. -/
theorem asAsked_iff_suits {width : Nat} (wide : 6 ≤ width) (narrow : width ≤ 32)
    {first msg : I2cMsg} {events : List Event} (handled : Handled width msg events)
    (fits : msg.Fits width) {registers : Registers}
    (address : registers.devaddr = first.addr.toUInt32) :
    AsAsked width msg registers events ↔ Suits first msg := by
  -- The address of the transfers is the one in the register, and there is at least one transfer.
  have sizes := handled.sum_sizes registers
  constructor
  · intro asked
    obtain ⟨read, write⟩ := (sum_requestsOf wide narrow fits).mp (sizes ▸ asked.requested)
    refine ⟨?_, read, write⟩
    obtain ⟨size, more, requests⟩ := List.exists_cons_of_ne_nil (requestsOf_ne_nil fits)
    have made : (registers.devaddr, size) ∈ transfers width registers events := by
      rw [handled.transfers, requests]
      exact List.mem_cons_self
    have same : first.addr.toUInt32 = msg.addr.toUInt32 :=
      address.symm.trans (asked.address _ made)
    have numbers : first.addr.toNat = msg.addr.toNat := by
      rw [← UInt16.toNat_toUInt32, same, UInt16.toNat_toUInt32]
    exact (UInt16.toNat.inj numbers).symm
  · intro suits
    refine ⟨fun transfer made => ?_, ?_, handled.stored, handled.sent⟩
    · rw [handled.transfers] at made
      obtain ⟨size, _, rfl⟩ := List.mem_map.mp made
      rw [suits.address]
      exact address
    · rw [sizes]
      exact (sum_requestsOf wide narrow fits).mpr ⟨suits.read, suits.write⟩

/-- Messages that are handled keep the address that they find. -/
theorem devaddr_flatten {width : Nat} {messages : List (List Event)}
    (handled : ∀ done ∈ messages, ∃ msg, Handled width msg done) (registers : Registers) :
    (messages.flatten.foldl Registers.after registers).devaddr = registers.devaddr := by
  -- No message writes the address register, so the first one's stays.
  induction messages generalizing registers with
  | nil => rfl
  | cons done rest ih =>
    obtain ⟨msg, kept⟩ := handled done List.mem_cons_self
    rw [List.flatten_cons, List.foldl_append,
      ih fun later member => handled later (List.mem_cons_of_mem done member), kept.devaddr]

/-- The messages are handled one after the other. -/
theorem handleMsgs_emits (answers : Nat → UInt32) {width : Nat} (wide : 6 ≤ width)
    (m : Nat → I2cMsg) (count i : Nat) :
    Emits (handleMsgs answers m count i) fun messages events =>
      events = messages.flatten ∧ messages.length = count ∧
        ∀ j done, messages[j]? = some done → Handled width (m (i + j)) done := by
  -- The induction is on the messages that are left.
  induction count generalizing i with
  | zero =>
    refine (Emits.pure []).weaken fun messages events given => ?_
    obtain ⟨rfl, rfl⟩ := given
    exact ⟨rfl, rfl, fun j done entry => nomatch entry⟩
  | succ count ih =>
    refine (rtI2cHandleMsg_emits answers wide (m i)).collect.bind fun first events given => ?_
    obtain ⟨rfl, handled⟩ := given
    refine (ih (i + 1)).bind fun rest more given => ?_
    obtain ⟨rfl, length, others⟩ := given
    refine (Emits.pure _).weaken fun messages none given => ?_
    obtain ⟨rfl, rfl⟩ := given
    refine ⟨by rw [List.append_nil, List.flatten_cons], by rw [List.length_cons, length], ?_⟩
    intro j done entry
    cases j with
    | zero =>
      cases entry
      exact handled
    | succ j =>
      rw [← Nat.add_assoc, Nat.add_right_comm]
      exact others j done entry

/-- What a call that succeeds has done. -/
structure RunDone (width : Nat) (m : Nat → I2cMsg) (n : Nat) (run : XferRun)
    (events : List Event) : Prop where
  whole : events = run.setup ++ run.messages.flatten
  address : ∀ registers : Registers,
    (run.setup.foldl Registers.after registers).devaddr = (m 0).addr.toUInt32
  count : run.messages.length = n
  handled : ∀ j done, run.messages[j]? = some done → Handled width (m j) done

/-- A call that succeeds sets the address of its first message, and handles all of them. -/
theorem rtI2cMasterXfer_emits (answers : Nat → UInt32) {width : Nat} (wide : 6 ≤ width)
    (m : Nat → I2cMsg) (n : Nat) :
    Emits (rtI2cMasterXfer answers m n) fun run events => RunDone width m n run events := by
  -- What comes before the messages sets the address once.
  have before : Emits (do
      if ← rtI2cWaitIdle answers then throw (-etimedout)
      rtI2cW32 (m 0).addr.toUInt32 regDevaddrReg
      rtI2cW32 (i2cDevadlen7 ||| i2cAddrdis) regConfigReg
      rtI2cW32 clkdivValue regClkdivReg : Xfer Unit) fun _ events =>
        ∀ registers : Registers,
          (events.foldl Registers.after registers).devaddr = (m 0).addr.toUInt32 := by
    refine Emits.silently (rtI2cWaitIdle_emits answers) fun busy => ?_
    refine Emits.ite (fun _ => Emits.fails (-etimedout)) fun _ => ?_
    refine (Emits.emit _).bind fun _ first address => ?_
    refine (Emits.emit _).bind fun _ second config => ?_
    refine (Emits.emit _).weaken fun _ third clkdiv => ?_
    subst address config clkdiv
    exact fun _ => rfl
  refine before.collect.bind fun setup events given => ?_
  obtain ⟨rfl, address⟩ := given
  refine (handleMsgs_emits answers wide m n 0).bind fun messages more given => ?_
  obtain ⟨rfl, count, handled⟩ := given
  refine (Emits.pure _).weaken fun run none given => ?_
  obtain ⟨rfl, rfl⟩ := given
  rw [List.append_nil]
  refine ⟨rfl, address, count, fun j done entry => ?_⟩
  have message := handled j done entry
  rwa [Nat.zero_add] at message

/-- Whether every message of a call was transferred as asked. -/
def Transferred (width : Nat) (m : Nat → I2cMsg) (n : Nat) (registers : Registers)
    (run : XferRun) : Prop :=
  ∀ i < n, ∃ events, run.messages[i]? = some events ∧
    AsAsked width (m i)
      ((run.setup ++ (run.messages.take i).flatten).foldl Registers.after registers) events

/-- A call that succeeds transfers its messages as asked exactly when all of them suit the first. -/
theorem transferred_iff (answers : Nat → UInt32) {width : Nat} (wide : 6 ≤ width)
    (narrow : width ≤ 32) (m : Nat → I2cMsg) (n : Nat) (fits : ∀ i < n, (m i).Fits width)
    (start after : Trace Nat Event) (run : XferRun)
    (ran : rtI2cMasterXfer answers m n start = .ok (run, after)) (registers : Registers) :
    Transferred width m n registers run ↔ ∀ i < n, Suits (m 0) (m i) := by
  -- Each message is asked for with the registers that the ones before it have left.
  obtain ⟨_, _, done⟩ := rtI2cMasterXfer_emits answers wide m n start run after ran
  have each : ∀ i < n, ∀ events, run.messages[i]? = some events →
      (AsAsked width (m i)
        ((run.setup ++ (run.messages.take i).flatten).foldl Registers.after registers) events ↔
          Suits (m 0) (m i)) := by
    intro i below events entry
    refine asAsked_iff_suits wide narrow (done.handled i events entry) (fits i below) ?_
    have handled : ∀ done ∈ run.messages.take i, ∃ msg, Handled width msg done := by
      intro before member
      obtain ⟨j, entry⟩ := List.mem_iff_getElem?.mp (List.mem_of_mem_take member)
      exact ⟨m j, done.handled j before entry⟩
    rw [List.foldl_append, devaddr_flatten handled, done.address]
  refine forall₂_congr fun i below => ?_
  have within : i < run.messages.length := done.count.symm ▸ below
  have entry := List.getElem?_eq_getElem within
  constructor
  · rintro ⟨events, entry, asked⟩
    exact (each i below events entry).mp asked
  · exact fun suits => ⟨_, entry, (each i below _ entry).mpr suits⟩

/-- A device that is always ready, and acknowledges everything. -/
def ready : Nat → UInt32 := fun _ => i2cDatardy ||| i2cSdoempty

/-- A call that asks for a register and reads so many bytes of it. -/
def readRegister (len : UInt16) : Nat → I2cMsg
  | 0 => ⟨0x50, 0, 1, fun _ => 0x10⟩
  | _ => ⟨0x50, i2cMRd, len, fun _ => 0⟩

/-- A program that succeeds has a value. -/
theorem exists_of_isOk {ε α β : Type} {result : Except ε (α × β)} (succeeds : result.isOk = true) :
    ∃ value after, result = .ok (value, after) := by
  cases result with
  | ok pair => exact ⟨pair.1, pair.2, rfl⟩
  | error fault => cases succeeds

/-- Two bytes of a register are read as asked. -/
theorem transferred_iff_register : ∃ run after,
    rtI2cMasterXfer ready (readRegister 2) 2 ⟨0, []⟩ = .ok (run, after) ∧
      Transferred 6 (readRegister 2) 2 ⟨0, 0⟩ run := by
  -- The call is run on a device that is always ready.
  obtain ⟨run, after, ran⟩ := exists_of_isOk (by decide +kernel :
    (rtI2cMasterXfer ready (readRegister 2) 2 ⟨0, []⟩).isOk = true)
  have fits : ∀ i < 2, (readRegister 2 i).Fits 6 := by
    intro i below
    match i with
    | 0 => exact ⟨by decide, by decide⟩
    | 1 => exact ⟨by decide, by decide⟩
  have suits : ∀ i < 2, Suits (readRegister 2 0) (readRegister 2 i) := by
    intro i below
    match i with
    | 0 => exact ⟨rfl, by decide, by decide⟩
    | 1 => exact ⟨rfl, by decide, by decide⟩
  exact ⟨run, after, ran,
    (transferred_iff ready (by decide) (by decide) _ 2 fits ⟨0, []⟩ after run ran ⟨0, 0⟩).mpr suits⟩

/-- A read of one block starts a second transfer, which requests bytes that nobody fetches. -/
theorem not_transferred_block : ∃ run after,
    rtI2cMasterXfer ready (readRegister 64) 2 ⟨0, []⟩ = .ok (run, after) ∧
      ¬ Transferred 6 (readRegister 64) 2 ⟨0, 0⟩ run := by
  obtain ⟨run, after, ran⟩ := exists_of_isOk (by decide +kernel :
    (rtI2cMasterXfer ready (readRegister 64) 2 ⟨0, []⟩).isOk = true)
  refine ⟨run, after, ran, fun transferred => ?_⟩
  obtain ⟨_, _, done⟩ := rtI2cMasterXfer_emits ready (Nat.le_refl 6) (readRegister 64) 2 _ _ _ ran
  obtain ⟨events, entry, asked⟩ := transferred 1 (by decide)
  have sizes := ((done.handled 1 events entry).sum_sizes _).symm.trans asked.requested
  exact absurd sizes (by decide)

end OpenwrtMisc.I2cRalink
