import OpenwrtMisc.Lib.CanId
import OpenwrtMisc.SunxiCan.ErrorInterrupt

/-! The frames of the sunxi-can driver: into the buffer registers, and out of them. -/

namespace OpenwrtMisc.SunxiCan

open BitMask

/-- `SUN4I_REG_CMD_ADDR`. -/
def sun4iRegCmdAddr : Nat := 0x0004

/-- The addresses from `SUN4I_REG_BUF0_ADDR` to `SUN4I_REG_BUF12_ADDR`. -/
def sun4iRegBufAddr (index : Nat) : Nat := 0x0040 + index * 4

/-- The commands that have to do with frames. -/
def sun4iCmdSelfRcvReq : BitVec 8 := bit 4
def sun4iCmdReleaseRbuf : BitVec 8 := bit 2
def sun4iCmdTransReq : BitVec 8 := bit 0

/-- The flags of the first buffer register. -/
def sun4iMsgEffFlag : BitVec 32 := bit 7
def sun4iMsgRtrFlag : BitVec 32 := bit 6

/-- The flags of an identifier. -/
def canEffFlag : BitVec 32 := CanId.effFlag
def canRtrFlag : BitVec 32 := CanId.rtrFlag

/-- A `can_frame`. -/
structure CanFrame where
  canId : BitVec 32
  canDlc : Nat
  data : Nat → BitVec 8

/-- The frame of `alloc_can_skb`. -/
def CanFrame.zeroed : CanFrame where
  canId := 0
  canDlc := 0
  data _ := 0

/-- A frame with a valid identifier and a valid length. -/
structure CanFrame.Valid (cf : CanFrame) : Prop where
  canId : CanId.Valid cf.canId
  dlc : cf.canDlc ≤ 8

/--
What the driver relies on of `can_dropped_invalid_skb`.

The function belongs to the CAN layer and stays a parameter.
-/
structure SkbFilter where
  canDroppedInvalidSkb : CanFrame → Bool
  /-- A frame whose length is a valid one is kept. -/
  keeps : ∀ cf, cf.canDlc ≤ 8 → canDroppedInvalidSkb cf = false

/-- The filter that looks at the length of a frame only. -/
def SkbFilter.byLength : SkbFilter where
  canDroppedInvalidSkb cf := decide (8 < cf.canDlc)
  keeps _ short := decide_eq_false (Nat.not_lt.mpr short)

/--
The controller and the interface as far as frames concern them.

`writes` and `allocated` only record what happened: the registers that were written, and the
buffer registers of the frames that an skb was allocated for.
-/
structure CanPort where
  /-- The registers as they were written, by their address. -/
  regs : Nat → BitVec 32
  /-- The status register, but for the bit that tells of a frame in the FIFO. -/
  sta : BitVec 8
  /-- The buffer registers of the frames in the receive FIFO, the first one first. -/
  fifo : List (Nat → BitVec 32)
  queueStopped : Bool
  echo : Option CanFrame
  rxPackets : Nat
  rxBytes : Nat
  /-- The frames that were passed to `netif_rx`. -/
  delivered : List CanFrame
  /-- The number of calls of `alloc_can_skb`. -/
  allocCalls : Nat
  writes : List (Nat × BitVec 32)
  allocated : List (Nat → BitVec 32)

/-- What a register keeps of a value: the buffer registers have eight bits. -/
def kept (addr : Nat) (value : BitVec 32) : BitVec 32 :=
  if sun4iRegBufAddr 0 ≤ addr ∧ addr ≤ sun4iRegBufAddr 12 then value &&& 0xff else value

/-- A write to a register; the command to release the buffer removes the first frame. -/
def CanPort.writel (value : BitVec 32) (addr : Nat) (port : CanPort) : CanPort :=
  { port with
    regs := Function.update port.regs addr (kept addr value)
    fifo :=
      if addr = sun4iRegCmdAddr ∧ value &&& sun4iCmdReleaseRbuf.setWidth 32 ≠ 0 then port.fifo.tail
      else port.fifo
    writes := port.writes ++ [(addr, value)] }

/-- A read of a buffer register, which shows the first frame of the FIFO. -/
def CanPort.readl (addr : Nat) (port : CanPort) : BitVec 32 :=
  match port.fifo with
  | frame :: _ => frame addr
  | [] => port.regs addr

/-- `sun4i_can_write_cmdreg`. -/
def writeCmdreg (val : BitVec 8) (port : CanPort) : CanPort :=
  port.writel (val.setWidth 32) sun4iRegCmdAddr

/-- The registers of the identifier, and the index of the first register of the data. -/
def writeId (id : BitVec 32) (port : CanPort) : Nat × CanPort :=
  if id &&& canEffFlag ≠ 0 then
    let port := port.writel (id >>> 21 &&& 0xff) (sun4iRegBufAddr 1)
    let port := port.writel (id >>> 13 &&& 0xff) (sun4iRegBufAddr 2)
    let port := port.writel (id >>> 5 &&& 0xff) (sun4iRegBufAddr 3)
    (5, port.writel (id <<< 3 &&& 0xf8) (sun4iRegBufAddr 4))
  else
    let port := port.writel (id >>> 3 &&& 0xff) (sun4iRegBufAddr 1)
    (3, port.writel (id <<< 5 &&& 0xe0) (sun4iRegBufAddr 2))

/-- The loop over the data. -/
def writeData (cf : CanFrame) (dreg : Nat) (port : CanPort) : CanPort :=
  (List.range cf.canDlc).foldl
    (fun port i => port.writel ((cf.data i).setWidth 32) (sun4iRegBufAddr dreg + i * 4)) port

/-- `msg_flag_n`. -/
def msgFlagN (cf : CanFrame) : BitVec 32 :=
  let flags := BitVec.ofNat 32 cf.canDlc
  let flags := if cf.canId &&& canRtrFlag ≠ 0 then flags ||| sun4iMsgRtrFlag else flags
  if cf.canId &&& canEffFlag ≠ 0 then flags ||| sun4iMsgEffFlag else flags

/-- `sun4ican_start_xmit`, given whether `CAN_CTRLMODE_LOOPBACK` is on. -/
def sun4icanStartXmit (filter : SkbFilter) (loopback : Bool) (cf : CanFrame) (port : CanPort) :
    CanPort :=
  if filter.canDroppedInvalidSkb cf then port
  else
    let port := { port with queueStopped := true }
    let (dreg, port) := writeId cf.canId port
    let port := writeData cf dreg port
    let port := port.writel (msgFlagN cf) (sun4iRegBufAddr 0)
    let port := { port with echo := some cf }
    writeCmdreg (if loopback then sun4iCmdSelfRcvReq else sun4iCmdTransReq) port

/-- The `get_can_dlc` of the kernel. -/
def getCanDlc (dlc : Nat) : Nat := min dlc 8

/-- The frame that `sun4i_can_rx` makes of what the buffer registers read as. -/
def rxFrame (buf : Nat → BitVec 32) : CanFrame :=
  let fi : BitVec 8 := (buf (sun4iRegBufAddr 0)).setWidth 8
  let canDlc := getCanDlc (fi &&& 0x0f).toNat
  let (dreg, id) :=
    if fi &&& sun4iMsgEffFlag.setWidth 8 ≠ 0 then
      let id := buf (sun4iRegBufAddr 1) <<< 21 ||| buf (sun4iRegBufAddr 2) <<< 13 |||
        buf (sun4iRegBufAddr 3) <<< 5 ||| buf (sun4iRegBufAddr 4) >>> 3 &&& 0x1f
      (5, id ||| canEffFlag)
    else (3, buf (sun4iRegBufAddr 1) <<< 3 ||| buf (sun4iRegBufAddr 2) >>> 5 &&& 0x7)
  if fi &&& sun4iMsgRtrFlag.setWidth 8 ≠ 0 then
    { CanFrame.zeroed with canDlc := canDlc, canId := id ||| canRtrFlag }
  else
    { canId := id
      canDlc := canDlc
      data := fun i =>
        if i < canDlc then (buf (sun4iRegBufAddr dreg + i * 4)).setWidth 8 else 0 }

/-- `sun4i_can_rx`, given whether `alloc_can_skb` has an skb. -/
def sun4iCanRx (skb : Bool) (port : CanPort) : CanPort :=
  let buf := fun addr => port.readl addr
  let port := { port with allocCalls := port.allocCalls + 1 }
  if skb then
    let cf := rxFrame buf
    let port := writeCmdreg sun4iCmdReleaseRbuf { port with allocated := port.allocated ++ [buf] }
    { port with
      rxPackets := port.rxPackets + 1
      rxBytes := port.rxBytes + cf.canDlc
      delivered := port.delivered ++ [cf] }
  else port

/-- The values for the buffer registers of an identifier, by the index of the register. -/
def idEntries (id : BitVec 32) : List (Nat × BitVec 32) :=
  if id &&& canEffFlag ≠ 0 then
    [(1, id >>> 21 &&& 0xff), (2, id >>> 13 &&& 0xff), (3, id >>> 5 &&& 0xff),
      (4, id <<< 3 &&& 0xf8)]
  else [(1, id >>> 3 &&& 0xff), (2, id <<< 5 &&& 0xe0)]

/-- The index of the first register of the data. -/
def dataIndex (id : BitVec 32) : Nat := if id &&& canEffFlag ≠ 0 then 5 else 3

/-- The values for the buffer registers of a frame. -/
def frameEntries (cf : CanFrame) : List (Nat × BitVec 32) :=
  idEntries cf.canId ++
    (List.range cf.canDlc).map (fun i => (dataIndex cf.canId + i, (cf.data i).setWidth 32)) ++
    [(0, msgFlagN cf)]

/-- The writes of values to the buffer registers. -/
def CanPort.fill (entries : List (Nat × BitVec 32)) (port : CanPort) : CanPort :=
  entries.foldl (fun port entry => port.writel entry.2 (sun4iRegBufAddr entry.1)) port

/-- Values are written in turn. -/
theorem CanPort.fill_append (first second : List (Nat × BitVec 32)) (port : CanPort) :
    port.fill (first ++ second) = (port.fill first).fill second := List.foldl_append

/-- The registers of an identifier get its values. -/
theorem writeId_eq (id : BitVec 32) (port : CanPort) :
    writeId id port = (dataIndex id, port.fill (idEntries id)) := by
  -- An extended identifier takes four registers, a standard one two.
  unfold writeId dataIndex idEntries
  split <;> rfl

/-- The registers of the data get the bytes. -/
theorem writeData_eq (cf : CanFrame) (dreg : Nat) (port : CanPort) :
    writeData cf dreg port =
      port.fill ((List.range cf.canDlc).map fun i => (dreg + i, (cf.data i).setWidth 32)) := by
  -- The address of a byte is the one of the register with its index.
  have addr : ∀ i, sun4iRegBufAddr dreg + i * 4 = sun4iRegBufAddr (dreg + i) := by
    intro i
    unfold sun4iRegBufAddr
    omega
  unfold writeData CanPort.fill
  rw [List.foldl_map]
  simp only [addr]

/-- A frame that is not dropped fills its registers, and then the command is given. -/
theorem sun4icanStartXmit_eq (filter : SkbFilter) (loopback : Bool) {cf : CanFrame}
    (short : cf.canDlc ≤ 8) (port : CanPort) :
    sun4icanStartXmit filter loopback cf port =
      writeCmdreg (if loopback then sun4iCmdSelfRcvReq else sun4iCmdTransReq)
        { ({ port with queueStopped := true } : CanPort).fill (frameEntries cf) with
          echo := some cf } := by
  unfold sun4icanStartXmit frameEntries
  -- A frame of at most eight bytes is not dropped, and its three parts are filled in order.
  rw [if_neg (by rw [filter.keeps cf short]; exact Bool.false_ne_true), CanPort.fill_append,
    CanPort.fill_append]
  simp only [writeId_eq, writeData_eq]
  rfl

/-- Filling the buffer registers records the writes. -/
theorem CanPort.fill_writes (entries : List (Nat × BitVec 32)) (port : CanPort) :
    (port.fill entries).writes =
      port.writes ++ entries.map fun entry => (sun4iRegBufAddr entry.1, entry.2) := by
  induction entries generalizing port with
  | nil => exact (List.append_nil _).symm
  | cons entry rest ih =>
    -- The first entry is recorded before those of the rest.
    refine (ih _).trans ?_
    rw [List.map_cons]
    exact List.append_assoc ..

/-- Filling the buffer registers delivers nothing. -/
theorem CanPort.fill_delivered (entries : List (Nat × BitVec 32)) (port : CanPort) :
    (port.fill entries).delivered = port.delivered := by
  -- The induction is on the registers.
  induction entries generalizing port with
  | nil => rfl
  | cons entry rest ih => exact ih _

/-- A buffer register that is not written keeps its content. -/
theorem CanPort.fill_regs_of_not_mem {entries : List (Nat × BitVec 32)} {index : Nat}
    (absent : index ∉ entries.map Prod.fst) (port : CanPort) :
    (port.fill entries).regs (sun4iRegBufAddr index) = port.regs (sun4iRegBufAddr index) := by
  induction entries generalizing port with
  | nil => rfl
  | cons entry rest ih =>
    rw [List.map_cons, List.mem_cons, not_or] at absent
    obtain ⟨other, absent⟩ := absent
    -- The registers lie four bytes apart, so another index has another address.
    have address : sun4iRegBufAddr index ≠ sun4iRegBufAddr entry.1 := by
      unfold sun4iRegBufAddr
      omega
    exact (ih absent _).trans (Function.update_of_ne address _ _)

/-- A buffer register that is written once holds the low byte of its value. -/
theorem CanPort.fill_regs {entries : List (Nat × BitVec 32)} {index : Nat} {value : BitVec 32}
    (once : (entries.map Prod.fst).Nodup) (within : index ≤ 12) (written : (index, value) ∈ entries)
    (port : CanPort) :
    (port.fill entries).regs (sun4iRegBufAddr index) = value &&& 0xff := by
  -- The induction is on the registers, none of which is written again behind its own entry.
  induction entries generalizing port with
  | nil => exact absurd written List.not_mem_nil
  | cons entry rest ih =>
    rw [List.map_cons, List.nodup_cons] at once
    rcases List.mem_cons.mp written with same | later
    · -- The register is written here, and by no later entry.
      subst same
      have inside : sun4iRegBufAddr 0 ≤ sun4iRegBufAddr index ∧
          sun4iRegBufAddr index ≤ sun4iRegBufAddr 12 := by
        unfold sun4iRegBufAddr
        omega
      refine (fill_regs_of_not_mem once.1 _).trans ((Function.update_self _ _ _).trans ?_)
      rw [kept, if_pos inside]
    · exact ih once.2 later _

/-- Indices that go up from the first one, after smaller ones and before zero, are all different. -/
theorem nodup_indices {front : List Nat} {first count : Nat} (distinct : front.Nodup)
    (inside : ∀ index ∈ front, 0 < index ∧ index < first) (positive : 0 < first) :
    (front ++ (List.range count).map (fun i => first + i) ++ [0]).Nodup := by
  -- The data follows the identifier, and the zero is below all of them.
  have data : ((List.range count).map fun i => first + i).Nodup :=
    List.Pairwise.map _
      (fun _ _ different same => different (Nat.add_left_cancel same)) List.nodup_range
  have above : ∀ index ∈ (List.range count).map fun i => first + i, first ≤ index := by
    intro index member
    obtain ⟨i, _, rfl⟩ := List.mem_map.mp member
    exact Nat.le_add_right first i
  rw [List.nodup_append, List.nodup_append]
  refine ⟨⟨distinct, data, ?_⟩, List.pairwise_singleton _ 0, ?_⟩
  · intro index before other after same
    have low := (inside index before).2
    have high := above other after
    omega
  · intro index before other zero same
    have last : other = 0 := List.mem_singleton.mp zero
    rcases List.mem_append.mp before with early | late
    · have low := (inside index early).1
      omega
    · have high := above index late
      omega

/-- The registers of a frame are written once each, and all of them are buffer registers. -/
theorem frameEntries_indices {cf : CanFrame} (short : cf.canDlc ≤ 8) :
    ((frameEntries cf).map Prod.fst).Nodup ∧ ∀ entry ∈ frameEntries cf, entry.1 ≤ 12 := by
  -- The indices are those of the identifier, then those of the data, then zero.
  have indices : (frameEntries cf).map Prod.fst =
      (idEntries cf.canId).map Prod.fst ++
        (List.range cf.canDlc).map (fun i => dataIndex cf.canId + i) ++ [0] := by
    simp [frameEntries, Function.comp_def]
  have front : ((idEntries cf.canId).map Prod.fst).Nodup ∧
      (∀ index ∈ (idEntries cf.canId).map Prod.fst, 0 < index ∧ index < dataIndex cf.canId) ∧
        0 < dataIndex cf.canId ∧ dataIndex cf.canId ≤ 5 := by
    unfold idEntries dataIndex
    split <;> simp
  obtain ⟨distinct, inside, positive, low⟩ := front
  rw [indices]
  refine ⟨nodup_indices distinct inside positive, fun entry member => ?_⟩
  have listed := indices ▸ List.mem_map_of_mem (f := Prod.fst) member
  rw [List.mem_append, List.mem_append, List.mem_singleton] at listed
  rcases listed with (early | late) | zero
  · have bound := (inside _ early).2
    omega
  · obtain ⟨i, below, same⟩ := List.mem_map.mp late
    have bound := List.mem_range.mp below
    omega
  · omega

/-- After the start of a transmission each register of the frame holds the low byte of its value. -/
theorem sun4icanStartXmit_regs (filter : SkbFilter) (loopback : Bool) {cf : CanFrame}
    (short : cf.canDlc ≤ 8) (port : CanPort) {index : Nat} {value : BitVec 32}
    (written : (index, value) ∈ frameEntries cf) :
    (sun4icanStartXmit filter loopback cf port).regs (sun4iRegBufAddr index) = value &&& 0xff := by
  obtain ⟨once, within⟩ := frameEntries_indices short
  have other : sun4iRegBufAddr index ≠ sun4iRegCmdAddr := by
    unfold sun4iRegBufAddr sun4iRegCmdAddr
    omega
  rw [sun4icanStartXmit_eq filter loopback short]
  -- The command does not reach the buffer registers.
  refine (Function.update_of_ne other _ _).trans ?_
  exact CanPort.fill_regs once (within _ written) written _

/-- A transmission writes the registers of its frame and a command, and delivers nothing. -/
theorem sun4icanStartXmit_writes (filter : SkbFilter) (loopback : Bool) {cf : CanFrame}
    (short : cf.canDlc ≤ 8) (port : CanPort) :
    (sun4icanStartXmit filter loopback cf port).writes =
        port.writes ++ (frameEntries cf).map (fun entry => (sun4iRegBufAddr entry.1, entry.2)) ++
          [(sun4iRegCmdAddr,
            (if loopback then sun4iCmdSelfRcvReq else sun4iCmdTransReq).setWidth 32)] ∧
      (sun4icanStartXmit filter loopback cf port).delivered = port.delivered := by
  -- The buffer registers are filled first.
  rw [sun4icanStartXmit_eq filter loopback short]
  constructor
  · -- The command is written after the buffer is filled.
    exact congrArg (· ++ [_]) (CanPort.fill_writes ..)
  · exact CanPort.fill_delivered ..

/-- The first register tells the length and both flags. -/
theorem msgFlag_fields : ∀ dlc, dlc < 9 → ∀ rtr eff : Bool,
    let flags := BitVec.ofNat 32 dlc
    let flags := if rtr then flags ||| sun4iMsgRtrFlag else flags
    let flags := if eff then flags ||| sun4iMsgEffFlag else flags
    let fi : BitVec 8 := (flags &&& 0xff).setWidth 8
    getCanDlc (fi &&& 0x0f).toNat = dlc ∧
      (fi &&& sun4iMsgEffFlag.setWidth 8 ≠ 0 ↔ eff = true) ∧
      (fi &&& sun4iMsgRtrFlag.setWidth 8 ≠ 0 ↔ rtr = true) := by
  decide

/-- The pieces of an extended identifier, put together as they are read. -/
theorem id_extended (id : BitVec 32) :
    ((id >>> 21 &&& 0xff) &&& 0xff) <<< 21 ||| ((id >>> 13 &&& 0xff) &&& 0xff) <<< 13 |||
        ((id >>> 5 &&& 0xff) &&& 0xff) <<< 5 ||| ((id <<< 3 &&& 0xf8) &&& 0xff) >>> 3 &&& 0x1f =
      id &&& span 0 29 := by
  have byte : (0xff : BitVec 32) = span 0 8 := by decide
  have low : (0xf8 &&& 0xff : BitVec 32) = span 3 5 := by decide
  have five : (0x1f : BitVec 32) = span 0 5 := by decide
  have same : (0xff &&& 0xff : BitVec 32) = span 0 8 := by decide
  have parts : (span 21 8 ||| span 13 8 ||| span 5 8 ||| span 0 5 : BitVec 32) = span 0 29 := by
    decide
  -- Each register covers a span of the identifier.
  simp only [BitVec.and_assoc, same, low]
  rw [shiftDown_up, shiftDown_up, shiftDown_up, shiftUp_down _ (by omega), five, BitVec.and_assoc,
    BitVec.and_self, ← BitVec.and_or_distrib_left, ← BitVec.and_or_distrib_left,
    ← BitVec.and_or_distrib_left, parts]

/-- The pieces of a standard identifier, put together as they are read. -/
theorem id_standard (id : BitVec 32) :
    ((id >>> 3 &&& 0xff) &&& 0xff) <<< 3 ||| ((id <<< 5 &&& 0xe0) &&& 0xff) >>> 5 &&& 0x7 =
      id &&& span 0 11 := by
  -- The eleven bits are in two pieces, and each is shifted back to its place.
  have low : (0xe0 &&& 0xff : BitVec 32) = span 5 3 := by decide
  have three : (0x7 : BitVec 32) = span 0 3 := by decide
  have same : (0xff &&& 0xff : BitVec 32) = span 0 8 := by decide
  have parts : (span 3 8 ||| span 0 3 : BitVec 32) = span 0 11 := by decide
  simp only [BitVec.and_assoc, same, low]
  rw [shiftDown_up, shiftUp_down _ (by omega), three, BitVec.and_assoc, BitVec.and_self,
    ← BitVec.and_or_distrib_left, parts]

/-- The first register of a frame tells its length and its flags. -/
theorem msgFlagN_fields {cf : CanFrame} (short : cf.canDlc ≤ 8) :
    let fi : BitVec 8 := (msgFlagN cf &&& 0xff).setWidth 8
    getCanDlc (fi &&& 0x0f).toNat = cf.canDlc ∧
      (fi &&& sun4iMsgEffFlag.setWidth 8 ≠ 0 ↔ cf.canId &&& canEffFlag ≠ 0) ∧
      (fi &&& sun4iMsgRtrFlag.setWidth 8 ≠ 0 ↔ cf.canId &&& canRtrFlag ≠ 0) := by
  -- There are nine lengths and four ways to set the flags, which are all checked.
  have fields := msgFlag_fields cf.canDlc (Nat.lt_succ_of_le short)
    (decide (cf.canId &&& canRtrFlag ≠ 0)) (decide (cf.canId &&& canEffFlag ≠ 0))
  simp only [decide_eq_true_eq] at fields
  exact fields

/-- The registers of an identifier are read back as the bits of its format. -/
theorem rxId_idEntries {id : BitVec 32} {buf : Nat → BitVec 32}
    (reads : ∀ entry ∈ idEntries id, buf (sun4iRegBufAddr entry.1) = entry.2 &&& 0xff) :
    (if id &&& canEffFlag ≠ 0 then
      (5, (buf (sun4iRegBufAddr 1) <<< 21 ||| buf (sun4iRegBufAddr 2) <<< 13 |||
        buf (sun4iRegBufAddr 3) <<< 5 ||| buf (sun4iRegBufAddr 4) >>> 3 &&& 0x1f) ||| canEffFlag)
    else (3, buf (sun4iRegBufAddr 1) <<< 3 ||| buf (sun4iRegBufAddr 2) >>> 5 &&& 0x7)) =
      (dataIndex id, CanId.format id) := by
  -- Each register of the identifier gives back the low byte that it was written with.
  unfold idEntries at reads
  unfold dataIndex
  by_cases extended : id &&& canEffFlag ≠ 0
  · -- Four registers hold the identifier.
    rw [CanId.format_extended extended]
    simp only [if_pos extended, List.forall_mem_cons] at reads ⊢
    obtain ⟨first, second, third, fourth, _⟩ := reads
    rw [first, second, third, fourth, id_extended]
    rfl
  · -- Two registers hold it, and there is no flag of the format.
    rw [CanId.format_standard (not_not.mp extended)]
    simp only [if_neg extended, List.forall_mem_cons] at reads ⊢
    obtain ⟨first, second, _⟩ := reads
    rw [first, second, id_standard]

/-- The registers of a frame are read back as the frame. -/
theorem rxFrame_frameEntries {cf : CanFrame} (valid : cf.Valid) {buf : Nat → BitVec 32}
    (reads : ∀ entry ∈ frameEntries cf, buf (sun4iRegBufAddr entry.1) = entry.2 &&& 0xff) :
    (rxFrame buf).canId = cf.canId ∧ (rxFrame buf).canDlc = cf.canDlc ∧
      (cf.canId &&& canRtrFlag = 0 →
        ∀ i, i < cf.canDlc → (rxFrame buf).data i = cf.data i) := by
  -- The entries are told apart: the flags, the bytes of the identifier and those of the data.
  obtain ⟨len, eff, rtr⟩ := msgFlagN_fields valid.dlc
  obtain ⟨front, first⟩ := List.forall_mem_append.mp reads
  obtain ⟨ids, bytes⟩ := List.forall_mem_append.mp front
  have flags : buf (sun4iRegBufAddr 0) = msgFlagN cf &&& 0xff := first _ (List.mem_singleton_self _)
  -- The data is read from the registers that it was written to.
  have data : ∀ i, i < cf.canDlc →
      (buf (sun4iRegBufAddr (dataIndex cf.canId) + i * 4)).setWidth 8 = cf.data i := by
    intro i below
    have address : sun4iRegBufAddr (dataIndex cf.canId) + i * 4 =
        sun4iRegBufAddr (dataIndex cf.canId + i) := by
      unfold sun4iRegBufAddr
      omega
    have byte : (0xff : BitVec 32).setWidth 8 = BitVec.allOnes 8 := by decide
    rw [address, bytes _ (List.mem_map_of_mem (List.mem_range.mpr below)), BitVec.setWidth_and,
      byte, BitVec.and_allOnes, BitVec.setWidth_setWidth_of_le _ (by omega), BitVec.setWidth_eq]
  have canId : cf.canId = CanId.format cf.canId ||| cf.canId &&& canRtrFlag := valid.canId.eq_format
  unfold rxFrame
  simp only [flags, len, eff, rtr, rxId_idEntries ids]
  by_cases remote : cf.canId &&& canRtrFlag ≠ 0
  · -- A remote frame gets its flag and no data.
    rw [show cf.canId &&& canRtrFlag = canRtrFlag from CanId.and_rtrFlag remote] at canId
    rw [if_pos remote]
    exact ⟨canId.symm, rfl, fun clear => absurd clear remote⟩
  · rw [not_not.mp remote] at canId
    rw [if_neg remote]
    refine ⟨(canId.trans BitVec.or_zero).symm, rfl, fun _ i below => ?_⟩
    exact (if_pos below).trans (data i below)

/-- The controller after a transmission that it receives itself: the buffer is read as written. -/
def CanPort.looped (port : CanPort) : CanPort := { port with fifo := [port.regs] }

/-- What is expected of a frame that is transmitted and received: the frame that is delivered. -/
structure Looped (cf : CanFrame) (before sent after : CanPort) (frame : CanFrame) : Prop where
  delivered : after.delivered = before.delivered ++ [frame]
  canId : frame.canId = cf.canId
  canDlc : frame.canDlc = cf.canDlc
  data : cf.canId &&& canRtrFlag = 0 → ∀ i, i < cf.canDlc → frame.data i = cf.data i
  /-- All registers that the frame is written to are buffer registers; then a command is given. -/
  buffers : ∃ frameWrites command,
    sent.writes = before.writes ++ frameWrites ++ [(sun4iRegCmdAddr, command)] ∧
      ∀ write ∈ frameWrites, ∃ index, index ≤ 12 ∧ write.1 = sun4iRegBufAddr index

/-- Every valid frame is received as it was transmitted, from any state of the controller. -/
theorem startXmit_rx (filter : SkbFilter) (loopback : Bool) (cf : CanFrame) (port : CanPort)
    (valid : cf.Valid) :
    ∃ frame, Looped cf port (sun4icanStartXmit filter loopback cf port)
      (sun4iCanRx true (sun4icanStartXmit filter loopback cf port).looped) frame := by
  -- The receiver reads the registers that the transmitter has written.
  obtain ⟨_, within⟩ := frameEntries_indices valid.dlc
  obtain ⟨writes, delivered⟩ := sun4icanStartXmit_writes filter loopback valid.dlc port
  obtain ⟨canId, canDlc, data⟩ := rxFrame_frameEntries valid fun _ member =>
    sun4icanStartXmit_regs filter loopback valid.dlc port member
  refine ⟨rxFrame (sun4icanStartXmit filter loopback cf port).regs, ?_, canId, canDlc, data, ?_⟩
  · exact congrArg (· ++ [_]) delivered
  · -- The writes are those of the entries, in their order.
    refine ⟨_, _, writes, fun write member => ?_⟩
    obtain ⟨entry, listed, rfl⟩ := List.mem_map.mp member
    exact ⟨entry.1, within entry listed, rfl⟩

/-- A controller whose FIFO is empty, before any frame. -/
def CanPort.idle : CanPort where
  regs _ := 0
  sta := 0
  fifo := []
  queueStopped := false
  echo := none
  rxPackets := 0
  rxBytes := 0
  delivered := []
  allocCalls := 0
  writes := []
  allocated := []

/-- An extended frame with two bytes. -/
def CanFrame.sample : CanFrame where
  canId := 0x92345678
  canDlc := 2
  data i := BitVec.ofNat 8 (i + 1)

/-- The frame is looped back as it is. -/
theorem startXmit_rx_sample :
    ∃ frame, Looped .sample .idle (sun4icanStartXmit .byLength true .sample .idle)
      (sun4iCanRx true (sun4icanStartXmit .byLength true .sample .idle).looped) frame :=
  startXmit_rx .byLength true .sample .idle ⟨⟨by decide, by decide⟩, by decide⟩

end OpenwrtMisc.SunxiCan
