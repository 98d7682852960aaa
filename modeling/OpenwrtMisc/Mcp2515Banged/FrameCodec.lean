import OpenwrtMisc.Lib.CanId
import OpenwrtMisc.Mcp2515Banged.Receive

/-! The way of a frame through the mcp2515-banged driver to its bytes, and the way back. -/

namespace OpenwrtMisc.Mcp2515Banged

open BitMask

/-- The offsets of the bytes of a transmit buffer. -/
def txbctrlOff : Nat := 0
def txbsidhOff : Nat := 1
def txbsidlOff : Nat := 2
def txbeid8Off : Nat := 3
def txbeid0Off : Nat := 4
def txbdlcOff : Nat := 5
def txbdatOff : Nat := 6

/-- `INSTRUCTION_LOAD_TXB(n)` and `INSTRUCTION_RTS(n)`. -/
def instructionLoadTxb (n : Nat) : BitVec 8 := BitVec.ofNat 8 (0x40 + 2 * n)
def instructionRts (n : Nat) : BitVec 8 := 0x80 ||| BitVec.ofNat 8 n &&& 0x07

/-- `CAN_EFF_MASK` and `CAN_SFF_MASK`. -/
def canEffMask : BitVec 32 := 0x1fffffff
def canSffMask : BitVec 32 := 0x7ff

/-- `GET_BYTE`. -/
def getByte (val : BitVec 32) (byte : Nat) : BitVec 32 := val >>> (byte * 8) &&& 0xff

/-- The variables of `mcp2515_hw_tx`. -/
def exideOf (frame : CanFrame) : BitVec 32 := if frame.canId &&& canEffFlag ≠ 0 then 1 else 0
def sidOf (frame : CanFrame) : BitVec 32 :=
  if exideOf frame ≠ 0 then (frame.canId &&& canEffMask) >>> 18 else frame.canId &&& canSffMask
def eidOf (frame : CanFrame) : BitVec 32 := frame.canId &&& canEffMask
def rtrOf (frame : CanFrame) : BitVec 32 := if frame.canId &&& canRtrFlag ≠ 0 then 1 else 0

/-- The bytes of SIDL and of DLC. -/
def txSidl (frame : CanFrame) : BitVec 8 :=
  ((sidOf frame &&& 7) <<< 5 ||| exideOf frame <<< 3 ||| eidOf frame >>> 16 &&& 3).setWidth 8
def txDlc (frame : CanFrame) : BitVec 8 :=
  (rtrOf frame <<< 6 ||| BitVec.ofNat 32 frame.canDlc).setWidth 8

/-- `buf` of `mcp2515_hw_tx`, over what was on the stack. -/
def hwTxBuf (frame : CanFrame) (txBufIdx : Nat) (stack : Nat → BitVec 8) : Nat → BitVec 8 :=
  let buf := Function.update stack txbctrlOff (instructionLoadTxb txBufIdx)
  let buf := Function.update buf txbsidhOff ((sidOf frame >>> 3).setWidth 8)
  let buf := Function.update buf txbsidlOff (txSidl frame)
  let buf := Function.update buf txbeid8Off ((getByte (eidOf frame) 1).setWidth 8)
  let buf := Function.update buf txbeid0Off ((getByte (eidOf frame) 0).setWidth 8)
  let buf := Function.update buf txbdlcOff (txDlc frame)
  patch txbdatOff (frame.data.take frame.canDlc) buf

/-- What `mcp2515_hw_tx` writes: the buffer of the transfers, and the bytes of each of them. -/
structure Transmitter where
  spiTxBuf : Nat → BitVec 8
  transfers : List (List (BitVec 8))

/-- `mcp2515_spi_trans`, as far as the bytes that it sends. -/
def Transmitter.spiTrans (len : Nat) (state : Transmitter) : Transmitter :=
  { state with transfers := state.transfers ++ [window 0 len state.spiTxBuf] }

/-- `mcp2515_hw_tx_frame`. -/
def hwTxFrame (buf : Nat → BitVec 8) (len : Nat) (state : Transmitter) : Transmitter :=
  ({ state with
    spiTxBuf := patch 0 (window 0 (txbdatOff + len) buf) state.spiTxBuf } : Transmitter).spiTrans
    (txbdatOff + len)

/-- `mcp2515_hw_tx`. -/
def hwTx (frame : CanFrame) (txBufIdx : Nat) (stack : Nat → BitVec 8) (state : Transmitter) :
    Transmitter :=
  let state := hwTxFrame (hwTxBuf frame txBufIdx stack) frame.canDlc state
  ({ state with
    spiTxBuf := Function.update state.spiTxBuf 0 (instructionRts (1 <<< txBufIdx)) } :
      Transmitter).spiTrans 1

/-- The registers of a transmit buffer after a transfer, from SIDH on, over what they held. -/
def loadTxb (transfer : List (BitVec 8)) (regs : Nat → BitVec 8) : Nat → BitVec 8 :=
  patch 0 transfer.tail regs

/-- SIDL of a frame that the controller receives: SRR tells of a standard remote frame. -/
def ownSidl (sidl dlc : BitVec 8) : BitVec 8 :=
  if sidl &&& rxbsidlIde ≠ 0 then sidl
  else if dlc &&& rxbdlcRtr ≠ 0 then sidl ||| rxbsidlSrr
  else sidl &&& ~~~rxbsidlSrr

/-- A receive buffer with the frame of a transmit buffer. -/
def ownBuffer (regs : Nat → BitVec 8) : Nat → BitVec 8 :=
  Function.update regs 1 (ownSidl (regs 1) (regs 4))

/-- The controller after it has received its own frame into a receive buffer. -/
def Controller.receiveOwn (n : Nat) (regs : Nat → BitVec 8) (controller : Controller) :
    Controller :=
  { controller with buffers := Function.update controller.buffers n (ownBuffer regs) }

/-- A frame with a valid identifier and a valid length, and the eight bytes of its data. -/
structure CanFrame.Valid (frame : CanFrame) : Prop where
  canId : CanId.Valid frame.canId
  canDlc : frame.canDlc ≤ 8
  data : frame.data.length = 8

/-- What is expected of a frame that is read back. -/
structure SameFrame (sent received : CanFrame) : Prop where
  canId : received.canId = sent.canId
  canDlc : received.canDlc = sent.canDlc
  data : received.data.take sent.canDlc = sent.data.take sent.canDlc

/-- The transfers of a frame: its buffer, and the request to send. -/
theorem hwTx_transfers (frame : CanFrame) (txBufIdx : Nat) (stack : Nat → BitVec 8)
    (state : Transmitter) :
    (hwTx frame txBufIdx stack state).transfers = state.transfers ++
      [window 0 (txbdatOff + frame.canDlc) (hwTxBuf frame txBufIdx stack),
        [instructionRts (1 <<< txBufIdx)]] := by
  -- The transfer buffer begins with a copy of the bytes, so they are what is sent.
  have copied := window_patch_same 0
    (window 0 (txbdatOff + frame.canDlc) (hwTxBuf frame txBufIdx stack)) state.spiTxBuf
  rw [length_window] at copied
  show (state.transfers ++ [_]) ++ [_] = _
  rw [copied, List.append_assoc]
  rfl

/-- A byte of the buffer is in the register that belongs to it. -/
theorem loadTxb_window {len : Nat} (buf regs : Nat → BitVec 8) {i : Nat} (inside : i + 1 < len) :
    loadTxb (window 0 len buf) regs i = buf (i + 1) := by
  -- The instruction byte in front is cut off.
  unfold loadTxb patch
  rw [if_pos (Nat.zero_le i), List.getElem?_tail, Nat.sub_zero, getElem?_window, if_pos inside,
    Nat.zero_add]
  rfl

/-- The header of the buffer, and its data. -/
theorem hwTxBuf_header (frame : CanFrame) (txBufIdx : Nat) (stack : Nat → BitVec 8) :
    hwTxBuf frame txBufIdx stack 0 = instructionLoadTxb txBufIdx ∧
      hwTxBuf frame txBufIdx stack 1 = (sidOf frame >>> 3).setWidth 8 ∧
      hwTxBuf frame txBufIdx stack 2 = txSidl frame ∧
      hwTxBuf frame txBufIdx stack 3 = (getByte (eidOf frame) 1).setWidth 8 ∧
      hwTxBuf frame txBufIdx stack 4 = (getByte (eidOf frame) 0).setWidth 8 ∧
      hwTxBuf frame txBufIdx stack 5 = txDlc frame := by
  unfold hwTxBuf
  -- The data starts behind the header, so its copy leaves the header as it is.
  have below : ∀ {i : Nat} {buf : Nat → BitVec 8}, i < txbdatOff →
      patch txbdatOff (frame.data.take frame.canDlc) buf i = buf i :=
    fun low => patch_outside (.inl low)
  refine ⟨?_, ?_, ?_, ?_, ?_, ?_⟩
  all_goals
    rw [below (by decide)]
    rfl

/-- The data of a frame is in the window behind the header. -/
theorem hwTxBuf_data {frame : CanFrame} (valid : frame.Valid) (txBufIdx : Nat)
    (stack : Nat → BitVec 8) :
    window txbdatOff frame.canDlc (hwTxBuf frame txBufIdx stack) =
      frame.data.take frame.canDlc := by
  -- The data field is always eight bytes, so a valid length takes that many.
  have length : (frame.data.take frame.canDlc).length = frame.canDlc := by
    rw [List.length_take, valid.data, Nat.min_eq_left valid.canDlc]
  have same := window_patch_same txbdatOff (frame.data.take frame.canDlc)
  rw [length] at same
  exact same _

/-- Cutting a word to some bits and widening it again leaves the low bits. -/
theorem setWidth_setWidth {width : Nat} (word : BitVec 32) (fits : width ≤ 32) :
    (word.setWidth width).setWidth 32 = word &&& span 0 width := by
  -- Bit by bit, those above the width are cut off.
  refine BitMask.ext fun i => ?_
  rw [BitVec.getLsbD_setWidth, BitVec.getLsbD_setWidth, BitVec.getLsbD_and, getLsbD_span_eq]
  by_cases inside : i < width
  · simp [inside, show i < 32 by omega]
  · simp [inside]

/-- The parts of SIDL, as it is sent and as it is received. -/
theorem sidl_parts : ∀ (sid : BitVec 3) (eid : BitVec 2) (exide rtr : Bool),
    let sidl : BitVec 8 := (sid.setWidth 32 <<< 5 |||
      (if exide then 1 else 0 : BitVec 32) <<< 3 ||| eid.setWidth 32).setWidth 8
    let own := ownSidl sidl (if rtr then rxbdlcRtr else 0)
    own.setWidth 32 >>> 5 = sid.setWidth 32 ∧ (own &&& rxbsidlEid).setWidth 32 = eid.setWidth 32 ∧
      (own &&& rxbsidlIde ≠ 0 ↔ exide = true) ∧
      (exide = false → (own &&& rxbsidlSrr ≠ 0 ↔ rtr = true)) := by
  decide

/-- The byte of the length, and its flag. -/
theorem dlc_parts : ∀ dlc, dlc < 9 → ∀ rtr : Bool,
    let byte : BitVec 8 :=
      ((if rtr then 1 else 0 : BitVec 32) <<< 6 ||| BitVec.ofNat 32 dlc).setWidth 8
    getCanDlc (byte &&& rxbdlcLenMask).toNat = dlc ∧ (byte &&& rxbdlcRtr ≠ 0 ↔ rtr = true) := by
  decide

/-- The length and the flag of a frame are read back. -/
theorem txDlc_parts {frame : CanFrame} (short : frame.canDlc ≤ 8) :
    getCanDlc (txDlc frame &&& rxbdlcLenMask).toNat = frame.canDlc ∧
      (txDlc frame &&& rxbdlcRtr ≠ 0 ↔ frame.canId &&& canRtrFlag ≠ 0) := by
  -- The parts are those of any length below nine and any flag.
  have parts := dlc_parts frame.canDlc (Nat.lt_succ_of_le short)
    (decide (frame.canId &&& canRtrFlag ≠ 0))
  simp only [decide_eq_true_eq] at parts
  exact parts

/-- The controller looks at the byte of the length for one flag only. -/
theorem ownSidl_flag (sidl dlc : BitVec 8) :
    ownSidl sidl dlc = ownSidl sidl (if dlc &&& rxbdlcRtr ≠ 0 then rxbdlcRtr else 0) := by
  -- The byte of the length is looked at through the mask of the flag.
  have same : dlc &&& rxbdlcRtr ≠ 0 ↔
      (if dlc &&& rxbdlcRtr ≠ 0 then rxbdlcRtr else 0) &&& rxbdlcRtr ≠ 0 := by
    by_cases set : dlc &&& rxbdlcRtr ≠ 0
    · rw [if_pos set]
      exact iff_of_true set (by decide)
    · rw [if_neg set]
      exact iff_of_false set (by decide)
  unfold ownSidl
  rw [if_congr same rfl rfl]

/-- What SIDL of a frame is received as. -/
theorem ownSidl_parts {frame : CanFrame} (short : frame.canDlc ≤ 8) :
    let own := ownSidl (txSidl frame) (txDlc frame)
    own.setWidth 32 >>> 5 = sidOf frame &&& span 0 3 ∧
      (own &&& rxbsidlEid).setWidth 32 = eidOf frame >>> 16 &&& span 0 2 ∧
      (own &&& rxbsidlIde ≠ 0 ↔ frame.canId &&& canEffFlag ≠ 0) ∧
      (frame.canId &&& canEffFlag = 0 →
        (own &&& rxbsidlSrr ≠ 0 ↔ frame.canId &&& canRtrFlag ≠ 0)) := by
  -- Only five bits of the identifier and the two flags reach SIDL, which are few enough to try.
  have parts := sidl_parts ((sidOf frame).setWidth 3) ((eidOf frame >>> 16).setWidth 2)
    (decide (frame.canId &&& canEffFlag ≠ 0)) (decide (frame.canId &&& canRtrFlag ≠ 0))
  have own : ownSidl (txSidl frame) (txDlc frame) =
      ownSidl (txSidl frame) (if frame.canId &&& canRtrFlag ≠ 0 then rxbdlcRtr else 0) := by
    rw [ownSidl_flag, if_congr (txDlc_parts short).2 rfl rfl]
  -- The spans are written as the words that simp makes of them in the parts.
  have seven : (span 0 3 : BitVec 32) = 7 := by decide
  have three : (span 0 2 : BitVec 32) = 3 := by decide
  simp only [decide_eq_true_eq, decide_eq_false_iff_not, not_not,
    setWidth_setWidth _ (show 3 ≤ 32 by omega),
    setWidth_setWidth _ (show 2 ≤ 32 by omega)] at parts
  rw [own]
  rw [seven, three] at parts ⊢
  exact parts

/-- The standard part of an identifier is read back from two registers. -/
theorem standard_parts {frame : CanFrame} (short : frame.canDlc ≤ 8) :
    ((sidOf frame >>> 3).setWidth 8).setWidth 32 <<< 3 |||
        (ownSidl (txSidl frame) (txDlc frame)).setWidth 32 >>> 5 =
      sidOf frame &&& span 0 11 := by
  -- The two registers hold the bits from 3 on and those below.
  have parts : (span 3 8 ||| span 0 3 : BitVec 32) = span 0 11 := by decide
  rw [(ownSidl_parts short).1, setWidth_setWidth _ (by omega), shiftDown_up,
    ← BitVec.and_or_distrib_left, parts]

/-- The registers of an extended identifier are read back as its bits. -/
theorem extended_parts {frame : CanFrame} (short : frame.canDlc ≤ 8)
    (extended : frame.canId &&& canEffFlag ≠ 0) :
    setByte (ownSidl (txSidl frame) (txDlc frame) &&& rxbsidlEid) 2 |||
        setByte ((getByte (eidOf frame) 1).setWidth 8) 1 |||
        setByte ((getByte (eidOf frame) 0).setWidth 8) 0 |||
        (((sidOf frame >>> 3).setWidth 8).setWidth 32 <<< 3 |||
          (ownSidl (txSidl frame) (txDlc frame)).setWidth 32 >>> 5) <<< 18 =
      frame.canId &&& span 0 29 := by
  -- The upper part of the identifier is the standard one, and the lower part its 18 other bits.
  have sid : sidOf frame = eidOf frame >>> 18 := by
    unfold sidOf exideOf
    rw [if_pos (by rw [if_pos extended]; decide)]
    rfl
  have byte : (0xff &&& span 0 8 : BitVec 32) = span 0 8 := by decide
  have parts : (span 16 2 ||| span 8 8 ||| span 0 8 ||| span 18 11 : BitVec 32) = span 0 29 := by
    decide
  have mask : canEffMask &&& span 0 29 = span 0 29 := by decide
  -- Each register covers a span of the identifier.
  rw [standard_parts short, sid, shiftDown_up]
  unfold setByte getByte
  rw [(ownSidl_parts short).2.1, setWidth_setWidth _ (by omega), setWidth_setWidth _ (by omega),
    BitVec.and_assoc, BitVec.and_assoc, byte, shiftDown_up, shiftDown_up, shiftDown_up,
    ← BitVec.and_or_distrib_left, ← BitVec.and_or_distrib_left, ← BitVec.and_or_distrib_left,
    parts, eidOf, BitVec.and_assoc, mask]

/-- The identifier of a frame is read back from a buffer that holds it. -/
theorem rxCanId_own {frame : CanFrame} (valid : frame.Valid) {buf : Nat → BitVec 8}
    (sidh : buf rxbsidhOff = (sidOf frame >>> 3).setWidth 8)
    (sidl : buf rxbsidlOff = ownSidl (txSidl frame) (txDlc frame))
    (eid8 : buf rxbeid8Off = (getByte (eidOf frame) 1).setWidth 8)
    (eid0 : buf rxbeid0Off = (getByte (eidOf frame) 0).setWidth 8)
    (dlc : buf rxbdlcOff = txDlc frame) : rxCanId buf = frame.canId := by
  -- Both flags are read where they were written, and the words are those of the identifier.
  obtain ⟨_, _, ide, srr⟩ := ownSidl_parts valid.canDlc
  have rtr := (txDlc_parts valid.canDlc).2
  have canId := valid.canId.format_or
  unfold rxCanId
  rw [sidh, sidl, eid8, eid0, dlc]
  dsimp only
  by_cases extended : frame.canId &&& canEffFlag ≠ 0
  · -- The flag of the format comes first, and the remote flag is in the byte of the length.
    rw [if_pos (ide.mpr extended)]
    rw [CanId.format_extended extended] at canId
    have word : canEffFlag ||| setByte (ownSidl (txSidl frame) (txDlc frame) &&& rxbsidlEid) 2 |||
        setByte ((getByte (eidOf frame) 1).setWidth 8) 1 |||
        setByte ((getByte (eidOf frame) 0).setWidth 8) 0 |||
        (((sidOf frame >>> 3).setWidth 8).setWidth 32 <<< 3 |||
          (ownSidl (txSidl frame) (txDlc frame)).setWidth 32 >>> 5) <<< 18 =
        frame.canId &&& span 0 29 ||| CanId.effFlag := by
      rw [BitVec.or_assoc, BitVec.or_assoc, BitVec.or_assoc, ← BitVec.or_assoc (setByte _ 2),
        ← BitVec.or_assoc (setByte _ 2 ||| _), extended_parts valid.canDlc extended, BitVec.or_comm]
      rfl
    rw [word, if_congr rtr rfl rfl]
    exact canId
  · -- There is no flag of the format, and SIDL has the remote flag.
    have standard := not_not.mp extended
    rw [if_neg (mt ide.mp extended), standard_parts valid.canDlc, if_congr (srr standard) rfl rfl]
    rw [CanId.format_standard standard] at canId
    have word : sidOf frame &&& span 0 11 = frame.canId &&& span 0 11 := by
      have mask : canSffMask &&& span 0 11 = span 0 11 := by decide
      unfold sidOf exideOf
      rw [if_neg (by rw [if_neg extended]; decide), BitVec.and_assoc, mask]
    rw [word]
    exact canId

/-- A frame that was written into a transmit buffer is read back from the controller. -/
theorem rxFrame_own {frame : CanFrame} (valid : frame.Valid) (txBufIdx : Nat)
    (stack regs : Nat → BitVec 8) {buf : Nat → BitVec 8}
    (holds : ∀ i, 1 ≤ i → i < spiTransferBufLen → buf i = ownBuffer
      (loadTxb (window 0 (txbdatOff + frame.canDlc) (hwTxBuf frame txBufIdx stack)) regs) (i - 1)) :
    SameFrame frame (rxFrame buf) := by
  -- The receive buffer holds the registers of the transmit buffer, but for the bits it does not
  -- keep.
  obtain ⟨_, sidh, sidl, eid8, eid0, dlc⟩ := hwTxBuf_header frame txBufIdx stack
  have len : txbdatOff + frame.canDlc = 6 + frame.canDlc := rfl
  have buffer : spiTransferBufLen = 14 := rfl
  -- All bytes but the one of SIDL are in the registers as they were sent.
  have sent : ∀ i, i + 1 < 6 + frame.canDlc →
      loadTxb (window 0 (txbdatOff + frame.canDlc) (hwTxBuf frame txBufIdx stack)) regs i =
        hwTxBuf frame txBufIdx stack (i + 1) := fun i inside => loadTxb_window _ regs (len ▸ inside)
  have copied : ∀ i, 1 ≤ i → i < 6 + frame.canDlc → i ≠ 2 →
      buf i = hwTxBuf frame txBufIdx stack i := by
    intro i positive inside other
    have short := valid.canDlc
    rw [holds i positive (by omega), ownBuffer, Function.update_of_ne (by omega), sent _ (by omega),
      Nat.sub_add_cancel positive]
  have own : buf rxbsidlOff = ownSidl (txSidl frame) (txDlc frame) := by
    rw [holds rxbsidlOff (by decide) (by decide), ownBuffer]
    refine (Function.update_self _ _ _).trans ?_
    rw [sent 1 (by omega), sent 4 (by omega), sidl, dlc]
  have length := (copied rxbdlcOff (by decide) (by show 5 < _; omega) (by decide)).trans dlc
  have canDlc : rxCanDlc buf = frame.canDlc := by
    rw [rxCanDlc, length]
    exact (txDlc_parts valid.canDlc).1
  refine ⟨?_, canDlc, ?_⟩
  · exact rxCanId_own valid ((copied 1 (by omega) (by omega) (by omega)).trans sidh) own
      ((copied 3 (by omega) (by omega) (by omega)).trans eid8)
      ((copied 4 (by omega) (by omega) (by omega)).trans eid0) length
  · -- The data is copied byte by byte, as far as the length goes.
    have data : window rxbdatOff frame.canDlc buf = frame.data.take frame.canDlc := by
      rw [← hwTxBuf_data valid txBufIdx stack]
      exact window_congr fun address low high =>
        copied address (Nat.le_trans (by decide) low) high (by
          have first : rxbdatOff = 6 := rfl
          omega)
    show (window rxbdatOff (rxCanDlc buf) buf ++ _).take frame.canDlc = _
    rw [canDlc, data, List.take_append_of_le_length, List.take_take, Nat.min_self]
    exact Nat.le_of_eq (by rw [List.length_take, valid.data, Nat.min_eq_left valid.canDlc])

/--
A valid frame that the controller sends and receives itself is delivered as it was.

The frame, the transmit buffer and the receive buffer, and all that they held before are any.
-/
theorem hwTx_hwRx (frame : CanFrame) (txBufIdx n : Nat) (stack regs : Nat → BitVec 8)
    (sender : Transmitter) (controller : Controller) (mosi : Bool) (receiver : Receiver)
    (valid : frame.Valid) (known : n < 2) :
    ∃ transfer received, (hwTx frame txBufIdx stack sender).transfers =
        sender.transfers ++ [transfer, [instructionRts (1 <<< txBufIdx)]] ∧
      (hwRx (spiRxbuf (controller.receiveOwn n (loadTxb transfer regs)) mosi) n true
        receiver).delivered = receiver.delivered ++ [received] ∧
      SameFrame frame received := by
  -- The bytes that the transfer clocks into the buffers are named, and the reading starts from
  -- them.
  refine ⟨_, _, hwTx_transfers frame txBufIdx stack sender, rfl, ?_⟩
  generalize built : controller.receiveOwn n _ = receiving
  have buffers := congrArg (fun controller => controller.buffers n) built
  have asks : Function.update (fun _ => (0 : BitVec 8)) rxbctrlOff (instructionReadRxb n) 0 =
      instructionReadRxb n := Function.update_self ..
  have full : Filled receiving n spiTransferBufLen fun i => receiving.buffers n (i - 1) :=
    fun _ _ _ => rfl
  -- The short transfer shows the frame of the whole buffer.
  rw [rxFrame_spiRxbuf_of_filled receiving known mosi asks receiver.rxBuf full]
  refine rxFrame_own valid txBufIdx stack regs fun i _ _ => ?_
  rw [← buffers]
  exact congrFun (Function.update_self n _ controller.buffers) (i - 1)

/-- A remote frame with a standard identifier. -/
def CanFrame.standardRemote : CanFrame where
  canId := 0x40000555
  canDlc := 3
  data := [1, 2, 3, 4, 5, 6, 7, 8]

/-- The frame comes back through the second receive buffer. -/
theorem hwTx_hwRx_standardRemote :
    ∃ transfer received,
      (hwTx .standardRemote 0 (fun _ => 0) ⟨fun _ => 0, []⟩).transfers =
          [] ++ [transfer, [instructionRts (1 <<< 0)]] ∧
        (hwRx (spiRxbuf (({ buffers := fun _ _ => 0, floating := fun _ => false } :
          Controller).receiveOwn 1 (loadTxb transfer fun _ => 0)) false) 1 true
            ⟨fun _ => 0, 0, 0, 0, []⟩).delivered = [] ++ [received] ∧
        SameFrame .standardRemote received :=
  hwTx_hwRx .standardRemote 0 1 (fun _ => 0) (fun _ => 0) ⟨fun _ => 0, []⟩
    { buffers := fun _ _ => 0, floating := fun _ => false } false ⟨fun _ => 0, 0, 0, 0, []⟩
    ⟨⟨by decide, by decide⟩, by decide, rfl⟩ (by decide)

end OpenwrtMisc.Mcp2515Banged
