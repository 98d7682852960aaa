import Mathlib.Logic.Function.Basic
import OpenwrtMisc.Lib.BitMask
import OpenwrtMisc.Lib.Patch

/-! The receive path of the mcp2515-banged driver, from the levels of MISO to the CAN frame. -/

namespace OpenwrtMisc.Mcp2515Banged

/-- `SPI_TRANSFER_BUF_LEN`, and the offsets of the bytes of a receive buffer. -/
def spiTransferBufLen : Nat := 14
def rxbctrlOff : Nat := 0
def rxbsidhOff : Nat := 1
def rxbsidlOff : Nat := 2
def rxbeid8Off : Nat := 3
def rxbeid0Off : Nat := 4
def rxbdlcOff : Nat := 5
def rxbdatOff : Nat := 6

/-- The flags of RXBSIDL and RXBDLC. -/
def rxbsidlIde : BitVec 8 := 0x08
def rxbsidlSrr : BitVec 8 := 0x10
def rxbsidlEid : BitVec 8 := 0x03
def rxbdlcLenMask : BitVec 8 := 0x0f
def rxbdlcRtr : BitVec 8 := 0x40

/-- `CAN_EFF_FLAG` and `CAN_RTR_FLAG`. -/
def canEffFlag : BitVec 32 := 0x80000000
def canRtrFlag : BitVec 32 := 0x40000000

/-- `INSTRUCTION_READ_RXB(n)`. -/
def instructionReadRxb (n : Nat) : BitVec 8 := if n = 0 then 0x90 else 0x94

/--
The controller: the thirteen bytes of its two receive buffers, and what MISO reads as where the
controller does not drive it.
-/
structure Controller where
  buffers : Nat → Nat → BitVec 8
  floating : List Bool → Bool

/-- The instruction that the first eight bits after the chip select make up. -/
def instructionOf (clocked : List Bool) : BitVec 8 :=
  (clocked.take 8).foldl (fun acc level => acc <<< 1 ||| if level then 1 else 0) 0

/-- A bit of a receive buffer, in the order in which it is shifted out. -/
def Controller.bufferBit (controller : Controller) (n position : Nat) : Bool :=
  (controller.buffers n (position / 8)).getLsbD (7 - position % 8)

/-- The level of MISO at a clock, from the levels that MOSI had at all clocks since the select. -/
def Controller.miso (controller : Controller) (clocked : List Bool) : Bool :=
  if clocked.length ≤ 8 then controller.floating clocked
  else if instructionOf clocked = instructionReadRxb 0 then
    controller.bufferBit 0 (clocked.length - 9)
  else if instructionOf clocked = instructionReadRxb 1 then
    controller.bufferBit 1 (clocked.length - 9)
  else controller.floating clocked

/-- The level of MOSI, and the levels that it had at the clocks since the select. -/
structure Bus where
  mosi : Bool
  clocked : List Bool

/-- A clock, which takes one bit from MISO into the byte that is being read. -/
def clock (controller : Controller) (dataIn : BitVec 8) (bus : Bus) : BitVec 8 × Bus :=
  let bus := { bus with clocked := bus.clocked ++ [bus.mosi] }
  (dataIn <<< 1 ||| if controller.miso bus.clocked then 1 else 0, bus)

/-- The loop over the bits of a byte, which puts bits on MOSI or leaves it alone. -/
def shiftByte (controller : Controller) (drive : Bool) : Nat → BitVec 8 → BitVec 8 → Bus →
    BitVec 8 × Bus
  | 0, _, dataIn, bus => (dataIn, bus)
  | left + 1, dataOut, dataIn, bus =>
    let bus := if drive then { bus with mosi := dataOut.getLsbD 7 } else bus
    let (dataIn, bus) := clock controller dataIn bus
    shiftByte controller drive left (dataOut <<< 1) dataIn bus

/-- The loop of `mcp2515_spi_trans` from byte `i` on. -/
def spiTransLoop (controller : Controller) (txBuf : Nat → BitVec 8) : Nat → Nat →
    (Nat → BitVec 8) → Bus → Nat → BitVec 8
  | 0, _, rxBuf, _ => rxBuf
  | left + 1, i, rxBuf, bus =>
    let (dataIn, bus) := shiftByte controller true 8 (txBuf i) 0 bus
    spiTransLoop controller txBuf left (i + 1) (Function.update rxBuf i dataIn) bus

/-- `mcp2515_spi_trans`, from the buffers to the new receive buffer. -/
def spiTrans (controller : Controller) (mosi : Bool) (len : Nat) (txBuf rxBuf : Nat → BitVec 8) :
    Nat → BitVec 8 :=
  spiTransLoop controller txBuf len 0 rxBuf { mosi := mosi, clocked := [] }

/-- The loop of `mcp2515_spi_rxbuf` from byte `i` on, which drives MOSI for the first byte only. -/
def spiRxbufLoop (controller : Controller) (txBuf : Nat → BitVec 8) : Nat → Nat → Nat →
    (Nat → BitVec 8) → Bus → Nat → BitVec 8
  | 0, _, _, rxBuf, _ => rxBuf
  | left + 1, i, dlc, rxBuf, bus =>
    let (dataIn, bus) := shiftByte controller (i < 1) 8 (txBuf 0) 0 bus
    let rxBuf := Function.update rxBuf i dataIn
    let dlc := if i = 5 then (dataIn &&& 0x0f).toNat else dlc
    if (i : Int) - 5 ≥ dlc then rxBuf
    else spiRxbufLoop controller txBuf left (i + 1) dlc rxBuf bus

/-- `mcp2515_spi_rxbuf`. -/
def spiRxbuf (controller : Controller) (mosi : Bool) (txBuf rxBuf : Nat → BitVec 8) :
    Nat → BitVec 8 :=
  spiRxbufLoop controller txBuf spiTransferBufLen 0 8 rxBuf { mosi := mosi, clocked := [] }

/-- A `can_frame`. -/
structure CanFrame where
  canId : BitVec 32
  canDlc : Nat
  data : List (BitVec 8)
  deriving DecidableEq, Repr

/-- `SET_BYTE`. -/
def setByte (val : BitVec 8) (byte : Nat) : BitVec 32 := val.setWidth 32 <<< (byte * 8)

/-- The `get_can_dlc` of the kernel. -/
def getCanDlc (dlc : Nat) : Nat := min dlc 8

/-- The identifier that `mcp2515_hw_rx` takes from a buffer. -/
def rxCanId (buf : Nat → BitVec 8) : BitVec 32 :=
  let standard := (buf rxbsidhOff).setWidth 32 <<< 3 ||| (buf rxbsidlOff).setWidth 32 >>> 5
  if buf rxbsidlOff &&& rxbsidlIde ≠ 0 then
    let canId := canEffFlag ||| setByte (buf rxbsidlOff &&& rxbsidlEid) 2 |||
      setByte (buf rxbeid8Off) 1 ||| setByte (buf rxbeid0Off) 0 ||| standard <<< 18
    if buf rxbdlcOff &&& rxbdlcRtr ≠ 0 then canId ||| canRtrFlag else canId
  else if buf rxbsidlOff &&& rxbsidlSrr ≠ 0 then standard ||| canRtrFlag else standard

/-- The length that `mcp2515_hw_rx` takes from a buffer. -/
def rxCanDlc (buf : Nat → BitVec 8) : Nat := getCanDlc (buf rxbdlcOff &&& rxbdlcLenMask).toNat

/-- The frame that `mcp2515_hw_rx` makes of a buffer; the skb comes with zeroed data. -/
def rxFrame (buf : Nat → BitVec 8) : CanFrame where
  canId := rxCanId buf
  canDlc := rxCanDlc buf
  data := window rxbdatOff (rxCanDlc buf) buf ++ List.replicate (8 - rxCanDlc buf) 0

/-- What `mcp2515_hw_rx` reads and writes. -/
structure Receiver where
  rxBuf : Nat → BitVec 8
  rxDropped : Nat
  rxPackets : Nat
  rxBytes : Nat
  delivered : List CanFrame

/-- `mcp2515_hw_rx`, given the transfer it uses and whether `alloc_can_skb` has an skb for it. -/
def hwRx (transfer : (Nat → BitVec 8) → (Nat → BitVec 8) → Nat → BitVec 8) (bufIdx : Nat)
    (skb : Bool) (state : Receiver) : Receiver :=
  if skb then
    let txBuf := Function.update (fun _ => 0) rxbctrlOff (instructionReadRxb bufIdx)
    let buf := transfer txBuf state.rxBuf
    let frame := rxFrame buf
    { state with
      rxBuf := buf
      rxPackets := state.rxPackets + 1
      rxBytes := state.rxBytes + frame.canDlc
      delivered := state.delivered ++ [frame] }
  else { state with rxDropped := state.rxDropped + 1 }

/-- A bus on which an instruction was sent, with whole bytes clocked since then. -/
structure Addressed (n i : Nat) (bus : Bus) : Prop where
  instruction : instructionOf bus.clocked = instructionReadRxb n
  length : bus.clocked.length = 8 * i
  sent : 1 ≤ i

/-- More clocks do not change which instruction was sent. -/
theorem instructionOf_append {clocked : List Bool} (long : 8 ≤ clocked.length) (later : List Bool) :
    instructionOf (clocked ++ later) = instructionOf clocked := by
  -- The instruction is a matter of the first eight levels.
  rw [instructionOf, instructionOf, List.take_append_of_le_length long]

/-- A controller that was asked for a buffer shifts it out from the ninth clock on. -/
theorem Controller.miso_addressed (controller : Controller) {n position : Nat} (known : n < 2)
    {clocked : List Bool} (instruction : instructionOf clocked = instructionReadRxb n)
    (length : clocked.length = position + 9) :
    controller.miso clocked = controller.bufferBit n position := by
  have past : ¬ clocked.length ≤ 8 := by omega
  have index : clocked.length - 9 = position := by omega
  rw [Controller.miso, if_neg past, instruction, index]
  -- The two instructions differ, so each of them selects its own buffer.
  match n, known with
  | 0, _ => rw [if_pos rfl]
  | 1, _ =>
    rw [if_neg (by decide), if_pos rfl]

/-- One bit more of a byte whose upper bits were already shifted in. -/
theorem shift_in (byte : BitVec 8) (left : Nat) :
    byte >>> (left + 1) <<< 1 ||| (if byte.getLsbD left then 1 else 0) = byte >>> left := by
  -- Bit zero is the new one, and every other bit moves up by one place.
  refine BitMask.ext fun i => ?_
  have bit : (if byte.getLsbD left then (1 : BitVec 8) else 0).getLsbD i =
      (decide (i = 0) && byte.getLsbD left) := by
    cases byte.getLsbD left <;> simp [BitVec.getLsbD_one]
  rw [BitVec.getLsbD_or, bit, BitVec.getLsbD_shiftLeft, BitVec.getLsbD_ushiftRight,
    BitVec.getLsbD_ushiftRight]
  cases i with
  | zero => simp
  | succ i =>
    have index : left + 1 + (i + 1 - 1) = left + (i + 1) := by omega
    rw [index]
    by_cases inside : i + 1 < 8
    · simp [inside]
    · have zero : byte.getLsbD (left + (i + 1)) = false := BitVec.getLsbD_of_ge _ _ (by omega)
      simp [zero]

/-- The bits that are left of a byte come in behind those that are there. -/
theorem shiftByte_addressed (controller : Controller) {n i : Nat} (known : n < 2) (drive : Bool) :
    ∀ (left : Nat) (dataOut : BitVec 8) (bus : Bus), left ≤ 8 → 1 ≤ i →
      instructionOf bus.clocked = instructionReadRxb n →
      bus.clocked.length + left = 8 * (i + 1) →
      ∃ next, shiftByte controller drive left dataOut
          (controller.buffers n (i - 1) >>> left) bus = (controller.buffers n (i - 1), next) ∧
        Addressed n (i + 1) next := by
  -- The induction is on the bits that are left; each of them is the next bit of the buffer.
  intro left
  induction left with
  | zero =>
    intro dataOut bus _ _ instruction length
    exact ⟨bus, by simp [shiftByte], instruction, by omega, by omega⟩
  | succ left ih =>
    intro dataOut bus inside sent instruction length
    obtain ⟨driven, same, shape⟩ : ∃ driven : Bus, driven.clocked = bus.clocked ∧
        (if drive then { bus with mosi := dataOut.getLsbD 7 } else bus) = driven :=
      ⟨_, by split <;> rfl, rfl⟩
    have long : 8 ≤ driven.clocked.length := by rw [same]; omega
    have still : instructionOf (driven.clocked ++ [driven.mosi]) = instructionReadRxb n := by
      rw [instructionOf_append long, same, instruction]
    have position : (driven.clocked ++ [driven.mosi]).length = 8 * (i - 1) + (7 - left) + 9 := by
      rw [List.length_append, same, List.length_singleton]
      omega
    have level := controller.miso_addressed known still position
    have byte : (8 * (i - 1) + (7 - left)) / 8 = i - 1 := by omega
    have bit : 7 - (8 * (i - 1) + (7 - left)) % 8 = left := by omega
    rw [Controller.bufferBit, byte, bit] at level
    simp only [shiftByte, shape, clock, level, shift_in]
    refine ih _ _ (by omega) sent still ?_
    change (driven.clocked ++ [driven.mosi]).length + left = 8 * (i + 1)
    omega

/-- A whole byte after the instruction is a byte of the buffer, whatever MOSI does meanwhile. -/
theorem shiftByte_byte (controller : Controller) {n i : Nat} (known : n < 2) (drive : Bool)
    (dataOut : BitVec 8) {bus : Bus} (addressed : Addressed n i bus) :
    ∃ next, shiftByte controller drive 8 dataOut 0 bus =
        (controller.buffers n (i - 1), next) ∧ Addressed n (i + 1) next := by
  have length := addressed.length
  have shifted := shiftByte_addressed controller known drive 8 dataOut bus (Nat.le_refl _)
    addressed.sent addressed.instruction (by omega)
  -- Nothing of the byte is there at first.
  have zero : controller.buffers n (i - 1) >>> 8 = 0 := by
    refine BitMask.ext fun j => ?_
    rw [BitVec.getLsbD_ushiftRight, BitVec.getLsbD_of_ge _ _ (by omega)]
    simp
  rwa [zero] at shifted

/-- The bits of a byte, the upper one first. -/
def bitsOf : Nat → BitVec 8 → List Bool
  | 0, _ => []
  | left + 1, dataOut => dataOut.getLsbD 7 :: bitsOf left (dataOut <<< 1)

/-- A byte that is driven is clocked out bit by bit. -/
theorem shiftByte_clocked (controller : Controller) (left : Nat) (dataOut dataIn : BitVec 8)
    (bus : Bus) :
    (shiftByte controller true left dataOut dataIn bus).2.clocked =
      bus.clocked ++ bitsOf left dataOut := by
  -- The induction is on the bits that are left.
  induction left generalizing dataOut dataIn bus with
  | zero => simp [shiftByte, bitsOf]
  | succ left ih =>
    rw [shiftByte, bitsOf]
    simp only [if_true, clock]
    rw [ih, List.append_assoc, List.singleton_append]

/-- The instruction byte is sent bit by bit, and both transfers send the same one. -/
theorem shiftByte_instruction (controller : Controller) {n : Nat} (known : n < 2) (mosi : Bool) :
    ∃ dataIn next, shiftByte controller true 8 (instructionReadRxb n) 0
        { mosi := mosi, clocked := [] } = (dataIn, next) ∧ Addressed n 1 next := by
  -- Nothing was clocked before, so the first eight bits are those of the instruction.
  have clocked := shiftByte_clocked controller 8 (instructionReadRxb n) 0
    { mosi := mosi, clocked := [] }
  generalize shiftByte controller true 8 (instructionReadRxb n) 0
    { mosi := mosi, clocked := [] } = result at clocked ⊢
  obtain ⟨dataIn, next⟩ := result
  rw [List.nil_append] at clocked
  refine ⟨dataIn, next, rfl, ?_, ?_, Nat.le_refl 1⟩
  · rw [clocked]
    match n, known with
    | 0, _ => decide
    | 1, _ => decide
  · rw [clocked]
    rfl

/-- The bytes of the buffer that the driver has read, from the first one after the instruction. -/
def Filled (controller : Controller) (n count : Nat) (rxBuf : Nat → BitVec 8) : Prop :=
  ∀ i, 1 ≤ i → i < count → rxBuf i = controller.buffers n (i - 1)

/-- One byte more is read. -/
theorem Filled.update {controller : Controller} {n count : Nat} {rxBuf : Nat → BitVec 8}
    (filled : Filled controller n count rxBuf) :
    Filled controller n (count + 1)
      (Function.update rxBuf count (controller.buffers n (count - 1))) := by
  -- The byte is the last one, or one that was read before.
  intro i positive inside
  by_cases last : i = count
  · rw [last, Function.update_self]
  · rw [Function.update_of_ne last]
    exact filled i positive (by omega)

/-- The full transfer reads every byte that it is long enough for. -/
theorem spiTransLoop_filled (controller : Controller) {n : Nat} (known : n < 2)
    (txBuf : Nat → BitVec 8) :
    ∀ (left i : Nat) (rxBuf : Nat → BitVec 8) (bus : Bus), Addressed n i bus →
      Filled controller n i rxBuf →
      Filled controller n (i + left) (spiTransLoop controller txBuf left i rxBuf bus) := by
  intro left
  induction left with
  | zero => exact fun i rxBuf bus _ filled => filled
  | succ left ih =>
    intro i rxBuf bus addressed filled
    -- A turn reads the byte behind those that were read before.
    obtain ⟨next, shifted, addressed⟩ := shiftByte_byte controller known true (txBuf i) addressed
    have count : i + (left + 1) = i + 1 + left := by omega
    rw [spiTransLoop, shifted, count]
    exact ih _ _ _ addressed filled.update

/-- The length nibble of a buffer. -/
def lengthNibble (controller : Controller) (n : Nat) : Nat :=
  (controller.buffers n 4 &&& 0x0f).toNat

/-- The short transfer reads the header and as many data bytes as the nibble asks for, or all. -/
theorem spiRxbufLoop_filled (controller : Controller) {n : Nat} (known : n < 2)
    (txBuf : Nat → BitVec 8) :
    ∀ (left i dlc : Nat) (rxBuf : Nat → BitVec 8) (bus : Bus), Addressed n i bus →
      Filled controller n i rxBuf → i + left = spiTransferBufLen →
      dlc = (if i ≤ 5 then 8 else lengthNibble controller n) →
      Filled controller n (min spiTransferBufLen (6 + lengthNibble controller n))
        (spiRxbufLoop controller txBuf left i dlc rxBuf bus) := by
  -- The loop ends behind the last byte asked for, or where the buffer ends.
  intro left
  induction left with
  | zero =>
    intro i dlc rxBuf bus _ filled whole _
    rw [Nat.add_zero] at whole
    subst whole
    exact fun j positive inside => filled j positive (by omega)
  | succ left ih =>
    intro i dlc rxBuf bus addressed filled whole current
    have sent := addressed.sent
    obtain ⟨next, shifted, addressed⟩ :=
      shiftByte_byte controller known (decide (i < 1)) (txBuf 0) addressed
    rw [spiRxbufLoop, shifted]
    have filled := filled.update
    simp only
    by_cases before : i < 5
    · -- Before the length is known nothing ends the loop.
      have dlc : dlc = 8 := by rw [current, if_pos (by omega)]
      have goes : ¬ ((i : Int) - 5 ≥ ((8 : Nat) : Int)) := by omega
      rw [if_neg (show ¬ i = 5 by omega), dlc, if_neg goes]
      exact ih _ _ _ _ addressed filled (by omega) (by rw [if_pos (by omega)])
    · have known : (if i = 5 then (controller.buffers n (i - 1) &&& 0x0f).toNat else dlc) =
          lengthNibble controller n := by
        by_cases here : i = 5
        · subst here
          rfl
        · rw [if_neg here, current, if_neg (by omega)]
      rw [known]
      by_cases stop : (i : Int) - 5 ≥ (lengthNibble controller n : Int)
      · rw [if_pos stop]
        exact fun j positive inside => filled j positive (by omega)
      · rw [if_neg stop]
        exact ih _ _ _ _ addressed filled (by omega) (by rw [if_neg (by omega)])

/-- The frame depends on the header and on the data bytes that its length tells of. -/
theorem rxFrame_congr {first second : Nat → BitVec 8}
    (same : ∀ i, 1 ≤ i → i < 6 + rxCanDlc second → first i = second i) :
    rxFrame first = rxFrame second := by
  -- The five bytes of the header are read for every length.
  have sidh : first rxbsidhOff = second rxbsidhOff := same 1 (by omega) (by omega)
  have sidl : first rxbsidlOff = second rxbsidlOff := same 2 (by omega) (by omega)
  have eid8 : first rxbeid8Off = second rxbeid8Off := same 3 (by omega) (by omega)
  have eid0 : first rxbeid0Off = second rxbeid0Off := same 4 (by omega) (by omega)
  have dlc : first rxbdlcOff = second rxbdlcOff := same 5 (by omega) (by omega)
  have length : rxCanDlc first = rxCanDlc second := by rw [rxCanDlc, rxCanDlc, dlc]
  have canId : rxCanId first = rxCanId second := by
    simp only [rxCanId, sidh, sidl, eid8, eid0, dlc]
  have data : window rxbdatOff (rxCanDlc second) first =
      window rxbdatOff (rxCanDlc second) second := by
    refine window_congr fun address lower upper => same address ?_ upper
    exact Nat.le_trans (by decide) lower
  rw [rxFrame, rxFrame, canId, length, data]

/-- The full transfer reads the whole buffer. -/
theorem spiTrans_filled (controller : Controller) {n : Nat} (known : n < 2) (mosi : Bool)
    {txBuf : Nat → BitVec 8} (asks : txBuf 0 = instructionReadRxb n) (stale : Nat → BitVec 8) :
    Filled controller n spiTransferBufLen
      (spiTrans controller mosi spiTransferBufLen txBuf stale) := by
  -- The first byte is the instruction, and each one behind it reads the next of the buffer.
  obtain ⟨dataIn, next, shifted, addressed⟩ := shiftByte_instruction controller known mosi
  have nothing (rxBuf : Nat → BitVec 8) : Filled controller n 1 rxBuf :=
    fun i positive inside => by omega
  rw [spiTrans, spiTransferBufLen, spiTransLoop, asks, shifted]
  exact spiTransLoop_filled controller known txBuf 13 1 _ next addressed (nothing _)

/-- The short transfer reads the header and the data that the length tells of. -/
theorem spiRxbuf_filled (controller : Controller) {n : Nat} (known : n < 2) (mosi : Bool)
    {txBuf : Nat → BitVec 8} (asks : txBuf 0 = instructionReadRxb n) (stale : Nat → BitVec 8) :
    Filled controller n (min spiTransferBufLen (6 + lengthNibble controller n))
      (spiRxbuf controller mosi txBuf stale) := by
  -- The first byte is the instruction, and the loop goes on as far as the length says once it is
  -- read.
  obtain ⟨dataIn, next, shifted, addressed⟩ := shiftByte_instruction controller known mosi
  have nothing (rxBuf : Nat → BitVec 8) : Filled controller n 1 rxBuf :=
    fun i positive inside => by omega
  have goes : ¬ (((0 : Nat) : Int) - 5 ≥ ((8 : Nat) : Int)) := by decide
  rw [spiRxbuf, spiTransferBufLen, spiRxbufLoop, asks]
  simp only [Nat.lt_one_iff, decide_true, shifted, if_neg (show ¬ 0 = 5 by decide), if_neg goes]
  exact spiRxbufLoop_filled controller known txBuf 13 1 8 _ next addressed (nothing _) rfl rfl

/-- A short transfer leaves the frame of any memory that has the buffer after its first byte. -/
theorem rxFrame_spiRxbuf_of_filled (controller : Controller) {n : Nat} (known : n < 2)
    (mosi : Bool) {txBuf : Nat → BitVec 8} (asks : txBuf 0 = instructionReadRxb n)
    (stale : Nat → BitVec 8) {buf : Nat → BitVec 8}
    (full : Filled controller n spiTransferBufLen buf) :
    rxFrame (spiRxbuf controller mosi txBuf stale) = rxFrame buf := by
  have short := spiRxbuf_filled controller known mosi asks stale
  -- The nibble that ends the transfer is the one that the frame's length is clamped from.
  have length : rxCanDlc buf = min (lengthNibble controller n) 8 := by
    rw [rxCanDlc, full rxbdlcOff (by decide) (by decide)]
    rfl
  refine rxFrame_congr fun i positive inside => ?_
  rw [length] at inside
  have buffer : spiTransferBufLen = 14 := rfl
  rw [full i positive (by omega), short i positive (by omega)]

/-- The short transfer leaves the frame that the full transfer would have left. -/
theorem rxFrame_spiRxbuf (controller : Controller) {n : Nat} (known : n < 2)
    (mosi : Bool) {txBuf : Nat → BitVec 8} (asks : txBuf 0 = instructionReadRxb n)
    (stale stale' : Nat → BitVec 8) :
    rxFrame (spiRxbuf controller mosi txBuf stale) =
      rxFrame (spiTrans controller mosi spiTransferBufLen txBuf stale') :=
  rxFrame_spiRxbuf_of_filled controller known mosi asks stale
    (spiTrans_filled controller known mosi asks stale')

/-- Each number of a buffer asks for one of the two buffers. -/
theorem instructionReadRxb_known (bufIdx : Nat) :
    ∃ n < 2, instructionReadRxb bufIdx = instructionReadRxb n := by
  -- Each number but zero asks for the second buffer.
  by_cases first : bufIdx = 0
  · exact ⟨0, by omega, by rw [first]⟩
  · exact ⟨1, by omega, by rw [instructionReadRxb, if_neg first]; rfl⟩

/-- Fast receive delivers what full receive delivers, with the same statistics. -/
theorem hwRx_spiRxbuf_eq (controller : Controller) (mosi : Bool) (bufIdx : Nat) (skb : Bool)
    (state : Receiver) :
    let fast := hwRx (spiRxbuf controller mosi) bufIdx skb state
    let full := hwRx (spiTrans controller mosi spiTransferBufLen) bufIdx skb state
    fast.delivered = full.delivered ∧ fast.rxPackets = full.rxPackets ∧
      fast.rxBytes = full.rxBytes ∧ fast.rxDropped = full.rxDropped := by
  intro fast full
  -- Without an skb neither of them reads anything.
  cases skb with
  | false => exact ⟨rfl, rfl, rfl, rfl⟩
  | true =>
    obtain ⟨n, known, asks⟩ := instructionReadRxb_known bufIdx
    have instruction : Function.update (fun _ => (0 : BitVec 8)) rxbctrlOff
        (instructionReadRxb bufIdx) 0 = instructionReadRxb n := by
      rw [← asks]
      exact Function.update_self ..
    have same := rxFrame_spiRxbuf controller known mosi instruction state.rxBuf state.rxBuf
    refine ⟨?_, rfl, ?_, rfl⟩
    · simp only [fast, full, hwRx, if_true, same]
    · simp only [fast, full, hwRx, if_true, same]

end OpenwrtMisc.Mcp2515Banged
