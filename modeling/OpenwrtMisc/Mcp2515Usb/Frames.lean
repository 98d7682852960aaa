import OpenwrtMisc.Lib.Checked

/-! The records of the mcp2515-usb device: how frames are written to them and read from them. -/

namespace OpenwrtMisc.Mcp2515Usb

/-- `MCP2515DM_BM_DATA_START`, `MCP2515DM_BM_DATA_END` and the types of a record. -/
def dataStart : UInt8 := 0x55
def dataEnd : UInt8 := 0xaa
def typeCanFrame : UInt8 := 0
def typeErrorFrame : UInt8 := 3

/-- The flags of a record: `MCP2515DM_BM_EXTID`, `MCP2515DM_BM_RTR` and `MCP2515DM_BM_ERR_FLAG`. -/
def extid : UInt8 := 0x01
def rtr : UInt8 := 0x02
def errFlag : UInt8 := 0x04

/-- `CAN_EFF_FLAG`, `CAN_RTR_FLAG` and `CAN_ERR_FLAG`. -/
def canEffFlag : BitVec 32 := 0x80000000
def canRtrFlag : BitVec 32 := 0x40000000
def canErrFlag : BitVec 32 := 0x20000000

/-- `CAN_ERR_MASK`, which omits these three. -/
def canErrMask : BitVec 32 := 0x1fffffff

/-- A `can_frame`. -/
structure CanFrame where
  canId : BitVec 32
  canDlc : Nat
  data : Vector UInt8 8
  deriving DecidableEq

/-- `mcp2515dm_bm_tx_msg`, with the bytes of the identifier in their order. -/
structure TxMsg where
  begin : UInt8
  flags : UInt8
  id : Vector UInt8 4
  dlc : UInt8
  data : Vector UInt8 8
  end_ : UInt8

/-- `mcp2515dm_bm_rx_msg`, without the timestamp that nothing reads. -/
structure RxMsg where
  begin : UInt8
  type : UInt8
  flags : UInt8
  id : Vector UInt8 4
  dlc : UInt8
  data : Vector UInt8 8
  end_ : UInt8
  deriving DecidableEq

/-- The size of `mcp2515dm_bm_rx_msg`. -/
def rxMsgSize : Nat := 21

/-- `cpu_to_be32`. -/
def cpuToBe32 (value : BitVec 32) : Vector UInt8 4 :=
  Vector.ofFn fun i => UInt8.ofBitVec ((value >>> (24 - 8 * i.val)).setWidth 8)

/-- `be32_to_cpu`. -/
def be32ToCpu (bytes : Vector UInt8 4) : BitVec 32 :=
  bytes[0].toBitVec ++ bytes[1].toBitVec ++ bytes[2].toBitVec ++ bytes[3].toBitVec

/-- `memcpy` of so many bytes. -/
def memcpy (count : Nat) (source target : Vector UInt8 8) : Vector UInt8 8 :=
  Vector.ofFn fun i => if i.val < count then source[i] else target[i]

/-- The bytes of a block that was cleared. -/
def cleared : Vector UInt8 8 := Vector.replicate 8 0

/-- The message that `mcp2515dm_bm_start_xmit` makes of a frame. -/
def txMsg (cf : CanFrame) : TxMsg :=
  let flags : UInt8 := 0x00
  let flags := if cf.canId &&& canRtrFlag ≠ 0 then flags ||| rtr else flags
  let flags := if cf.canId &&& canEffFlag ≠ 0 then flags ||| extid else flags
  { begin := dataStart
    flags := flags
    id := cpuToBe32 (cf.canId &&& canErrMask)
    dlc := UInt8.ofNat cf.canDlc
    data := memcpy cf.canDlc cf.data cleared
    end_ := dataEnd }

/-- The `get_can_dlc` of the kernel. -/
def getCanDlc (dlc : Nat) : Nat := min dlc 8

/-- The states of the interface that the status of the device stands for. -/
inductive CanState where
  | errorActive
  | errorWarning
  | errorPassive
  | busOff
  deriving DecidableEq, Repr

/-- What is passed to `netif_rx`: the frame of a data record, which is noted, or an error frame. -/
inductive Delivery where
  | data (msg : RxMsg) (cf : CanFrame)
  | error (cf : CanFrame)

/-- What the receive path changes of the device. -/
structure RxDevice where
  /-- `netif_device_present`. -/
  present : Bool
  canState : CanState
  /-- The error counters for transmission and reception. -/
  bec : UInt8 × UInt8
  rxPackets : Nat
  rxBytes : Nat
  rxErrors : Nat
  txErrors : Nat
  rxOverErrors : Nat
  statBusOff : Nat
  statBusError : Nat
  statErrorWarning : Nat
  statErrorPassive : Nat
  /-- The calls of `can_bus_off`. -/
  busOffCalls : Nat
  netifRx : List Delivery

/-- The status messages of an error record. -/
def statusmsgOk : UInt8 := 0x00
def statusmsgOverrun : UInt8 := 0x01
def statusmsgBuslight : UInt8 := 0x02
def statusmsgBusheavy : UInt8 := 0x03
def statusmsgBusoff : UInt8 := 0x04
def statusmsgStuff : UInt8 := 0x20
def statusmsgForm : UInt8 := 0x21
def statusmsgAck : UInt8 := 0x23
def statusmsgBit0 : UInt8 := 0x24
def statusmsgBit1 : UInt8 := 0x25
def statusmsgCrc : UInt8 := 0x27

/-- `MCP2515DM_BM_RP_MASK`. -/
def rpMask : UInt8 := 0x7f

/-- Classes of errors in the identifier of an error frame. -/
def canErrCrtl : BitVec 32 := 0x00000004
def canErrProt : BitVec 32 := 0x00000008
def canErrAck : BitVec 32 := 0x00000020
def canErrBusoff : BitVec 32 := 0x00000040
def canErrBuserror : BitVec 32 := 0x00000080

/-- Adds a class to the identifier of an error frame. -/
def CanFrame.addClass (cf : CanFrame) (bits : BitVec 32) : CanFrame :=
  { cf with canId := cf.canId ||| bits }

/-- Writes a byte of the data. All indices below are those of one of the eight bytes. -/
def CanFrame.put (cf : CanFrame) (index : Nat) (byte : UInt8) : CanFrame :=
  { cf with data := cf.data.setIfInBounds index byte }

/-- Adds bits to a byte of the data. -/
def CanFrame.add (cf : CanFrame) (index : Nat) (bits : UInt8) : CanFrame :=
  cf.put index (cf.data.getD index 0 ||| bits)

/-- The first switch of `mcp2515dm_bm_rx_err_msg`: the state that a status stands for. -/
def errState (state : UInt8) (cf : CanFrame) (device : RxDevice) : CanFrame × RxDevice :=
  if state = statusmsgOk then
    -- `CAN_ERR_PROT_ACTIVE`.
    ((cf.addClass canErrProt).put 2 0x40, { device with canState := .errorActive })
  else if state = statusmsgBusoff then
    (cf.addClass canErrBusoff,
      { device with
        canState := .busOff
        statBusOff := device.statBusOff + 1
        busOffCalls := device.busOffCalls + 1 })
  else if state ∈ [statusmsgOverrun, statusmsgBuslight, statusmsgBusheavy] then
    (cf.addClass canErrCrtl, device)
  else
    (cf.addClass (canErrProt ||| canErrBuserror),
      { device with canState := .errorWarning, statBusError := device.statBusError + 1 })

/-- The errors that a status counts, of transmission and of reception. -/
def countedErrors (state : UInt8) : Bool × Bool :=
  (state ∈ [statusmsgAck, statusmsgBit0, statusmsgBit1],
    state ∈ [statusmsgCrc, statusmsgForm, statusmsgStuff, statusmsgOverrun])

/-- The second switch of `mcp2515dm_bm_rx_err_msg`: what the frame says about a status. -/
def errKind (state txerr rxerr : UInt8) (cf : CanFrame) (device : RxDevice) :
    CanFrame × RxDevice :=
  if state = statusmsgAck then (cf.addClass canErrAck, device)
  -- `CAN_ERR_PROT_UNSPEC`, `CAN_ERR_PROT_LOC_CRC_SEQ` and `CAN_ERR_PROT_LOC_CRC_DEL`.
  else if state = statusmsgCrc then ((cf.add 2 0x00).add 3 (0x08 ||| 0x18), device)
  -- `CAN_ERR_PROT_BIT0`, `CAN_ERR_PROT_BIT1`, `CAN_ERR_PROT_FORM` and `CAN_ERR_PROT_STUFF`.
  else if state = statusmsgBit0 then (cf.add 2 0x08, device)
  else if state = statusmsgBit1 then (cf.add 2 0x10, device)
  else if state = statusmsgForm then (cf.add 2 0x02, device)
  else if state = statusmsgStuff then (cf.add 2 0x04, device)
  else if state = statusmsgOverrun then
    -- `CAN_ERR_CRTL_RX_OVERFLOW`.
    (cf.put 1 0x01, { device with rxOverErrors := device.rxOverErrors + 1 })
  else if state = statusmsgBuslight then
    -- `CAN_ERR_CRTL_TX_WARNING` and `CAN_ERR_CRTL_RX_WARNING`.
    (cf.put 1 (if txerr > rxerr then 0x08 else 0x04),
      { device with
        canState := .errorWarning
        statErrorWarning := device.statErrorWarning + 1 })
  else if state = statusmsgBusheavy then
    -- `CAN_ERR_CRTL_TX_PASSIVE` and `CAN_ERR_CRTL_RX_PASSIVE`.
    (cf.put 1 (if txerr > rxerr then 0x20 else 0x10),
      { device with
        canState := .errorPassive
        statErrorPassive := device.statErrorPassive + 1 })
  else (cf, device)

/-- The errors are counted, and those of transmission told to the frame. -/
def countErrors (state : UInt8) (cf : CanFrame) (device : RxDevice) : CanFrame × RxDevice :=
  let (txErrors, rxErrors) := countedErrors state
  -- `CAN_ERR_PROT_TX`.
  (if txErrors then cf.add 2 0x80 else cf,
    { device with
      txErrors := if txErrors then device.txErrors + 1 else device.txErrors
      rxErrors := if rxErrors then device.rxErrors + 1 else device.rxErrors })

/-- A frame is passed on and counted. -/
def netifRx (delivery : Delivery) (canDlc : Nat) (device : RxDevice) : RxDevice :=
  { device with
    netifRx := device.netifRx ++ [delivery]
    rxPackets := device.rxPackets + 1
    rxBytes := device.rxBytes + canDlc }

/-- `mcp2515dm_bm_rx_err_msg`, with the result of `alloc_can_err_skb`. -/
def rxErrMsg (skb : Bool) (msg : RxMsg) (device : RxDevice) : RxDevice :=
  let state := msg.data[0]
  let rxerr := msg.data[1] &&& rpMask
  let txerr := msg.data[2]
  if !skb then device
  else
    -- The frame is allocated with `CAN_ERR_FLAG` and `CAN_ERR_DLC`.
    let cf : CanFrame := { canId := canErrFlag, canDlc := 8, data := cleared }
    let (cf, device) := errState state cf device
    let (cf, device) := errKind state txerr rxerr cf device
    let (cf, device) := countErrors state cf device
    let cf := (cf.put 6 txerr).put 7 rxerr
    netifRx (.error cf) cf.canDlc { device with bec := (txerr, rxerr) }

/-- The frame that the data branch of `mcp2515dm_bm_rx_can_msg` fills in. -/
def rxFrame (msg : RxMsg) : CanFrame :=
  let canId := be32ToCpu msg.id
  let canDlc := getCanDlc (msg.dlc &&& 0xf).toNat
  let canId := if msg.flags &&& extid ≠ 0 then canId ||| canEffFlag else canId
  if msg.flags &&& rtr ≠ 0 then { canId := canId ||| canRtrFlag, canDlc, data := cleared }
  else { canId, canDlc, data := memcpy canDlc msg.data cleared }

/-- `mcp2515dm_bm_rx_can_msg`, with the result of the allocation of the skb. -/
def rxCanMsg (skb : Bool) (msg : RxMsg) (device : RxDevice) : RxDevice :=
  if msg.type = typeErrorFrame ∧ msg.flags = errFlag then rxErrMsg skb msg device
  else if msg.type = typeCanFrame then
    if !skb then device else netifRx (.data msg (rxFrame msg)) (rxFrame msg).canDlc device
  -- An unknown type is only printed.
  else device

/-- The record of so many bytes. -/
def rxMsgOf (bytes : List UInt8) : RxMsg where
  begin := bytes.getD 0 0
  type := bytes.getD 1 0
  flags := bytes.getD 2 0
  id := Vector.ofFn fun i => bytes.getD (3 + i.val) 0
  dlc := bytes.getD 7 0
  data := Vector.ofFn fun i => bytes.getD (8 + i.val) 0
  end_ := bytes.getD 20 0

/-- A transfer that the device completed, and what is returned to its callback. -/
structure RxUrb where
  status : Int
  /-- The first `actual_length` bytes of the buffer. -/
  transfer : List UInt8
  /-- Whether the skb for a record can be allocated. -/
  skb : Nat → Bool
  /-- The result of `usb_submit_urb`. -/
  submit : Int

/-- `-ENOENT`, `-ESHUTDOWN` and `-ENODEV`. -/
def enoent : Int := 2
def eshutdown : Int := 108
def enodev : Int := 19

/-- The loop of `mcp2515dm_bm_read_int_callback`, whose records are read inside the transfer. -/
def readLoop (urb : RxUrb) : Nat → Nat → RxDevice → Except Fault RxDevice
  | 0, _, _ => .error .endless
  | turns + 1, pos, device =>
    if pos < urb.transfer.length then
      -- The rest is a format error.
      if pos + rxMsgSize > urb.transfer.length then .ok device
      else do
        let bytes ← copyBytes urb.transfer pos rxMsgSize
        let device := rxCanMsg (urb.skb (pos / rxMsgSize)) (rxMsgOf bytes) device
        readLoop urb turns (pos + rxMsgSize) device
    else .ok device

/-- The label `resubmit_urb` of `mcp2515dm_bm_read_int_callback`. -/
def resubmitUrb (urb : RxUrb) (device : RxDevice) : RxDevice :=
  -- `netif_device_detach`.
  if urb.submit = -enodev then { device with present := false } else device

/-- `mcp2515dm_bm_read_int_callback`; every turn of its loop takes at least one byte. -/
def readIntCallback (urb : RxUrb) (device : RxDevice) : Except Fault RxDevice :=
  if !device.present then .ok device
  else if urb.status = 0 then do
    let device ← readLoop urb (urb.transfer.length + 1) 0 device
    return resubmitUrb urb device
  else if urb.status = -enoent ∨ urb.status = -eshutdown then .ok device
  else .ok (resubmitUrb urb device)

end OpenwrtMisc.Mcp2515Usb
