import OpenwrtMisc.Mcp25xxfd.StartXmit
import OpenwrtMisc.Mcp25xxfd.RxRead

/-! A frame that is encoded for transmission is decoded to the same frame. -/

namespace OpenwrtMisc.Mcp25xxfd

open BitMask

/-- The identifier of a frame, in standard or in extended format. -/
inductive Identifier where
  | standard (id : BitVec 11)
  | extended (id : BitVec 29)
  deriving DecidableEq, Repr

/-- The frame has an extended identifier. -/
def Identifier.isExtended : Identifier → Bool
  | .standard _ => false
  | .extended _ => true

/-- The `can_id` of a frame: its identifier with `CAN_EFF_FLAG` and `CAN_RTR_FLAG`. -/
def Identifier.canId (identifier : Identifier) (rtr : Bool) : BitVec 32 :=
  let word :=
    match identifier with
    | .standard id => id.setWidth 32
    | .extended id => id.setWidth 32 ||| bit 31
  if rtr then word ||| bit 30 else word

/-- `mcp25xxfd_obj_to_le`, with the bytes in the order in which they are sent. -/
def cpuToLe32 (word : BitVec 32) : List UInt8 :=
  [UInt8.ofBitVec (word.extractLsb' 0 8), UInt8.ofBitVec (word.extractLsb' 8 8),
    UInt8.ofBitVec (word.extractLsb' 16 8), UInt8.ofBitVec (word.extractLsb' 24 8)]

/-- The object that is sent, as it stands in a FIFO of the receiver or, without data, in the TEF. -/
def FillMessage.object (txm : FillMessage) (ts : BitVec 32) (count : Nat) : List UInt8 :=
  cpuToLe32 txm.fillObj.id ++ cpuToLe32 txm.fillObj.flags ++ cpuToLe32 ts ++
    txm.fillData.take count

/-- The object has been read to its place in `fifo_data`. -/
def Queued.receive (queued : Queued) (obj : Nat) (bytes : List UInt8) : Queued :=
  { queued with fifoData := patch obj bytes queued.fifoData }

/-- The size of the command and of the header in front of the payload bytes of a message. -/
def fillHeaderSize : Nat := 2 + 8

/-- The number of payload bytes that are written. -/
def FillMessage.payload (txm : FillMessage) : Nat := txm.len - fillHeaderSize

/-- The state in which an object has been read to its place and queued. -/
def Delivery.receive {echo : EchoTable Nat} (dlcs : DlcTable) (obj : Nat) (bytes : List UInt8)
    (state : Delivery echo) : Delivery echo :=
  { state with queued := (transformRx dlcs obj (state.queued.receive obj bytes)).2 }

/-- The state in which an entry of the TEF has been read to its place and queued. -/
def Delivery.receiveTef {echo : EchoTable Nat} (tef : Nat) (bytes : List UInt8)
    (state : Delivery echo) : Delivery echo :=
  { state with queued := (transformTef tef (state.queued.receive tef bytes)).2 }

/-- The flags word of a CAN FD frame, as far as the frame decides it. -/
def fdFlags (canId : BitVec 32) (brs esi : Bool) (dlc : Nat) : BitVec 32 :=
  let flags := frameFlags canId (canidToMcpid canId).flags dlc
  let flags := if brs then flags ||| canObjFlagsBrs else flags
  let flags := if esi then flags ||| canObjFlagsEsi else flags
  flags ||| canObjFlagsFdf

/-- The message of a FIFO with this header and this many bytes of data. -/
def FillMessage.filled (payloadSize fifo : Nat) (id flags : BitVec 32) (len : Nat)
    (data : List UInt8) : FillMessage where
  fillObj := { id := id, flags := flags ||| BitVec.ofNat 32 fifo <<< canObjFlagsSeqShift }
  fillData := data.take len ++ List.replicate (payloadSize - len) 0
  len := fillHeaderSize + align4 len

/-- What a flags word says, field by field. -/
structure FlagsSay (flags : BitVec 32) (extended rtr brs fdf esi : Bool) (dlc seq : Nat) :
    Prop where
  dlc : ∀ i < 4, flags.getLsbD i = dlc.testBit i
  ide : flags.getLsbD 4 = extended
  rtr : flags.getLsbD 5 = rtr
  brs : flags.getLsbD 6 = brs
  fdf : flags.getLsbD 7 = fdf
  esi : flags.getLsbD 8 = esi
  seq : ∀ i < 7, flags.getLsbD (9 + i) = seq.testBit i

/-- A length is rounded up to the next one that a frame can have. -/
structure RoundsUp (len rounded : Nat) : Prop where
  valid : ∃ dlc < 16, dlc2len dlc = rounded
  le : len ≤ rounded
  least : ∀ dlc < 16, len ≤ dlc2len dlc → rounded ≤ dlc2len dlc

/--
The message that was filled for a FIFO carries this frame.

`fd` is the kind of the frame, and `frame` is what a receiver is to make of it.
-/
structure CarriesFrame (txm : FillMessage) (fifo : Nat) (fd : Bool) (frame : RxFrame) : Prop where
  aligned : 4 ∣ txm.payload
  covers : frame.len ≤ txm.payload
  /-- The data in the message is as long as the frame. -/
  complete : frame.data.length = frame.len
  received : ∀ (echo : EchoTable Nat) (ts : BitVec 32) (obj : Nat) (state : Delivery echo),
    let queued := state.receive .canFd obj (txm.object ts frame.len)
    let ret := processQueuedRx .canFd true obj queued
    ret = (if fd then canTransformRxFd .canFd true obj queued
      else canTransformRxNormal .canFd true obj queued) ∧
      ret.1 = 0 ∧ ret.2.handled = state.handled ++ [.delivered obj frame]
  sent : ∀ (echo : EchoTable Nat) (ts : BitVec 32) (tef : Nat) (state : Delivery echo),
    let entry := (txm.object ts 0).take tefReadSize
    let queued := state.receiveTef tef entry
    (transformTef tef (state.queued.receive tef entry)).1 = fifo ∧
      queued.queued.isTef tef = true ∧
      (processQueuedTef .canFd tef queued).slots = echo.canGetEchoSkb fifo state.slots ∧
      (processQueuedTef .canFd tef queued).txBytes = state.txBytes + frame.len

/-- A word is made of its four bytes. -/
theorem extractLsb'_bytes (word : BitVec 32) :
    word.extractLsb' 24 8 ++ word.extractLsb' 16 8 ++ word.extractLsb' 8 8 ++
      word.extractLsb' 0 8 = word := by
  -- Each byte continues the part of the word that lies above it.
  rw [BitVec.extractLsb'_append_extractLsb'_eq_extractLsb' (by rfl),
    BitVec.extractLsb'_append_extractLsb'_eq_extractLsb' (by rfl),
    BitVec.extractLsb'_append_extractLsb'_eq_extractLsb' (by rfl)]
  exact BitVec.extractLsb'_eq_self

/-- A word that was put to memory is read back. -/
theorem le32ToCpu_patch (word : BitVec 32) (start : Nat) {before rest : List UInt8}
    (memory : Nat → UInt8) :
    le32ToCpu (patch start (before ++ (cpuToLe32 word ++ rest)) memory) (start + before.length) =
      word := by
  -- The bytes of the word stand behind those that come before it, the lowest one first.
  have byte (i : Nat) (inside : i < 4) :
      patch start (before ++ (cpuToLe32 word ++ rest)) memory (start + before.length + i) =
        UInt8.ofBitVec (word.extractLsb' (8 * i) 8) := by
    have index : start + before.length + i = start + (before.length + i) := by omega
    rw [index, patch_inside (by simp [cpuToLe32]; omega), List.getElem_append_right (by omega)]
    simp only [Nat.add_sub_cancel_left]
    rw [List.getElem_append_left (by simpa [cpuToLe32] using inside)]
    match i, inside with
    | 0, _ | 1, _ | 2, _ | 3, _ => rfl
  have first := byte 0 (by omega)
  rw [Nat.add_zero] at first
  rw [le32ToCpu, first, byte 1 (by omega), byte 2 (by omega), byte 3 (by omega)]
  exact extractLsb'_bytes word

/-- The first two words of an object that was read are the header that was sent. -/
theorem objTsFromLe_patch (id flags : BitVec 32) (rest : List UInt8) (obj : Nat)
    (memory : Nat → UInt8) :
    (objTsFromLe (patch obj (cpuToLe32 id ++ (cpuToLe32 flags ++ rest)) memory) obj).id = id ∧
      (objTsFromLe (patch obj (cpuToLe32 id ++ (cpuToLe32 flags ++ rest)) memory) obj).flags =
        flags := by
  -- Each word is read where it was written.
  constructor
  · exact @le32ToCpu_patch id obj [] _ memory
  · exact @le32ToCpu_patch flags obj (cpuToLe32 id) _ memory

/-- A flag that is set under a condition, read bit by bit. -/
theorem getLsbD_ite_or (given : Prop) [Decidable given] (word flag : BitVec 32) (i : Nat) :
    (if given then word ||| flag else word).getLsbD i =
      (word.getLsbD i || decide given && flag.getLsbD i) := by
  -- The condition is met or not.
  by_cases holds : given
  · simp [holds]
  · simp [holds]

/-- A flag, read bit by bit. -/
theorem getLsbD_flag {flag : Nat} (inside : flag < 32) (i : Nat) :
    (bit flag : BitVec 32).getLsbD i = decide (i = flag) := by
  -- The word has the one bit.
  rw [BitVec.getLsbD_twoPow, decide_eq_true inside, Bool.true_and]
  exact decide_eq_decide.mpr eq_comm

/-- A number has no bits from its size on. -/
theorem testBit_above {n k i : Nat} (small : n < 2 ^ k) (above : k ≤ i) : n.testBit i = false :=
  Nat.testBit_lt_two_pow (Nat.lt_of_lt_of_le small (Nat.pow_le_pow_right (by omega) above))

/-- The flags of the format and of a remote frame, which are set twice. -/
theorem frameFlags_getLsbD (canId : BitVec 32) (dlc i : Nat) :
    (frameFlags canId (canidToMcpid canId).flags dlc).getLsbD i =
      ((BitVec.ofNat 32 dlc).getLsbD i || canId.getLsbD 31 && decide (i = 4) ||
        canId.getLsbD 30 && decide (i = 5)) := by
  have ide := getLsbD_flag (show 4 < 32 by omega) i
  have rtr := getLsbD_flag (show 5 < 32 by omega) i
  simp only [frameFlags, canidToMcpid, and_bit_ne_zero, canObjFlagsIde, canObjFlagsRtr]
  -- A flag that is set a second time makes no difference.
  cases canId.getLsbD 31 <;> cases canId.getLsbD 30 <;>
    simp only [BitVec.getLsbD_or, ide, rtr, if_true, if_false, Bool.false_eq_true] <;>
    cases (BitVec.ofNat 32 dlc).getLsbD i <;> cases decide (i = 4) <;> cases decide (i = 5) <;> simp

/-- The DLC that a flags word says. -/
theorem FlagsSay.dlc_eq {obj : ObjTs} {extended rtr brs fdf esi : Bool} {dlc seq : Nat}
    (say : FlagsSay obj.flags extended rtr brs fdf esi dlc seq) (inside : dlc < 16) :
    obj.dlc = dlc := by
  -- The masked word has the bits of the DLC, and no others.
  have same : obj.flags &&& canObjFlagsDlcMask = BitVec.ofNat 32 dlc := by
    refine BitMask.ext fun i => ?_
    rw [BitVec.getLsbD_and, canObjFlagsDlcMask, getLsbD_span_eq, BitVec.getLsbD_ofNat]
    by_cases low : i < 4
    · rw [say.dlc i low]
      simp [low, show i < 32 by omega]
    · have above := testBit_above (show dlc < 2 ^ 4 from inside) (Nat.not_lt.mp low)
      simp [low, above]
  rw [ObjTs.dlc, same, BitVec.toNat_ofNat]
  exact Nat.mod_eq_of_lt (by omega)

/-- The sequence number that a flags word says. -/
theorem FlagsSay.seq_eq {obj : ObjTs} {extended rtr brs fdf esi : Bool} {dlc seq : Nat}
    (say : FlagsSay obj.flags extended rtr brs fdf esi dlc seq) (inside : seq < 128) :
    obj.seq = seq := by
  -- Shifted down, the field starts at the lowest bit.
  have same : (obj.flags &&& canObjFlagsSeqMask) >>> canObjFlagsSeqShift = BitVec.ofNat 32 seq := by
    refine BitMask.ext fun i => ?_
    rw [BitVec.getLsbD_ushiftRight, BitVec.getLsbD_and, canObjFlagsSeqMask, canObjFlagsSeqShift,
      getLsbD_span_eq, BitVec.getLsbD_ofNat]
    by_cases low : i < 7
    · rw [say.seq i low]
      simp [show i < 32 by omega, show 9 + i < 16 by omega, show 9 + i < 32 by omega]
    · have above := testBit_above (show seq < 2 ^ 7 from inside) (Nat.not_lt.mp low)
      simp [show ¬ 9 + i < 16 by omega, above]
  rw [ObjTs.seq, same, BitVec.toNat_ofNat]
  exact Nat.mod_eq_of_lt (by omega)

/-- A flag of an object, read as a bit. -/
theorem ObjTs.has_bit (obj : ObjTs) (flag : Nat) : obj.has (bit flag) = obj.flags.getLsbD flag := by
  -- The mask of the flag has the one bit.
  rw [Bool.eq_iff_iff, ObjTs.has, decide_eq_true_eq]
  exact and_bit_ne_zero

/-- A word that is widened keeps its bits. -/
theorem getLsbD_widen {width : Nat} (fits : width ≤ 32) (word : BitVec width) (i : Nat) :
    (word.setWidth 32).getLsbD i = word.getLsbD i := by
  -- A bit is inside the word, or is clear in both.
  rw [BitVec.getLsbD_setWidth]
  by_cases inside : i < 32
  · simp [inside]
  · simp [BitVec.getLsbD_of_ge word i (by omega)]

/-- A `can_id` has the bits of the identifier, and the flag of a remote frame above it. -/
theorem Identifier.canId_standard (id : BitVec 11) (rtr : Bool) (i : Nat) :
    (Identifier.canId (.standard id) rtr).getLsbD i =
      (id.getLsbD i || rtr && decide (i = 30)) := by
  -- The flag is the one bit above the identifier.
  rw [Identifier.canId, getLsbD_ite_or, getLsbD_flag (by omega), Bool.decide_eq_true,
    getLsbD_widen (by omega)]

/-- An extended identifier has a flag of its own above that one. -/
theorem Identifier.canId_extended (id : BitVec 29) (rtr : Bool) (i : Nat) :
    (Identifier.canId (.extended id) rtr).getLsbD i =
      (id.getLsbD i || decide (i = 31) || rtr && decide (i = 30)) := by
  -- The flags are the two bits above the identifier.
  rw [Identifier.canId, getLsbD_ite_or, getLsbD_flag (by omega), Bool.decide_eq_true,
    BitVec.getLsbD_or, getLsbD_widen (by omega), getLsbD_flag (by omega)]

/-- The flags of a `can_id`. -/
theorem Identifier.canId_flags (identifier : Identifier) (rtr : Bool) :
    (identifier.canId rtr).getLsbD 31 = identifier.isExtended ∧
      (identifier.canId rtr).getLsbD 30 = rtr := by
  -- No identifier reaches up to the flags.
  cases identifier with
  | standard id =>
    rw [canId_standard, canId_standard, BitVec.getLsbD_of_ge id 31 (by omega),
      BitVec.getLsbD_of_ge id 30 (by omega)]
    simp [isExtended]
  | extended id =>
    rw [canId_extended, canId_extended, BitVec.getLsbD_of_ge id 31 (by omega),
      BitVec.getLsbD_of_ge id 30 (by omega)]
    simp [isExtended]

/-- An identifier is put to its fields and taken from them again. -/
theorem mcpidToCanid_canidToMcpid (identifier : Identifier) (rtr : Bool) {flags : BitVec 32}
    (ide : flags.getLsbD 4 = identifier.isExtended) (remote : flags.getLsbD 5 = rtr) :
    mcpidToCanid (canidToMcpid (identifier.canId rtr)).id flags = identifier.canId rtr := by
  -- The flags choose the format, and then the identifier is compared bit by bit.
  obtain ⟨extended, rtrFlag⟩ := identifier.canId_flags rtr
  simp only [mcpidToCanid, canidToMcpid, and_bit_ne_zero, canObjFlagsIde, canObjFlagsRtr, ide,
    remote, extended]
  refine BitMask.ext fun i => ?_
  rw [getLsbD_ite_or, getLsbD_flag (by omega), Bool.decide_eq_true]
  cases identifier with
  | standard id =>
    -- The identifier is the low field, and nothing is left of the other one.
    simp only [Identifier.isExtended, Bool.false_eq_true, if_false, BitVec.getLsbD_and,
      getLsbD_span_eq, Identifier.canId_standard]
    by_cases low : i < 11
    · simp [low, show i < 32 by omega, show i ≠ 30 by omega]
    · simp [low, BitVec.getLsbD_of_ge id i (by omega)]
  | extended id =>
    -- The upper eleven bits and the lower eighteen have changed their places, and change back.
    simp only [Identifier.isExtended, if_true, BitVec.getLsbD_or, BitVec.getLsbD_and,
      BitVec.getLsbD_shiftLeft, BitVec.getLsbD_ushiftRight, getLsbD_span_eq,
      Identifier.canId_extended]
    rw [getLsbD_flag (by omega)]
    -- Bit `i` went to `11 + i` when it is a low one, and to `i - 18` when it is a high one.
    by_cases low : i < 18
    · have index : 11 + i - 11 = i := by omega
      simp [low, index, show i < 32 by omega, show i ≠ 30 by omega, show i ≠ 31 by omega,
        show 11 + i < 29 by omega, show 11 + i < 32 by omega, show ¬ 11 + i < 11 by omega,
        show ¬ 18 + (11 + i) < 29 by omega]
    · by_cases high : i < 29
      · have index : 18 + (i - 18) = i := by omega
        simp [low, high, index, show i < 32 by omega, show i ≠ 30 by omega, show i ≠ 31 by omega,
          show i - 18 < 11 by omega, show i - 18 < 32 by omega,
          show ¬ 18 + (11 + i) < 29 by omega, show 18 ≤ i by omega]
      · simp [low, high, BitVec.getLsbD_of_ge id i (by omega), show ¬ 18 + (11 + i) < 29 by omega,
          show ¬ i - 18 < 11 by omega, show 18 ≤ i by omega]

/-- The mark of the driver on an entry of the TEF leaves the fields of the flags word alone. -/
theorem FlagsSay.istef {flags : BitVec 32} {extended rtr brs fdf esi : Bool} {dlc seq : Nat}
    (say : FlagsSay flags extended rtr brs fdf esi dlc seq) :
    FlagsSay (flags ||| canObjFlagsCustomIstef) extended rtr brs fdf esi dlc seq := by
  -- All fields lie below the mark.
  have below (i : Nat) (low : i < 16) :
      (flags ||| canObjFlagsCustomIstef).getLsbD i = flags.getLsbD i := by
    rw [canObjFlagsCustomIstef, getLsbD_set flags (by omega), decide_eq_false (by omega),
      Bool.or_false]
  constructor
  · intro i low
    rw [below i (by omega)]
    exact say.dlc i low
  · rw [below 4 (by omega)]
    exact say.ide
  · rw [below 5 (by omega)]
    exact say.rtr
  · rw [below 6 (by omega)]
    exact say.brs
  · rw [below 7 (by omega)]
    exact say.fdf
  · rw [below 8 (by omega)]
    exact say.esi
  · intro i low
    rw [below (9 + i) (by omega)]
    exact say.seq i low

/-- An object that was received has the header that was sent. -/
theorem header_receive {echo : EchoTable Nat} (txm : FillMessage) (dlcs : DlcTable)
    (ts : BitVec 32) (count obj : Nat) (state : Delivery echo) :
    ((state.receive dlcs obj (txm.object ts count)).queued.header obj).id = txm.fillObj.id ∧
      ((state.receive dlcs obj (txm.object ts count)).queued.header obj).flags =
        txm.fillObj.flags := by
  have header := objTsFromLe_patch txm.fillObj.id txm.fillObj.flags
    (cpuToLe32 ts ++ txm.fillData.take count) obj state.queued.fifoData
  -- Only the timestamp is shifted when the object is queued.
  simpa [Delivery.receive, Queued.receive, FillMessage.object, transformRx, addtoQueuedFifos]
    using header

/-- An object that was received has the data that was sent. -/
theorem data_receive {echo : EchoTable Nat} (txm : FillMessage) (dlcs : DlcTable)
    (ts : BitVec 32) {count : Nat} (enough : count ≤ txm.fillData.length) (obj : Nat)
    (state : Delivery echo) :
    (state.receive dlcs obj (txm.object ts count)).queued.data obj count =
      txm.fillData.take count := by
  have length : (txm.fillData.take count).length = count := List.length_take_of_le enough
  -- The data stands right behind the twelve bytes of the header.
  show window (obj + sizeofObjTs) count (patch obj (txm.object ts count) _) = _
  rw [FillMessage.object, ← patch_append]
  have behind := window_patch_same (obj + sizeofObjTs) (txm.fillData.take count)
    (patch obj (cpuToLe32 txm.fillObj.id ++ cpuToLe32 txm.fillObj.flags ++ cpuToLe32 ts)
      state.queued.fifoData)
  rw [length] at behind
  exact behind

/-- An entry of the TEF that was read has the header that was sent, with the driver's mark. -/
theorem header_receiveTef {echo : EchoTable Nat} (txm : FillMessage) (ts : BitVec 32) (tef : Nat)
    (state : Delivery echo) :
    let entry := (txm.object ts 0).take tefReadSize
    (objTsFromLe (state.queued.receive tef entry).fifoData tef).flags = txm.fillObj.flags ∧
      ((state.receiveTef tef entry).queued.header tef).flags =
        txm.fillObj.flags ||| canObjFlagsCustomIstef := by
  -- What is read of the entry ends inside of its third word.
  intro entry
  have parts : entry = cpuToLe32 txm.fillObj.id ++ (cpuToLe32 txm.fillObj.flags ++
      (cpuToLe32 ts).take 3) := rfl
  have header := objTsFromLe_patch txm.fillObj.id txm.fillObj.flags ((cpuToLe32 ts).take 3) tef
    state.queued.fifoData
  rw [← parts] at header
  constructor
  · exact header.2
  · show ((Function.update _ tef _ : Nat → ObjTs) tef).flags = _
    rw [Function.update_self]
    show ((Function.update _ tef _ : Nat → ObjTs) tef).flags = _
    rw [Function.update_self]
    show (objTsFromLe (patch tef entry state.queued.fifoData) tef).flags ||| _ = _
    rw [header.2]

/-- The bytes that are written are the length rounded up to whole words. -/
theorem align4_spec (len : Nat) : 4 ∣ align4 len ∧ len ≤ align4 len := by
  -- A length is rounded up by at most three.
  unfold align4
  omega

/-- A message that was filled with these fields carries the frame that they tell. -/
theorem carriesFrame_of {txm : FillMessage} {identifier : Identifier} {rtr brs fdf esi : Bool}
    {dlc fifo : Nat} {data : List UInt8} (inside : dlc < 16) (seq : fifo < 128)
    (classic : fdf = false → dlc ≤ 8 ∧ brs = false ∧ esi = false)
    (id : txm.fillObj.id = (canidToMcpid (identifier.canId rtr)).id)
    (say : FlagsSay txm.fillObj.flags identifier.isExtended rtr brs fdf esi dlc fifo)
    (filled : ∃ padding, txm.fillData = data ++ padding) (length : data.length = dlc2len dlc)
    (xfer : txm.len = 2 + 8 + align4 (dlc2len dlc)) :
    CarriesFrame txm fifo fdf
      { canId := identifier.canId rtr, brs := brs, esi := esi, len := dlc2len dlc
        data := data } := by
  -- The object is read back field by field, as the transmit and the receive side decode it.
  obtain ⟨padding, filled⟩ := filled
  obtain ⟨aligned, covers⟩ := align4_spec (dlc2len dlc)
  have payload : txm.payload = align4 (dlc2len dlc) := by
    rw [FillMessage.payload, xfer, fillHeaderSize, Nat.add_sub_cancel_left]
  have taken : txm.fillData.take (dlc2len dlc) = data := by
    rw [filled, ← length, List.take_left]
  have enough : dlc2len dlc ≤ txm.fillData.length := by
    rw [filled, List.length_append]
    omega
  refine ⟨by rw [payload]; exact aligned, by rw [payload]; exact covers, length, ?_, ?_⟩
  · -- The receiver finds the header and the data as they were filled in.
    intro echo ts obj state queued ret
    obtain ⟨sameId, sameFlags⟩ := header_receive txm .canFd ts (dlc2len dlc) obj state
    have bytes := data_receive txm .canFd ts enough obj state
    have told : FlagsSay (queued.queued.header obj).flags identifier.isExtended rtr brs fdf esi dlc
        fifo := by
      rw [sameFlags]
      exact say
    have delivered : queued.queued.data obj (dlc2len dlc) = data := bytes.trans taken
    have kind : (queued.queued.header obj).has canObjFlagsFdf = fdf := by
      rw [canObjFlagsFdf, ObjTs.has_bit, told.fdf]
    have dlcEq := told.dlc_eq inside
    have canId : mcpidToCanid (queued.queued.header obj).id (queued.queued.header obj).flags =
        identifier.canId rtr := by
      rw [sameId, id]
      exact mcpidToCanid_canidToMcpid identifier rtr told.ide told.rtr
    have dispatched : ret = (if fdf then canTransformRxFd .canFd true obj queued
        else canTransformRxNormal .canFd true obj queued) := by
      show processQueuedRx .canFd true obj queued = _
      rw [processQueuedRx, kind]
    refine ⟨dispatched, ?_⟩
    rw [dispatched]
    cases fdf with
    | true =>
      have brsEq : (queued.queued.header obj).has canObjFlagsBrs = brs := by
        rw [canObjFlagsBrs, ObjTs.has_bit, told.brs]
      have esiEq : (queued.queued.header obj).has canObjFlagsEsi = esi := by
        rw [canObjFlagsEsi, ObjTs.has_bit, told.esi]
      refine ⟨rfl, ?_⟩
      show queued.handled ++ [.delivered obj _] = _
      simp only [canId, brsEq, esiEq, dlcEq, DlcTable.canFd, delivered]
      rfl
    | false =>
      -- A classic frame has its DLC for a length, and no flags of CAN FD.
      obtain ⟨small, rfl, rfl⟩ := classic rfl
      refine ⟨rfl, ?_⟩
      show queued.handled ++ [.delivered obj _] = _
      simp only [canId, dlcEq, DlcTable.canFd, delivered]
      rw [dlc2len_classic dlc small]
      rfl
  · -- The entry of the TEF names the FIFO and the DLC by the same header.
    intro echo ts tef state entry queued
    obtain ⟨header, marked⟩ := header_receiveTef txm ts tef state
    have told : FlagsSay (queued.queued.header tef).flags identifier.isExtended rtr brs fdf esi dlc
        fifo := by
      rw [marked]
      exact say.istef
    refine ⟨?_, ?_, ?_, ?_⟩
    · show (objTsFromLe (state.queued.receive tef entry).fifoData tef).seq = fifo
      rw [← header] at say
      exact say.seq_eq seq
    · rw [Queued.isTef, canObjFlagsCustomIstef, ObjTs.has_bit, marked, canObjFlagsCustomIstef,
        getLsbD_set _ (by omega), decide_eq_true rfl, Bool.or_true]
    · show echo.canGetEchoSkb (queued.queued.header tef).seq state.slots = _
      rw [told.seq_eq seq]
    · show state.txBytes + dlc2len (queued.queued.header tef).dlc = _
      rw [told.dlc_eq inside]

/-- The first DLC with enough room rounds a length up. -/
theorem len2dlc_roundsUp {len : Nat} (fits : len ≤ 64) : RoundsUp len (dlc2len (len2dlc len)) := by
  have table : ∀ dlc < 16, ∀ other < 16, dlc < other → dlc2len dlc < dlc2len other := by decide
  -- The search finds a DLC, since the last one has room for every frame.
  cases found : (List.range 16).find? fun dlc => decide (len ≤ dlc2len dlc) with
  | none =>
    have last := List.find?_eq_none.mp found 15 (by decide)
    rw [decide_eq_true_eq] at last
    exact absurd fits last
  | some dlc =>
    have inside := List.mem_range.mp (List.mem_of_find?_eq_some found)
    have room := List.find?_some found
    rw [decide_eq_true_eq] at room
    have chosen : len2dlc len = dlc := by rw [len2dlc, found, Option.getD_some]
    rw [chosen]
    refine ⟨⟨dlc, inside, rfl⟩, room, fun other valid enough => ?_⟩
    -- A smaller DLC with room would have been found before.
    rcases Nat.lt_trichotomy dlc other with less | same | greater
    · exact Nat.le_of_lt (table dlc inside other valid less)
    · rw [same]
    · have before := (List.find?_range_eq_some.mp found).2.2 other greater
      simp [enough] at before

/-- The sequence number that is put to the flags word. -/
theorem seq_getLsbD {fifo : Nat} (inside : fifo < 128) (i : Nat) :
    (BitVec.ofNat 32 fifo <<< canObjFlagsSeqShift).getLsbD i =
      (decide (9 ≤ i) && fifo.testBit (i - 9)) := by
  -- Below the field nothing is set, and above it the number has no bit left.
  rw [BitVec.getLsbD_shiftLeft, BitVec.getLsbD_ofNat, canObjFlagsSeqShift]
  by_cases behind : 9 ≤ i
  · by_cases top : i < 16
    · simp [behind, show ¬ i < 9 by omega, show i < 32 by omega, show i - 9 < 32 by omega]
    · have none := testBit_above (show fifo < 2 ^ 7 from inside) (show 7 ≤ i - 9 by omega)
      simp [none]
  · simp [behind, show i < 9 by omega]

/-- A word with these bits says what its fields are. -/
theorem flagsSay_of_bits {flags : BitVec 32} {extended rtr brs fdf esi : Bool} {dlc fifo : Nat}
    (inside : dlc < 16)
    (bits : ∀ i, flags.getLsbD i =
      (decide (i < 32) && dlc.testBit i || extended && decide (i = 4) || rtr && decide (i = 5) ||
        brs && decide (i = 6) || esi && decide (i = 8) || fdf && decide (i = 7) ||
        decide (9 ≤ i) && fifo.testBit (i - 9))) :
    FlagsSay flags extended rtr brs fdf esi dlc fifo := by
  -- Each field is asked for bits that no other field has.
  have none (i : Nat) (above : 4 ≤ i) : dlc.testBit i = false :=
    testBit_above (show dlc < 2 ^ 4 from inside) above
  constructor
  · intro i low
    rw [bits]
    simp [show i < 32 by omega, show i ≠ 4 by omega, show i ≠ 5 by omega, show i ≠ 6 by omega,
      show i ≠ 7 by omega, show i ≠ 8 by omega, show ¬ 9 ≤ i by omega]
  · rw [bits]
    simp [none]
  · rw [bits]
    simp [none]
  · rw [bits]
    simp [none]
  · rw [bits]
    simp [none]
  · rw [bits]
    simp [none]
  · intro i low
    rw [bits, none (9 + i) (by omega)]
    simp [show 9 + i ≠ 4 by omega, show 9 + i ≠ 5 by omega, show 9 + i ≠ 6 by omega,
      show 9 + i ≠ 7 by omega, show 9 + i ≠ 8 by omega]

/-- The flags word of a CAN FD frame, whatever its `can_id` is. -/
theorem fdFlags_say (canId : BitVec 32) (brs esi : Bool) {dlc fifo : Nat} (inside : dlc < 16)
    (seq : fifo < 128) :
    FlagsSay (fdFlags canId brs esi dlc ||| BitVec.ofNat 32 fifo <<< canObjFlagsSeqShift)
      (canId.getLsbD 31) (canId.getLsbD 30) brs true esi dlc fifo := by
  -- Each bit of the word comes from the frame's flags, from the conditions or from the number.
  refine flagsSay_of_bits inside fun i => ?_
  simp only [fdFlags, canObjFlagsFdf, canObjFlagsEsi, canObjFlagsBrs]
  rw [BitVec.getLsbD_or, BitVec.getLsbD_or, getLsbD_ite_or, getLsbD_ite_or, frameFlags_getLsbD,
    getLsbD_flag (by omega), getLsbD_flag (by omega), getLsbD_flag (by omega), seq_getLsbD seq,
    Bool.decide_eq_true, Bool.decide_eq_true, BitVec.getLsbD_ofNat, Bool.true_and]

/-- The flags word of a classic frame, whatever its `can_id` is. -/
theorem frameFlags_say (canId : BitVec 32) {dlc fifo : Nat} (inside : dlc < 16)
    (seq : fifo < 128) :
    FlagsSay (frameFlags canId (canidToMcpid canId).flags dlc |||
        BitVec.ofNat 32 fifo <<< canObjFlagsSeqShift)
      (canId.getLsbD 31) (canId.getLsbD 30) false false false dlc fifo := by
  -- Each bit of the word comes from the frame's flags or from the number.
  refine flagsSay_of_bits inside fun i => ?_
  rw [BitVec.getLsbD_or, frameFlags_getLsbD, seq_getLsbD seq, BitVec.getLsbD_ofNat,
    Bool.false_and, Bool.false_and, Bool.false_and, Bool.or_false, Bool.or_false, Bool.or_false]

/-- The flags word of a CAN FD frame. -/
theorem fd_flagsSay (identifier : Identifier) (rtr brs esi : Bool) {dlc fifo : Nat}
    (inside : dlc < 16) (seq : fifo < 128) :
    FlagsSay (fdFlags (identifier.canId rtr) brs esi dlc |||
        BitVec.ofNat 32 fifo <<< canObjFlagsSeqShift)
      identifier.isExtended rtr brs true esi dlc fifo := by
  -- The two flags of the identifier are read from its word.
  obtain ⟨extended, remote⟩ := identifier.canId_flags rtr
  have say := fdFlags_say (identifier.canId rtr) brs esi inside seq
  rw [extended, remote] at say
  exact say

/-- The flags word of a classic frame. -/
theorem classic_flagsSay (identifier : Identifier) (rtr : Bool) {dlc fifo : Nat}
    (inside : dlc < 16) (seq : fifo < 128) :
    FlagsSay (frameFlags (identifier.canId rtr) (canidToMcpid (identifier.canId rtr)).flags dlc |||
        BitVec.ofNat 32 fifo <<< canObjFlagsSeqShift)
      identifier.isExtended rtr false false false dlc fifo := by
  -- The two flags of the identifier are read from its word.
  obtain ⟨extended, remote⟩ := identifier.canId_flags rtr
  have say := frameFlags_say (identifier.canId rtr) inside seq
  rw [extended, remote] at say
  exact say

/-- The message of a FIFO is the one that was filled last. -/
theorem transmitMessageCommon_message {echo : EchoTable Nat} (payloadSize : Nat) (spiAsync : Bool)
    (fifo : Nat) (obj : ObjHeader) (len : Nat) (data : List UInt8) (state : XmitState echo) :
    (transmitMessageCommon payloadSize spiAsync fifo obj len data state).2.transmitFifos fifo =
      .filled payloadSize fifo obj.id obj.flags len data := by
  -- The message is filled before it is handed over, so also where that fails.
  cases spiAsync with
  | true => exact Function.update_self _ _ _
  | false => exact Function.update_self _ _ _

/-- The message of a CAN FD frame is in the FIFO that it is for. -/
theorem transmitFdmessage_message {echo : EchoTable Nat} (dlcs : DlcTable) (payloadSize : Nat)
    (spiAsync : Bool) (fifo : Nat) (canId : BitVec 32) (len : Nat) (brs esi : Bool)
    (data : List UInt8) (state : XmitState echo) :
    let ret := transmitFdmessage dlcs payloadSize spiAsync fifo canId len brs esi data state
    ret.2.2.transmitFifos fifo =
      .filled payloadSize fifo (canidToMcpid canId).id
        (fdFlags canId brs esi (dlcs.canLen2dlc len)) (dlcs.canDlc2len (dlcs.canLen2dlc len))
        data :=
  transmitMessageCommon_message payloadSize spiAsync fifo _ _ data _

/-- So is the message of a classic frame. -/
theorem transmitMessage_message {echo : EchoTable Nat} (payloadSize : Nat) (spiAsync : Bool)
    (fifo : Nat) (canId : BitVec 32) {dlc : Nat} (small : dlc ≤ 8) (data : List UInt8)
    (state : XmitState echo) :
    (transmitMessage payloadSize spiAsync fifo canId dlc data state).2.2.transmitFifos fifo =
      .filled payloadSize fifo (canidToMcpid canId).id
        (frameFlags canId (canidToMcpid canId).flags dlc) dlc data := by
  -- The length is not cut, and the message is filled by the common part.
  have kept : (if dlc > 8 then 8 else dlc) = dlc := if_neg (by omega)
  have message := transmitMessageCommon_message payloadSize spiAsync fifo
    { canidToMcpid canId with flags := frameFlags canId (canidToMcpid canId).flags dlc } dlc data
    { state with txDlcUsage := countAt dlc state.txDlcUsage }
  simp only [transmitMessage, kept]
  exact message

/--
A frame that is sent from any transmit FIFO is decoded as it was.

A CAN FD frame of up to 64 bytes is padded to the next valid length, with the bytes behind its own
ones as they stand in the frame; a classic frame keeps its length.
-/
theorem transmit_carriesFrame (echo : EchoTable Nat) (payloadSize : Nat) (spiAsync : Bool)
    (identifier : Identifier) (rtr : Bool) (state : XmitState echo) {fifo : Nat}
    (seq : fifo < 128) :
    (∀ (len : Nat) (brs esi : Bool) (data : Vector UInt8 64), len ≤ 64 →
      RoundsUp len (dlc2len (len2dlc len)) ∧
        CarriesFrame ((transmitFdmessage .canFd payloadSize spiAsync fifo (identifier.canId rtr) len
            brs esi data.toList state).2.2.transmitFifos fifo) fifo true
          { canId := identifier.canId rtr, brs := brs, esi := esi, len := dlc2len (len2dlc len)
            data := data.toList.take (dlc2len (len2dlc len)) }) ∧
      ∀ (dlc : Nat) (data : Vector UInt8 8), dlc ≤ 8 →
        CarriesFrame ((transmitMessage payloadSize spiAsync fifo (identifier.canId rtr) dlc
            data.toList state).2.2.transmitFifos fifo) fifo false
          { canId := identifier.canId rtr, brs := false, esi := false, len := dlc
            data := data.toList.take dlc } := by
  -- The two parts are the two kinds of frames.
  constructor
  · -- The length is replaced by that of its DLC before anything is filled in.
    intro len brs esi data fits
    have rounds := len2dlc_roundsUp fits
    have inside := len2dlc_lt len
    have bounded := dlc2len_bounded _ inside
    refine ⟨rounds, ?_⟩
    have length : (data.toList.take (dlc2len (len2dlc len))).length = dlc2len (len2dlc len) :=
      List.length_take_of_le (by rw [Vector.length_toList]; exact bounded)
    rw [transmitFdmessage_message]
    apply carriesFrame_of inside seq
    · intro classic
      cases classic
    · rfl
    · exact fd_flagsSay identifier rtr brs esi inside seq
    · exact ⟨_, rfl⟩
    · exact length
    · rfl
  · -- A classic frame is as long as its DLC says.
    intro dlc data small
    have inside : dlc < 16 := by omega
    have valid := dlc2len_classic dlc small
    have length : (data.toList.take dlc).length = dlc2len dlc := by
      rw [valid, List.length_take_of_le (by rw [Vector.length_toList]; exact small)]
    have carries : CarriesFrame
        (.filled payloadSize fifo (canidToMcpid (identifier.canId rtr)).id
          (frameFlags (identifier.canId rtr) (canidToMcpid (identifier.canId rtr)).flags dlc) dlc
          data.toList) fifo false
        { canId := identifier.canId rtr, brs := false, esi := false, len := dlc2len dlc
          data := data.toList.take dlc } := by
      apply carriesFrame_of inside seq
      · intro _
        exact ⟨small, rfl, rfl⟩
      · rfl
      · exact classic_flagsSay identifier rtr inside seq
      · exact ⟨_, rfl⟩
      · exact length
      · rw [valid]
        rfl
    rw [transmitMessage_message payloadSize spiAsync fifo (identifier.canId rtr) small]
    rw [valid] at carries
    exact carries

/-- A CAN FD frame with an extended identifier, and a classic remote frame. -/
theorem transmit_carriesFrame_sample :
    CarriesFrame ((transmitFdmessage .canFd 64 true 7
        ((Identifier.extended 0x12345678).canId false) 9 true false
        (Vector.replicate 64 0x5a).toList
        (XmitState.opened (EchoTable.ofFunction Nat) classicLayout)).2.2.transmitFifos 7) 7 true
      { canId := (Identifier.extended 0x12345678).canId false, brs := true, esi := false, len := 12
        data := List.replicate 12 0x5a } ∧
      CarriesFrame ((transmitMessage 8 true 5 ((Identifier.standard 0x123).canId true) 3
          (Vector.replicate 8 0xa5).toList
          (XmitState.opened (EchoTable.ofFunction Nat) classicLayout)).2.2.transmitFifos 5) 5 false
        { canId := (Identifier.standard 0x123).canId true, brs := false, esi := false, len := 3
          data := List.replicate 3 0xa5 } :=
  ⟨((transmit_carriesFrame (EchoTable.ofFunction Nat) 64 true (.extended 0x12345678) false
      (XmitState.opened (EchoTable.ofFunction Nat) classicLayout) (by decide)).1 9 true false
      (Vector.replicate 64 0x5a) (by decide)).2,
    (transmit_carriesFrame (EchoTable.ofFunction Nat) 8 true (.standard 0x123) true
      (XmitState.opened (EchoTable.ofFunction Nat) classicLayout) (by decide)).2 3
      (Vector.replicate 8 0xa5) (by decide)⟩

end OpenwrtMisc.Mcp25xxfd
