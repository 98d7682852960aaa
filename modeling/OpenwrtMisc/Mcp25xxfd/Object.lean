import Mathlib.Logic.Function.Basic
import OpenwrtMisc.Lib.BitMask
import OpenwrtMisc.Lib.Patch

/-! The objects of the mcp25xxfd FIFOs, and the list in which the driver queues them. -/

namespace OpenwrtMisc.Mcp25xxfd

open BitMask

/-- What the driver relies on of `can_dlc2len` and `can_len2dlc`, whose tables are the kernel's. -/
structure DlcTable where
  canDlc2len : Nat → Nat
  canLen2dlc : Nat → Nat
  /-- A classic frame has as many bytes as its DLC says. -/
  classic : ∀ dlc ≤ 8, canDlc2len dlc = dlc
  /-- No frame has more bytes than the largest CAN FD frame. -/
  bounded : ∀ dlc < 16, canDlc2len dlc ≤ 64
  /-- Every length has a DLC, also one that is too long. -/
  inFlags : ∀ len, canLen2dlc len < 16

/-- The lengths of CAN FD frames, of which a DLC selects one with its low four bits. -/
def dlc2len (dlc : Nat) : Nat :=
  [0, 1, 2, 3, 4, 5, 6, 7, 8, 12, 16, 20, 24, 32, 48, 64].getD (dlc % 16) 0

/-- The DLCs of classic frames select themselves. -/
theorem dlc2len_classic : ∀ dlc ≤ 8, dlc2len dlc = dlc := by decide

/-- The longest CAN FD frame has 64 bytes. -/
theorem dlc2len_bounded : ∀ dlc < 16, dlc2len dlc ≤ 64 := by decide

/-- The first DLC whose frames have room for so many bytes, the last one when none has. -/
def len2dlc (len : Nat) : Nat :=
  ((List.range 16).find? fun dlc => decide (len ≤ dlc2len dlc)).getD 15

/-- A length is given one of the sixteen DLCs. -/
theorem len2dlc_lt (len : Nat) : len2dlc len < 16 := by
  rw [len2dlc]
  -- A length that no DLC has room for gets the last one.
  cases found : (List.range 16).find? fun dlc => decide (len ≤ dlc2len dlc) with
  | none => exact Nat.lt_succ_self 15
  | some dlc => exact List.mem_range.mp (List.mem_of_find?_eq_some found)

/-- The tables of the CAN FD lengths. -/
def DlcTable.canFd : DlcTable where
  canDlc2len := dlc2len
  canLen2dlc := len2dlc
  classic := dlc2len_classic
  bounded := dlc2len_bounded
  inFlags := len2dlc_lt

/-- `struct mcp25xxfd_obj_ts`, in the byte order of the host. -/
structure ObjTs where
  id : BitVec 32
  flags : BitVec 32
  ts : BitVec 32
  deriving DecidableEq, Repr

/-- The bits of the flags word. -/
def canObjFlagsDlcMask : BitVec 32 := span 0 4
def canObjFlagsIde : BitVec 32 := bit 4
def canObjFlagsRtr : BitVec 32 := bit 5
def canObjFlagsBrs : BitVec 32 := bit 6
def canObjFlagsFdf : BitVec 32 := bit 7
def canObjFlagsEsi : BitVec 32 := bit 8
def canObjFlagsSeqShift : Nat := 9
def canObjFlagsSeqMask : BitVec 32 := span 9 7
def canObjFlagsCustomIstef : BitVec 32 := bit 31

/-- A flag of the flags word is set. -/
def ObjTs.has (obj : ObjTs) (flag : BitVec 32) : Bool := decide (obj.flags &&& flag ≠ 0)

/-- The DLC in the flags word. -/
def ObjTs.dlc (obj : ObjTs) : Nat := (obj.flags &&& canObjFlagsDlcMask).toNat

/-- The sequence number in the flags word, which is the FIFO that a frame was sent from. -/
def ObjTs.seq (obj : ObjTs) : Nat :=
  ((obj.flags &&& canObjFlagsSeqMask) >>> canObjFlagsSeqShift).toNat

/-- The size of `struct mcp25xxfd_obj_ts`. -/
def sizeofObjTs : Nat := 12

/--
`priv->fifos.fifo_data` and `priv->queued_fifos`.

An object is named by its address in `fifo_data`, as the pointers in `rxb` name it.
-/
structure Queued where
  /-- The bytes as they were read from the controller. -/
  fifoData : Nat → UInt8
  /-- The headers that were put in the byte order of the host, by the address of their object. -/
  header : Nat → ObjTs
  /-- The first `rx_count` entries of `rxb`. -/
  rxb : List Nat

/-- `mcp25xxfd_clear_queued_fifos`. -/
def clearQueuedFifos (queued : Queued) : Queued := { queued with rxb := [] }

/-- `mcp25xxfd_addto_queued_fifos`, which shifts the unread byte of the timestamp out. -/
def addtoQueuedFifos (obj : Nat) (queued : Queued) : Queued :=
  let header := queued.header obj
  { queued with
    header := Function.update queued.header obj { header with ts := header.ts <<< 8 }
    rxb := queued.rxb ++ [obj] }

/-- So many bytes of the data of an object, which follow its header. -/
def Queued.data (queued : Queued) (obj count : Nat) : List UInt8 :=
  window (obj + sizeofObjTs) count queued.fifoData

end OpenwrtMisc.Mcp25xxfd
