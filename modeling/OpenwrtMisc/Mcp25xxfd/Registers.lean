import OpenwrtMisc.Lib.Patch
import OpenwrtMisc.Mcp25xxfd.Gpio
import OpenwrtMisc.Mcp25xxfd.Setup

/-! The registers of the controller's FIFOs, written byte by byte, and how the driver sets them. -/

namespace OpenwrtMisc.Mcp25xxfd

open BitMask

/-- The bits of the registers FIFOCON. -/
def fifoconTfnrfnie : BitVec 32 := bit 0
def fifoconTfhrfhie : BitVec 32 := bit 1
def fifoconTferffie : BitVec 32 := bit 2
def fifoconRxovie : BitVec 32 := bit 3
def fifoconTxatie : BitVec 32 := bit 4
def fifoconRxtsen : BitVec 32 := bit 5
def fifoconTxen : BitVec 32 := bit 7
def fifoconUinc : BitVec 32 := bit 8
def fifoconFreset : BitVec 32 := bit 10
def fifoconTxpriShift : Nat := 16
def fifoconTxatShift : Nat := 21
def fifoconTxatOneShot : BitVec 32 := 0
def fifoconTxatThreeShot : BitVec 32 := 1
def fifoconTxatUnlimited : BitVec 32 := 2
def fifoconFsizeShift : Nat := 24
def fifoconPlsizeShift : Nat := 29

/-- The values of PLSIZE for payloads of 8 and of 64 bytes. -/
def plsize8 : BitVec 32 := 0
def plsize64 : BitVec 32 := 7

/-- The addresses of the first two registers of a FIFO, where FIFO 0 is the transmit queue. -/
def fifocon (fifo : Nat) : Nat := 0x5C + 12 * fifo - 12
def fifosta (fifo : Nat) : Nat := 0x60 + 12 * fifo - 12

/-- The register that holds the control byte of a filter, and the place of the byte in it. -/
def fltcon (filter : Nat) : Nat := 0x1D0 + (filter &&& 0x1c)
def filconShift (filter : Nat) : Nat := (filter &&& 3) * 8
def filconMask (filter : Nat) : BitVec 32 := span 0 4 <<< filconShift filter
def fifoconFlten (filter : Nat) : BitVec 32 := bit (7 + filconShift filter)

/-- A byte of a word, as the bus carries it: the lowest one first. -/
def byteOf (word : BitVec 32) (k : Nat) : BitVec 8 := word.extractLsb' (8 * k) 8

/-- The bits of the second byte of FIFOCON that act when they are written, UINC and FRESET. -/
def strobes : BitVec 8 := byteOf (fifoconUinc ||| fifoconFreset) 1

/-- The bits of FIFOSTA that only the controller changes; the other ones a zero clears. -/
def liveFlags : BitVec 8 := span 0 3

/-- A byte lies in the block of the FIFO registers. -/
def FifoByte (address : Nat) : Prop := fifocon 0 ≤ address ∧ address < fifocon 32

instance (address : Nat) : Decidable (FifoByte address) := inferInstanceAs (Decidable (_ ∧ _))

/-- What a byte of the registers reads as after it was written. -/
def readBack (address : Nat) (old byte : BitVec 8) : BitVec 8 :=
  if FifoByte address then
    match (address - fifocon 0) % 12 with
    -- FIFOCON keeps what is written, but for the bits that act at once and read as zero.
    | 0 | 2 | 3 => byte
    | 1 => byte &&& ~~~strobes
    -- Of FIFOSTA there are flags to clear in the first byte alone, and FIFOUA is read-only.
    | 4 => old &&& (byte ||| liveFlags)
    | _ => old
  else byte

/-- The FIFO whose user address a written byte increments, if any. -/
def increments (address : Nat) (byte : BitVec 8) : List Nat :=
  if FifoByte address ∧ (address - fifocon 0) % 12 = 1 ∧ byte.getLsbD 0 then
    [(address - fifocon 0) / 12]
  else []

/-- The registers of the controller, with what was done to them. -/
structure Sfr where
  register : Nat → BitVec 8
  /-- The FIFOs whose user address was incremented, in order. -/
  incremented : List Nat
  /-- The addresses of the bytes that were written, in order. -/
  written : List Nat

/-- The controller receives one byte of a write. -/
def Sfr.writeByte (address : Nat) (byte : BitVec 8) (sfr : Sfr) : Sfr where
  register :=
    Function.update sfr.register address (readBack address (sfr.register address) byte)
  incremented := sfr.incremented ++ increments address byte
  written := sfr.written ++ [address]

/-- The controller receives the bytes of a write, each for the address after the last one. -/
def Sfr.write : Nat → List (BitVec 8) → Sfr → Sfr
  | _, [], sfr => sfr
  | address, byte :: rest, sfr => Sfr.write (address + 1) rest (sfr.writeByte address byte)

/-- `mcp25xxfd_cmd_writen`. -/
def Sfr.cmdWriten (spi : Bool) (reg : Nat) (bytes : List (BitVec 8)) (sfr : Sfr) : Int × Sfr :=
  if spi then (0, sfr.write reg bytes) else (-eio, sfr)

/-- `mcp25xxfd_cmd_write_mask`, which sends the bytes from the first to the last one of a mask. -/
def Sfr.cmdWriteMask (spi : Bool) (reg : Nat) (data mask : BitVec 32) (sfr : Sfr) : Int × Sfr :=
  let first := firstByte mask
  let len := lastByte mask - first + 1
  if mask = 0 then (-einval, sfr)
  else if spi then (0, sfr.write (reg + first) (window first len (byteOf data)))
  else (-eio, sfr)

/-- `mcp25xxfd_cmd_write`. -/
def Sfr.cmdWrite (spi : Bool) (reg : Nat) (data : BitVec 32) (sfr : Sfr) : Int × Sfr :=
  sfr.cmdWriteMask spi reg data (BitVec.allOnes 32)

/-- Two writes of which the second one goes on behind the first one are one write. -/
theorem Sfr.write_append (address : Nat) (first second : List (BitVec 8)) (sfr : Sfr) :
    sfr.write address (first ++ second) =
      (sfr.write address first).write (address + first.length) second := by
  -- The induction follows the first write, which moves the address along.
  induction first generalizing address sfr with
  | nil => rfl
  | cons byte rest ih =>
    have shifted : address + (byte :: rest).length = address + 1 + rest.length := by
      rw [List.length_cons]
      omega
    rw [shifted]
    exact ih (address + 1) (sfr.writeByte address byte)

/-- A write leaves the registers alone that lie in front of it or behind it. -/
theorem Sfr.write_register_outside {address other : Nat} (bytes : List (BitVec 8)) (sfr : Sfr)
    (outside : other < address ∨ address + bytes.length ≤ other) :
    (sfr.write address bytes).register other = sfr.register other := by
  -- The byte that is written first lies at the address, and the rest behind it.
  induction bytes generalizing address sfr with
  | nil => rfl
  | cons byte rest ih =>
    rw [List.length_cons] at outside
    have different : other ≠ address := by omega
    have behind : other < address + 1 ∨ address + 1 + rest.length ≤ other := by omega
    show ((sfr.writeByte address byte).write (address + 1) rest).register other = _
    rw [ih (sfr.writeByte address byte) behind]
    exact Function.update_of_ne different _ _

/-- A byte inside a write takes effect on the register that was there before. -/
theorem Sfr.write_register_inside {bytes : List (BitVec 8)} {byte : BitVec 8} {i : Nat}
    (address : Nat) (sfr : Sfr) (inside : bytes[i]? = some byte) :
    (sfr.write address bytes).register (address + i) =
      readBack (address + i) (sfr.register (address + i)) byte := by
  -- The induction walks to the byte: it is the first one, or it is in the rest.
  induction bytes generalizing address sfr i with
  | nil => cases inside
  | cons head rest ih =>
    cases i with
    | zero =>
      show ((sfr.writeByte address head).write (address + 1) rest).register address =
        readBack address (sfr.register address) byte
      -- The bytes that follow lie behind this one.
      rw [Sfr.write_register_outside rest _ (Or.inl (Nat.lt_succ_self address))]
      have here : head = byte := Option.some.inj inside
      rw [← here]
      exact Function.update_self address _ _
    | succ i =>
      -- The first byte goes somewhere else, and the rest starts one address later.
      show ((sfr.writeByte address head).write (address + 1) rest).register (address + (i + 1)) = _
      have shifted : address + (i + 1) = address + 1 + i := by omega
      have different : address + 1 + i ≠ address := by omega
      have kept : (sfr.writeByte address head).register (address + 1 + i) =
          sfr.register (address + 1 + i) := Function.update_of_ne different _ _
      rw [shifted, ih (address + 1) (sfr.writeByte address head) inside, kept]

/-- A write reaches the addresses from its own on, each of them once. -/
theorem Sfr.write_written (address : Nat) (bytes : List (BitVec 8)) (sfr : Sfr) :
    (sfr.write address bytes).written = sfr.written ++ List.range' address bytes.length := by
  -- Every byte that is written adds its own address to the trace.
  induction bytes generalizing address sfr with
  | nil => exact (List.append_nil _).symm
  | cons byte rest ih =>
    show ((sfr.writeByte address byte).write (address + 1) rest).written = _
    rw [ih, List.length_cons, List.range'_succ]
    exact List.append_assoc _ _ _

/-- What the four bytes of FIFOCON read as after they were written. -/
theorem readBack_fifocon {fifo k : Nat} (inside : fifo < 32) (within : k < 4)
    (old byte : BitVec 8) :
    readBack (fifocon fifo + k) old byte = if k = 1 then byte &&& ~~~strobes else byte := by
  -- FIFOCON starts the block of its FIFO, so the place in the block is the place in the register.
  have block : FifoByte (fifocon fifo + k) := by
    unfold FifoByte fifocon
    omega
  have place : (fifocon fifo + k - fifocon 0) % 12 = k := by
    unfold fifocon
    omega
  rw [readBack, if_pos block, place]
  -- The second byte is the one with the bits that act at once.
  rcases (by omega : k = 0 ∨ k = 1 ∨ k = 2 ∨ k = 3) with rfl | rfl | rfl | rfl <;> rfl

/-- A zero clears the flags in the first byte of FIFOSTA, but for those that are live. -/
theorem readBack_fifosta {fifo : Nat} (inside : fifo < 32) (old byte : BitVec 8) :
    readBack (fifosta fifo) old byte = old &&& (byte ||| liveFlags) := by
  -- FIFOSTA follows the four bytes of FIFOCON.
  have block : FifoByte (fifosta fifo) := by
    unfold FifoByte fifocon fifosta
    omega
  have place : (fifosta fifo - fifocon 0) % 12 = 4 := by
    unfold fifocon fifosta
    omega
  rw [readBack, if_pos block, place]
  rfl

/-- The other bytes of FIFOSTA and FIFOUA are not changed by a write. -/
theorem readBack_readOnly {address k : Nat} (block : FifoByte address)
    (place : (address - fifocon 0) % 12 = k) (readOnly : 4 < k) (old byte : BitVec 8) :
    readBack address old byte = old := by
  have below : k < 12 := place ▸ Nat.mod_lt _ (by decide)
  rw [readBack, if_pos block, place]
  -- Seven places are left, and the controller ignores a write to each of them.
  rcases (by omega : k = 5 ∨ k = 6 ∨ k = 7 ∨ k = 8 ∨ k = 9 ∨ k = 10 ∨ k = 11) with
    rfl | rfl | rfl | rfl | rfl | rfl | rfl <;> rfl

/-- The settings of the FIFO registers: the mode for the payload, and one frame a FIFO. -/
def FifoSplit.payloadMode (split : FifoSplit) : BitVec 32 :=
  if split.payloadSize = 8 then plsize8 else plsize64
def rxFifoDepth : BitVec 32 := 1

/-- The number of attempts, from the one-shot mode and the module parameter `three_shot`. -/
def txat (oneShot threeShot : Bool) : BitVec 32 :=
  if oneShot then if threeShot then fifoconTxatThreeShot else fifoconTxatOneShot
  else fifoconTxatUnlimited

/-- What `mcp25xxfd_setup_fifo` writes to FIFOCON of a transmit FIFO. -/
def FifoSplit.txFifocon (split : FifoSplit) (attempts : BitVec 32) (fifo : Nat) : BitVec 32 :=
  -- The transmit FIFO with the highest number has the lowest priority.
  fifoconTxen ||| fifoconTxatie ||| fifoconFreset |||
    split.payloadMode <<< fifoconPlsizeShift ||| 0 <<< fifoconFsizeShift |||
    attempts <<< fifoconTxatShift ||| BitVec.ofNat 32 (31 - fifo) <<< fifoconTxpriShift

/-- What `mcp25xxfd_setup_fifo` writes to FIFOCON in round `i` of its loop over receive FIFOs. -/
def FifoSplit.rxFifocon (split : FifoSplit) (i : Nat) : BitVec 32 :=
  split.payloadMode <<< fifoconPlsizeShift ||| (rxFifoDepth - 1) <<< fifoconFsizeShift |||
    fifoconRxtsen ||| fifoconFreset ||| fifoconTferffie ||| fifoconTfhrfhie |||
    -- The loop goes down, so its last round is the one for the lowest receive FIFO.
    fifoconTfnrfnie ||| if i + 1 = split.rxFifos then fifoconRxovie else 0

/-- The first rounds of the loop over the transmit FIFOs. -/
def FifoSplit.setupTxFifos (split : FifoSplit) (attempts : BitVec 32) : Nat → Sfr → Sfr
  | 0, sfr => sfr
  | i + 1, sfr =>
    let fifo := split.txFifoStart + i
    ((split.setupTxFifos attempts i sfr).cmdWrite true (fifocon fifo)
      (split.txFifocon attempts fifo)).2

/-- The first rounds of the loop over the receive FIFOs, which goes down from the last one. -/
def FifoSplit.setupRxFifos (split : FifoSplit) : Nat → Sfr → Sfr
  | 0, sfr => sfr
  | i + 1, sfr =>
    let fifo := split.rxFifoStart + split.rxFifos - 1 - i
    let sfr := ((split.setupRxFifos i sfr).cmdWrite true (fifocon fifo) (split.rxFifocon i)).2
    (sfr.cmdWriteMask true (fltcon i)
      (fifoconFlten i ||| BitVec.ofNat 32 fifo <<< filconShift i)
      (fifoconFlten i ||| filconMask i)).2

/-- The two loops of `mcp25xxfd_setup_fifo`, where every transfer succeeds. -/
def FifoSplit.setupFifo (split : FifoSplit) (oneShot threeShot : Bool) (sfr : Sfr) : Sfr :=
  split.setupRxFifos split.rxFifos
    (split.setupTxFifos (txat oneShot threeShot) split.txFifos sfr)

/-- A whole register is written with its four bytes. -/
theorem Sfr.cmdWrite_eq (reg : Nat) (data : BitVec 32) (sfr : Sfr) :
    (sfr.cmdWrite true reg data).2 = sfr.write reg (window 0 4 (byteOf data)) := rfl

/-- The write of a filter's control byte does not reach the registers of the FIFOs. -/
theorem Sfr.cmdWriteMask_below {reg address : Nat} (below : address < reg) (data mask : BitVec 32)
    (sfr : Sfr) :
    (sfr.cmdWriteMask true reg data mask).2.register address = sfr.register address := by
  rw [Sfr.cmdWriteMask]
  -- An empty mask is refused before any transfer.
  by_cases empty : mask = 0
  · rw [if_pos empty]
  · rw [if_neg empty, if_pos rfl]
    exact Sfr.write_register_outside _ sfr (Or.inl (by omega))

/-- The receive FIFO that a round of the loop sets up. -/
def FifoSplit.rxRound (split : FifoSplit) (i : Nat) : Nat :=
  split.rxFifoStart + split.rxFifos - 1 - i

/-- What a round wrote to FIFOCON stays there for the rest of the loop. -/
theorem FifoSplit.setupRxFifos_register (split : FifoSplit) {count i k : Nat} (round : i < count)
    (rounds : count ≤ split.rxFifos) (within : k < 4) (sfr : Sfr) :
    (split.setupRxFifos count sfr).register (fifocon (split.rxRound i) + k) =
      if k = 1 then byteOf (split.rxFifocon i) k &&& ~~~strobes
      else byteOf (split.rxFifocon i) k := by
  -- The rounds write to different FIFOs.
  have first := split.rxFirst
  have fits := split.inMask
  have inside : split.rxRound i < 32 := by
    unfold FifoSplit.rxRound
    omega
  -- The induction is on the rounds of the loop, of which only round `i` writes this register.
  induction count with
  | zero => exact absurd round (Nat.not_lt_zero i)
  | succ count ih =>
    -- The filters lie behind the FIFOs, so the second write of a round is out of the way.
    have filter : fifocon (split.rxRound i) + k < fltcon count := by
      unfold fifocon fltcon
      omega
    rw [FifoSplit.setupRxFifos, Sfr.cmdWriteMask_below filter, Sfr.cmdWrite_eq]
    by_cases last : i = count
      -- The last round is the one for this FIFO, and it writes all four bytes.
    · have byte : (window 0 4 (byteOf (split.rxFifocon count)))[k]? =
          some (byteOf (split.rxFifocon count) k) := by
        rw [getElem?_window, if_pos within, Nat.zero_add]
      rw [last] at inside ⊢
      exact (Sfr.write_register_inside _ _ byte).trans (readBack_fifocon inside within _ _)
      -- A later round writes another FIFO, whose register lies in front of this one or behind it.
    · have apart : fifocon (split.rxRound i) + k < fifocon (split.rxRound count) ∨
          fifocon (split.rxRound count) + 4 ≤ fifocon (split.rxRound i) + k := by
        unfold fifocon FifoSplit.rxRound
        omega
      have earlier := ih (by omega) (by omega)
      rw [← earlier]
      exact Sfr.write_register_outside _ _ apart

/-- The settings that FIFOCON of a receive FIFO has after the setup. -/
def FifoSplit.configured (split : FifoSplit) (fifo : Nat) : BitVec 32 :=
  split.payloadMode <<< fifoconPlsizeShift ||| (rxFifoDepth - 1) <<< fifoconFsizeShift |||
    fifoconRxtsen ||| fifoconTferffie ||| fifoconTfhrfhie ||| fifoconTfnrfnie |||
    if fifo = split.rxFifoStart then fifoconRxovie else 0

/-- The register FIFOCON of every receive FIFO is as the setup left it. -/
def SetUp (split : FifoSplit) (sfr : Sfr) : Prop :=
  ∃ before oneShot threeShot, ∀ fifo, split.rxFifoStart ≤ fifo →
    fifo < split.rxFifoStart + split.rxFifos → ∀ k < 4,
      sfr.register (fifocon fifo + k) =
        (split.setupFifo oneShot threeShot before).register (fifocon fifo + k)

/-- A receive FIFO reads as its settings, the lowest one alone with the overflow interrupt. -/
theorem SetUp.register {split : FifoSplit} {sfr : Sfr} (setUp : SetUp split sfr) {fifo k : Nat}
    (above : split.rxFifoStart ≤ fifo) (below : fifo < split.rxFifoStart + split.rxFifos)
    (within : k < 4) : sfr.register (fifocon fifo + k) = byteOf (split.configured fifo) k := by
  -- Nothing wrote FIFOCON since the setup, so the setup has the word.
  obtain ⟨before, oneShot, threeShot, same⟩ := setUp
  let i := split.rxFifoStart + split.rxFifos - 1 - fifo
  -- The round that set this FIFO up counts from the other end.
  have visited : split.rxRound i = fifo := by
    unfold FifoSplit.rxRound
    omega
  have lowest : i + 1 = split.rxFifos ↔ fifo = split.rxFifoStart := by omega
  have written := split.setupRxFifos_register (i := i) (by omega) (Nat.le_refl _) within
    (split.setupTxFifos (txat oneShot threeShot) split.txFifos before)
  rw [visited] at written
  rw [same fifo above below k within, FifoSplit.setupFifo, written]
  -- What is left is one word for either payload and for either kind of FIFO.
  rw [FifoSplit.rxFifocon, FifoSplit.configured, FifoSplit.payloadMode]
  simp only [lowest]
  generalize split.payloadSize = payload
  by_cases classic : payload = 8 <;> by_cases low : fifo = split.rxFifoStart <;>
    rcases (by omega : k = 0 ∨ k = 1 ∨ k = 2 ∨ k = 3) with rfl | rfl | rfl | rfl <;>
    simp only [classic, low, if_true, if_false] <;> decide

end OpenwrtMisc.Mcp25xxfd
