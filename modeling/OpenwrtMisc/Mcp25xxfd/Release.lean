import OpenwrtMisc.Mcp25xxfd.Registers

/-! How the driver releases receive FIFOs, one by one or a range of them in one transfer. -/

namespace OpenwrtMisc.Mcp25xxfd

open BitMask

/-- `mcp25xxfd_normal_release_fifos`, with the luck of the transfer for each FIFO. -/
def normalReleaseFifos (spi : Nat → Bool) (start stop : Nat) (sfr : Sfr) : Int × Sfr :=
  if start < stop then
    let released := sfr.cmdWriteMask (spi start) (fifocon start) fifoconUinc fifoconUinc
    if released.1 ≠ 0 then released else normalReleaseFifos spi (start + 1) stop released.2
  else (0, sfr)
termination_by stop - start

/-- `FIFOCON_SPACING` and `FIFOCON_SPACINGW`. -/
def fifoconSpacing : Nat := fifocon 1 - fifocon 0
def fifoconSpacingw : Nat := fifoconSpacing / 4

/-- The word that `mcp25xxfd_bulk_release_fifos` starts from. -/
def FifoSplit.releaseBase (split : FifoSplit) : BitVec 32 :=
  split.payloadMode <<< fifoconPlsizeShift ||| (rxFifoDepth - 1) <<< fifoconFsizeShift |||
    fifoconRxtsen ||| fifoconUinc ||| fifoconTferffie ||| fifoconTfhrfhie ||| fifoconTfnrfnie

/-- The word `base` and the buffer after the first rounds of the loop that fills the buffer. -/
def FifoSplit.fillBuffer (split : FifoSplit) : Nat → BitVec 32 × (Nat → BitVec 32)
  | 0 => (split.releaseBase, fun _ => 0)
  | i + 1 =>
    let (base, buf) := split.fillBuffer i
    let base := if i + 1 = split.rxFifos then base ||| fifoconRxovie else base
    -- The word goes to the place of its FIFO, two words behind the FIFOCON before it.
    (base, Function.update buf (fifoconSpacingw * i) base)

/-- The bytes of a buffer of words, in the byte order of the controller. -/
def bytesOf (buf : Nat → BitVec 32) (i : Nat) : BitVec 8 := byteOf (buf (i / 4)) (i % 4)

/-- `mcp25xxfd_bulk_release_fifos`. -/
def bulkReleaseFifos (spi : Bool) (split : FifoSplit) (start stop : Nat) (sfr : Sfr) : Int × Sfr :=
  let fifos := stop - start
  let first := firstByte fifoconUinc
  let addr := fifocon start
  let len := 1 + (fifos - 1) * fifoconSpacing
  -- The buffer starts with the first byte of FIFOCON, but the transfer starts with the second.
  let buf := (split.fillBuffer fifos).2
  sfr.cmdWriten spi (addr + first) (window first len (bytesOf buf))

/-- A range of receive FIFOs, which is not empty. -/
def RxRange (split : FifoSplit) (start stop : Nat) : Prop :=
  split.rxFifoStart ≤ start ∧ start < stop ∧ stop ≤ split.rxFifoStart + split.rxFifos

instance (split : FifoSplit) (start stop : Nat) : Decidable (RxRange split start stop) :=
  inferInstanceAs (Decidable (_ ∧ _ ∧ _))

/-- A release in one transfer does what the release one by one is for, and nothing else. -/
structure BulkRefines (split : FifoSplit) (start stop : Nat) (sfr : Sfr) : Prop where
  /-- It increments the same FIFOs. -/
  increments : (bulkReleaseFifos true split start stop sfr).2.incremented =
    (normalReleaseFifos (fun _ => true) start stop sfr).2.incremented
  /-- The settings of all FIFOs stay as they were. -/
  settings : ∀ fifo, ∀ k < 4,
    (bulkReleaseFifos true split start stop sfr).2.register (fifocon fifo + k) =
      sfr.register (fifocon fifo + k)
  /-- The flags of all FIFOs stay as they were. -/
  flags : ∀ fifo, ∀ k < 4,
    (bulkReleaseFifos true split start stop sfr).2.register (fifosta fifo + k) =
      sfr.register (fifosta fifo + k)
  /-- The registers that are written are those of the range. -/
  confined : ∃ addresses,
    (bulkReleaseFifos true split start stop sfr).2.written = sfr.written ++ addresses ∧
      ∀ address ∈ addresses, fifocon start ≤ address ∧ address < fifocon stop

/--
The ranges and states that the release in one transfer is right for.

A single FIFO is, and of the others those that leave some receive FIFO out and that have no flag to
clear, except for the flags of their last FIFO.
-/
def BulkFits (split : FifoSplit) (start stop : Nat) (sfr : Sfr) : Prop :=
  start + 1 = stop ∨
    ¬ (start = split.rxFifoStart ∧ stop = split.rxFifoStart + split.rxFifos) ∧
      ∀ fifo, start ≤ fifo → fifo + 1 < stop → sfr.register (fifosta fifo) &&& ~~~liveFlags = 0

/-- The byte that is sent for an address `i` bytes behind the first FIFOCON of the range. -/
def FifoSplit.sentByte (split : FifoSplit) (i : Nat) : BitVec 8 :=
  -- Four bytes of FIFOCON, then eight of FIFOSTA and FIFOUA, of which none is filled in.
  if i % 12 < 4 then
    byteOf (split.releaseBase ||| if i / 12 + 1 = split.rxFifos then fifoconRxovie else 0) (i % 12)
  else 0

/-- The buffer has the word of each FIFO in its place, and zeros between the words. -/
theorem FifoSplit.fillBuffer_eq (split : FifoSplit) {fifos : Nat} (within : fifos ≤ split.rxFifos) :
    (split.fillBuffer fifos).1 =
        (split.releaseBase ||| if fifos = split.rxFifos ∧ 0 < fifos then fifoconRxovie else 0) ∧
      ∀ word, (split.fillBuffer fifos).2 word =
        if word % 3 = 0 ∧ word / 3 < fifos then
          split.releaseBase ||| if word / 3 + 1 = split.rxFifos then fifoconRxovie else 0
        else 0 := by
  have none : split.releaseBase ||| 0#32 = split.releaseBase := BitVec.or_zero
  -- The induction follows the loop: the overflow bit joins the word in the last possible round.
  induction fifos with
  | zero =>
    refine ⟨?_, fun word => ?_⟩
    · rw [if_neg (by omega)]
      exact none.symm
    · rw [if_neg (by omega)]
      rfl
  | succ i ih =>
    obtain ⟨base, buffer⟩ := ih (by omega)
    -- Before the last possible round the word is still the one the loop started with.
    have before : (split.fillBuffer i).1 = split.releaseBase := by
      rw [base, if_neg (by omega)]
      exact none
    have round : (split.fillBuffer (i + 1)).1 =
        split.releaseBase ||| if i + 1 = split.rxFifos then fifoconRxovie else 0 := by
      show (if i + 1 = split.rxFifos then (split.fillBuffer i).1 ||| fifoconRxovie
        else (split.fillBuffer i).1) = _
      rw [before]
      by_cases last : i + 1 = split.rxFifos
      · rw [if_pos last, if_pos last]
      · rw [if_neg last, if_neg last]
        exact none.symm
    refine ⟨?_, fun word => ?_⟩
    · rw [round]
      by_cases last : i + 1 = split.rxFifos
      · rw [if_pos last, if_pos ⟨last, Nat.succ_pos i⟩]
      · rw [if_neg last, if_neg fun both => last both.1]
    · show Function.update (split.fillBuffer i).2 (3 * i) (split.fillBuffer (i + 1)).1 word = _
      by_cases here : word = 3 * i
      · -- The round writes its own word.
        have place : word % 3 = 0 ∧ word / 3 < i + 1 := by omega
        have index : word / 3 = i := by omega
        rw [if_pos place, index, here, Function.update_self, round]
      · rw [Function.update_of_ne here, buffer word]
        have earlier : (word % 3 = 0 ∧ word / 3 < i + 1) ↔ (word % 3 = 0 ∧ word / 3 < i) := by
          omega
        simp only [earlier]

/-- What is sent does not depend on the range, but for its length. -/
theorem FifoSplit.bytesOf_fillBuffer (split : FifoSplit) {fifos i : Nat}
    (within : fifos ≤ split.rxFifos) (inside : i < 2 + (fifos - 1) * 12) (positive : 0 < fifos) :
    bytesOf (split.fillBuffer fifos).2 i = split.sentByte i := by
  -- The words that are not at the place of a FIFO hold the zeros of FIFOSTA and FIFOUA.
  rw [bytesOf, (split.fillBuffer_eq within).2, FifoSplit.sentByte]
  by_cases word : i % 12 < 4
  · have place : i / 4 % 3 = 0 ∧ i / 4 / 3 < fifos := by omega
    have index : i / 4 / 3 = i / 12 := by omega
    have offset : i % 4 = i % 12 := by omega
    rw [if_pos word, if_pos place, index, offset]
  · have place : ¬ (i / 4 % 3 = 0 ∧ i / 4 / 3 < fifos) := by omega
    rw [if_neg word, if_neg place, byteOf]
    exact BitVec.extractLsb'_zero ..

variable {split : FifoSplit} {start stop : Nat}

/-- The one transfer sends the bytes of the words from the second byte of the first FIFO on. -/
theorem bulkReleaseFifos_eq (range : RxRange split start stop) (sfr : Sfr) :
    (bulkReleaseFifos true split start stop sfr).2 =
      sfr.write (fifocon start + 1) (window 1 (1 + (stop - start - 1) * 12) split.sentByte) := by
  obtain ⟨above, nonempty, below⟩ := range
  -- Only the bytes of the window count, and they lie inside the words that are filled in.
  have sent : window 1 (1 + (stop - start - 1) * 12) (bytesOf (split.fillBuffer (stop - start)).2) =
      window 1 (1 + (stop - start - 1) * 12) split.sentByte := by
    apply window_congr
    intro i _ inside
    exact split.bytesOf_fillBuffer (by omega) (by omega) (by omega)
  rw [← sent]
  rfl

/-- A register inside the transfer takes the byte that is sent for it. -/
theorem bulkReleaseFifos_inside (range : RxRange split start stop) (sfr : Sfr) {i : Nat}
    (positive : 0 < i) (inside : i < 2 + (stop - start - 1) * 12) :
    (bulkReleaseFifos true split start stop sfr).2.register (fifocon start + i) =
      readBack (fifocon start + i) (sfr.register (fifocon start + i)) (split.sentByte i) := by
  -- The transfer starts one byte behind FIFOCON, so the byte is one earlier in it.
  have place : fifocon start + i = fifocon start + 1 + (i - 1) := by omega
  have byte : (window 1 (1 + (stop - start - 1) * 12) split.sentByte)[i - 1]? =
      some (split.sentByte i) := by
    rw [getElem?_window, if_pos (by omega)]
    congr 2
    omega
  rw [bulkReleaseFifos_eq range, place]
  exact Sfr.write_register_inside _ sfr byte

/-- A register outside the transfer stays as it was. -/
theorem bulkReleaseFifos_outside (range : RxRange split start stop) (sfr : Sfr) {address : Nat}
    (outside : address ≤ fifocon start ∨
      fifocon start + (2 + (stop - start - 1) * 12) ≤ address) :
    (bulkReleaseFifos true split start stop sfr).2.register address = sfr.register address := by
  -- The release is one write over the range.
  rw [bulkReleaseFifos_eq range]
  apply Sfr.write_register_outside
  rw [length_window]
  omega

/-- The first bytes of the transfer increment one FIFO for every twelve of them. -/
theorem Sfr.write_sentByte (fits : stop ≤ 32) (nonempty : start < stop) (sfr : Sfr) (count : Nat)
    (within : count ≤ 1 + (stop - start - 1) * 12) :
    (sfr.write (fifocon start + 1) (window 1 count split.sentByte)).incremented =
      sfr.incremented ++ List.range' start ((count + 11) / 12) := by
  -- The induction is on the number of bytes: every twelfth one is the second byte of a FIFOCON.
  induction count with
  | zero => exact (List.append_nil _).symm
  | succ count ih =>
    -- FIFOCON and FIFOSTA of every FIFO form one block of twelve bytes.
    have block : FifoByte (fifocon start + 1 + count) := by
      unfold FifoByte fifocon
      omega
    have place : (fifocon start + 1 + count - fifocon 0) % 12 = (1 + count) % 12 := by
      unfold fifocon
      omega
    have index : (fifocon start + 1 + count - fifocon 0) / 12 = start + (1 + count) / 12 := by
      unfold fifocon
      omega
    have last : (sfr.write (fifocon start + 1) (window 1 (count + 1) split.sentByte)).incremented =
        (sfr.write (fifocon start + 1) (window 1 count split.sentByte)).incremented ++
          increments (fifocon start + 1 + count) (split.sentByte (1 + count)) := by
      rw [window_append, Sfr.write_append, length_window]
      rfl
    rw [last, ih (by omega), increments, place, index, List.append_assoc]
    congr 1
    -- Only the second byte of a block carries the bit, and it is set in every word that is sent.
    by_cases second : (1 + count) % 12 = 1
    · have uinc : (split.sentByte (1 + count)).getLsbD 0 = true := by
        rw [FifoSplit.sentByte, if_pos (by omega), second, FifoSplit.releaseBase,
          FifoSplit.payloadMode]
        by_cases classic : split.payloadSize = 8 <;>
          by_cases top : (1 + count) / 12 + 1 = split.rxFifos <;>
          simp only [classic, top, if_true, if_false] <;> decide
      have longer : (count + 1 + 11) / 12 = (count + 11) / 12 + 1 := by omega
      have same : (1 + count) / 12 = (count + 11) / 12 := by omega
      rw [if_pos ⟨block, second, uinc⟩, longer, same, List.range'_concat, Nat.one_mul]
    · have same : (count + 1 + 11) / 12 = (count + 11) / 12 := by omega
      rw [if_neg fun all => second all.2.1, same, List.append_nil]

/-- The release in one transfer increments the FIFOs of the range. -/
theorem bulkReleaseFifos_incremented (fits : stop ≤ 32) (range : RxRange split start stop)
    (sfr : Sfr) :
    (bulkReleaseFifos true split start stop sfr).2.incremented =
      sfr.incremented ++ List.range' start (stop - start) := by
  have nonempty := range.2.1
  -- A range of n FIFOs takes 12 * n - 11 bytes, which reach the second byte of each.
  have counted : (1 + (stop - start - 1) * 12 + 11) / 12 = stop - start := by omega
  rw [bulkReleaseFifos_eq range, Sfr.write_sentByte fits nonempty sfr _ (Nat.le_refl _), counted]

/-- The release one by one increments the FIFOs of the range. -/
theorem normalReleaseFifos_incremented (fits : stop ≤ 32) (sfr : Sfr) :
    (normalReleaseFifos (fun _ => true) start stop sfr).2.incremented =
      sfr.incremented ++ List.range' start (stop - start) := by
  -- The induction follows the loop, from the lowest FIFO of the range up.
  induction remaining : stop - start generalizing start sfr with
  | zero =>
    rw [normalReleaseFifos, if_neg (by omega)]
    exact (List.append_nil _).symm
  | succ count ih =>
    -- One write of the masked bit reaches the second byte of FIFOCON and no other one.
    have here : (sfr.cmdWriteMask true (fifocon start) fifoconUinc fifoconUinc).2.incremented =
        sfr.incremented ++ [start] := by
      have block : FifoByte (fifocon start + 1) := by
        unfold FifoByte fifocon
        omega
      have place : (fifocon start + 1 - fifocon 0) % 12 = 1 := by
        unfold fifocon
        omega
      have index : (fifocon start + 1 - fifocon 0) / 12 = start := by
        unfold fifocon
        omega
      show sfr.incremented ++ increments (fifocon start + 1) (byteOf fifoconUinc 1) = _
      rw [increments, if_pos ⟨block, place, by decide⟩, index]
    have done : (sfr.cmdWriteMask true (fifocon start) fifoconUinc fifoconUinc).1 = 0 := rfl
    rw [normalReleaseFifos, if_pos (by omega), if_neg (by rw [done]; decide),
      ih _ (by omega), here, List.range'_succ, List.append_assoc]
    rfl

/-- A range of receive FIFOs lies among the FIFOs of the controller. -/
theorem RxRange.fits (range : RxRange split start stop) : stop ≤ 32 := by
  -- The receive FIFOs end at the last FIFO of the controller.
  have first := split.rxFirst
  have inMask := split.inMask
  have below := range.2.2
  omega

/-- The bytes sent for FIFOCON read as its settings, but for an overflow bit that is not there. -/
theorem FifoSplit.sentByte_settings (split : FifoSplit) {j k fifo : Nat} (within : k < 4) :
    (if k = 1 then split.sentByte (12 * j + k) &&& ~~~strobes else split.sentByte (12 * j + k)) =
        byteOf (split.configured fifo) k ↔
      (k = 0 → (j + 1 = split.rxFifos ↔ fifo = split.rxFifoStart)) := by
  have place : (12 * j + k) % 12 = k := by omega
  have index : (12 * j + k) / 12 = j := by omega
  rw [FifoSplit.sentByte, place, index, if_pos within, FifoSplit.releaseBase, FifoSplit.configured,
    FifoSplit.payloadMode]
  generalize split.payloadSize = payload
  -- What is left is one pair of words for either payload and for either place of the overflow bit.
  by_cases classic : payload = 8 <;> by_cases last : j + 1 = split.rxFifos <;>
    by_cases low : fifo = split.rxFifoStart <;>
    rcases (by omega : k = 0 ∨ k = 1 ∨ k = 2 ∨ k = 3) with rfl | rfl | rfl | rfl <;>
    simp only [classic, last, low, if_true, if_false] <;> decide

/-- The settings stay as they were just when the last FIFO is sent no overflow bit. -/
theorem bulkReleaseFifos_settings {sfr : Sfr} (setUp : SetUp split sfr)
    (range : RxRange split start stop) :
    (∀ fifo, ∀ k < 4, (bulkReleaseFifos true split start stop sfr).2.register (fifocon fifo + k) =
        sfr.register (fifocon fifo + k)) ↔
      (start + 1 = stop ∨
        ¬ (start = split.rxFifoStart ∧ stop = split.rxFifoStart + split.rxFifos)) := by
  -- What is sent for a FIFO is made from the setup, but for the overflow bit.
  have fits := range.fits
  obtain ⟨above, nonempty, below⟩ := range
  constructor
  · intro same
    by_contra other
    -- Of a range of all receive FIFOs the last one gets the bit of the first one.
    have last := same (stop - 1) 0 (by decide)
    have place : fifocon (stop - 1) + 0 = fifocon start + (12 * (stop - 1 - start) + 0) := by
      unfold fifocon
      omega
    rw [SetUp.register setUp (by omega) (by omega) (by decide)] at last
    have taken := bulkReleaseFifos_inside ⟨above, nonempty, below⟩ sfr
      (i := 12 * (stop - 1 - start) + 0) (by omega) (by omega)
    -- The byte that is taken carries the bit for the last FIFO, and the setup set it for the first.
    rw [← place, last, readBack_fifocon (by omega) (by decide)] at taken
    have bit := (split.sentByte_settings (by decide)).mp taken.symm rfl
    omega
  · intro allowed fifo k within
    -- A byte that is sent agrees with the setup; one that is not sent stays.
    by_cases sent : start ≤ fifo ∧ fifo < stop ∧ 0 < 12 * (fifo - start) + k ∧
        12 * (fifo - start) + k < 2 + (stop - start - 1) * 12
    · obtain ⟨low, high, positive, inside⟩ := sent
      have place : fifocon fifo + k = fifocon start + (12 * (fifo - start) + k) := by
        unfold fifocon
        omega
      have taken := bulkReleaseFifos_inside ⟨above, nonempty, below⟩ sfr positive inside
      rw [← place, readBack_fifocon (by omega) within] at taken
      rw [taken, SetUp.register setUp (by omega) (by omega) within]
      apply (split.sentByte_settings within).mpr
      omega
    · apply bulkReleaseFifos_outside ⟨above, nonempty, below⟩
      unfold fifocon
      omega

/-- The flags stay as they were just when only the last FIFO has some to clear. -/
theorem bulkReleaseFifos_flags (range : RxRange split start stop) (sfr : Sfr) :
    (∀ fifo, ∀ k < 4, (bulkReleaseFifos true split start stop sfr).2.register (fifosta fifo + k) =
        sfr.register (fifosta fifo + k)) ↔
      ∀ fifo, start ≤ fifo → fifo + 1 < stop →
        sfr.register (fifosta fifo) &&& ~~~liveFlags = 0 := by
  have fits := range.fits
  obtain ⟨above, nonempty, below⟩ := range
  -- The first byte of FIFOSTA is sent a zero, for all FIFOs of the range but the last one.
  have cleared : ∀ fifo, start ≤ fifo → fifo + 1 < stop →
      (bulkReleaseFifos true split start stop sfr).2.register (fifosta fifo) =
        sfr.register (fifosta fifo) &&& liveFlags := by
    intro fifo low high
    have place : fifosta fifo = fifocon start + (12 * (fifo - start) + 4) := by
      unfold fifosta fifocon
      omega
    have zero : split.sentByte (12 * (fifo - start) + 4) = 0 := by
      rw [FifoSplit.sentByte, if_neg (by omega)]
    have taken := bulkReleaseFifos_inside ⟨above, nonempty, below⟩ sfr
      (i := 12 * (fifo - start) + 4) (by omega) (by omega)
    rw [← place, readBack_fifosta (by omega), zero] at taken
    rw [taken]
    congr 1
  -- What the write clears is what lies outside the live flags.
  have kept : ∀ byte : BitVec 8, byte &&& liveFlags = byte ↔ byte &&& ~~~liveFlags = 0 := by
    decide
  constructor
  · intro same fifo low high
    have here := same fifo 0 (by decide)
    rw [Nat.add_zero, cleared fifo low high] at here
    exact (kept _).mp here
  · intro clear fifo k within
    by_cases sent : start ≤ fifo ∧ fifo + 1 < stop
    · by_cases first : k = 0
      · rw [first, Nat.add_zero, cleared fifo sent.1 sent.2]
        exact (kept _).mpr (clear fifo sent.1 sent.2)
      · have place : fifosta fifo + k = fifocon start + (12 * (fifo - start) + 4 + k) := by
          unfold fifosta fifocon
          omega
        have block : FifoByte (fifosta fifo + k) := by
          unfold FifoByte fifosta fifocon
          omega
        have offset : (fifosta fifo + k - fifocon 0) % 12 = 4 + k := by
          unfold fifosta fifocon
          omega
        have taken := bulkReleaseFifos_inside ⟨above, nonempty, below⟩ sfr
          (i := 12 * (fifo - start) + 4 + k) (by omega) (by omega)
        -- The rest of FIFOSTA and all of FIFOUA is read only, so the zeros do not matter there.
        rw [← place, readBack_readOnly block offset (by omega)] at taken
        exact taken
    · apply bulkReleaseFifos_outside ⟨above, nonempty, below⟩
      unfold fifosta fifocon
      omega

/-- The transfer stays among the registers of its range. -/
theorem bulkReleaseFifos_confined (range : RxRange split start stop) (sfr : Sfr) :
    ∃ addresses,
      (bulkReleaseFifos true split start stop sfr).2.written = sfr.written ++ addresses ∧
        ∀ address ∈ addresses, fifocon start ≤ address ∧ address < fifocon stop := by
  have nonempty := range.2.1
  refine ⟨List.range' (fifocon start + 1) (1 + (stop - start - 1) * 12), ?_, ?_⟩
  -- The bytes end with the second one of the last FIFO of the range, which lies below `stop`.
  · rw [bulkReleaseFifos_eq range, Sfr.write_written, length_window]
  · intro address member
    rw [List.mem_range'_1] at member
    unfold fifocon at member ⊢
    omega

/-- There is a split for classic frames. -/
theorem classicSplit_isSome : (splitFifos 0 canMtu).isSome = true := by decide

/-- The split for classic frames, and the registers after its setup. -/
def classicSplit : FifoSplit := (splitFifos 0 canMtu).get classicSplit_isSome
def classicSetup : Sfr :=
  classicSplit.setupFifo false false { register := fun _ => 0, incremented := [], written := [] }

/-- The registers are as the setup left them. -/
theorem classicSetup_setUp : SetUp classicSplit classicSetup :=
  ⟨_, false, false, fun _ _ _ _ _ => rfl⟩

/--
Releasing a range in one transfer refines releasing its FIFOs one by one, but for two slips.

The loop compares its count from the start of the range with the number of all receive FIFOs, so the
overflow interrupt is enabled for the wrong FIFO. The flags between two FIFOCON are sent a zero.
-/
theorem bulkRelease_refines_iff {sfr : Sfr} (setUp : SetUp split sfr)
    (range : RxRange split start stop) :
    BulkRefines split start stop sfr ↔ BulkFits split start stop sfr := by
  -- Either half of the condition is what one field of the refinement needs.
  have settings := bulkReleaseFifos_settings setUp range
  have flags := bulkReleaseFifos_flags range sfr
  constructor
  · intro refines
    rcases settings.mp refines.settings with single | others
    · exact Or.inl single
    · exact Or.inr ⟨others, flags.mp refines.flags⟩
  · intro fits
    -- The count of increments is right for every range, since every word has the bit.
    have increments := bulkReleaseFifos_incremented range.fits range sfr
    rw [← normalReleaseFifos_incremented range.fits sfr] at increments
    have confined := bulkReleaseFifos_confined range sfr
    rcases fits with single | ⟨others, clear⟩
    -- A single FIFO has no other one before it, so no flag is in the way.
    · have clear : ∀ fifo, start ≤ fifo → fifo + 1 < stop →
          sfr.register (fifosta fifo) &&& ~~~liveFlags = 0 := by
        omega
      exact ⟨increments, settings.mpr (Or.inl single), flags.mpr clear, confined⟩
    · exact ⟨increments, settings.mpr (Or.inr others), flags.mpr clear, confined⟩

/-- Two FIFOs without flags are released as they should be. -/
theorem bulkRelease_refines_pair : BulkRefines classicSplit 2 4 classicSetup := by
  -- The range has two FIFOs, whose status has no flag.
  apply (bulkRelease_refines_iff classicSetup_setUp (by decide)).mpr
  refine Or.inr ⟨by decide, fun fifo low high => ?_⟩
  have only : fifo = 2 := by omega
  rw [only]
  decide

/--
After a release of all 24 receive FIFOs the last one has its overflow interrupt enabled.

After a release of the first two, the first one has lost its overflow flag.
-/
theorem bulkRelease_spoils_registers :
    RxRange classicSplit 1 25 ∧ SetUp classicSplit classicSetup ∧
      classicSetup.register (fifocon 24) = 0x27 ∧
      (bulkReleaseFifos true classicSplit 1 25 classicSetup).2.register (fifocon 24) = 0x2F ∧
      ¬ BulkRefines classicSplit 1 25 classicSetup ∧
    let overflowed :=
      { classicSetup with register := Function.update classicSetup.register (fifosta 1) 0x08 }
    RxRange classicSplit 1 3 ∧
      (bulkReleaseFifos true classicSplit 1 3 overflowed).2.register (fifosta 1) = 0 ∧
      ¬ BulkRefines classicSplit 1 3 overflowed := by
  -- The bytes that are sent are computed for two ranges.
  have range : RxRange classicSplit 1 25 := by decide
  have enabled : (bulkReleaseFifos true classicSplit 1 25 classicSetup).2.register
      (fifocon 24 + 0) = 0x2F := by
    -- The byte of FIFO 24 lies 276 bytes behind FIFOCON of FIFO 1.
    have taken := bulkReleaseFifos_inside range classicSetup (i := 276) (by decide) (by decide)
    exact taken.trans (by decide)
  have before : classicSetup.register (fifocon 24 + 0) = 0x27 := by decide
  refine ⟨range, classicSetup_setUp, before, enabled, ?_, by decide, by decide, ?_⟩
  · intro refines
    have same := refines.settings 24 0 (by decide)
    rw [enabled, before] at same
    exact absurd same (by decide)
  · intro refines
    -- The flag that was set before the release is gone after it.
    have same := refines.flags 1 0 (by decide)
    exact absurd same (by decide)

end OpenwrtMisc.Mcp25xxfd
