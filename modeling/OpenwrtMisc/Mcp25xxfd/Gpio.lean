import OpenwrtMisc.Lib.BitMask
import OpenwrtMisc.Lib.Machine

/-! The two GPIO pins of the mcp25xxfd, whose settings share one register and one word in memory. -/

namespace OpenwrtMisc.Mcp25xxfd

open BitMask

/-- The bits of the register IOCON. -/
def ioconTris0 : BitVec 32 := bit 0
def ioconTris1 : BitVec 32 := bit 1
def ioconXstbyen : BitVec 32 := bit 6
def ioconLat0 : BitVec 32 := bit 8
def ioconLat1 : BitVec 32 := bit 9
def ioconGpio0 : BitVec 32 := bit 16
def ioconGpio1 : BitVec 32 := bit 17
def ioconPm0 : BitVec 32 := bit 24
def ioconPm1 : BitVec 32 := bit 25
def ioconTxcanod : BitVec 32 := bit 28
def ioconSof : BitVec 32 := bit 29
/-- The driver gives INTOD the same bit as SOF. -/
def ioconIntod : BitVec 32 := bit 29

/-- The errors of an operation on a pin. -/
def einval : Int := 22
def eio : Int := 5

/-- `mcp25xxfd_first_byte`. -/
def firstByte (mask : BitVec 32) : Nat :=
  if mask &&& 0x0000ffff ≠ 0 then if mask &&& 0x000000ff ≠ 0 then 0 else 1
  else if mask &&& 0x00ff0000 ≠ 0 then 2 else 3

/-- `mcp25xxfd_last_byte`. -/
def lastByte (mask : BitVec 32) : Nat :=
  if mask &&& 0xffff0000 ≠ 0 then if mask &&& 0xff000000 ≠ 0 then 3 else 2
  else if mask &&& 0x0000ff00 ≠ 0 then 1 else 0

/-- The bytes from the first to the last one of a mask, which one transfer moves. -/
def transferred (mask : BitVec 32) : BitVec 32 :=
  span (8 * firstByte mask) (8 * (lastByte mask - firstByte mask + 1))

/-- `mcp25xxfd_cmd_read_mask` of a register that reads as `value`, with the word it leaves. -/
def cmdReadMask (spi : Bool) (value mask data : BitVec 32) : Int × BitVec 32 :=
  if mask = 0 then (-einval, data)
  else if spi then (0, value &&& transferred mask)
  -- The word is cleared before the transfer.
  else (-eio, 0)

/-- `mcp25xxfd_cmd_write_mask`, with the register that it leaves. -/
def cmdWriteMask (spi : Bool) (register data mask : BitVec 32) : Int × BitVec 32 :=
  if mask = 0 then (-einval, register)
  else if spi then (0, blend (transferred mask) register data)
  else (-eio, register)

/-- The word `priv->regs.iocon` of the driver, and the register IOCON of the controller. -/
structure Gpio where
  regsIocon : BitVec 32
  chipIocon : BitVec 32
  deriving DecidableEq, Repr

/-- The masks that an operation chooses by its pin. -/
def ioconTris (offset : Nat) : BitVec 32 := if offset ≠ 0 then ioconTris1 else ioconTris0
def ioconLat (offset : Nat) : BitVec 32 := if offset ≠ 0 then ioconLat1 else ioconLat0
def ioconGpio (offset : Nat) : BitVec 32 := if offset ≠ 0 then ioconGpio1 else ioconGpio0
def ioconPm (offset : Nat) : BitVec 32 := if offset ≠ 0 then ioconPm1 else ioconPm0
def ioconStby (offset : Nat) : BitVec 32 := if offset ≠ 0 then 0 else ioconXstbyen

/--
`mcp25xxfd_gpio_get`, which reads into the word of the driver.

`levels` is the byte with the levels of the pins, as the controller shows it.
-/
def gpioGet (spi : Bool) (levels : BitVec 8) (offset : Nat) (state : Gpio) : Int × Gpio :=
  let mask := ioconGpio offset
  if offset > 1 then (-einval, state)
  else
    let value := blend (span 16 8) state.chipIocon (levels.setWidth 32 <<< 16)
    let read := cmdReadMask spi value mask state.regsIocon
    let state := { state with regsIocon := read.2 }
    if read.1 ≠ 0 then (read.1, state) else ((state.regsIocon &&& mask).toInt, state)

/-- `mcp25xxfd_gpio_set`. -/
def gpioSet (spi : Bool) (offset : Nat) (value : Bool) (state : Gpio) : Gpio :=
  let mask := ioconLat offset
  if offset > 1 then state
  else
    let regsIocon := if value then state.regsIocon ||| mask else state.regsIocon &&& ~~~mask
    { regsIocon := regsIocon
      chipIocon := (cmdWriteMask spi state.chipIocon regsIocon mask).2 }

/-- `mcp25xxfd_gpio_direction_input`. -/
def gpioDirectionInput (spi : Bool) (offset : Nat) (state : Gpio) : Int × Gpio :=
  let maskTri := ioconTris offset
  let maskStby := ioconStby offset
  let maskPm := ioconPm offset
  if offset > 1 then (-einval, state)
  else
    let regsIocon := state.regsIocon ||| (maskTri ||| maskPm)
    let regsIocon := regsIocon &&& ~~~maskStby
    let written :=
      cmdWriteMask spi state.chipIocon regsIocon (maskTri ||| maskStby ||| maskPm)
    (written.1, { regsIocon := regsIocon, chipIocon := written.2 })

/-- `mcp25xxfd_gpio_direction_output`. -/
def gpioDirectionOutput (spi : Bool) (offset : Nat) (value : Bool) (state : Gpio) : Int × Gpio :=
  let maskTri := ioconTris offset
  let maskLat := ioconLat offset
  let maskPm := ioconPm offset
  let maskStby := ioconStby offset
  if offset > 1 then (-einval, state)
  else
    let regsIocon := state.regsIocon &&& ~~~(maskTri ||| maskStby)
    let regsIocon := regsIocon ||| maskPm
    let regsIocon := if value then regsIocon ||| maskLat else regsIocon &&& ~~~maskLat
    let written :=
      cmdWriteMask spi state.chipIocon regsIocon (maskTri ||| maskLat ||| maskPm ||| maskStby)
    (written.1, { regsIocon := regsIocon, chipIocon := written.2 })

/-- The operations on the pins, each with the luck of its transfer. -/
inductive GpioCall where
  | get (spi : Bool) (levels : BitVec 8) (offset : Nat)
  | set (spi : Bool) (offset : Nat) (value : Bool)
  | directionInput (spi : Bool) (offset : Nat)
  | directionOutput (spi : Bool) (offset : Nat) (value : Bool)
  deriving DecidableEq, Repr

/-- The word and the register after an operation. -/
def gpioStep (state : Gpio) : GpioCall → Gpio
  | .get spi levels offset => (gpioGet spi levels offset state).2
  | .set spi offset value => gpioSet spi offset value state
  | .directionInput spi offset => (gpioDirectionInput spi offset state).2
  | .directionOutput spi offset value => (gpioDirectionOutput spi offset value state).2

/-- The word that `mcp25xxfd_can_probe` writes to IOCON. -/
def probedIocon (sof opendrain : Bool) : BitVec 32 :=
  let iocon := 0
  let iocon := if sof then iocon ||| ioconSof else iocon
  if opendrain then iocon ||| ioconIntod else iocon

/-- The pins, beside the same pins with all reads left out. -/
structure GpioPair where
  gpio : Gpio
  unread : Gpio
  deriving DecidableEq, Repr

/-- An operation is a read. -/
def GpioCall.isGet : GpioCall → Bool
  | .get _ _ _ => true
  | _ => false

/-- The pair after an operation. -/
def GpioPair.after (pair : GpioPair) (call : GpioCall) : GpioPair where
  gpio := gpioStep pair.gpio call
  unread := if call.isGet then pair.unread else gpioStep pair.unread call

/-- The pins from the end of the probe on. -/
def gpioMachine (sof opendrain : Bool) : Machine GpioPair GpioCall where
  start :=
    let gpio := { regsIocon := probedIocon sof opendrain, chipIocon := probedIocon sof opendrain }
    { gpio := gpio, unread := gpio }
  step pair call := some (pair.after call)

/-- The bits that make up the settings of a pin. -/
def pinConfig (offset : Nat) : BitVec 32 :=
  ioconTris offset ||| ioconLat offset ||| ioconPm offset ||| ioconStby offset

/-- The bits of IOCON that are settings. -/
def ioconConfig : BitVec 32 :=
  pinConfig 0 ||| pinConfig 1 ||| ioconTxcanod ||| ioconSof ||| ioconIntod

/-- The bits that an operation must leave alone: those of the other pin, or all, for a read. -/
def GpioCall.foreign : GpioCall → BitVec 32
  | .get _ _ _ => ioconConfig
  | .set _ offset _ => pinConfig (1 - offset) ||| ioconSof ||| ioconIntod
  | .directionInput _ offset => pinConfig (1 - offset) ||| ioconSof ||| ioconIntod
  | .directionOutput _ offset _ => pinConfig (1 - offset) ||| ioconSof ||| ioconIntod

/-- What is expected of an operation. -/
structure GpioSound (before : GpioPair) (call : GpioCall) (after : GpioPair) : Prop where
  /-- The settings that are not the operation's own stay in the register. -/
  kept : AgreeOn call.foreign after.gpio.chipIocon before.gpio.chipIocon
  /-- The settings in the register are those without any read so far. -/
  unread : AgreeOn ioconConfig after.gpio.chipIocon after.unread.chipIocon

/-- The bits that an operation decides on, which are the mask of its write; none for a read. -/
def GpioCall.own : GpioCall → BitVec 32
  | .get _ _ _ => 0
  | .set _ offset _ => ioconLat offset
  | .directionInput _ offset => ioconTris offset ||| ioconStby offset ||| ioconPm offset
  | .directionOutput _ offset _ =>
    ioconTris offset ||| ioconLat offset ||| ioconPm offset ||| ioconStby offset

/-- The pin of an operation, and the luck of its transfer. -/
def GpioCall.offset : GpioCall → Nat
  | .get _ _ offset => offset
  | .set _ offset _ => offset
  | .directionInput _ offset => offset
  | .directionOutput _ offset _ => offset

def GpioCall.spi : GpioCall → Bool
  | .get spi _ _ => spi
  | .set spi _ _ => spi
  | .directionInput spi _ => spi
  | .directionOutput spi _ _ => spi

/-- An operation gets as far as writing the register. -/
def GpioCall.Writes (call : GpioCall) : Prop :=
  call.isGet = false ∧ call.offset ≤ 1 ∧ call.spi = true

instance (call : GpioCall) : Decidable call.Writes :=
  inferInstanceAs (Decidable (_ ∧ _ ∧ _))

/--
The bytes that an operation writes along with its own bits hold the right settings in memory:
those of the register for the other pin, and those without any read so far for all.
-/
def GpioFits (pair : GpioPair) (call : GpioCall) : Prop :=
  call.Writes →
    AgreeOn (transferred call.own &&& call.foreign) pair.gpio.regsIocon pair.gpio.chipIocon ∧
    AgreeOn (transferred call.own &&& ioconConfig &&& ~~~call.own) pair.gpio.regsIocon
      pair.unread.regsIocon

/-- The values that an operation gives to its own bits. -/
def GpioCall.value : GpioCall → BitVec 32
  | .get _ _ _ => 0
  | .set _ offset value => if value then ioconLat offset else 0
  | .directionInput _ offset => ioconTris offset ||| ioconPm offset
  | .directionOutput _ offset value => ioconPm offset ||| if value then ioconLat offset else 0

/-- A read leaves the register as it is. -/
theorem gpioStep_get {call : GpioCall} (get : call.isGet = true) (state : Gpio) :
    (gpioStep state call).chipIocon = state.chipIocon := by
  cases call with
  | get spi levels offset =>
    -- The read replaces a byte of the word in memory and writes nothing.
    simp only [gpioStep, gpioGet]
    split
    · rfl
    · split <;> rfl
  | set spi offset value => exact absurd get Bool.false_ne_true
  | directionInput spi offset => exact absurd get Bool.false_ne_true
  | directionOutput spi offset value => exact absurd get Bool.false_ne_true

/-- An operation on a pin that does not exist changes nothing. -/
theorem gpioStep_invalid {call : GpioCall} (invalid : call.offset > 1) (state : Gpio) :
    gpioStep state call = state := by
  -- Every operation checks the offset first.
  cases call with
  | get spi levels offset => simp only [gpioStep, gpioGet, if_pos (show offset > 1 from invalid)]
  | set spi offset value => simp only [gpioStep, gpioSet, if_pos (show offset > 1 from invalid)]
  | directionInput spi offset =>
    simp only [gpioStep, gpioDirectionInput, if_pos (show offset > 1 from invalid)]
  | directionOutput spi offset value =>
    simp only [gpioStep, gpioDirectionOutput, if_pos (show offset > 1 from invalid)]

/-- The masks of the operations are not empty. -/
theorem GpioCall.own_ne_zero {call : GpioCall} (write : call.isGet = false)
    (valid : call.offset ≤ 1) : call.own ≠ 0 := by
  -- There are two pins, so the masks of all operations can be computed.
  have pins : ∀ offset ≤ 1, ioconLat offset ≠ 0 ∧
      ioconTris offset ||| ioconStby offset ||| ioconPm offset ≠ 0 ∧
      ioconTris offset ||| ioconLat offset ||| ioconPm offset ||| ioconStby offset ≠ 0 := by
    decide
  cases call with
  | get spi levels offset => exact absurd write.symm Bool.false_ne_true
  | set spi offset value => exact (pins offset valid).1
  | directionInput spi offset => exact (pins offset valid).2.1
  | directionOutput spi offset value => exact (pins offset valid).2.2

/-- A write of a nonempty mask replaces the bytes of the mask when its transfer succeeds. -/
theorem cmdWriteMask_register {mask : BitVec 32} (nonempty : mask ≠ 0) (spi : Bool)
    (register data : BitVec 32) :
    (cmdWriteMask spi register data mask).2 =
      if spi then blend (transferred mask) register data else register := by
  -- The transfer succeeds or not.
  rw [cmdWriteMask, if_neg nonempty]
  cases spi <;> rfl

/-- The word after `mcp25xxfd_gpio_direction_input` is a blend of the old one. -/
theorem directionInput_word {offset : Nat} (valid : offset ≤ 1) (word : BitVec 32) :
    (word ||| (ioconTris offset ||| ioconPm offset)) &&& ~~~(ioconStby offset) =
      blend (ioconTris offset ||| ioconStby offset ||| ioconPm offset) word
        (ioconTris offset ||| ioconPm offset) := by
  have pins : ∀ offset ≤ 1,
      ioconTris offset ||| ioconPm offset ||| ioconStby offset =
        ioconTris offset ||| ioconStby offset ||| ioconPm offset ∧
      blend (ioconStby offset) (ioconTris offset ||| ioconPm offset) 0 =
        ioconTris offset ||| ioconPm offset := by
    decide
  -- Setting some bits and clearing others are two blends, which make up one.
  rw [or_eq_blend, and_not_eq_blend, blend_blend, (pins offset valid).1, (pins offset valid).2]

/-- The word after `mcp25xxfd_gpio_direction_output` is a blend of the old one. -/
theorem directionOutput_word {offset : Nat} (valid : offset ≤ 1) (value : Bool)
    (word : BitVec 32) :
    (if value then
        word &&& ~~~(ioconTris offset ||| ioconStby offset) ||| ioconPm offset ||| ioconLat offset
      else (word &&& ~~~(ioconTris offset ||| ioconStby offset) ||| ioconPm offset) &&&
        ~~~(ioconLat offset)) =
      blend (ioconTris offset ||| ioconLat offset ||| ioconPm offset ||| ioconStby offset) word
        (ioconPm offset ||| if value then ioconLat offset else 0) := by
  -- Both pins have their four bits at places of their own.
  have pins : ∀ offset ≤ 1,
      ioconTris offset ||| ioconStby offset ||| ioconPm offset ||| ioconLat offset =
        ioconTris offset ||| ioconLat offset ||| ioconPm offset ||| ioconStby offset ∧
      blend (ioconLat offset) (blend (ioconPm offset) 0 (ioconPm offset)) (ioconLat offset) =
        ioconPm offset ||| ioconLat offset ∧
      blend (ioconLat offset) (blend (ioconPm offset) 0 (ioconPm offset)) 0 =
        ioconPm offset ||| 0 := by
    decide
  obtain ⟨masks, high, low⟩ := pins offset valid
  -- The mode comes first, as one blend, and the level of the pin is a second one.
  have cleared : word &&& ~~~(ioconTris offset ||| ioconStby offset) ||| ioconPm offset =
      blend (ioconTris offset ||| ioconStby offset ||| ioconPm offset) word
        (blend (ioconPm offset) 0 (ioconPm offset)) := by
    rw [and_not_eq_blend, or_eq_blend (blend _ word 0), blend_blend]
  rw [cleared]
  cases value with
  | true =>
    rw [if_pos rfl, if_pos rfl, or_eq_blend (blend _ word _) (ioconLat offset), blend_blend,
      masks, high]
  | false =>
    rw [if_neg Bool.false_ne_true, if_neg Bool.false_ne_true, and_not_eq_blend, blend_blend,
      masks, low]

/-- A write blends its own bits into the word, and the word's bytes into the register. -/
theorem gpioStep_write {call : GpioCall} (write : call.isGet = false) (valid : call.offset ≤ 1)
    (state : Gpio) :
    gpioStep state call =
      { regsIocon := blend call.own state.regsIocon call.value
        chipIocon :=
          if call.spi then
            blend (transferred call.own) state.chipIocon (blend call.own state.regsIocon call.value)
          else state.chipIocon } := by
  -- Each operation changes its own bits in memory and then sends the bytes they lie in.
  have nonempty := call.own_ne_zero write valid
  cases call with
  | get spi levels offset => exact absurd write.symm Bool.false_ne_true
  | set spi offset value =>
    have inside : ¬ offset > 1 := Nat.not_lt.mpr valid
    have mask : ioconLat offset ≠ 0 := nonempty
    have word : (if value then state.regsIocon ||| ioconLat offset
        else state.regsIocon &&& ~~~(ioconLat offset)) =
          blend (ioconLat offset) state.regsIocon (if value then ioconLat offset else 0) := by
      cases value with
      | true => exact or_eq_blend _ _
      | false => exact and_not_eq_blend _ _
    simp only [gpioStep, gpioSet, if_neg inside, word, cmdWriteMask_register mask]
    rfl
  | directionInput spi offset =>
    have pin : offset ≤ 1 := valid
    have inside : ¬ offset > 1 := Nat.not_lt.mpr pin
    have mask : ioconTris offset ||| ioconStby offset ||| ioconPm offset ≠ 0 := nonempty
    simp only [gpioStep, gpioDirectionInput, if_neg inside, directionInput_word pin,
      cmdWriteMask_register mask]
    rfl
  | directionOutput spi offset value =>
    have pin : offset ≤ 1 := valid
    have inside : ¬ offset > 1 := Nat.not_lt.mpr pin
    have mask :
        ioconTris offset ||| ioconLat offset ||| ioconPm offset ||| ioconStby offset ≠ 0 := nonempty
    simp only [gpioStep, gpioDirectionOutput, if_neg inside, directionOutput_word pin,
      cmdWriteMask_register mask]
    rfl

/-- The settings that an operation must leave alone are none of its own bits. -/
theorem GpioCall.not_own {call : GpioCall} (write : call.isGet = false) (valid : call.offset ≤ 1)
    {i : Nat} (foreign : call.foreign.getLsbD i = true) : call.own.getLsbD i = false := by
  -- There are two pins to try.
  have pins : ∀ offset ≤ 1,
      ioconLat offset &&& (pinConfig (1 - offset) ||| ioconSof ||| ioconIntod) = 0 ∧
      (ioconTris offset ||| ioconStby offset ||| ioconPm offset) &&&
        (pinConfig (1 - offset) ||| ioconSof ||| ioconIntod) = 0 ∧
      (ioconTris offset ||| ioconLat offset ||| ioconPm offset ||| ioconStby offset) &&&
        (pinConfig (1 - offset) ||| ioconSof ||| ioconIntod) = 0 := by
    decide
  -- The masks have no bit in common, for either pin.
  have apart : call.own &&& call.foreign = 0 := by
    cases call with
    | get spi levels offset => exact absurd write.symm Bool.false_ne_true
    | set spi offset value => exact (pins offset valid).1
    | directionInput spi offset => exact (pins offset valid).2.1
    | directionOutput spi offset value => exact (pins offset valid).2.2
  -- A bit that is in both masks would be set in the empty word.
  have bits := congrArg (fun word => word.getLsbD i) apart
  simpa [foreign] using bits

/-- A bit of the register after an operation. -/
theorem getLsbD_chipIocon (state : Gpio) (call : GpioCall) (i : Nat) :
    (gpioStep state call).chipIocon.getLsbD i =
      if call.Writes ∧ (transferred call.own).getLsbD i = true then
        if call.own.getLsbD i then call.value.getLsbD i else state.regsIocon.getLsbD i
      else state.chipIocon.getLsbD i := by
  -- The call is a read, or a write that succeeds or fails.
  by_cases get : call.isGet = true
  · -- A read does not write.
    have reads : ¬ (call.Writes ∧ (transferred call.own).getLsbD i = true) := by
      intro both
      exact absurd (both.1.1.symm.trans get) Bool.false_ne_true
    rw [gpioStep_get get, if_neg reads]
  · have write : call.isGet = false := (Bool.not_eq_true _).mp get
    by_cases valid : call.offset ≤ 1
    · rw [gpioStep_write write valid]
      -- A write whose transfer fails changes the word in memory only.
      cases spi : call.spi with
      | true =>
        have writes : call.Writes := ⟨write, valid, spi⟩
        rw [if_pos rfl, getLsbD_blend, getLsbD_blend]
        simp only [writes, true_and]
      | false =>
        have fails : ¬ (call.Writes ∧ (transferred call.own).getLsbD i = true) := by
          intro both
          exact absurd (spi.symm.trans both.1.2.2) Bool.false_ne_true
        rw [if_neg Bool.false_ne_true, if_neg fails]
    · -- A pin that does not exist is refused before the word in memory is touched.
      have invalid : ¬ (call.Writes ∧ (transferred call.own).getLsbD i = true) := by
        intro both
        exact valid both.1.2.1
      rw [gpioStep_invalid (Nat.not_le.mp valid), if_neg invalid]

/-- A bit that is written along, in the register after the operation. -/
theorem getLsbD_chipIocon_along {state : Gpio} {call : GpioCall} {i : Nat} (writes : call.Writes)
    (inBytes : (transferred call.own).getLsbD i = true) (along : call.own.getLsbD i = false) :
    (gpioStep state call).chipIocon.getLsbD i = state.regsIocon.getLsbD i := by
  -- The bit is written, and is not the operation's own.
  rw [getLsbD_chipIocon, if_pos ⟨writes, inBytes⟩, along]
  rfl

/-- The settings in the register are those without any read so far. -/
def GpioPair.Same (pair : GpioPair) : Prop :=
  AgreeOn ioconConfig pair.gpio.chipIocon pair.unread.chipIocon

/-- A call that fits does what is expected of it, as long as the register is as without reads. -/
theorem gpioSound_of_fits {pair : GpioPair} {call : GpioCall} (same : pair.Same)
    (fits : GpioFits pair call) : GpioSound pair call (pair.after call) := by
  -- The two parts are about the settings of others and about the bits of the call.
  rw [GpioPair.Same, agreeOn_iff] at same
  constructor
  · rw [agreeOn_iff]
    intro i foreign
    show (gpioStep pair.gpio call).chipIocon.getLsbD i = _
    -- A foreign bit that is written comes from memory, where it is as in the register.
    by_cases written : call.Writes ∧ (transferred call.own).getLsbD i = true
    · rcases written with ⟨writes, inBytes⟩
      have along := GpioCall.not_own writes.1 writes.2.1 foreign
      rw [getLsbD_chipIocon_along writes inBytes along]
      apply agreeOn_iff.mp (fits writes).1
      rw [BitVec.getLsbD_and, inBytes, foreign]
      rfl
    · rw [getLsbD_chipIocon, if_neg written]
  · rw [agreeOn_iff]
    intro i config
    by_cases get : call.isGet = true
    · -- A read leaves both registers as they are.
      show (gpioStep pair.gpio call).chipIocon.getLsbD i =
        (if call.isGet then pair.unread else gpioStep pair.unread call).chipIocon.getLsbD i
      rw [if_pos get, gpioStep_get get]
      exact same i config
    · show (gpioStep pair.gpio call).chipIocon.getLsbD i =
        (if call.isGet then pair.unread else gpioStep pair.unread call).chipIocon.getLsbD i
      rw [if_neg get, getLsbD_chipIocon, getLsbD_chipIocon, same i config]
      by_cases written : call.Writes ∧ (transferred call.own).getLsbD i = true
      · rw [if_pos written, if_pos written]
        -- Its own bits get the same value on both sides; the others come from memory.
        cases own : call.own.getLsbD i with
        | true => rfl
        | false =>
          apply agreeOn_iff.mp (fits written.1).2
          rw [BitVec.getLsbD_and, BitVec.getLsbD_and, written.2, config, BitVec.getLsbD_not, own]
          simp [BitVec.lt_of_getLsbD config]
      · rw [if_neg written, if_neg written]

/-- A call that does what is expected of it fits. -/
theorem gpioFits_of_sound {pair : GpioPair} {call : GpioCall}
    (sound : GpioSound pair call (pair.after call)) : GpioFits pair call := by
  -- Only a write has to fit.
  intro writes
  have write : ¬ call.isGet = true := by
    rw [writes.1]
    exact Bool.false_ne_true
  constructor
  · rw [agreeOn_iff]
    intro i both
    rw [BitVec.getLsbD_and, Bool.and_eq_true] at both
    -- A setting in the bytes that are written is written along, from the copy.
    have along := GpioCall.not_own writes.1 writes.2.1 both.2
    have kept := agreeOn_iff.mp sound.kept i both.2
    rwa [GpioPair.after, getLsbD_chipIocon_along writes both.1 along] at kept
  · rw [agreeOn_iff]
    intro i all
    rw [BitVec.getLsbD_and, BitVec.getLsbD_and, BitVec.getLsbD_not, Bool.and_eq_true,
      Bool.and_eq_true, Bool.and_eq_true, Bool.not_eq_true'] at all
    obtain ⟨⟨inBytes, config⟩, _, along⟩ := all
    -- A setting of the copy that is written stands in the register afterwards.
    have unread := agreeOn_iff.mp sound.unread i config
    simp only [GpioPair.after, if_neg write] at unread
    rwa [getLsbD_chipIocon_along writes inBytes along,
      getLsbD_chipIocon_along writes inBytes along] at unread

/-- The pins are independent along a run exactly when every write of the run fits. -/
theorem gpioSound_iff_fits (sof opendrain : Bool) (calls : List GpioCall) :
    (gpioMachine sof opendrain).Along GpioSound (gpioMachine sof opendrain).start calls ↔
      (gpioMachine sof opendrain).Along (fun pair call _ => GpioFits pair call)
        (gpioMachine sof opendrain).start calls := by
  -- The invariant is that no read has shown in the register so far.
  have probed : (gpioMachine sof opendrain).start.Same := rfl
  apply Machine.along_iff_condition ?_ ?_ calls _ probed
  · intro pair call next same fits stepped
    cases stepped
    have sound := gpioSound_of_fits same fits
    exact ⟨sound.unread, sound⟩
  · intro pair call next same sound stepped
    cases stepped
    exact gpioFits_of_sound sound

/-- An operation that is no read, and whose transfer succeeds if there is one. -/
def GpioCall.Plain (call : GpioCall) : Prop := call.isGet = false ∧ call.spi = true

/-- Without a read, the word in memory has the settings of the register. -/
structure GpioPair.InStep (pair : GpioPair) : Prop where
  memory : AgreeOn ioconConfig pair.gpio.regsIocon pair.gpio.chipIocon
  unread : pair.unread = pair.gpio

/-- The bits of an operation lie in the bytes that it writes, and the others are settings. -/
theorem GpioCall.own_subset {call : GpioCall} (write : call.isGet = false)
    (valid : call.offset ≤ 1) :
    Subset call.own (transferred call.own) ∧ Subset call.foreign ioconConfig := by
  -- There are two pins, and each operation has a mask of its own for each.
  have pins : ∀ offset ≤ 1,
      Subset (ioconLat offset) (transferred (ioconLat offset)) ∧
      Subset (ioconTris offset ||| ioconStby offset ||| ioconPm offset)
        (transferred (ioconTris offset ||| ioconStby offset ||| ioconPm offset)) ∧
      Subset (ioconTris offset ||| ioconLat offset ||| ioconPm offset ||| ioconStby offset)
        (transferred
          (ioconTris offset ||| ioconLat offset ||| ioconPm offset ||| ioconStby offset)) ∧
      Subset (pinConfig (1 - offset) ||| ioconSof ||| ioconIntod) ioconConfig := by
    decide
  cases call with
  | get spi levels offset => exact absurd write.symm Bool.false_ne_true
  | set spi offset value => exact ⟨(pins offset valid).1, (pins offset valid).2.2.2⟩
  | directionInput spi offset => exact ⟨(pins offset valid).2.1, (pins offset valid).2.2.2⟩
  | directionOutput spi offset value =>
    exact ⟨(pins offset valid).2.2.1, (pins offset valid).2.2.2⟩

/-- A plain operation keeps memory and register in step, and fits. -/
theorem GpioPair.InStep.plain {pair : GpioPair} {call : GpioCall} (inStep : pair.InStep)
    (plain : call.Plain) : (pair.after call).InStep ∧ GpioFits pair call := by
  -- Both the memory and the register get the bits of the call and keep the others.
  have memory := agreeOn_iff.mp inStep.memory
  have write : ¬ call.isGet = true := by
    rw [plain.1]
    exact Bool.false_ne_true
  refine ⟨⟨?_, ?_⟩, ?_⟩
  · show AgreeOn ioconConfig (gpioStep pair.gpio call).regsIocon (gpioStep pair.gpio call).chipIocon
    rw [agreeOn_iff]
    intro i config
    rw [getLsbD_chipIocon]
    by_cases valid : call.offset ≤ 1
    · have inBytes := subset_iff.mp (call.own_subset plain.1 valid).1 i
      have writes : call.Writes := ⟨plain.1, valid, plain.2⟩
      rw [gpioStep_write plain.1 valid, getLsbD_blend]
      -- A bit outside the bytes is neither written nor changed in memory.
      by_cases own : call.own.getLsbD i = true
      · rw [if_pos own, if_pos ⟨writes, inBytes own⟩]
      · rw [if_neg own, memory i config]
        split <;> rfl
    · have invalid : ¬ (call.Writes ∧ (transferred call.own).getLsbD i = true) :=
        fun both => valid both.1.2.1
      rw [gpioStep_invalid (Nat.not_le.mp valid), if_neg invalid]
      exact memory i config
  · -- Without reads there is nothing to leave out, so both sides take the same step.
    show (if call.isGet then pair.unread else gpioStep pair.unread call) = gpioStep pair.gpio call
    rw [if_neg write, inStep.unread]
  · intro writes
    rw [inStep.unread]
    refine ⟨?_, rfl⟩
    rw [agreeOn_iff]
    intro i both
    rw [BitVec.getLsbD_and, Bool.and_eq_true] at both
    exact memory i (subset_iff.mp (call.own_subset writes.1 writes.2.1).2 i both.2)

/-- The pins are independent along every run without reads in which no transfer fails. -/
theorem gpioSound_of_plain (sof opendrain : Bool) {calls : List GpioCall}
    (plain : ∀ call ∈ calls, call.Plain) :
    (gpioMachine sof opendrain).Along GpioSound (gpioMachine sof opendrain).start calls := by
  -- The probe writes the word that it keeps, and a plain operation keeps the two in step.
  have probed : (gpioMachine sof opendrain).start.InStep := ⟨rfl, rfl⟩
  apply Machine.along_of_condition ?_ calls _ probed
    (Machine.along_of_forall (fun call member _ _ => plain call member) _)
  · intro pair call next inStep here stepped
    cases stepped
    obtain ⟨later, fits⟩ := inStep.plain here
    have same : pair.Same := by
      rw [GpioPair.Same, inStep.unread]
      rfl
    exact ⟨later, gpioSound_of_fits same fits⟩

/-- A read between two operations makes the later one clear the latch of the other pin. -/
theorem gpioGet_not_independent :
    ¬ ∀ (sof opendrain : Bool) (calls : List GpioCall),
      (gpioMachine sof opendrain).Along GpioSound (gpioMachine sof opendrain).start calls := by
  intro claim
  -- Pin 0 drives high, pin 1 is read, and pin 1 is set.
  have sound := (claim false false
    ([.directionOutput true 0 true, .get true 0 1] ++ [.set true 1 true])).transition rfl rfl
  exact absurd sound.kept (by decide)

end OpenwrtMisc.Mcp25xxfd
