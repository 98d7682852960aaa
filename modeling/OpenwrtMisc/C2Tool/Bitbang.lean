import OpenwrtMisc.Lib.Relational

/-! The two transports of the C2 interface: C2D set from user space, and by the kernel module. -/

namespace OpenwrtMisc.C2Tool

/-- What can be seen of C2D: its level at the strobes of the clock, and where it was read. -/
structure Wire where
  /-- The levels at the strobes of the operations before. -/
  past : List Bool
  /-- The levels at the strobes of this operation. -/
  strobes : List Bool
  /-- The strobes of this operation behind which C2D was read. -/
  samples : List Nat

/-- All strobes so far. -/
def Wire.history (wire : Wire) : List Bool := wire.past ++ wire.strobes

/-- A strobe of the clock. -/
def Wire.strobe (level : Bool) (wire : Wire) : Wire :=
  { wire with strobes := wire.strobes ++ [level] }

/-- A read of C2D. -/
def Wire.sample (wire : Wire) : Wire :=
  { wire with samples := wire.samples ++ [wire.strobes.length] }

/-- The next operation starts. -/
def Wire.next (wire : Wire) : Wire where
  past := wire.history
  strobes := []
  samples := []

/-- A way to set C2D, with what was seen of C2D. -/
structure Wired (Pin : Type) where
  pin : Pin
  wire : Wire

/-- The level that a target puts on a C2D that is released, behind any sequence of strobes. -/
abbrev Behaviour := List Bool → Bool

section Fields

variable {σ : Type} (set : Bool → StateM σ Unit) (strobe : StateM σ Unit) (get : StateM σ Bool)

/-- The loop of an ADDRESS or DATA field that is written. -/
def shiftOut : Nat → UInt8 → StateM σ Unit
  | 0, _ => pure ()
  | left + 1, byte => do
    set (byte &&& 0x01 ≠ 0)
    strobe
    shiftOut left (byte >>> 1)

/-- The loop of an ADDRESS or DATA field that is read. -/
def shiftIn : Nat → UInt8 → StateM σ UInt8
  | 0, byte => pure byte
  | left + 1, byte => do
    strobe
    let level ← get
    shiftIn left (if level then byte >>> 1 ||| 0x80 else byte >>> 1)

/-- The loop of a WAIT field, which ends with a high C2D or the timeout. -/
def waitField : Nat → StateM σ Bool
  | 0 => pure false
  | timeout + 1 => do
    strobe
    let level ← get
    if level then pure true else waitField timeout

end Fields

namespace UserSpace

/-- The value file of C2D, an open-drain pin: low is driven, high is released. -/
structure Pin where
  value : Bool

variable (behaviour : Behaviour)

/-- `c2d_set`. -/
def c2dSet (state : Bool) : StateM (Wired Pin) Unit := modify fun c2if =>
  { c2if with pin := { value := state } }

/-- `c2d_get`. -/
def c2dGet : StateM (Wired Pin) Bool := do
  let c2if ← get
  set { c2if with wire := c2if.wire.sample }
  pure (c2if.pin.value && behaviour c2if.wire.history)

/-- `c2ck_strobe`. -/
def c2ckStrobe : StateM (Wired Pin) Unit := modify fun c2if =>
  { c2if with wire := c2if.wire.strobe c2if.pin.value }

/-- `c2_write_ar`. -/
def c2WriteAr (addr : UInt8) : StateM (Wired Pin) Unit := do
  -- START
  c2dSet true
  c2ckStrobe
  -- INS
  c2dSet true
  c2ckStrobe
  c2dSet true
  c2ckStrobe
  -- ADDRESS
  shiftOut c2dSet c2ckStrobe 8 addr
  -- STOP
  c2dSet true
  c2ckStrobe

/-- `c2_read_ar`. -/
def c2ReadAr : StateM (Wired Pin) UInt8 := do
  -- START
  c2dSet true
  c2ckStrobe
  -- INS
  c2dSet false
  c2ckStrobe
  c2dSet true
  c2ckStrobe
  -- ADDRESS
  c2dSet true
  let addr ← shiftIn c2ckStrobe (c2dGet behaviour) 8 0
  -- STOP
  c2ckStrobe
  pure addr

/-- `c2_write_dr`, with `none` for `-EIO`. -/
def c2WriteDr (data : UInt8) : StateM (Wired Pin) (Option Unit) := do
  -- START
  c2dSet true
  c2ckStrobe
  -- INS
  c2dSet true
  c2ckStrobe
  c2dSet false
  c2ckStrobe
  -- LENGTH
  c2dSet false
  c2ckStrobe
  c2dSet false
  c2ckStrobe
  -- DATA
  shiftOut c2dSet c2ckStrobe 8 data
  -- WAIT
  c2dSet true
  let ready ← waitField c2ckStrobe (c2dGet behaviour) 20
  if ready then do
    -- STOP
    c2ckStrobe
    pure (some ())
  else pure none

/-- `c2_read_dr`, with `none` for `-EIO`. -/
def c2ReadDr : StateM (Wired Pin) (Option UInt8) := do
  -- START
  c2dSet true
  c2ckStrobe
  -- INS
  c2dSet false
  c2ckStrobe
  c2dSet false
  c2ckStrobe
  -- LENGTH
  c2dSet false
  c2ckStrobe
  c2dSet false
  c2ckStrobe
  -- WAIT
  c2dSet true
  let ready ← waitField c2ckStrobe (c2dGet behaviour) 20
  if ready then do
    -- DATA
    let data ← shiftIn c2ckStrobe (c2dGet behaviour) 8 0
    -- STOP
    c2ckStrobe
    pure (some data)
  else pure none

end UserSpace

namespace KernelModule

/-- The GPIO of C2D: its direction, and the value that it is driven with as an output. -/
structure Pin where
  input : Bool
  value : Bool

/-- The level that the module puts on C2D, which is high when C2D is released. -/
def Pin.level (pin : Pin) : Bool := pin.input || pin.value

variable (behaviour : Behaviour)

/-- `gpio_set_value` on C2D. -/
def gpioSetValue (value : Bool) : StateM (Wired Pin) Unit := modify fun port =>
  { port with pin := { port.pin with value := value } }

/-- `gpio_get_value` on C2D. -/
def gpioGetValue : StateM (Wired Pin) Bool := do
  let port ← get
  set { port with wire := port.wire.sample }
  pure (if port.pin.input then behaviour port.wire.history else port.pin.value)

/-- `c2port_c2d_dir`: `gpio_direction_input`, or `gpio_direction_output` with the level there. -/
def c2portC2dDir (dir : Bool) : StateM (Wired Pin) Unit := do
  if dir then modify fun port => { port with pin := { port.pin with input := true } }
  else do
    let value ← gpioGetValue behaviour
    modify fun port => { port with pin := { input := false, value := value } }

/-- `c2port_strobe_ck`. -/
def c2portStrobeCk : StateM (Wired Pin) Unit := modify fun port =>
  { port with wire := port.wire.strobe port.pin.level }

/-- `c2port_write_ar`. -/
def c2portWriteAr (addr : UInt8) : StateM (Wired Pin) Unit := do
  -- START
  c2portStrobeCk
  -- INS
  c2portC2dDir behaviour false
  gpioSetValue true
  c2portStrobeCk
  gpioSetValue true
  c2portStrobeCk
  -- ADDRESS
  shiftOut gpioSetValue c2portStrobeCk 8 addr
  -- STOP
  c2portC2dDir behaviour true
  c2portStrobeCk

/-- `c2port_read_ar`. -/
def c2portReadAr : StateM (Wired Pin) UInt8 := do
  -- START
  c2portStrobeCk
  -- INS
  c2portC2dDir behaviour false
  gpioSetValue false
  c2portStrobeCk
  gpioSetValue true
  c2portStrobeCk
  -- ADDRESS
  c2portC2dDir behaviour true
  let addr ← shiftIn c2portStrobeCk (gpioGetValue behaviour) 8 0
  -- STOP
  c2portStrobeCk
  pure addr

/-- `c2port_write_dr`, with `none` for `-EIO`. -/
def c2portWriteDr (data : UInt8) : StateM (Wired Pin) (Option Unit) := do
  -- START
  c2portStrobeCk
  -- INS
  c2portC2dDir behaviour false
  gpioSetValue true
  c2portStrobeCk
  gpioSetValue false
  c2portStrobeCk
  -- LENGTH
  gpioSetValue false
  c2portStrobeCk
  gpioSetValue false
  c2portStrobeCk
  -- DATA
  shiftOut gpioSetValue c2portStrobeCk 8 data
  -- WAIT
  c2portC2dDir behaviour true
  let ready ← waitField c2portStrobeCk (gpioGetValue behaviour) 20
  if ready then do
    -- STOP
    c2portStrobeCk
    pure (some ())
  else pure none

/-- `c2port_read_dr`, with `none` for `-EIO`. -/
def c2portReadDr : StateM (Wired Pin) (Option UInt8) := do
  -- START
  c2portStrobeCk
  -- INS
  c2portC2dDir behaviour false
  gpioSetValue false
  c2portStrobeCk
  gpioSetValue false
  c2portStrobeCk
  -- LENGTH
  gpioSetValue false
  c2portStrobeCk
  gpioSetValue false
  c2portStrobeCk
  -- WAIT
  c2portC2dDir behaviour true
  let ready ← waitField c2portStrobeCk (gpioGetValue behaviour) 20
  if ready then do
    -- DATA
    let data ← shiftIn c2portStrobeCk (gpioGetValue behaviour) 8 0
    -- STOP
    c2portStrobeCk
    pure (some data)
  else pure none

/-- `struct c2port_command`. -/
structure C2portCommand where
  ar : UInt8
  dr : UInt8
  length : UInt8
  access : UInt8

/-- The commands of the device that use C2D. -/
inductive C2portCmd where
  | writeAr
  | readAr
  | writeDr
  | readDr
  deriving DecidableEq, Repr

/--
`c2port_gpio_ioctl` on a structure of the caller, with `none` for an error.

The commands are of the module's type, and the structure can be copied both ways.
-/
def c2portGpioIoctl (cmd : C2portCmd) (arg : C2portCommand) :
    StateM (Wired Pin) (Option C2portCommand) :=
  match cmd with
  | .writeAr => do
    c2portWriteAr behaviour arg.ar
    pure (some arg)
  | .readAr => do
    let ar ← c2portReadAr behaviour
    pure (some { arg with ar := ar })
  | .writeDr => do
    let err ← c2portWriteDr behaviour arg.dr
    pure (err.map fun _ => arg)
  | .readDr => do
    let dr ← c2portReadDr behaviour
    pure (dr.map fun dr => { arg with dr := dr })

variable (fresh : C2portCommand)

/-- `c2_write_ar` of `c2t-new`, from what its structure holds when it is allocated. -/
def c2WriteAr (addr : UInt8) : StateM (Wired Pin) Unit := do
  let _ ← c2portGpioIoctl behaviour .writeAr { fresh with ar := addr }
  pure ()

/-- `c2_read_ar` of `c2t-new`. -/
def c2ReadAr : StateM (Wired Pin) (Option UInt8) := do
  let ret ← c2portGpioIoctl behaviour .readAr fresh
  pure (ret.map C2portCommand.ar)

/-- `c2_write_dr` of `c2t-new`. -/
def c2WriteDr (data : UInt8) : StateM (Wired Pin) (Option Unit) := do
  let ret ← c2portGpioIoctl behaviour .writeDr { fresh with dr := data }
  pure (ret.map fun _ => ())

/-- `c2_read_dr` of `c2t-new`. -/
def c2ReadDr : StateM (Wired Pin) (Option UInt8) := do
  let ret ← c2portGpioIoctl behaviour .readDr fresh
  pure (ret.map C2portCommand.dr)

end KernelModule

/-- The operations of the interface. -/
inductive C2Op where
  | writeAr (addr : UInt8)
  | readAr
  | writeDr (data : UInt8)
  | readDr

/-- An operation from user space: `none` when it fails, and the bytes that it reads. -/
def UserSpace.perform (behaviour : Behaviour) : C2Op → StateM (Wired Pin) (Option (List UInt8))
  | .writeAr addr => do
    c2WriteAr addr
    pure (some [])
  | .readAr => do
    let addr ← c2ReadAr behaviour
    pure (some [addr])
  | .writeDr data => do
    let ret ← c2WriteDr behaviour data
    pure (ret.map fun _ => [])
  | .readDr => do
    let data ← c2ReadDr behaviour
    pure (data.map fun data => [data])

/-- An operation through the kernel module. -/
def KernelModule.perform (behaviour : Behaviour) (fresh : C2portCommand) :
    C2Op → StateM (Wired Pin) (Option (List UInt8))
  | .writeAr addr => do
    c2WriteAr behaviour fresh addr
    pure (some [])
  | .readAr => do
    let addr ← c2ReadAr behaviour fresh
    pure (addr.map fun addr => [addr])
  | .writeDr data => do
    let ret ← c2WriteDr behaviour fresh data
    pure (ret.map fun _ => [])
  | .readDr => do
    let data ← c2ReadDr behaviour fresh
    pure (data.map fun data => [data])

/-- What an operation did on the wire, and its result. -/
structure Log where
  strobes : List Bool
  samples : List Nat
  result : Option (List UInt8)
  deriving DecidableEq, Repr

/-- The logs of a sequence of operations, each told how many come after it. -/
def runOps {Pin : Type} (perform : Nat → C2Op → StateM (Wired Pin) (Option (List UInt8))) :
    List C2Op → Wired Pin → List Log
  | [], _ => []
  | op :: rest, state =>
    let after := ((perform rest.length op).run { state with wire := state.wire.next }).run
    { strobes := after.2.wire.strobes, samples := after.2.wire.samples, result := after.1 } ::
      runOps perform rest after.2

/-- A wire on which nothing has happened. -/
def Wire.fresh : Wire where
  past := []
  strobes := []
  samples := []

/-- The operations from user space, from a released C2D on. -/
def UserSpace.run (behaviour : Behaviour) (ops : List C2Op) : List Log :=
  runOps (fun _ => perform behaviour) ops { pin := { value := true }, wire := .fresh }

/-- The operations through the kernel module, from a C2D that is an input on. -/
def KernelModule.run (behaviour : Behaviour) (allocated : Nat → C2portCommand) (latch : Bool)
    (ops : List C2Op) : List Log :=
  runOps (fun later => perform behaviour (allocated later)) ops
    { pin := { input := true, value := latch }, wire := .fresh }

end OpenwrtMisc.C2Tool
