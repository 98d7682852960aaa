import OpenwrtMisc.C2Tool.Bitbang

/-! The kernel module puts on C2D what the bit-banging from user space puts there. -/

namespace OpenwrtMisc.C2Tool

/-- The two ports of one wire. -/
abbrev Ports := Wired UserSpace.Pin → Wired KernelModule.Pin → Prop

/-- Both saw the same of C2D, but for reads that the kernel module alone made before the others. -/
structure Meet (extra : List Nat) (user : Wired UserSpace.Pin) (kernel : Wired KernelModule.Pin) :
    Prop where
  past : user.wire.past = kernel.wire.past
  strobes : user.wire.strobes = kernel.wire.strobes
  samples : kernel.wire.samples = extra ++ user.wire.samples

/-- An operation has not begun, and the kernel module has released C2D. -/
structure Idle (user : Wired UserSpace.Pin) (kernel : Wired KernelModule.Pin) : Prop
    extends Meet [] user kernel where
  input : kernel.pin.input = true
  unstrobed : user.wire.strobes = []
  unread : user.wire.samples = []

/-- The user space has released C2D as well. -/
structure Begun (user : Wired UserSpace.Pin) (kernel : Wired KernelModule.Pin) : Prop
    extends Idle user kernel where
  high : user.pin.value = true

/-- The START field is over, and the kernel module has not read C2D yet. -/
structure Started (user : Wired UserSpace.Pin) (kernel : Wired KernelModule.Pin) : Prop
    extends Meet [] user kernel where
  once : kernel.wire.strobes.length = 1
  unread : user.wire.samples = []

/-- The kernel module drives C2D, whatever its level. -/
structure Opened (user : Wired UserSpace.Pin) (kernel : Wired KernelModule.Pin) : Prop
    extends Meet [1] user kernel where
  output : kernel.pin.input = false

/-- Both drive C2D to the same level. -/
structure Driven (user : Wired UserSpace.Pin) (kernel : Wired KernelModule.Pin) : Prop
    extends Opened user kernel where
  level : user.pin.value = kernel.pin.value

/-- Both have released C2D. -/
structure Released (user : Wired UserSpace.Pin) (kernel : Wired KernelModule.Pin) : Prop
    extends Meet [1] user kernel where
  input : kernel.pin.input = true
  high : user.pin.value = true

/-- A strobe with C2D at one level is seen as the same by both. -/
theorem Meet.strobe {extra : List Nat} {user : Wired UserSpace.Pin}
    {kernel : Wired KernelModule.Pin} (meet : Meet extra user kernel) {first second : Bool}
    (same : first = second) :
    Meet extra { user with wire := user.wire.strobe first }
      { kernel with wire := kernel.wire.strobe second } := by
  -- One more level on each of the two lists.
  refine ⟨meet.past, ?_, meet.samples⟩
  simp only [Wire.strobe, meet.strobes, same]

/-- A read behind the same strobe is another one for both. -/
theorem Meet.sample {extra : List Nat} {user : Wired UserSpace.Pin}
    {kernel : Wired KernelModule.Pin} (meet : Meet extra user kernel) :
    Meet extra { user with wire := user.wire.sample }
      { kernel with wire := kernel.wire.sample } := by
  -- Both note the number of strobes so far, which is the same.
  refine ⟨meet.past, meet.strobes, ?_⟩
  simp only [Wire.sample, meet.strobes, meet.samples, List.append_assoc]

section Primitives

open UserSpace KernelModule

variable (behaviour : Behaviour)

/-- The first strobe comes while both have released C2D. -/
theorem start_relates {α : Type} {user : StateM (Wired UserSpace.Pin) α}
    {kernel : StateM (Wired KernelModule.Pin) α} {after : Ports}
    (rest : Relates Opened user kernel after) :
    Relates Idle (do c2dSet true; c2ckStrobe; user)
      (do c2portStrobeCk; c2portC2dDir behaviour false; kernel) after := by
  -- Both begin with a strobe, and differ in what they do to C2D around it.
  have high : ∀ user kernel, Idle user kernel →
      Begun ((c2dSet true).run user).run.2 kernel := by
    intro user kernel idle
    exact ⟨⟨⟨idle.past, idle.strobes, idle.samples⟩, idle.input, idle.unstrobed, idle.unread⟩, rfl⟩
  have strobed : Relates Begun c2ckStrobe c2portStrobeCk Started := by
    refine Relates.modify fun user kernel begun => ?_
    have level : user.pin.value = kernel.pin.level := by
      rw [begun.high, KernelModule.Pin.level, begun.input, Bool.true_or]
    refine ⟨begun.toMeet.strobe level, ?_, begun.unread⟩
    simp only [Wire.strobe, ← begun.strobes, begun.unstrobed, List.nil_append,
      List.length_cons, List.length_nil]
  -- The module reads C2D to drive it with the level that it finds there.
  have opened : ∀ user kernel, Started user kernel →
      Opened user ((c2portC2dDir behaviour false).run kernel).run.2 := by
    intro user kernel started
    refine ⟨⟨started.past, started.strobes, ?_⟩, rfl⟩
    have read : ((c2portC2dDir behaviour false).run kernel).run.2.wire = kernel.wire.sample := rfl
    rw [read, Wire.sample, started.samples, started.unread, started.once]
    rfl
  exact Relates.left high (strobed.bind fun _ => Relates.right opened rest)

/-- Both set C2D to the same level. -/
theorem set_relates (value : Bool) : Relates Opened (c2dSet value) (gpioSetValue value) Driven := by
  -- Only the level changes.
  refine Relates.modify fun user kernel opened => ?_
  exact ⟨⟨⟨opened.past, opened.strobes, opened.samples⟩, opened.output⟩, rfl⟩

/-- A strobe of a C2D that both drive to the same level. -/
theorem strobe_driven : Relates Driven c2ckStrobe c2portStrobeCk Driven := by
  -- A driven line shows the level of its pin to both.
  refine Relates.modify fun user kernel driven => ?_
  have level : user.pin.value = kernel.pin.level := by
    rw [driven.level, KernelModule.Pin.level, driven.output, Bool.false_or]
  exact ⟨⟨driven.toMeet.strobe level, driven.output⟩, driven.level⟩

/-- A strobe of a C2D that both have released. -/
theorem strobe_released : Relates Released c2ckStrobe c2portStrobeCk Released := by
  -- A released line is high for both.
  refine Relates.modify fun user kernel released => ?_
  have level : user.pin.value = kernel.pin.level := by
    rw [released.high, KernelModule.Pin.level, released.input, Bool.true_or]
  exact ⟨released.toMeet.strobe level, released.input, released.high⟩

/-- The module makes C2D an input where the user space sets it high. -/
theorem release_relates :
    Relates Opened (c2dSet true) (c2portC2dDir behaviour true) Released := by
  -- High is what the user space has for an input.
  refine Relates.modify fun user kernel opened => ?_
  exact ⟨⟨opened.past, opened.strobes, opened.samples⟩, rfl, rfl⟩

/-- A released C2D has the level of the target for both. -/
theorem get_relates :
    Relates Released (c2dGet behaviour) (gpioGetValue behaviour) Released := by
  -- The target answers from what it has seen, which is the same.
  intro user kernel released
  have history : user.wire.history = kernel.wire.history := by
    rw [Wire.history, Wire.history, released.past, released.strobes]
  refine ⟨?_, released.toMeet.sample, released.input, released.high⟩
  show (user.pin.value && behaviour user.wire.history) =
    if kernel.pin.input then behaviour kernel.wire.history else kernel.pin.value
  rw [released.high, released.input, Bool.true_and, if_pos rfl, history]

end Primitives

section Fields

variable {σ τ : Type} {relation : σ → τ → Prop}

/-- A field that is written bit by bit. -/
theorem shiftOut_relates {middle : σ → τ → Prop} {set : Bool → StateM σ Unit}
    {other : Bool → StateM τ Unit} {strobe : StateM σ Unit} {strobe' : StateM τ Unit}
    (sets : ∀ value, Relates relation (set value) (other value) middle)
    (strobes : Relates middle strobe strobe' relation) (left : Nat) :
    ∀ byte, Relates relation (shiftOut set strobe left byte) (shiftOut other strobe' left byte)
      relation := by
  -- The induction is on the bits that are left.
  induction left with
  | zero => exact fun _ => Relates.pure ()
  | succ left ih =>
    intro byte
    exact (sets _).bind fun _ => strobes.bind fun _ => ih _

variable {strobe : StateM σ Unit} {strobe' : StateM τ Unit} {get : StateM σ Bool}
  {get' : StateM τ Bool} (strobes : Relates relation strobe strobe' relation)
  (gets : Relates relation get get' relation)

include strobes gets

/-- A field that is read bit by bit. -/
theorem shiftIn_relates (left : Nat) :
    ∀ byte, Relates relation (shiftIn strobe get left byte) (shiftIn strobe' get' left byte)
      relation := by
  -- The induction is on the bits that are left.
  induction left with
  | zero => exact fun byte => Relates.pure byte
  | succ left ih =>
    intro byte
    exact strobes.bind fun _ => gets.bind fun _ => ih _

/-- A WAIT field ends at the same strobe, in time or not. -/
theorem waitField_relates (timeout : Nat) :
    Relates relation (waitField strobe get timeout) (waitField strobe' get' timeout) relation := by
  -- The induction is on the strobes that are left, each of which may be the last.
  induction timeout with
  | zero => exact Relates.pure false
  | succ timeout ih =>
    refine strobes.bind fun _ => gets.bind fun level => ?_
    cases level
    · exact ih
    · exact Relates.pure true

end Fields

section Operations

open UserSpace KernelModule

variable (behaviour : Behaviour)

/-- A bit that both put on C2D and strobe. -/
theorem bit_relates {α : Type} {user : StateM (Wired UserSpace.Pin) α}
    {kernel : StateM (Wired KernelModule.Pin) α} {after : Ports} (value : Bool)
    (rest : Relates Driven user kernel after) :
    Relates Opened (do c2dSet value; c2ckStrobe; user)
      (do gpioSetValue value; c2portStrobeCk; kernel) after :=
  (set_relates value).bind fun _ => strobe_driven.bind fun _ => rest

/-- A C2D that both drive to one level is one that the module drives. -/
theorem relates_driven {α : Type} {user : StateM (Wired UserSpace.Pin) α}
    {kernel : StateM (Wired KernelModule.Pin) α} {after : Ports}
    (relates : Relates Opened user kernel after) : Relates Driven user kernel after :=
  relates.weaken (fun _ _ driven => driven.toOpened) fun _ _ ended => ended

/-- An ADDRESS or DATA field that both write. -/
theorem shiftOut_driven (left : Nat) (byte : UInt8) :
    Relates Driven (shiftOut c2dSet c2ckStrobe left byte)
      (shiftOut gpioSetValue c2portStrobeCk left byte) Driven :=
  shiftOut_relates (fun value => relates_driven (set_relates value)) strobe_driven left byte

/-- An ADDRESS or DATA field that both read, and the STOP field. -/
theorem shiftIn_released {α : Type} (left : Nat) (byte : UInt8) (result : UInt8 → α) :
    Relates Released
      (do let byte ← shiftIn c2ckStrobe (c2dGet behaviour) left byte
          c2ckStrobe
          pure (result byte))
      (do let byte ← shiftIn c2portStrobeCk (gpioGetValue behaviour) left byte
          c2portStrobeCk
          pure (result byte)) Released :=
  (shiftIn_relates strobe_released (get_relates behaviour) left byte).bind fun byte =>
    strobe_released.bind fun _ => Relates.pure (result byte)

/-- A WAIT field, and what follows when C2D was high in time. -/
theorem waitField_released {α : Type} (timeout : Nat) {user : StateM (Wired UserSpace.Pin) α}
    {kernel : StateM (Wired KernelModule.Pin) α} (late : α)
    (rest : Relates Released user kernel Released) :
    Relates Released
      (do if ← waitField c2ckStrobe (c2dGet behaviour) timeout then user else pure late)
      (do if ← waitField c2portStrobeCk (gpioGetValue behaviour) timeout then kernel
          else pure late) Released := by
  refine (waitField_relates strobe_released (get_relates behaviour) timeout).bind fun ready => ?_
  -- C2D stays released when the time is over.
  cases ready
  · exact Relates.pure late
  · exact rest

/-- Both write the address register. -/
theorem writeAr_relates (addr : UInt8) :
    Relates Idle (UserSpace.c2WriteAr addr) (c2portWriteAr behaviour addr) Released := by
  -- The bits of the instruction, the address, and the release with its strobe.
  refine start_relates behaviour (bit_relates true (relates_driven (bit_relates true ?_)))
  refine (shiftOut_driven 8 addr).bind fun _ => ?_
  exact (relates_driven (release_relates behaviour)).bind fun _ => strobe_released

/-- Both read the address register. -/
theorem readAr_relates :
    Relates Idle (UserSpace.c2ReadAr behaviour) (c2portReadAr behaviour) Released := by
  -- The bits of the instruction, the release, and the address.
  refine start_relates behaviour (bit_relates false (relates_driven (bit_relates true ?_)))
  refine (relates_driven (release_relates behaviour)).bind fun _ => ?_
  exact shiftIn_released behaviour 8 0 id

/-- Both write the data register. -/
theorem writeDr_relates (data : UInt8) :
    Relates Idle (UserSpace.c2WriteDr behaviour data) (c2portWriteDr behaviour data) Released := by
  -- The bits of the instruction and of the length, the data, the release and the wait.
  refine start_relates behaviour (bit_relates true (relates_driven (bit_relates false ?_)))
  refine relates_driven (bit_relates false (relates_driven (bit_relates false ?_)))
  refine (shiftOut_driven 8 data).bind fun _ =>
    (relates_driven (release_relates behaviour)).bind fun _ => ?_
  exact waitField_released behaviour 20 none
    (strobe_released.bind fun _ => Relates.pure (some ()))

/-- Both read the data register. -/
theorem readDr_relates :
    Relates Idle (UserSpace.c2ReadDr behaviour) (c2portReadDr behaviour) Released := by
  -- The bits of the instruction and of the length, the release, the wait and the data.
  refine start_relates behaviour (bit_relates false (relates_driven (bit_relates false ?_)))
  refine relates_driven (bit_relates false (relates_driven (bit_relates false ?_)))
  refine (relates_driven (release_relates behaviour)).bind fun _ => ?_
  exact waitField_released behaviour 20 none (shiftIn_released behaviour 8 0 some)

/-- The structure of a call only carries the byte to the module and back. -/
theorem kernel_perform_eq (fresh : C2portCommand) (op : C2Op) :
    KernelModule.perform behaviour fresh op =
      match op with
      | .writeAr addr => c2portWriteAr behaviour addr >>= fun _ => pure (some [])
      | .readAr => c2portReadAr behaviour >>= fun addr => pure (some [addr])
      | .writeDr data =>
        c2portWriteDr behaviour data >>= fun ret => pure (ret.map fun _ => [])
      | .readDr =>
        c2portReadDr behaviour >>= fun data => pure (data.map fun data => [data]) := by
  -- What the structure holds besides the byte is dropped again on the way back.
  cases op with
  | writeAr addr => rfl
  | readAr => rfl
  | writeDr data =>
    simp only [KernelModule.perform, KernelModule.c2WriteDr, c2portGpioIoctl, bind_assoc,
      pure_bind, Option.map_map, Function.comp_def]
  | readDr =>
    simp only [KernelModule.perform, KernelModule.c2ReadDr, c2portGpioIoctl, bind_assoc,
      pure_bind, Option.map_map, Function.comp_def]

/-- An operation does the same both ways, and leaves C2D released. -/
theorem perform_relates (fresh : C2portCommand) (op : C2Op) :
    Relates Idle (UserSpace.perform behaviour op) (KernelModule.perform behaviour fresh op)
      Released := by
  -- The module releases C2D behind every operation, as the program does.
  rw [kernel_perform_eq]
  cases op with
  | writeAr addr => exact (writeAr_relates behaviour addr).bind fun _ => Relates.pure (some [])
  | readAr => exact (readAr_relates behaviour).bind fun addr => Relates.pure (some [addr])
  | writeDr data =>
    exact (writeDr_relates behaviour data).bind fun ret => Relates.pure (ret.map fun _ => [])
  | readDr =>
    exact (readDr_relates behaviour).bind fun data => Relates.pure (data.map fun data => [data])

end Operations

/-- The log of an operation that reads C2D behind its START field, before all other reads. -/
def Log.readAtStart (log : Log) : Log := { log with samples := 1 :: log.samples }

/-- Where both have released C2D, the next operation may begin. -/
theorem idle_next {user : Wired UserSpace.Pin} {kernel : Wired KernelModule.Pin}
    (past : user.wire.history = kernel.wire.history) (input : kernel.pin.input = true) :
    Idle { user with wire := user.wire.next } { kernel with wire := kernel.wire.next } :=
  ⟨⟨past, rfl, rfl⟩, input, rfl, rfl⟩

/-- The logs of both transports from states in which they have released C2D. -/
theorem runOps_refines (behaviour : Behaviour) (allocated : Nat → KernelModule.C2portCommand)
    (ops : List C2Op) :
    ∀ (user : Wired UserSpace.Pin) (kernel : Wired KernelModule.Pin),
      user.wire.history = kernel.wire.history → kernel.pin.input = true →
      runOps (fun later => KernelModule.perform behaviour (allocated later)) ops kernel =
        (runOps (fun _ => UserSpace.perform behaviour) ops user).map Log.readAtStart := by
  -- Every operation starts and ends with a released C2D, so the induction is on the operations.
  induction ops with
  | nil => intros; rfl
  | cons op rest ih =>
    intro user kernel past input
    obtain ⟨same, released⟩ := perform_relates behaviour (allocated rest.length) op _ _
      (idle_next past input)
    have history : ((UserSpace.perform behaviour op).run
        { user with wire := user.wire.next }).run.2.wire.history =
        ((KernelModule.perform behaviour (allocated rest.length) op).run
          { kernel with wire := kernel.wire.next }).run.2.wire.history := by
      rw [Wire.history, Wire.history, released.past, released.strobes]
    rw [runOps, runOps, List.map_cons, ← ih _ _ history released.input]
    congr 1
    rw [Log.readAtStart, released.strobes, released.samples, same]
    rfl

/--
Every sequence of operations has the same levels at the same strobes, and the same results, with
C2D read behind the same strobes but for the one of the START field, where the kernel module
alone reads it.
-/
theorem kernelModule_refines (behaviour : Behaviour)
    (allocated : Nat → KernelModule.C2portCommand) (latch : Bool) (ops : List C2Op) :
    KernelModule.run behaviour allocated latch ops =
      (UserSpace.run behaviour ops).map Log.readAtStart :=
  runOps_refines behaviour allocated ops _ _ rfl rfl

/-- The module reads C2D behind the START field of a write, where the user space does not. -/
theorem writeAr_readAtStart :
    ¬ ∀ (behaviour : Behaviour) (allocated : Nat → KernelModule.C2portCommand) (latch : Bool)
      (ops : List C2Op),
      KernelModule.run behaviour allocated latch ops = UserSpace.run behaviour ops := by
  -- One write of a zero to the address register shows it.
  intro claim
  have same := claim (fun _ => true) (fun _ => ⟨0, 0, 0, 0⟩) true [.writeAr 0]
  exact absurd same (by decide)

end OpenwrtMisc.C2Tool
