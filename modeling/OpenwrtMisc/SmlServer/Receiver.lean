import OpenwrtMisc.Lib.Checked
import OpenwrtMisc.Lib.Rounding
import Mathlib.Algebra.Order.Archimedean.Basic
import Mathlib.Data.Rat.Floor

/-! The receiver of the meter's telegrams, which keeps four counters for the agent. -/

namespace OpenwrtMisc.SmlServer

open Rounding

/-- The value of a list entry: an integer of one of eight types, or a value of another kind. -/
inductive SmlValue
  | int8 (data : BitVec 8)
  | int16 (data : BitVec 16)
  | int32 (data : BitVec 32)
  | int64 (data : BitVec 64)
  | uint8 (data : BitVec 8)
  | uint16 (data : BitVec 16)
  | uint32 (data : BitVec 32)
  | uint64 (data : BitVec 64)
  | other
  deriving DecidableEq, Repr

/-- The integer that a value holds. -/
def SmlValue.integer : SmlValue → Option Int
  | .int8 data => some data.toInt
  | .int16 data => some data.toInt
  | .int32 data => some data.toInt
  | .int64 data => some data.toInt
  | .uint8 data => some data.toNat
  | .uint16 data => some data.toNat
  | .uint32 data => some data.toNat
  | .uint64 data => some data.toNat
  | .other => none

/-- An entry of a list, whose parts are pointers. -/
structure SmlList where
  objName : Option (List UInt8)
  scaler : Option (BitVec 8)
  value : Option SmlValue

/-- A time, whose timestamp is missing when the meter sent a list in its place. -/
structure SmlTime where
  timestamp : Option (BitVec 32)

/-- The response that lists the meter's values. -/
structure SmlGetListResponse where
  actSensorTime : Option SmlTime
  valList : List SmlList
  actGatewayTime : Option SmlTime

/-- The body of a message, of which only the list response is read. -/
inductive SmlMessageBody
  | getListResponse (body : SmlGetListResponse)
  | other

/-- The readings that are kept. -/
inductive Obis
  | tarif0
  | tarif1
  | tarif2
  | powerMeter
  deriving DecidableEq, Repr

/-- The bytes that the name of a kept reading begins with. -/
def Obis.bytes : Obis → List UInt8
  | .tarif0 => [0x01, 0x00, 0x01, 0x08, 0x00]
  | .tarif1 => [0x01, 0x00, 0x01, 0x08, 0x01]
  | .tarif2 => [0x01, 0x00, 0x01, 0x08, 0x02]
  | .powerMeter => [0x01, 0x00, 0x10, 0x07, 0x00]

/-- Every code has five bytes. -/
@[simp] theorem Obis.length_bytes (code : Obis) : code.bytes.length = 5 := by cases code <;> rfl

/-- The counters of the four readings, without a word after a conversion that is not defined. -/
structure Counters where
  counterTarif0 : Option (BitVec 32)
  counterTarif1 : Option (BitVec 32)
  counterTarif2 : Option (BitVec 32)
  pmeter : Option (BitVec 32)
  deriving DecidableEq

/-- The counter of a reading. -/
def Counters.counter (counters : Counters) : Obis → Option (BitVec 32)
  | .tarif0 => counters.counterTarif0
  | .tarif1 => counters.counterTarif1
  | .tarif2 => counters.counterTarif2
  | .powerMeter => counters.pmeter

/-- The counters after one of them was written. -/
def Counters.put (counters : Counters) (code : Obis) (reading : Option (BitVec 32)) : Counters :=
  match code with
  | .tarif0 => { counters with counterTarif0 := reading }
  | .tarif1 => { counters with counterTarif1 := reading }
  | .tarif2 => { counters with counterTarif2 := reading }
  | .powerMeter => { counters with pmeter := reading }

/-- A write changes the counter it names, and no other one. -/
@[simp] theorem Counters.counter_put (counters : Counters) (code asked : Obis)
    (reading : Option (BitVec 32)) :
    (counters.put code reading).counter asked =
      if asked = code then reading else counters.counter asked := by
  cases code <;> cases asked <;> rfl

/--
The arithmetic of `double` and the `pow` of the mathematical library, which the language leaves
to the platform.
-/
structure Arithmetic (double : Type) where
  /-- The number that an integer is assigned to. -/
  ofInt : Int → double
  /-- The power of ten, `pow(10, scaler)`. -/
  pow : Int → double
  mul : double → double → double
  add : double → double → double
  /-- The constant `0.5`. -/
  half : double
  /-- The conversion to an `int`, without a word where it is not defined. -/
  toInt : double → Option (BitVec 32)

/-- The conversion of a number to an `int`, which is defined when its integer part fits. -/
def toInt (x : ℚ) : Option (BitVec 32) :=
  if -2 ^ 31 ≤ trunc x ∧ trunc x < 2 ^ 31 then some (BitVec.ofInt 32 (trunc x)) else none

/-- The arithmetic that does not round. -/
def rational : Arithmetic ℚ where
  ofInt := fun v => v
  pow := fun scaler => 10 ^ scaler
  mul := (· * ·)
  add := (· + ·)
  half := 1 / 2
  toInt := toInt

section Receive

variable {double : Type} (arith : Arithmetic double)

/-- The value of an entry after the scaler was applied, with the default of the receiver. -/
def scaled (entry : SmlList) (value : SmlValue) : double :=
  -- The receiver takes any other type for zero, and a missing scaler for one.
  let scaler := match entry.scaler with
    | some scaler => scaler.toInt
    | none => 1
  arith.mul (arith.ofInt (value.integer.getD 0)) (arith.pow scaler)

/-- The number that is kept of a value. -/
def rounded (value : double) : Option (BitVec 32) := arith.toInt (arith.add value arith.half)

/-- The comparison of a name with a code, and the counter's new value when they agree. -/
def storeCounter (name : List UInt8) (value : double) (counters : Counters) (code : Obis) :
    Except Fault Counters := do
  let head ← copyBytes name 0 code.bytes.length
  return if head = code.bytes then counters.put code (rounded arith value) else counters

/-- What the receiver does with one entry: the four comparisons follow each other. -/
def receiveEntry (counters : Counters) (entry : SmlList) : Except Fault Counters := do
  let value ← follow entry.value
  let name ← follow entry.objName
  [Obis.tarif0, .tarif1, .tarif2, .powerMeter].foldlM
    (storeCounter arith name (scaled arith entry value)) counters

/-- The timestamp of the sensor's time, which the receiver reads for the gateway's time too. -/
def sensorTimestamp (body : SmlGetListResponse) : Except Fault (BitVec 32) := do
  let time ← follow body.actSensorTime
  follow time.timestamp

/-- What the receiver does with one message. -/
def receiveMessage (counters : Counters) : SmlMessageBody → Except Fault Counters
  | .getListResponse body => do
    if body.actSensorTime.isSome then
      let _ ← sensorTimestamp body
    if body.actGatewayTime.isSome then
      let _ ← sensorTimestamp body
    body.valList.foldlM (receiveEntry arith) counters
  | .other => return counters

/-- The receiver goes through the messages of a parsed file. -/
def transportReceiver (file : List SmlMessageBody) (counters : Counters) :
    Except Fault Counters :=
  file.foldlM (receiveMessage arith) counters

/-- An entry is readable when its parts are there and its name is as long as a code. -/
def SmlList.Readable (entry : SmlList) : Prop :=
  entry.value.isSome ∧ ∃ name, entry.objName = some name ∧ 5 ≤ name.length

/-- A message is readable when each time it carries and each of its entries is. -/
def SmlMessageBody.Readable : SmlMessageBody → Prop
  | .getListResponse body =>
    (body.actSensorTime.isSome ∨ body.actGatewayTime.isSome →
        ∃ time, body.actSensorTime = some time ∧ time.timestamp.isSome) ∧
      ∀ entry ∈ body.valList, entry.Readable
  | .other => True

/-- An entry is named by a code when its name begins with it. -/
def SmlList.Named (entry : SmlList) (code : Obis) : Prop :=
  ∃ name, entry.objName = some name ∧ name.take 5 = code.bytes

/-- Whether a code names an entry can be computed. -/
instance (entry : SmlList) (code : Obis) : Decidable (entry.Named code) :=
  match eq : entry.objName with
  | some name => decidable_of_iff (name.take 5 = code.bytes) (by simp [SmlList.Named, eq])
  | none => .isFalse (by simp [SmlList.Named, eq])

/-- The integer that an entry holds. -/
def SmlList.integer (entry : SmlList) : Option Int := entry.value.bind SmlValue.integer

/-- The counter's word after an entry that names it. -/
def SmlList.reading (entry : SmlList) : Option (BitVec 32) :=
  rounded arith (scaled arith entry (entry.value.getD .other))

/-- The counters after one readable entry. -/
def Counters.record (counters : Counters) (entry : SmlList) : Counters :=
  [Obis.tarif0, .tarif1, .tarif2, .powerMeter].foldl (fun counters code =>
    if entry.Named code then counters.put code (entry.reading arith) else counters) counters

/-- One entry changes the counters that name it, and no other one. -/
theorem Counters.counter_record (counters : Counters) (entry : SmlList) (code : Obis) :
    (counters.record arith entry).counter code =
      if entry.Named code then entry.reading arith else counters.counter code := by
  -- Only the comparison with the code itself writes its counter.
  have step : ∀ (before : Counters) (compared : Obis),
      (if entry.Named compared then before.put compared (entry.reading arith)
          else before).counter code =
        if entry.Named compared ∧ code = compared then entry.reading arith
          else before.counter code := by
    intro before compared
    by_cases named : entry.Named compared <;> simp [named]
  simp only [Counters.record, List.foldl_cons, List.foldl_nil, step]
  cases code <;> simp

/-- The comparison runs through when the name is as long as a code. -/
theorem storeCounter_eq_ok {name : List UInt8} {value : double} {counters after : Counters}
    {code : Obis} :
    storeCounter arith name value counters code = .ok after ↔ 5 ≤ name.length ∧
      (if name.take 5 = code.bytes then counters.put code (rounded arith value) else counters) =
        after := by
  -- The copy is the head of the name when it is long enough.
  by_cases long : 5 ≤ name.length
  · simp [storeCounter, copyBytes, long, Bind.bind, Except.bind, Pure.pure, Except.pure]
  · simp [storeCounter, copyBytes, long, Bind.bind, Except.bind]

/-- An entry is received when it is readable, and it is recorded then. -/
theorem receiveEntry_eq_ok (counters : Counters) (entry : SmlList) (after : Counters) :
    receiveEntry arith counters entry = .ok after ↔
      entry.Readable ∧ counters.record arith entry = after := by
  -- The four comparisons fold over the codes, and each asks for the same length.
  have folded : ∀ {value : SmlValue} {name : List UInt8}, entry.value = some value →
      entry.objName = some name →
      ([Obis.tarif0, .tarif1, .tarif2, .powerMeter].foldlM
          (storeCounter arith name (scaled arith entry value)) counters = .ok after ↔
        5 ≤ name.length ∧ counters.record arith entry = after) := by
    intro value name valued called
    rw [foldlM_eq_ok fun _ _ _ => storeCounter_eq_ok arith]
    simp [Counters.record, SmlList.Named, SmlList.reading, valued, called]
  simp only [receiveEntry, bind_eq_ok, follow_eq_ok, SmlList.Readable]
  constructor
  · intro given
    rcases given with ⟨value, valued, name, called, ran⟩
    obtain ⟨long, recorded⟩ := (folded valued called).mp ran
    exact ⟨⟨by simp [valued], name, called, long⟩, recorded⟩
  · intro given
    rcases given with ⟨⟨valued, name, called, long⟩, recorded⟩
    obtain ⟨value, valued⟩ := Option.isSome_iff_exists.mp valued
    exact ⟨value, valued, name, called, (folded valued called).mpr ⟨long, recorded⟩⟩

/-- The list entries of a message. -/
def SmlMessageBody.entries : SmlMessageBody → List SmlList
  | .getListResponse body => body.valList
  | .other => []

/-- A message is received when it is readable, and its entries are recorded then. -/
theorem receiveMessage_eq_ok (counters : Counters) (message : SmlMessageBody) (after : Counters) :
    receiveMessage arith counters message = .ok after ↔
      message.Readable ∧ message.entries.foldl (Counters.record arith) counters = after := by
  cases message with
  | other => simp [receiveMessage, SmlMessageBody.Readable, SmlMessageBody.entries, Pure.pure,
      Except.pure]
  | getListResponse body =>
    rcases body with ⟨sensor, list, gateway⟩
    have entries := foldlM_eq_ok (receiveEntry_eq_ok arith) list counters after
    -- The timestamp that is read is the sensor's, whichever of the times asks for it.
    rcases sensor with _ | ⟨_ | stamp⟩ <;> rcases gateway with _ | gateway <;>
      simp [receiveMessage, SmlMessageBody.Readable, SmlMessageBody.entries, sensorTimestamp,
        follow, Bind.bind, Except.bind, entries]

/-- A file is received when its messages are readable, and all entries are recorded then. -/
theorem transportReceiver_eq_ok (file : List SmlMessageBody) (counters after : Counters) :
    transportReceiver arith file counters = .ok after ↔
      (∀ message ∈ file, message.Readable) ∧
        (file.flatMap SmlMessageBody.entries).foldl (Counters.record arith) counters = after := by
  -- Recording message by message is recording the entries one after another.
  rw [transportReceiver, foldlM_eq_ok (receiveMessage_eq_ok arith), List.foldl_flatMap]

/-- The counter of a code shows the last entry that the code names. -/
theorem counter_foldl_record (counters : Counters) (code : Obis) (earlier later : List SmlList)
    {entry : SmlList} (named : entry.Named code) (last : ∀ next ∈ later, ¬ next.Named code) :
    ((earlier ++ entry :: later).foldl (Counters.record arith) counters).counter code =
      entry.reading arith := by
  rw [List.foldl_append, List.foldl_cons]
  generalize earlier.foldl (Counters.record arith) counters = before
  have written : (before.record arith entry).counter code = entry.reading arith := by
    rw [Counters.counter_record, if_pos named]
  -- Nothing behind the entry touches the counter.
  generalize before.record arith entry = state at written
  induction later generalizing state with
  | nil => exact written
  | cons next rest ih =>
    obtain ⟨unnamed, others⟩ := List.forall_mem_cons.mp last
    exact ih others _ (by rw [Counters.counter_record, if_neg unnamed, written])

end Receive

/-- The value that an entry stands for, where a missing scaler leaves the integer as it is. -/
def exactValue (entry : SmlList) (v : Int) : ℚ :=
  v * 10 ^ (match entry.scaler with
    | some scaler => scaler.toInt
    | none => 0)

/-- A counter shows a value when its word is the integer nearest to it. -/
def Shows (counter : Option (BitVec 32)) (x : ℚ) : Prop :=
  ∃ word, counter = some word ∧ NearestAway x word.toInt

/-- A conversion that is defined keeps the integer part. -/
theorem shows_toInt {x y : ℚ} :
    Shows (toInt x) y ↔ (-2 ^ 31 ≤ trunc x ∧ trunc x < 2 ^ 31) ∧ NearestAway y (trunc x) := by
  unfold Shows toInt
  split
  · rename_i fits
    -- An integer in the range of `int` is read back from its word.
    have kept : (BitVec.ofInt 32 (trunc x)).toInt = trunc x := by
      rw [BitVec.toInt_ofInt, Int.bmod_eq_of_le] <;> omega
    simp only [Option.some.injEq, exists_eq_left', kept]
    exact (and_iff_right fits).symm
  · rename_i outside
    exact iff_of_false (fun shown => by simp at shown) fun both => outside both.1

/-- A value below the largest `int` is still an `int` after a half was added. -/
theorem trunc_fits {x : ℚ} (bounded : |x| < 2 ^ 31 - 1) :
    -2 ^ 31 ≤ trunc (x + 1 / 2) ∧ trunc (x + 1 / 2) < 2 ^ 31 := by
  -- Towards zero is down for what is not negative, and up for what is.
  obtain ⟨low, high⟩ := abs_lt.mp bounded
  rcases lt_or_ge (x + 1 / 2) 0 with neg | nonneg
  · obtain ⟨below, above⟩ := trunc_of_neg neg
    have least : ((-2 ^ 31 : Int) : ℚ) ≤ trunc (x + 1 / 2) := by push_cast; linarith
    have most : (trunc (x + 1 / 2) : ℚ) < (2 ^ 31 : Int) := by push_cast; linarith
    exact ⟨by exact_mod_cast least, by exact_mod_cast most⟩
  · -- A half may lift the value to just under the bound, but the integer part is not above it.
    obtain ⟨below, above, least⟩ := trunc_of_nonneg nonneg
    have most : (trunc (x + 1 / 2) : ℚ) < (2 ^ 31 : Int) := by push_cast; linarith
    exact ⟨by omega, by exact_mod_cast most⟩

/-- Ten times an integer and a half is rounded to the integer only when that is zero. -/
theorem trunc_tenfold {v : Int} : trunc ((v : ℚ) * 10 + 1 / 2) = v ↔ v = 0 := by
  -- Both bounds of the integer part are compared with the integer.
  constructor
  · intro same
    rcases lt_or_ge ((v : ℚ) * 10 + 1 / 2) 0 with neg | nonneg
    · -- A negative one is multiplied and then made larger by one.
      obtain ⟨below, above⟩ := trunc_of_neg neg
      rw [same] at below above
      have : (v : ℚ) * 20 + 1 ≤ v * 2 := by linarith
      have : (v : ℚ) * 2 < v * 20 + 3 := by linarith
      norm_cast at *
      omega
    · -- Another one is at least its tenfold only at zero.
      obtain ⟨below, above, _⟩ := trunc_of_nonneg nonneg
      rw [same] at below above
      have : (v : ℚ) * 2 ≤ v * 20 + 1 := by linarith
      have : (v : ℚ) * 20 + 1 < v * 2 + 2 := by linarith
      norm_cast at *
      omega
  · rintro rfl
    norm_num [trunc]

/-- The reading of an entry is right above minus a half, if a scaler says what it stands for. -/
theorem shows_reading {entry : SmlList} {v : Int} (integer : entry.integer = some v)
    (bounded : |exactValue entry v| < 2 ^ 31 - 1) :
    Shows (entry.reading rational) (exactValue entry v) ↔
      -(1 / 2) < exactValue entry v ∧ (entry.scaler = none → v = 0) := by
  -- The cases are those of the scaler: the entry has one, or it has none.
  have held : (entry.value.getD .other).integer.getD 0 = v := by
    obtain ⟨value, valued, number⟩ := Option.bind_eq_some_iff.mp integer
    simp [valued, number]
  change Shows (toInt (scaled rational entry (entry.value.getD .other) + 1 / 2)) _ ↔ _
  rw [shows_toInt]
  cases given : entry.scaler with
  | some scaler =>
    -- The receiver scales as it should, and a half is added.
    have same : scaled rational entry (entry.value.getD .other) = exactValue entry v := by
      simp only [scaled, rational, exactValue, given, held]
    rw [same, nearestAway_trunc_add_half, and_iff_right (trunc_fits bounded)]
    simp
  | none =>
    -- The receiver multiplies by ten, which only zero survives.
    have same : scaled rational entry (entry.value.getD .other) = v * 10 := by
      simp only [scaled, rational, given, held, zpow_one]
    have exact : exactValue entry v = v := by
      simp only [exactValue, given, zpow_zero, mul_one]
    rw [same, exact, nearestAway_intCast, trunc_tenfold]
    constructor
    · intro both
      obtain ⟨_, rfl⟩ := both
      norm_num
    · intro both
      obtain rfl := both.2 rfl
      norm_num [trunc]

/-- An entry that tells the power. -/
def powerEntry (scaler : Option (BitVec 8)) (value : SmlValue) : SmlList where
  objName := some [0x01, 0x00, 0x10, 0x07, 0x00, 0xff]
  scaler := scaler
  value := some value

/-- A telegram that carries one entry. -/
def powerFile (scaler : Option (BitVec 8)) (value : SmlValue) : List SmlMessageBody :=
  [.other, .getListResponse {
    actSensorTime := none
    valList := [powerEntry scaler value]
    actGatewayTime := none }, .other]

/-- The counters before the first telegram. -/
def cleared : Counters := ⟨some 0#32, some 0#32, some 0#32, some 0#32⟩

/-- A feed-in of one watt is kept as zero, which is not the integer nearest to it. -/
theorem transportReceiver_feedIn :
    transportReceiver rational (powerFile (some 0#8) (.int8 0xff#8)) cleared = .ok cleared ∧
      (powerEntry (some 0#8) (.int8 0xff#8)).integer = some (-1) ∧
      |exactValue (powerEntry (some 0#8) (.int8 0xff#8)) (-1)| < 2 ^ 31 - 1 ∧
      ¬ Shows (cleared.counter .powerMeter)
        (exactValue (powerEntry (some 0#8) (.int8 0xff#8)) (-1)) := by
  -- Half a watt is added to minus one, and the cut goes towards zero.
  have exact : exactValue (powerEntry (some 0#8) (.int8 0xff#8)) (-1) = (-1 : Int) := by
    norm_num [exactValue, powerEntry]
  refine ⟨by decide +kernel, by decide, by norm_num [exact], fun shown => ?_⟩
  obtain ⟨word, kept, nearest⟩ := shown
  cases kept
  rw [exact, nearestAway_intCast] at nearest
  exact absurd nearest (by decide)

/--
The counter of a code shows the value of the last entry that the code names,
if the file is readable, the value is above minus a half, and the entry has a scaler or is zero.
-/
theorem transportReceiver_shows_iff (file : List SmlMessageBody) (counters : Counters)
    (code : Obis) (earlier later : List SmlList) (entry : SmlList) (v : Int)
    (listed : file.flatMap SmlMessageBody.entries = earlier ++ entry :: later)
    (named : entry.Named code) (last : ∀ next ∈ later, ¬ next.Named code)
    (integer : entry.integer = some v) (bounded : |exactValue entry v| < 2 ^ 31 - 1) :
    (∃ after, transportReceiver rational file counters = .ok after ∧
        Shows (after.counter code) (exactValue entry v)) ↔
      (∀ message ∈ file, message.Readable) ∧ -(1 / 2) < exactValue entry v ∧
        (entry.scaler = none → v = 0) := by
  rw [← shows_reading integer bounded]
  -- The later entries have other codes, so the counter is what the named entry left in it.
  simp only [transportReceiver_eq_ok, listed]
  constructor
  · intro given
    rcases given with ⟨_, ⟨readable, rfl⟩, shown⟩
    exact ⟨readable, by
      rwa [counter_foldl_record rational counters code earlier later named last] at shown⟩
  · intro given
    rcases given with ⟨readable, shown⟩
    exact ⟨_, ⟨readable, rfl⟩, by
      rwa [counter_foldl_record rational counters code earlier later named last]⟩

/-- A power of 42.5 watts is kept as 43. -/
theorem transportReceiver_shows_power :
    ∃ after, transportReceiver rational (powerFile (some 0xfe#8) (.int32 4250#32)) cleared =
        .ok after ∧
      Shows (after.counter .powerMeter)
        (exactValue (powerEntry (some 0xfe#8) (.int32 4250#32)) 4250) := by
  -- The scaler says hundredths, and the value is not negative.
  have exact : exactValue (powerEntry (some 0xfe#8) (.int32 4250#32)) 4250 = 42.5 := by
    have hundredths : (0xfe#8).toInt = -2 := by decide
    norm_num [exactValue, powerEntry, hundredths]
  refine (transportReceiver_shows_iff _ cleared .powerMeter [] [] _ 4250 rfl (by decide) (by simp)
    (by decide) (by norm_num [exact, abs_of_pos])).mpr ⟨?_, by norm_num [exact], nofun⟩
  simp [powerFile, powerEntry, SmlMessageBody.Readable, SmlList.Readable]

end OpenwrtMisc.SmlServer
