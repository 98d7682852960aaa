import OpenwrtMisc.Lib.Ber
import OpenwrtMisc.Libsml.Buffer

/-! The fields of messages: strings, numbers, booleans, values, states and times. -/

namespace OpenwrtMisc.Libsml

/-- `SML_BOOLEAN_TRUE` and `SML_BOOLEAN_FALSE`. -/
def smlBooleanTrue : UInt8 := 0xFF
def smlBooleanFalse : UInt8 := 0x00

/-- `SML_TIME_SEC_INDEX`. -/
def smlTimeSecIndex : BitVec 8 := 0x01

/-- The bytes of a string. -/
abbrev OctetString : Type := List UInt8

/-- What the type of a value says about its data. -/
inductive SmlData
  | bytes (str : Option OctetString)
  | boolean (value : Option UInt8)
  /-- A number whose highest byte stands first. -/
  | number (np : Option (List UInt8))
  deriving DecidableEq, Repr

/-- A value, whose type has the size of a number in its low bits. -/
structure SmlValue where
  type : UInt8
  data : SmlData
  deriving DecidableEq, Repr

/-- A status, which is a number. -/
structure SmlStatus where
  type : UInt8
  data : Option (List UInt8)
  deriving DecidableEq, Repr

/-- A time, whose timestamp is missing when it was sent as a list. -/
structure SmlTime where
  tag : Option (BitVec 8)
  timestamp : Option (BitVec 32)
  deriving DecidableEq, Repr

/-- `sml_octet_string_parse`. -/
def smlOctetStringParse : Reader (Option OctetString) :=
  optional do
    let type ← smlBufGetNextType
    if type ≠ some smlTypeOctetString then failed
    else
      let l ← smlBufGetNextLength
      let left ← smlLeft
      -- A string that ends with the buffer does not fit either.
      if l < 0 ∨ (left : Int) ≤ l then failed
      else
        let str ← smlBufGetCurrentBuf l.toNat
        smlBufUpdateBytesRead l.toNat
        return some str

/-- `sml_number_parse`. -/
def smlNumberParse (type : UInt8) (maxSize : Nat) : Reader (Option (List UInt8)) :=
  optional do
    let left ← smlLeft
    if left < 1 then failed
    else
      let found ← smlBufGetNextType
      if found ≠ some type then failed
      else
        let l ← smlBufGetNextLength
        if l < 0 ∨ (maxSize : Int) < l then failed
        else
          let left ← smlLeft
          if left < l.toNat then failed
          else if left < 1 then failed
          else
            let b ← smlBufGetCurrentByte
            let fill : UInt8 := if type = smlTypeInteger ∧ b &&& 128 ≠ 0 then 0xFF else 0
            let np ← smlBufGetCurrentBuf l.toNat
            smlBufUpdateBytesRead l.toNat
            return some (List.replicate (maxSize - l.toNat) fill ++ np)

/-- A number of so many bytes of a type, as it is read through a pointer to it. -/
def wordParse (type : UInt8) (size : Nat) : Reader (Option (BitVec (8 * size))) := do
  let np ← smlNumberParse type size
  return np.map fun bytes => BitVec.ofNat _ (Ber.bigEndian bytes)

/-- `sml_u8_parse`, and the other ones for numbers. -/
def smlU8Parse : Reader (Option (BitVec 8)) := wordParse smlTypeUnsigned 1
def smlU16Parse : Reader (Option (BitVec 16)) := wordParse smlTypeUnsigned 2
def smlU32Parse : Reader (Option (BitVec 32)) := wordParse smlTypeUnsigned 4
def smlU64Parse : Reader (Option (BitVec 64)) := wordParse smlTypeUnsigned 8
def smlI8Parse : Reader (Option (BitVec 8)) := wordParse smlTypeInteger 1
def smlI16Parse : Reader (Option (BitVec 16)) := wordParse smlTypeInteger 2
def smlI64Parse : Reader (Option (BitVec 64)) := wordParse smlTypeInteger 8

/-- `sml_unit_parse`. -/
def smlUnitParse : Reader (Option (BitVec 8)) := smlU8Parse

/-- `sml_boolean_parse`. -/
def smlBooleanParse : Reader (Option UInt8) :=
  optional do
    let type ← smlBufGetNextType
    if type ≠ some smlTypeBoolean then failed
    else
      let l ← smlBufGetNextLength
      if l ≠ 1 then failed
      else
        let left ← smlLeft
        if left = 0 then failed
        else
          let byte ← smlBufGetCurrentByte
          smlBufUpdateBytesRead 1
          return some (if byte ≠ 0 then smlBooleanTrue else smlBooleanFalse)

/-- The loop that doubles the size of a number until its bytes fit. -/
def maxLoop (length : Int) : Nat → Nat → Nat
  | 0, max => max
  | turns + 1, max => if (max : Int) < length then maxLoop length turns (2 * max) else max

/-- The size of a number whose first byte is given. -/
def maxSize (byte : UInt8) : Nat :=
  -- No length of one byte is above sixteen, which is doubled four times.
  maxLoop ((byte &&& smlLengthField).toNat - 1) 4 1

/-- A structure that is given up when there was an error. -/
def unlessError {α : Type} (value : α) : Reader (Option α) := do
  let error ← smlBufHasErrors
  return if error then none else some value

/-- `sml_value_parse`. -/
def smlValueParse : Reader (Option SmlValue) :=
  optional do
    let type ← smlBufGetNextType
    let byte ← smlBufGetCurrentByte
    match type with
    | none => failed
    | some type =>
      if type = smlTypeOctetString then
        let str ← smlOctetStringParse
        unlessError ⟨type, .bytes str⟩
      else if type = smlTypeBoolean then
        let value ← smlBooleanParse
        unlessError ⟨type, .boolean value⟩
      else if type = smlTypeUnsigned ∨ type = smlTypeInteger then
        let np ← smlNumberParse type (maxSize byte)
        unlessError ⟨type ||| UInt8.ofNat (maxSize byte), .number np⟩
      else
        failed

/-- `sml_status_parse`. -/
def smlStatusParse : Reader (Option SmlStatus) :=
  optional do
    let type ← smlBufGetNextType
    let byte ← smlBufGetCurrentByte
    if type = some smlTypeUnsigned then
      let np ← smlNumberParse smlTypeUnsigned (maxSize byte)
      unlessError ⟨smlTypeUnsigned ||| UInt8.ofNat (maxSize byte), np⟩
    else
      failed

/-- The part of `sml_time_parse` behind the tag. -/
def timeParse (tag : Option (BitVec 8)) : Reader (Option SmlTime) := do
  let type ← smlBufGetNextType
  if type = some smlTypeUnsigned then
    field smlU32Parse fun timestamp => return some ⟨tag, timestamp⟩
  else if type = some smlTypeList then
    -- The three numbers of a list are read, and forgotten.
    let _ ← smlBufGetNextLength
    field smlU32Parse fun _ => field smlI16Parse fun _ => field smlI16Parse fun _ =>
      return some ⟨tag, none⟩
  else
    -- Another type is no error.
    return none

/-- `sml_time_parse`. -/
def smlTimeParse : Reader (Option SmlTime) :=
  optional do
    let byte ← smlBufGetCurrentByte
    -- A meter that leaves the list and the tag out is helped.
    if byte = smlTypeUnsigned ||| 5 then timeParse (some smlTimeSecIndex)
    else listOf 2 (field smlU8Parse timeParse)

section Safe

open Cursor

variable {α : Type} {room : Nat}

/-- The questions about the buffer, as first steps. -/
theorem smlLeft_gives {β : Type} {next : Nat → Reader β} {Q : β → Prop} {cursor : Cursor}
    (rest : Gives Q (next cursor.room) cursor) : Gives Q (smlLeft >>= next) cursor :=
  (smlLeft_runs cursor).bind fun _ _ told => by
    obtain ⟨rfl, rfl⟩ := told
    exact rest

/-- The byte under the cursor is inside the buffer when there is room. -/
theorem smlBufGetCurrentByte_gives {β : Type} {next : UInt8 → Reader β} {Q : β → Prop}
    {cursor : Cursor} (some : 0 < cursor.room) (rest : ∀ byte, Gives Q (next byte) cursor) :
    Gives Q (smlBufGetCurrentByte >>= next) cursor :=
  (smlBufGetCurrentByte_runs some).bind fun byte _ told => by
    obtain ⟨_, rfl⟩ := told
    exact rest byte

/-- Bytes that are there are copied, and the cursor goes over them. -/
theorem copied_gives {β : Type} {next : List UInt8 → Reader β} {Q : β → Prop} {cursor : Cursor}
    {count : Nat} (inside : cursor.Inside) (some : count ≤ cursor.room)
    (rest : ∀ data after, cursor.Moves after → data.length = count → Gives Q (next data) after) :
    Gives Q (do
      let data ← smlBufGetCurrentBuf count
      smlBufUpdateBytesRead count
      next data) cursor := by
  -- The copy ends inside the buffer, as enough bytes are left.
  refine (smlBufGetCurrentBuf_runs some).bind fun data _ told => ?_
  obtain ⟨rfl, rfl⟩ := told
  refine Gives.bind (smlBufUpdateBytesRead_runs inside some) fun _ after moves _ => ?_
  refine rest _ after moves ?_
  simp only [Cursor.room] at some
  simp only [List.length_take, List.length_drop]
  omega

/-- A string that is present is read, unless there is an error. -/
theorem smlOctetStringParse_gives {cursor : Cursor} (inside : cursor.Inside) :
    Gives (fun str => Present cursor → str.isSome) smlOctetStringParse cursor := by
  -- The type and the length are tested before the bytes are copied.
  refine optional_gives inside (fun absent present => absurd present absent) fun _ => ?_
  refine Gives.bind (smlBufGetNextType_runs inside) fun _ _ moves _ => ?_
  refine .ite (fun _ => failed_gives moves.inside) fun _ => ?_
  refine Gives.bind (smlBufGetNextLength_runs moves.inside) fun l _ moves _ => smlLeft_gives ?_
  refine .ite (fun _ => failed_gives moves.inside) fun fits => ?_
  exact copied_gives moves.inside (by omega) fun _ _ moves _ => .pure moves.inside fun _ => rfl

/-- A number that is present is read, unless there is an error. -/
theorem smlNumberParse_gives {type : UInt8} {maxSize : Nat} {cursor : Cursor}
    (inside : cursor.Inside) :
    Gives (fun np => Present cursor → ∃ bytes, np = some bytes ∧ bytes.length = maxSize)
      (smlNumberParse type maxSize) cursor := by
  -- The type, the length and the bytes that are left are tested in turn.
  refine optional_gives inside (fun absent present => absurd present absent) fun _ => ?_
  refine smlLeft_gives (.ite (fun _ => failed_gives inside) fun _ => ?_)
  refine Gives.bind (smlBufGetNextType_runs inside) fun _ _ moves _ => ?_
  refine .ite (fun _ => failed_gives moves.inside) fun _ => ?_
  refine Gives.bind (smlBufGetNextLength_runs moves.inside) fun l _ moves _ => ?_
  refine .ite (fun _ => failed_gives moves.inside) fun small => smlLeft_gives ?_
  refine .ite (fun _ => failed_gives moves.inside) fun enough => ?_
  refine .ite (fun _ => failed_gives moves.inside) fun some => ?_
  refine smlBufGetCurrentByte_gives (by omega) fun byte => ?_
  refine copied_gives moves.inside (by omega) fun data _ moves size =>
    .pure moves.inside fun _ => ?_
  refine ⟨_, rfl, ?_⟩
  rw [List.length_append, List.length_replicate, size]
  omega

/-- A boolean that is present is read, unless there is an error. -/
theorem smlBooleanParse_gives {cursor : Cursor} (inside : cursor.Inside) :
    Gives (fun value => Present cursor → value.isSome) smlBooleanParse cursor := by
  -- The type and the length are tested before the byte is read.
  refine optional_gives inside (fun absent present => absurd present absent) fun _ => ?_
  refine Gives.bind (smlBufGetNextType_runs inside) fun _ _ moves _ => ?_
  refine .ite (fun _ => failed_gives moves.inside) fun _ => ?_
  refine Gives.bind (smlBufGetNextLength_runs moves.inside) fun l _ moves _ => ?_
  refine .ite (fun _ => failed_gives moves.inside) fun _ => smlLeft_gives ?_
  refine .ite (fun _ => failed_gives moves.inside) fun some => ?_
  refine smlBufGetCurrentByte_gives (by omega) fun byte => ?_
  refine Gives.bind (smlBufUpdateBytesRead_runs moves.inside (by omega)) fun _ _ moves _ => ?_
  exact .pure moves.inside fun _ => rfl

/-- Strings, numbers and booleans are safe. -/
theorem smlOctetStringParse_safe : Safe room smlOctetStringParse :=
  .of_gives fun _ inside _ => smlOctetStringParse_gives inside

/-- A word is safe. -/
theorem wordParse_safe {type : UInt8} {size : Nat} : Safe room (wordParse type size) :=
  (Safe.of_gives fun _ inside _ => smlNumberParse_gives inside).bind fun _ => .pure _

/-- A truth value is safe. -/
theorem smlBooleanParse_safe : Safe room smlBooleanParse :=
  .of_gives fun _ inside _ => smlBooleanParse_gives inside

/-- A structure is given up when there was an error, and as told otherwise. -/
theorem unlessError_gives {P : Option α → Prop} {value : α} {cursor : Cursor}
    (inside : cursor.Inside) (holds : cursor.error = false → P (some value)) :
    Gives P (unlessError value) cursor := by
  -- The flag of the cursor says whether there was an error.
  refine (smlBufHasErrors_runs cursor).bind fun _ _ told => Runs.pure ⟨?_, fun fine => ?_⟩
  · obtain ⟨_, rfl⟩ := told
    exact .refl inside
  · obtain ⟨rfl, rfl⟩ := told
    rw [fine]
    exact holds fine

/-- A value whose data is what its type says. -/
def SmlValue.Sound (value : SmlValue) : Prop :=
  match value.data with
  | .bytes str => str.isSome ∧ value.type = smlTypeOctetString
  | .boolean data => data.isSome ∧ value.type = smlTypeBoolean
  | .number np => ∃ (bytes : List UInt8) (byte : UInt8), np = some bytes ∧
      bytes.length = maxSize byte ∧
      (value.type = smlTypeUnsigned ||| UInt8.ofNat (maxSize byte) ∨
        value.type = smlTypeInteger ||| UInt8.ofNat (maxSize byte))

/-- A value is sound where it is given. -/
theorem smlValueParse_gives {cursor : Cursor} (inside : cursor.Inside) :
    Gives (fun value => ∀ given ∈ value, SmlValue.Sound given) smlValueParse cursor := by
  -- The type of the value chooses its parser, and each of them gives what it parses.
  refine optional_gives inside (fun _ => nofun) fun present => ?_
  have some := present.room_pos
  refine Gives.bind (smlBufGetNextType_runs inside) fun type _ _ told => ?_
  obtain ⟨typed, rfl⟩ := told.2 some
  obtain ⟨type, rfl⟩ := Option.isSome_iff_exists.mp typed
  refine smlBufGetCurrentByte_gives some fun byte => ?_
  -- The data is there whatever it is, because the field was present already.
  refine .ite (fun string => ?_) fun _ => .ite (fun boolean => ?_) fun _ => .ite (fun number => ?_)
    fun _ => failed_gives inside
  · refine Gives.bind (smlOctetStringParse_gives inside) fun str _ moves given => ?_
    refine unlessError_gives moves.inside fun fine value same => ?_
    cases same
    exact ⟨given fine present, string⟩
  · refine Gives.bind (smlBooleanParse_gives inside) fun data _ moves given => ?_
    refine unlessError_gives moves.inside fun fine value same => ?_
    cases same
    exact ⟨given fine present, boolean⟩
  · refine Gives.bind (smlNumberParse_gives inside) fun np _ moves given => ?_
    refine unlessError_gives moves.inside fun fine value same => ?_
    cases same
    obtain ⟨bytes, here, size⟩ := given fine present
    refine ⟨bytes, byte, here, size, ?_⟩
    rcases number with rfl | rfl
    · exact .inl rfl
    · exact .inr rfl

/-- Values are safe. -/
theorem smlValueParse_safe : Safe room smlValueParse :=
  .of_gives fun _ inside _ => smlValueParse_gives inside

/-- A status is safe. -/
theorem smlStatusParse_safe : Safe room smlStatusParse := by
  -- The type of the field is looked at before the number is read.
  refine .of_gives (P := fun _ _ => True) fun cursor inside _ => ?_
  refine optional_gives inside (fun _ => trivial) fun present => ?_
  have some := present.room_pos
  refine Gives.bind (smlBufGetNextType_runs inside) fun type _ _ told => ?_
  obtain ⟨_, rfl⟩ := told.2 some
  refine smlBufGetCurrentByte_gives some fun byte => ?_
  refine .ite (fun _ => ?_) fun _ => failed_gives inside
  refine Gives.bind (smlNumberParse_gives inside) fun np _ moves _ => ?_
  exact unlessError_gives moves.inside fun _ => trivial

/-- The type of the next field is no access behind it. -/
theorem smlBufGetNextType_safe : Safe room smlBufGetNextType :=
  fun _ inside _ => (smlBufGetNextType_runs inside).weaken fun _ _ told => told.1

/-- Neither is its length. -/
theorem smlBufGetNextLength_safe : Safe room smlBufGetNextLength :=
  fun _ inside _ => (smlBufGetNextLength_runs inside).weaken fun _ _ told => told.1

/-- The part of a time behind its tag is safe. -/
theorem timeParse_safe {tag : Option (BitVec 8)} : Safe room (timeParse tag) := by
  -- The tag and the type choose between a number and a list of three.
  refine smlBufGetNextType_safe.bind fun _ => ?_
  refine .ite (fun _ => field_safe wordParse_safe fun _ => .pure _) fun _ => ?_
  refine .ite (fun _ => smlBufGetNextLength_safe.bind fun _ => ?_) fun _ => .pure _
  exact field_safe wordParse_safe fun _ => field_safe wordParse_safe fun _ =>
    field_safe wordParse_safe fun _ => .pure _

/-- A time is safe. -/
theorem smlTimeParse_safe : Safe room smlTimeParse := by
  -- A time starts with its own type, or with a list of a tag and a number.
  refine .of_gives (P := fun _ _ => True) fun cursor inside within => ?_
  refine optional_gives inside (fun _ => trivial) fun present => ?_
  refine smlBufGetCurrentByte_gives present.room_pos fun byte => ?_
  refine .ite (fun _ => timeParse_safe.gives inside within) fun _ => ?_
  exact (listOf_safe (by decide) fun _ _ =>
    field_safe wordParse_safe fun _ => timeParse_safe).gives inside within

end Safe

end OpenwrtMisc.Libsml
