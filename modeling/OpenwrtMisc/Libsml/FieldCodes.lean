import OpenwrtMisc.Libsml.Codes

/-! The fields of messages as they are written, and which of them are read back. -/

namespace OpenwrtMisc.Libsml

/-- `sml_octet_string_write`. -/
def smlOctetStringWrite : Option OctetString → Writer Unit
  | none => smlBufOptionalWrite
  | some str => do
    smlBufSetTypeAndLength smlTypeOctetString str.length.toUInt32
    smlBufPut str

/-- The bytes of a number, which the machine keeps the other way round. -/
def lowestBytes (np : List UInt8) (size : Nat) : Except Fault (List UInt8) := do
  let bytes ← copyBytes np.reverse 0 size
  return bytes.reverse

/-- `sml_number_write`. -/
def smlNumberWrite (np : Option (List UInt8)) (type : UInt8) (size : Nat) : Writer Unit :=
  match np with
  | none => smlBufOptionalWrite
  | some np => do
    smlBufSetTypeAndLength type size.toUInt32
    let bytes ← lowestBytes np size
    smlBufPut bytes

/-- The bytes of a word, highest first. -/
def bigEndianBytes : Nat → Nat → List UInt8
  | 0, _ => []
  | size + 1, n => bigEndianBytes size (n / 256) ++ [UInt8.ofNat n]

/-- A number of so many bytes of a type, as it is written through a pointer to it. -/
def wordWrite (type : UInt8) (size : Nat) (word : Option (BitVec (8 * size))) : Writer Unit :=
  smlNumberWrite (word.map fun word => bigEndianBytes size word.toNat) type size

/-- `sml_u8_write`, and the other ones for numbers. -/
def smlU8Write : Option (BitVec 8) → Writer Unit := wordWrite smlTypeUnsigned 1
def smlU16Write : Option (BitVec 16) → Writer Unit := wordWrite smlTypeUnsigned 2
def smlU32Write : Option (BitVec 32) → Writer Unit := wordWrite smlTypeUnsigned 4
def smlU64Write : Option (BitVec 64) → Writer Unit := wordWrite smlTypeUnsigned 8
def smlI8Write : Option (BitVec 8) → Writer Unit := wordWrite smlTypeInteger 1
def smlI64Write : Option (BitVec 64) → Writer Unit := wordWrite smlTypeInteger 8

/-- `sml_unit_write`. -/
def smlUnitWrite : Option (BitVec 8) → Writer Unit := smlU8Write

/-- `sml_boolean_write`. -/
def smlBooleanWrite : Option UInt8 → Writer Unit
  | none => smlBufOptionalWrite
  | some value => do
    smlBufSetTypeAndLength smlTypeBoolean 1
    smlBufPut [if value = smlBooleanFalse then smlBooleanFalse else smlBooleanTrue]

/-- The data of a value as a string, as a boolean and as a number. -/
def SmlData.asBytes : SmlData → Except Fault (Option OctetString)
  | .bytes str => return str
  | _ => throw .wrongKind

def SmlData.asBoolean : SmlData → Except Fault (Option UInt8)
  | .boolean value => return value
  | _ => throw .wrongKind

def SmlData.asNumber : SmlData → Except Fault (Option (List UInt8))
  | .number np => return np
  | _ => throw .wrongKind

/-- `sml_value_write`. -/
def smlValueWrite : Option SmlValue → Writer Unit
  | none => smlBufOptionalWrite
  | some value => do
    let type := value.type &&& smlTypeField
    if type = smlTypeOctetString then
      let str ← value.data.asBytes
      smlOctetStringWrite str
    else if type = smlTypeBoolean then
      let data ← value.data.asBoolean
      smlBooleanWrite data
    else if type = smlTypeUnsigned ∨ type = smlTypeInteger then
      let np ← value.data.asNumber
      smlNumberWrite np type (value.type &&& smlLengthField).toNat
    else
      -- A value of another type is not written at all.
      return ()

/-- `sml_status_write`. -/
def smlStatusWrite : Option SmlStatus → Writer Unit
  | none => smlBufOptionalWrite
  | some status =>
    smlNumberWrite status.data (status.type &&& smlTypeField)
      (status.type &&& smlLengthField).toNat

/-- `sml_time_write`. -/
def smlTimeWrite : Option SmlTime → Writer Unit
  | none => smlBufOptionalWrite
  | some time => do
    smlBufSetTypeAndLength smlTypeList 2
    smlU8Write time.tag
    smlU32Write time.timestamp

section Kept

/-- A string that is read back: it has bytes, and its length is kept. -/
def StringKept (str : OctetString) : Prop :=
  str ≠ [] ∧ str.length < 2 ^ 28 - 8 ∧ LengthKept smlTypeOctetString str.length

/-- The booleans that are read. -/
def BooleanKept (value : UInt8) : Prop := value = smlBooleanTrue ∨ value = smlBooleanFalse

/-- The sizes of numbers. -/
def numberSizes : List Nat := [1, 2, 4, 8]

/-- A value that is read back: it has data of its type. -/
def SmlValue.Kept (value : SmlValue) : Prop :=
  match value.data with
  | .bytes str => value.type = smlTypeOctetString ∧ ∃ given ∈ str, StringKept given
  | .boolean data => value.type = smlTypeBoolean ∧ ∃ given ∈ data, BooleanKept given
  | .number np => ∃ bytes ∈ np, bytes.length ∈ numberSizes ∧
      (value.type = smlTypeUnsigned ||| UInt8.ofNat bytes.length ∨
        value.type = smlTypeInteger ||| UInt8.ofNat bytes.length)

/-- A status that is read back. -/
def SmlStatus.Kept (status : SmlStatus) : Prop :=
  ∃ bytes ∈ status.data, bytes.length ∈ numberSizes ∧
    status.type = smlTypeUnsigned ||| UInt8.ofNat bytes.length

/-- A time that is read back: it has a timestamp. -/
def SmlTime.Kept (time : SmlTime) : Prop := time.timestamp.isSome

end Kept

section Carries

/-- A string that is kept is carried, and begins as a string does. -/
theorem carries_kept {str : OctetString} (kept : StringKept str) :
    ∃ bytes first, Writes (smlOctetStringWrite (some str)) bytes ∧
      Reads smlOctetStringParse bytes (some str) ∧ bytes.head? = some first ∧
      first &&& smlTypeField = smlTypeOctetString ∧ first ≠ smlOptionalSkipped := by
  -- The length is kept, so that the bytes behind the header are read to their end.
  obtain ⟨some, small, same⟩ := kept
  have word : str.length.toUInt32.toNat = str.length :=
    UInt32.toNat_ofNat_of_lt' (Nat.lt_trans small (by decide))
  have head := @writes_header smlTypeOctetString str.length.toUInt32 (by rwa [word])
  rw [word] at head
  obtain ⟨first, begins, typeOf, other⟩ :=
    @header_first smlTypeOctetString (by decide) _ small fun _ => List.length_pos_iff.mpr some
  refine ⟨header smlTypeOctetString str.length ++ str, first, head.bind (writes_put str), ?_,
    begins _, typeOf, other⟩
  refine reads_optional (begins _) other (reads_nextType (begins _) ?_)
  rw [typeOf, if_neg (by simp)]
  refine (reads_header (by decide) small same).bind (reads_left fun left more => ?_)
  rw [if_neg (by omega)]
  exact reads_copy rfl

/-- A short string is kept. -/
theorem stringKept_short {str : OctetString} (some : str ≠ []) (short : str.length < 15) :
    StringKept str := by
  -- With its own byte the length is less than sixteen.
  refine ⟨some, by omega, (@readLength_short smlTypeOctetString str.length ?_).2⟩
  rw [counted, if_neg (by decide)]
  omega

/-- A string is carried when it is kept. -/
theorem carries_string {str : Option OctetString} (kept : ∀ given ∈ str, StringKept given) :
    Carries (smlOctetStringWrite str) smlOctetStringParse str := by
  -- A string that is missing is a skipped field.
  cases str with
  | none => exact Carries.skipped
  | some str =>
    obtain ⟨bytes, _, wrote, read, _⟩ := carries_kept (kept str rfl)
    exact ⟨bytes, wrote, read⟩

/-- The bytes of a number denote it. -/
theorem bigEndian_bigEndianBytes (size n : Nat) :
    Ber.bigEndian (bigEndianBytes size n) = n % 256 ^ size := by
  -- The induction is on the size: the last byte is the remainder, and the others the quotient.
  induction size generalizing n with
  | zero => simp [bigEndianBytes, Nat.mod_one]
  | succ size ih =>
    have split : n % (256 * 256 ^ size) = n % 256 + 256 * (n / 256 % 256 ^ size) := Nat.mod_mul
    rw [bigEndianBytes, Ber.bigEndian_append, ih, Nat.pow_succ, Nat.mul_comm _ 256, split]
    simp [Ber.bigEndian]
    omega

/-- A number has as many bytes as its size. -/
@[simp] theorem length_bigEndianBytes (size n : Nat) : (bigEndianBytes size n).length = size := by
  -- The induction is on the size, of which each step puts one byte behind the others.
  induction size generalizing n with
  | zero => rfl
  | succ size ih => rw [bigEndianBytes, List.length_append, ih, List.length_singleton]

/-- The header of a number is one byte. -/
theorem header_number {type : UInt8} (number : type ≠ smlTypeList) {size : Nat} (few : size < 15) :
    header type size = [type ||| UInt8.ofNat (size + 1)] := by
  -- With its own byte the length is less than sixteen, so one group is enough.
  have counts : counted type size = size + 1 := if_neg number
  rw [header, lengthGroups, counts, if_pos (by omega)]
  rfl

/-- A number is carried where it is read with its size. -/
theorem carries_number {type : UInt8} (typed : type ∈ fieldTypes)
    (number : type ≠ smlTypeOctetString ∧ type ≠ smlTypeList) {np : List UInt8}
    (some : np ≠ []) (few : np.length < 15) :
    Writes (smlNumberWrite (.some np) type np.length)
        ((type ||| UInt8.ofNat (np.length + 1)) :: np) ∧
      Reads (smlNumberParse type np.length) ((type ||| UInt8.ofNat (np.length + 1)) :: np)
        (.some np) := by
  -- The header says how many bytes follow, and they are copied behind the leading ones.
  have small : np.length < 2 ^ 28 - 8 := by omega
  have word : np.length.toUInt32.toNat = np.length :=
    UInt32.toNat_ofNat_of_lt' (Nat.lt_trans small (by decide))
  have head := @writes_header type np.length.toUInt32 (by rwa [word])
  rw [word] at head
  have kept : LengthKept type np.length := by
    refine (@readLength_short type np.length ?_).2
    rw [counted, if_neg number.2]
    omega
  have lowest : lowestBytes np np.length = .ok np := by
    have whole : np.reverse.take np.length = np.reverse := List.take_of_length_le (by simp)
    simp [lowestBytes, copyBytes, whole, Bind.bind, Except.bind, Pure.pure, Except.pure]
  obtain ⟨first, begins, typeOf, other⟩ := header_first typed small fun string =>
    absurd string number.1
  have bytes : (type ||| UInt8.ofNat (np.length + 1)) :: np = header type np.length ++ np := by
    rw [header_number number.2 few]
    rfl
  rw [bytes]
  constructor
  · have written : smlNumberWrite (.some np) type np.length = (do
        smlBufSetTypeAndLength type np.length.toUInt32
        smlBufPut np) := by
      simp only [smlNumberWrite, lowest]
      rfl
    rw [written]
    exact head.bind (writes_put np)
  · refine reads_optional (begins _) other (reads_left fun left more => ?_)
    rw [if_neg (by omega)]
    refine reads_nextType (begins _) ?_
    rw [typeOf, if_neg (by simp)]
    refine (reads_header typed small kept).bind ?_
    rw [if_neg (by omega)]
    refine reads_left fun left enough => ?_
    rw [if_neg (by omega), if_neg (by omega)]
    obtain ⟨byte, tail, rfl⟩ := List.exists_cons_of_ne_nil some
    refine reads_currentByte rfl ?_
    -- Nothing is filled in before a number that has all its bytes.
    have copy := fun fill : UInt8 => @reads_copy (Option (List UInt8)) (byte :: tail)
      (fun np => .some (List.replicate ((byte :: tail).length - ((byte :: tail).length : Int).toNat)
        fill ++ np)) ((byte :: tail).length : Int).toNat rfl
    simp only [Int.toNat_natCast, Nat.sub_self, List.replicate_zero, List.nil_append] at copy ⊢
    exact copy 0

/-- A word is denoted by its bytes. -/
theorem ofNat_bigEndianBytes {size : Nat} (word : BitVec (8 * size)) :
    BitVec.ofNat _ (Ber.bigEndian (bigEndianBytes size word.toNat)) = word := by
  -- A word is less than what its bytes can denote.
  have small : word.toNat < 256 ^ size := by
    have bound := word.isLt
    rwa [Nat.pow_mul] at bound
  rw [bigEndian_bigEndianBytes, Nat.mod_eq_of_lt small]
  exact BitVec.eq_of_toNat_eq (by simp)

/-- A word is carried, and begins with its type and size. -/
theorem carries_given {type : UInt8} (typed : type ∈ fieldTypes)
    (number : type ≠ smlTypeOctetString ∧ type ≠ smlTypeList) {size : Nat} (some : 0 < size)
    (few : size < 15) (word : BitVec (8 * size)) :
    Writes (wordWrite type size (.some word))
        ((type ||| UInt8.ofNat (size + 1)) :: bigEndianBytes size word.toNat) ∧
      Reads (wordParse type size)
        ((type ||| UInt8.ofNat (size + 1)) :: bigEndianBytes size word.toNat) (.some word) := by
  -- A word is read as the number that its bytes denote.
  have full := length_bigEndianBytes size word.toNat
  obtain ⟨wrote, read⟩ := carries_number typed number
    (List.length_pos_iff.mp (full.symm ▸ some)) (full.symm ▸ few)
  rw [full] at wrote read
  refine ⟨wrote, ?_⟩
  have mapped := reads_map read
    (Option.map fun bytes => BitVec.ofNat (8 * size) (Ber.bigEndian bytes))
  rwa [Option.map_some, ofNat_bigEndianBytes] at mapped

/-- A word is carried, and so is none. -/
theorem carries_word {type : UInt8} (typed : type ∈ fieldTypes)
    (number : type ≠ smlTypeOctetString ∧ type ≠ smlTypeList) {size : Nat} (some : 0 < size)
    (few : size < 15) (word : Option (BitVec (8 * size))) :
    Carries (wordWrite type size word) (wordParse type size) word := by
  -- A word that is missing is a skipped field.
  cases word with
  | none =>
    obtain ⟨bytes, wrote, read⟩ : Carries smlBufOptionalWrite (smlNumberParse type size) none :=
      Carries.skipped
    exact ⟨bytes, wrote, reads_map read _⟩
  | some word =>
    exact ⟨_, carries_given typed number some few word⟩

/-- The bytes of messages are carried. -/
theorem carries_u8 (word : Option (BitVec 8)) : Carries (smlU8Write word) smlU8Parse word :=
  @carries_word smlTypeUnsigned (by decide) (by decide) 1 (by decide) (by decide) word

/-- So are words of 32 bits. -/
theorem carries_u32 (word : Option (BitVec 32)) : Carries (smlU32Write word) smlU32Parse word :=
  @carries_word smlTypeUnsigned (by decide) (by decide) 4 (by decide) (by decide) word

/-- So are words of 64 bits. -/
theorem carries_u64 (word : Option (BitVec 64)) : Carries (smlU64Write word) smlU64Parse word :=
  @carries_word smlTypeUnsigned (by decide) (by decide) 8 (by decide) (by decide) word

/-- So are signed bytes. -/
theorem carries_i8 (word : Option (BitVec 8)) : Carries (smlI8Write word) smlI8Parse word :=
  @carries_word smlTypeInteger (by decide) (by decide) 1 (by decide) (by decide) word

/-- So are the units. -/
theorem carries_unit (word : Option (BitVec 8)) : Carries (smlUnitWrite word) smlUnitParse word :=
  carries_u8 word

/-- A boolean that is kept is carried, and begins as a boolean does. -/
theorem carries_truth {value : UInt8} (kept : BooleanKept value) :
    ∃ bytes, Writes (smlBooleanWrite (some value)) bytes ∧
      Reads smlBooleanParse bytes (some value) ∧ bytes.head? = some 0x42 := by
  -- The two bytes that stand for true and false are written as they are.
  have head : header smlTypeBoolean 1 = [0x42] := header_number (by decide) (by decide)
  have wrote := @writes_header smlTypeBoolean 1 (by decide)
  have same : (if value = smlBooleanFalse then smlBooleanFalse else smlBooleanTrue) = value := by
    rcases kept with rfl | rfl <;> decide
  have truth : (if value ≠ 0 then smlBooleanTrue else smlBooleanFalse) = value := by
    rcases kept with rfl | rfl <;> decide
  refine ⟨header smlTypeBoolean 1 ++ [value], ?_, ?_, by rw [head]; rfl⟩
  · have put := writes_put [value]
    simp only [smlBooleanWrite, same]
    exact wrote.bind put
  · have begins : (header smlTypeBoolean 1 ++ [value]).head? = some 0x42 := by
      rw [head]
      rfl
    refine reads_optional begins (by decide) (reads_nextType begins ?_)
    rw [if_neg (by decide)]
    have length := @reads_header smlTypeBoolean (by decide) 1 (by decide)
      (@readLength_short smlTypeBoolean 1 (by decide)).2
    refine length.bind ?_
    rw [if_neg (by decide)]
    refine reads_left fun left more => ?_
    rw [if_neg (by simp at more; omega)]
    have read := reads_byte (f := fun byte =>
      some (if byte ≠ 0 then smlBooleanTrue else smlBooleanFalse)) value
    simp only [truth] at read
    exact read

/-- A boolean is carried when it is kept. -/
theorem carries_boolean {value : Option UInt8} (kept : ∀ given ∈ value, BooleanKept given) :
    Carries (smlBooleanWrite value) smlBooleanParse value := by
  -- A boolean that is missing is a skipped field.
  cases value with
  | none => exact Carries.skipped
  | some value =>
    obtain ⟨bytes, wrote, read, _⟩ := carries_truth (kept value rfl)
    exact ⟨bytes, wrote, read⟩

/-- The type of a number in the low bits of which is its size. -/
theorem sized_type : ∀ type ∈ [smlTypeUnsigned, smlTypeInteger], ∀ size ∈ numberSizes,
    (type ||| UInt8.ofNat size) &&& smlTypeField = type ∧
      ((type ||| UInt8.ofNat size) &&& smlLengthField).toNat = size ∧
      (type ||| UInt8.ofNat (size + 1)) &&& smlTypeField = type ∧
      (type ||| UInt8.ofNat (size + 1)) ≠ smlOptionalSkipped ∧
      maxSize (type ||| UInt8.ofNat (size + 1)) = size := by decide +kernel

/-- The sizes of numbers are small. -/
theorem numberSizes_small : ∀ size ∈ numberSizes, 0 < size ∧ size < 15 := by decide

/-- A number of a value or a status is carried with the size that its first byte tells. -/
theorem carries_sized {type : UInt8} (number : type ∈ [smlTypeUnsigned, smlTypeInteger])
    {np : List UInt8} (sized : np.length ∈ numberSizes) :
    ∃ bytes first, Writes (smlNumberWrite (some np) type np.length) bytes ∧
      Reads (smlNumberParse type (maxSize first)) bytes (some np) ∧ bytes.head? = some first ∧
      first &&& smlTypeField = type ∧ first ≠ smlOptionalSkipped ∧ maxSize first = np.length := by
  -- The first byte of the header tells the type and the size.
  have types : ∀ type ∈ [smlTypeUnsigned, smlTypeInteger],
      type ∈ fieldTypes ∧ type ≠ smlTypeOctetString ∧ type ≠ smlTypeList := by decide +kernel
  obtain ⟨typed, other⟩ := types type number
  obtain ⟨positive, few⟩ := numberSizes_small _ sized
  obtain ⟨_, _, typeOf, present, size⟩ := sized_type type number _ sized
  obtain ⟨wrote, read⟩ := carries_number typed other (List.length_pos_iff.mp positive) few
  exact ⟨_, _, wrote, size.symm ▸ read, rfl, typeOf, present, size⟩

/-- A value is carried when it is kept. -/
theorem carries_value {value : Option SmlValue} (kept : ∀ given ∈ value, SmlValue.Kept given) :
    Carries (smlValueWrite value) smlValueParse value := by
  -- The type of a value says which of its fields holds the data.
  cases value with
  | none => exact Carries.skipped
  | some value =>
    have holds := kept value rfl
    obtain ⟨type, data⟩ := value
    cases data with
    | bytes str =>
      obtain ⟨rfl, str, here, held⟩ := holds
      cases here
      obtain ⟨bytes, first, wrote, read, head, typeOf, other⟩ := carries_kept held
      have field : smlTypeOctetString &&& smlTypeField = smlTypeOctetString := by decide
      refine ⟨bytes, ?_, reads_optional head other (reads_nextType head ?_)⟩
      · simp only [smlValueWrite, field, if_true]
        exact wrote
      · refine reads_currentByte head ?_
        simp only [typeOf, if_true]
        exact reads_given read fun str => SmlValue.mk smlTypeOctetString (.bytes str)
    | boolean data =>
      obtain ⟨rfl, value, here, held⟩ := holds
      cases here
      obtain ⟨bytes, wrote, read, head⟩ := carries_truth held
      have field : smlTypeBoolean &&& smlTypeField = smlTypeBoolean := by decide
      have typeOf : (0x42 : UInt8) &&& smlTypeField = smlTypeBoolean := by decide
      have string : smlTypeBoolean ≠ smlTypeOctetString := by decide
      refine ⟨bytes, ?_, reads_optional head (by decide) (reads_nextType head ?_)⟩
      · simp only [smlValueWrite, field, if_neg string, if_true]
        exact wrote
      · refine reads_currentByte head ?_
        simp only [typeOf, if_neg string, if_true]
        exact reads_given read fun value => SmlValue.mk smlTypeBoolean (.boolean value)
    | number np =>
      obtain ⟨np, here, sized, typed⟩ := holds
      cases here
      have numbers : ∃ number ∈ [smlTypeUnsigned, smlTypeInteger],
          type = number ||| UInt8.ofNat np.length := by
        rcases typed with rfl | rfl
        · exact ⟨_, by decide, rfl⟩
        · exact ⟨_, by decide, rfl⟩
      obtain ⟨number, member, rfl⟩ := numbers
      obtain ⟨field, size, _⟩ := sized_type number member _ sized
      obtain ⟨bytes, first, wrote, read, head, typeOf, other, max⟩ := carries_sized member sized
      have types : number ≠ smlTypeOctetString ∧ number ≠ smlTypeBoolean ∧
          (number = smlTypeUnsigned ∨ number = smlTypeInteger) := by
        have all : ∀ number ∈ [smlTypeUnsigned, smlTypeInteger],
            number ≠ smlTypeOctetString ∧ number ≠ smlTypeBoolean ∧
              (number = smlTypeUnsigned ∨ number = smlTypeInteger) := by decide +kernel
        exact all number member
      obtain ⟨string, boolean, either⟩ := types
      refine ⟨bytes, ?_, reads_optional head other (reads_nextType head ?_)⟩
      · simp only [smlValueWrite, field, size, if_neg string, if_neg boolean, if_pos either]
        exact wrote
      · refine reads_currentByte head ?_
        simp only [typeOf, if_neg string, if_neg boolean, if_pos either, max] at read ⊢
        exact reads_given read fun data =>
          SmlValue.mk (number ||| UInt8.ofNat np.length) (.number data)

/-- A status is carried when it is kept. -/
theorem carries_status {status : Option SmlStatus} (kept : ∀ given ∈ status, SmlStatus.Kept given) :
    Carries (smlStatusWrite status) smlStatusParse status := by
  -- A status is a number of one of four sizes.
  cases status with
  | none => exact Carries.skipped
  | some status =>
    have holds := kept status rfl
    obtain ⟨type, data⟩ := status
    obtain ⟨np, here, sized, typed⟩ := holds
    cases here
    obtain rfl : type = smlTypeUnsigned ||| UInt8.ofNat np.length := typed
    have member : smlTypeUnsigned ∈ [smlTypeUnsigned, smlTypeInteger] := by decide
    obtain ⟨field, size, _⟩ := sized_type _ member _ sized
    obtain ⟨bytes, first, wrote, read, head, typeOf, other, max⟩ := carries_sized member sized
    refine ⟨bytes, ?_, reads_optional head other (reads_nextType head ?_)⟩
    · simp only [smlStatusWrite, field, size]
      exact wrote
    · refine reads_currentByte head ?_
      simp only [typeOf, if_true, max] at read ⊢
      exact reads_given read fun data =>
        SmlStatus.mk (smlTypeUnsigned ||| UInt8.ofNat np.length) data

/-- A time is carried when it is kept. -/
theorem carries_time {time : Option SmlTime} (kept : ∀ given ∈ time, SmlTime.Kept given) :
    Carries (smlTimeWrite time) smlTimeParse time := by
  -- A time that is there has two fields, and one that is not is a skipped field.
  cases time with
  | none => exact Carries.skipped
  | some time =>
    obtain ⟨tag, timestamp⟩ := time
    obtain ⟨timestamp, rfl⟩ := Option.isSome_iff_exists.mp (kept _ rfl)
    obtain ⟨wrote, read⟩ := @carries_given smlTypeUnsigned (by decide) (by decide) 4
      (by decide) (by decide) timestamp
    -- Behind the tag the timestamp is told from a list by its first byte.
    have behind : Carries (smlU32Write (some timestamp)) (timeParse tag)
        (some ⟨tag, some timestamp⟩) := by
      refine ⟨_, wrote, reads_nextType rfl ?_⟩
      rw [if_pos (by decide)]
      have parsed : Reads (field smlU32Parse fun timestamp =>
          pure (some (SmlTime.mk tag timestamp))) (_ ++ []) _ := reads_field read (.pure _)
      rwa [List.append_nil] at parsed
    obtain ⟨fields, wroteFields, readFields⟩ := (carries_u8 tag).field behind
    have two : header smlTypeList 2 = [0x72] := by decide
    have length := @writes_header smlTypeList 2 (by decide)
    refine ⟨_, length.bind wroteFields, ?_⟩
    have begins : (header smlTypeList 2 ++ fields).head? = some 0x72 := by
      rw [two]
      rfl
    refine reads_optional begins (by decide) (reads_currentByte begins ?_)
    rw [if_neg (by decide)]
    exact reads_listOf (by decide) readFields

end Carries

end OpenwrtMisc.Libsml
