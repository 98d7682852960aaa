import OpenwrtMisc.Libsml.Fields

/-! Sequences, and the list of a meter's values with the meters that need help. -/

namespace OpenwrtMisc.Libsml

/-- An entry of a list. -/
structure SmlList where
  objName : Option OctetString
  status : Option SmlStatus
  valTime : Option SmlTime
  unit : Option (BitVec 8)
  scaler : Option (BitVec 8)
  value : Option SmlValue
  valueSignature : Option OctetString
  deriving DecidableEq, Repr

/-- `sml_sequence_parse`. -/
def smlSequenceParse {α : Type} (elemParse : Reader α) : Reader (Option (List α)) := do
  let type ← smlBufGetNextType
  if type ≠ some smlTypeList then failed
  else
    let len ← smlBufGetNextLength
    elements elemParse len.toNat

/-- `dzg_serial_oid`, `dzg_serial_start` and `broken_dvs74_ranges`. -/
def dzgSerialOid : OctetString := [1, 0, 96, 1, 0, 255]
def dzgSerialStart : OctetString := [0x0a, 0x01, 0x44, 0x5a, 0x47]
def brokenDvs74Ranges : List (UInt64 × UInt64) := [(42000000, 48999999), (55000000, 58999999)]

/-- `dzg_power_name`. -/
def dzgPowerName : OctetString := [1, 0, 16, 7, 0, 255]

/-- The bytes of a value that is a string. -/
def SmlValue.bytes (value : SmlValue) : Except Fault OctetString :=
  match value.data with
  | .bytes str => follow str
  | _ => throw .wrongKind

/-- `detect_buggy_dzg_dvs74`. -/
def detectBuggyDzgDvs74 (l : SmlList) : Except Fault Bool :=
  if l.objName ≠ some dzgSerialOid then return false
  else match l.value with
    | none => return false
    | some value =>
      if value.type ≠ smlTypeOctetString then return false
      else do
        let val ← value.bytes
        if val.length ≠ 10 then return false
        else if val.take dzgSerialStart.length ≠ dzgSerialStart then return false
        else
          let serial : UInt64 := (val.drop dzgSerialStart.length).foldl
            (fun serial byte => serial <<< 8 ||| byte.toUInt64) 0
          return brokenDvs74Ranges.any fun range => range.1 ≤ serial ∧ serial ≤ range.2

/-- A value that is taken for an unsigned one. -/
def SmlValue.unsigned (value : SmlValue) : SmlValue :=
  { value with type := value.type &&& ~~~smlTypeField ||| smlTypeUnsigned }

/-- The end of `sml_list_entry_parse`, with what is known of the meter from then on. -/
def workAround (oldDzgDvs74 : Bool) (valueTl : UInt8) (l : SmlList) :
    Except Fault (SmlList × Bool) := do
  let valueLenMore := valueTl &&& (smlAnotherTl ||| smlLengthField)
  let buggy ← detectBuggyDzgDvs74 l
  if buggy then
    return (l, true)
  else if oldDzgDvs74 ∧ l.objName = some dzgPowerName ∧
      (valueLenMore = 1 ∨ valueLenMore = 2 ∨ valueLenMore = 3) then
    return ({ l with value := l.value.map SmlValue.unsigned }, oldDzgDvs74)
  else
    return (l, oldDzgDvs74)

/-- A computation that reads nothing. -/
def checked {α : Type} (computation : Except Fault α) : Reader α := fun cursor => do
  let value ← computation
  return (value, cursor)

/-- `sml_list_entry_parse`. -/
def smlListEntryParse (oldDzgDvs74 : Bool) : Reader (Option (SmlList × Bool)) :=
  listOf 7 <|
    field smlOctetStringParse fun objName =>
    field smlStatusParse fun status =>
    field smlTimeParse fun valTime =>
    field smlUnitParse fun unit =>
    field smlI8Parse fun scaler => do
      let left ← smlLeft
      if left = 0 then failed
      else
        let valueTl ← smlBufGetCurrentByte
        field smlValueParse fun value =>
          field smlOctetStringParse fun valueSignature => do
            let entry ← checked <| workAround oldDzgDvs74 valueTl
              { objName, status, valTime, unit, scaler, value, valueSignature }
            return some entry

/-- The loop of `sml_list_parse`. -/
def listLoop : Nat → Bool → Reader (Option (List SmlList))
  | 0, _ => return some []
  | elems + 1, oldDzgDvs74 =>
    field (smlListEntryParse oldDzgDvs74) fun entry => do
      -- The next entry is linked to this one.
      let (l, oldDzgDvs74) ← checked (follow entry)
      let rest ← listLoop elems oldDzgDvs74
      return rest.map (l :: ·)

/-- `sml_list_parse`, whose null pointer is the list without entries. -/
def smlListParse : Reader (List SmlList) := do
  let list ← optional do
    let type ← smlBufGetNextType
    if type ≠ some smlTypeList then failed
    else
      let elems ← smlBufGetNextLength
      listLoop elems.toNat false
  return list.getD []

section Safe

open Cursor

variable {α : Type} {room : Nat}

/-- A sequence is safe when its elements are. -/
theorem smlSequenceParse_safe {elemParse : Reader α} (safe : Safe room elemParse) :
    Safe room (smlSequenceParse elemParse) :=
  smlBufGetNextType_safe.bind fun _ => .ite (fun _ => failed_safe) fun _ =>
    smlBufGetNextLength_safe.bind fun _ => elements_safe safe _

/-- A string value has its bytes. -/
theorem SmlValue.Sound.bytes {value : SmlValue} (sound : value.Sound)
    (string : value.type = smlTypeOctetString) : ∃ str, value.bytes = .ok str := by
  -- The type of another value has bits that the type of a string lacks.
  have other : ∀ {type size : UInt8}, type ≠ 0 → type ||| size ≠ 0 := by
    intro type size some none
    exact some (UInt8.or_eq_zero_iff.mp none).1
  obtain ⟨type, data⟩ := value
  cases data with
  | bytes str =>
    obtain ⟨given, _⟩ := sound
    obtain ⟨str, rfl⟩ := Option.isSome_iff_exists.mp given
    exact ⟨str, rfl⟩
  | boolean data => exact absurd (sound.2.symm.trans string) (by decide)
  | number np =>
    obtain ⟨_, byte, _, _, unsigned | signed⟩ := sound
    · exact absurd (unsigned.symm.trans string) (other (by decide))
    · exact absurd (signed.symm.trans string) (other (by decide))

/-- The search for meters that need help follows no pointer that is null. -/
theorem workAround_ok (oldDzgDvs74 : Bool) (valueTl : UInt8) {l : SmlList}
    (sound : ∀ value ∈ l.value, SmlValue.Sound value) :
    ∃ entry, workAround oldDzgDvs74 valueTl l = .ok entry := by
  -- Each pointer is tested before it is followed.
  have detected : ∃ buggy, detectBuggyDzgDvs74 l = .ok buggy := by
    unfold detectBuggyDzgDvs74
    split
    · exact ⟨_, rfl⟩
    split
    · exact ⟨_, rfl⟩
    · rename_i value valued
      split
      · exact ⟨_, rfl⟩
      · rename_i string
        obtain ⟨str, bytes⟩ := (sound value valued).bytes (not_not.mp string)
        rw [bytes]
        simp only [Bind.bind, Except.bind]
        split
        · exact ⟨_, rfl⟩
        split
        · exact ⟨_, rfl⟩
        · exact ⟨_, rfl⟩
  obtain ⟨buggy, found⟩ := detected
  unfold workAround
  rw [found]
  simp only [Bind.bind, Except.bind]
  split
  · exact ⟨_, rfl⟩
  split
  · exact ⟨_, rfl⟩
  · exact ⟨_, rfl⟩

/-- A computation that succeeds is no access. -/
theorem checked_runs {computation : Except Fault α} {cursor : Cursor} {value : α}
    (succeeds : computation = .ok value) :
    Runs (checked computation) cursor fun found after => found = value ∧ after = cursor :=
  ⟨value, cursor, by rw [checked, succeeds]; rfl, rfl, rfl⟩

/-- An entry is given unless there is an error. -/
theorem smlListEntryParse_gives (oldDzgDvs74 : Bool) {cursor : Cursor} (inside : cursor.Inside) :
    Gives (·.isSome) (smlListEntryParse oldDzgDvs74) cursor := by
  -- The fields of an entry are parsed in order, and the first error ends it.
  refine listOf_gives (by decide) inside fun later inside _ => ?_
  refine field_gives (smlOctetStringParse_gives inside) fun _ _ moves _ => ?_
  refine field_gives (smlStatusParse_safe.gives moves.inside (Nat.le_refl _)) fun _ _ moves _ => ?_
  refine field_gives (smlTimeParse_safe.gives moves.inside (Nat.le_refl _)) fun _ _ moves _ => ?_
  refine field_gives (wordParse_safe.gives moves.inside (Nat.le_refl _)) fun _ _ moves _ => ?_
  refine field_gives (wordParse_safe.gives moves.inside (Nat.le_refl _)) fun _ _ moves _ => ?_
  refine smlLeft_gives (.ite (fun _ => failed_gives moves.inside) fun some => ?_)
  refine smlBufGetCurrentByte_gives (by omega) fun valueTl => ?_
  refine field_gives (smlValueParse_gives moves.inside) fun value _ moves sound => ?_
  refine field_gives (smlOctetStringParse_gives moves.inside) fun _ after moves _ => ?_
  -- The value that was given is what its type says.
  obtain ⟨entry, worked⟩ := workAround_ok oldDzgDvs74 valueTl (l := ⟨_, _, _, _, _, value, _⟩) sound
  refine (checked_runs worked).bind fun _ _ told => ?_
  obtain ⟨rfl, rfl⟩ := told
  exact Gives.pure moves.inside rfl

/-- The loop is safe. -/
theorem listLoop_safe (elems : Nat) (oldDzgDvs74 : Bool) :
    Safe room (listLoop elems oldDzgDvs74) := by
  -- The induction is on the number of entries that are announced.
  induction elems generalizing oldDzgDvs74 with
  | zero => exact .pure _
  | succ elems ih =>
    refine .of_gives (P := fun _ _ => True) fun cursor inside within => ?_
    refine field_gives (smlListEntryParse_gives oldDzgDvs74 inside)
      fun entry after moves given => ?_
    obtain ⟨⟨l, oldDzgDvs74⟩, rfl⟩ := Option.isSome_iff_exists.mp given
    refine (checked_runs rfl).bind fun _ _ told => ?_
    obtain ⟨rfl, rfl⟩ := told
    exact ((ih oldDzgDvs74).bind fun _ => .pure _).gives moves.inside
      (Nat.le_trans moves.room_le within)

/-- A list is safe. -/
theorem smlListParse_safe : Safe room smlListParse := by
  -- A list is skipped, or its type and its length come first.
  refine Safe.bind (optional_safe ?_) fun _ => .pure _
  exact smlBufGetNextType_safe.bind fun _ => .ite (fun _ => failed_safe) fun _ =>
    smlBufGetNextLength_safe.bind fun _ => listLoop_safe _ _

end Safe

end OpenwrtMisc.Libsml
