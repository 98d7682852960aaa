import OpenwrtMisc.SnmpAgent.Parse
import OpenwrtMisc.SnmpAgent.Wire

/-! Elements in short form are fields, and they are the only fields that their bytes hold. -/

namespace OpenwrtMisc.SnmpAgent

open Ber

/-- The length byte of short content. -/
theorem toNat_length {content : List UInt8} (short : content.length < 128) :
    (UInt8.ofNat content.length).toNat = content.length := by
  -- The length is below the range of a byte.
  rw [UInt8.toNat_ofNat']
  omega

/-- An INTEGER of one to four bytes is complete. -/
theorem integerField_content {content : List UInt8}
    (size : 1 ≤ content.length ∧ content.length ≤ 4) (rest : List UInt8) :
    IntegerField (UInt8.ofNat content.length :: (content ++ rest)) (shiftedWord content) rest := by
  -- The length byte is the length of the content.
  have width : (UInt8.ofNat content.length).toNat = content.length := toNat_length (by omega)
  refine .sized _ ⟨?_, ?_⟩ width.symm
  · rw [UInt8.le_iff_toNat_le, width]
    exact size.1
  · rw [UInt8.le_iff_toNat_le, width]
    exact size.2

/-- An OCTET STRING of short content is complete. -/
theorem stringField_content {content : List UInt8} (short : content.length < 128)
    (rest : List UInt8) :
    StringField (UInt8.ofNat content.length :: (content ++ rest)) content rest :=
  .sized _ (toNat_length short).symm

/-- An INTEGER of one to four bytes holds one word. -/
theorem integerField_iff {content rest behind : List UInt8} {value : BitVec 32}
    (size : 1 ≤ content.length ∧ content.length ≤ 4) :
    IntegerField (UInt8.ofNat content.length :: (content ++ rest)) value behind ↔
      value = shiftedWord content ∧ behind = rest := by
  -- A length byte of one to four is a width, which rules the layout of an unknown width out.
  constructor
  · intro field
    have width : (UInt8.ofNat content.length).toNat = content.length := toNat_length (by omega)
    generalize bytes : UInt8.ofNat content.length :: (content ++ rest) = whole at field
    cases field with
    | sized _ _ count =>
      -- The width says where the content ends.
      obtain ⟨rfl, same⟩ := List.cons.inj bytes
      obtain ⟨rfl, rfl⟩ := List.append_inj same (by omega)
      exact ⟨rfl, rfl⟩
    | other _ unknown =>
      obtain ⟨rfl, _⟩ := List.cons.inj bytes
      refine absurd ⟨?_, ?_⟩ unknown
      · rw [UInt8.le_iff_toNat_le, width]
        exact size.1
      · rw [UInt8.le_iff_toNat_le, width]
        exact size.2
  · rintro ⟨rfl, rfl⟩
    exact integerField_content size _

/-- A field whose tag comes next is there. -/
theorem optionalField_present {α : Type} {tag : UInt8}
    {field : List UInt8 → α → List UInt8 → Prop} {absent value : α} {bytes rest : List UInt8} :
    OptionalField tag field absent (tag :: bytes) value rest ↔ field bytes value rest := by
  constructor
  · intro optional
    cases optional with
    | present here => exact here
    -- The tag was tested, so a field with another tag is not this one.
    | missing _ differs => exact absurd rfl differs
  · exact .present

/-- A field whose tag does not come next is missing. -/
theorem optionalField_missing {α : Type} {tag other : UInt8}
    {field : List UInt8 → α → List UInt8 → Prop} {absent value : α} {bytes rest : List UInt8}
    (differs : other ≠ tag) :
    OptionalField tag field absent (other :: bytes) value rest ↔
      value = absent ∧ rest = other :: bytes := by
  -- With another tag only the second case is left.
  constructor
  · intro optional
    cases optional with
    | present => exact absurd rfl differs
    | missing => exact ⟨rfl, rfl⟩
  · rintro ⟨rfl, rfl⟩
    exact .missing _ differs

/-- A number that is an element is an INTEGER behind its tag. -/
theorem numberField_iff {content rest behind : List UInt8} {value : BitVec 32}
    (size : 1 ≤ content.length ∧ content.length ≤ 4) :
    OptionalField 0x02 IntegerField 0 (element 0x02 content ++ rest) value behind ↔
      value = shiftedWord content ∧ behind = rest := by
  rw [element, List.cons_append, List.cons_append, optionalField_present, integerField_iff size]

/-- A PDU with three numbers is taken apart when its list can be copied. -/
theorem pduLayout_numbers {type length : UInt8} {requestId error errorIndex rest : List UInt8}
    {outcome : Option SnmpPduRx} (known : type ∈ pduTypes)
    (numbers : ∀ content ∈ [requestId, error, errorIndex],
      1 ≤ content.length ∧ content.length ≤ 4) :
    PduLayout (type :: length :: (element 0x02 requestId ++ (element 0x02 error ++
        (element 0x02 errorIndex ++ rest)))) outcome ↔
      ∃ varbindings size, CopiedField [0x30] rest varbindings size ∧
        outcome = some ⟨type, length.toNat, shiftedWord requestId, lowByte (shiftedWord error),
          lowByte (shiftedWord errorIndex), varbindings, size⟩ := by
  -- The fields are taken apart one by one, and what is left is the list.
  simp only [List.mem_cons, List.not_mem_nil, or_false, forall_eq_or_imp, forall_eq] at numbers
  obtain ⟨first, second, third⟩ := numbers
  constructor
  · intro layout
    generalize bytes : type :: length :: (element 0x02 requestId ++ (element 0x02 error ++
        (element 0x02 errorIndex ++ rest))) = whole at layout
    cases layout with
    | fields _ idField errorField indexField listField =>
      -- Each number ends where the next one begins.
      obtain ⟨rfl, same⟩ := List.cons.inj bytes
      obtain ⟨rfl, rfl⟩ := List.cons.inj same
      obtain ⟨rfl, rfl⟩ := (numberField_iff first).mp idField
      obtain ⟨rfl, rfl⟩ := (numberField_iff second).mp errorField
      obtain ⟨rfl, rfl⟩ := (numberField_iff third).mp indexField
      exact ⟨_, _, listField, rfl⟩
    | wrong _ unknown =>
      obtain ⟨rfl, _⟩ := List.cons.inj bytes
      exact absurd known unknown
  · rintro ⟨varbindings, size, listField, rfl⟩
    exact .fields known ((numberField_iff first).mpr ⟨rfl, rfl⟩)
      ((numberField_iff second).mpr ⟨rfl, rfl⟩) ((numberField_iff third).mpr ⟨rfl, rfl⟩) listField

/-- A PDU whose lengths are in short form is complete, whatever comes behind it. -/
theorem Message.pduLayout (message : Message) (rest : List UInt8)
    (known : message.pduTag ∈ pduTypes)
    (numbers : ∀ content ∈ [message.requestId, message.errorStatus, message.errorIndex],
      1 ≤ content.length ∧ content.length ≤ 4) (short : message.pdu.length < 128) :
    PduLayout (element message.pduTag message.pdu ++ rest) (some
      ⟨message.pduTag, (UInt8.ofNat message.pdu.length).toNat, shiftedWord message.requestId,
        lowByte (shiftedWord message.errorStatus), lowByte (shiftedWord message.errorIndex),
        some (element 0x30 message.list ++ [0]), (UInt8.ofNat message.list.length).toNat⟩) := by
  have listSize : message.list.length < 128 := by
    simp only [Message.pdu, List.length_append, length_element] at short
    omega
  -- The list is copied with the zero that its block has behind it.
  have listField : CopiedField [0x30] (element 0x30 message.list ++ rest)
      (some (element 0x30 message.list ++ [0])) (UInt8.ofNat message.list.length).toNat :=
    .present rest (by decide) (toNat_length listSize).symm
  have layout := (@pduLayout_numbers message.pduTag (UInt8.ofNat message.pdu.length) _ _ _ _ _
    known numbers).mpr ⟨_, _, listField, rfl⟩
  simpa only [element, Message.pdu, List.cons_append, List.append_assoc] using layout

end OpenwrtMisc.SnmpAgent
