import OpenwrtMisc.Lib.BerForms
import OpenwrtMisc.SnmpAgent.Receive
import OpenwrtMisc.SnmpAgent.Wire

/-! Messages whose lengths are written in any of the forms, and how they are read. -/

namespace OpenwrtMisc.SnmpAgent

open Ber

/-- The content of a field, and the form that its length is written in. -/
structure CodedField where
  /-- The form of the length. -/
  form : LengthForm
  /-- The content octets. -/
  content : List UInt8
  deriving DecidableEq, Repr

/-- The element of a field. -/
def CodedField.bytes (field : CodedField) (tag : UInt8) : List UInt8 :=
  field.form.element tag field.content

/-- The length of a field can be written in its form. -/
def CodedField.Fits (field : CodedField) : Prop := field.content.length < field.form.limit

/-- Whether the length of a field can be written can be computed. -/
instance (field : CodedField) : Decidable field.Fits :=
  inferInstanceAs (Decidable (field.content.length < field.form.limit))

/-- A variable binding with the forms of its lengths. -/
structure CodedBinding where
  /-- The form of its own length. -/
  form : LengthForm
  /-- The OID. -/
  name : CodedField
  /-- The type tag of the value. -/
  valueTag : UInt8
  /-- The value. -/
  value : CodedField
  deriving DecidableEq, Repr

/-- The content of a binding. -/
def CodedBinding.content (coded : CodedBinding) : List UInt8 :=
  coded.name.bytes 0x06 ++ coded.value.bytes coded.valueTag

/-- The element of a binding. -/
def CodedBinding.bytes (coded : CodedBinding) : List UInt8 := coded.form.element 0x30 coded.content

/-- The binding that is coded. -/
def CodedBinding.binding (coded : CodedBinding) : Binding :=
  ⟨coded.name.content, ⟨coded.valueTag, coded.value.content⟩⟩

/-- The content of an OID: its first two numbers share a subidentifier, and none is missing. -/
def IsOid (content : List UInt8) : Prop :=
  ∃ shared arcs, (∀ arc ∈ shared :: arcs, arc < 2 ^ 32) ∧ content = (shared :: arcs).flatMap base128

/-- The tags of the types for addresses, counters, gauges, times and opaque values. -/
def applicationTags : List UInt8 := [0x40, 0x41, 0x42, 0x43, 0x44]

/-- None of these types is understood by the agent. -/
theorem not_primitive_of_application {tag : UInt8} (known : tag ∈ applicationTags) :
    tag ∉ primitiveTypes := by
  -- The five types are looked up one by one.
  simp only [applicationTags, List.mem_cons, List.not_mem_nil, or_false] at known
  rcases known with rfl | rfl | rfl | rfl | rfl <;> decide

/-- A value of one of the types of the protocol. -/
inductive IsValue : UInt8 → List UInt8 → Prop
  | integer {content : List UInt8} (minimal : Minimal content) : IsValue primvInt content
  | octets (content : List UInt8) : IsValue primvOctstr content
  | null : IsValue primvNull []
  | objectId {content : List UInt8} (oid : IsOid content) : IsValue primvObjid content
  | application {tag : UInt8} (known : tag ∈ applicationTags) (content : List UInt8) :
    IsValue tag content

/-- An INTEGER is in minimal form. -/
theorem IsValue.minimal {tag : UInt8} {content : List UInt8} (value : IsValue tag content)
    (integer : tag = primvInt) : Minimal content := by
  -- Only an INTEGER has its tag.
  cases value with
  | integer minimal => exact minimal
  | octets => exact absurd integer (by decide)
  | null => exact absurd integer (by decide)
  | objectId => exact absurd integer (by decide)
  | application known => exact absurd (integer ▸ known) (by decide)

/-- A NULL has no content. -/
theorem IsValue.null_content {tag : UInt8} {content : List UInt8} (value : IsValue tag content)
    (null : tag = primvNull) : content = [] := by
  -- Only a NULL has its tag.
  cases value with
  | null => rfl
  | integer => exact absurd null (by decide)
  | octets => exact absurd null (by decide)
  | objectId => exact absurd null (by decide)
  | application known => exact absurd (null ▸ known) (by decide)

/-- An OBJECT IDENTIFIER holds an OID. -/
theorem IsValue.isOid {tag : UInt8} {content : List UInt8} (value : IsValue tag content)
    (objectId : tag = primvObjid) : IsOid content := by
  -- Only an OBJECT IDENTIFIER has its tag.
  cases value with
  | objectId oid => exact oid
  | integer => exact absurd objectId (by decide)
  | octets => exact absurd objectId (by decide)
  | null => exact absurd objectId (by decide)
  | application known => exact absurd (objectId ▸ known) (by decide)

/-- A binding is well formed, and its lengths fit their forms. -/
structure CodedBinding.Legal (coded : CodedBinding) : Prop where
  fits : coded.content.length < coded.form.limit
  nameFits : coded.name.Fits
  valueFits : coded.value.Fits
  name : IsOid coded.name.content
  value : IsValue coded.valueTag coded.value.content

/-- A message of the first version with the forms of its lengths. -/
structure CodedMessage where
  /-- The form of its own length. -/
  form : LengthForm
  /-- The form of the length of the version. -/
  versionForm : LengthForm
  /-- The community. -/
  community : CodedField
  /-- The tag of the PDU. -/
  pduTag : UInt8
  /-- The form of the length of the PDU. -/
  pduForm : LengthForm
  /-- The request id. -/
  requestId : CodedField
  /-- The error status. -/
  errorStatus : CodedField
  /-- The error index. -/
  errorIndex : CodedField
  /-- The form of the length of the list. -/
  listForm : LengthForm
  /-- The bindings. -/
  bindings : List CodedBinding
  deriving DecidableEq, Repr

namespace CodedMessage

/-- The content of the list of bindings. -/
def list (coded : CodedMessage) : List UInt8 := coded.bindings.flatMap CodedBinding.bytes

/-- The three numbers of the PDU. -/
def numbers (coded : CodedMessage) : List CodedField :=
  [coded.requestId, coded.errorStatus, coded.errorIndex]

/-- The content of the PDU. -/
def pdu (coded : CodedMessage) : List UInt8 :=
  coded.requestId.bytes 0x02 ++ (coded.errorStatus.bytes 0x02 ++
    (coded.errorIndex.bytes 0x02 ++ coded.listForm.element 0x30 coded.list))

/-- The content of the message. -/
def content (coded : CodedMessage) : List UInt8 :=
  coded.versionForm.element 0x02 [0x00] ++ (coded.community.bytes 0x04 ++
    coded.pduForm.element coded.pduTag coded.pdu)

/-- The bytes of the message. -/
def bytes (coded : CodedMessage) : List UInt8 := coded.form.element 0x30 coded.content

/-- The message that is coded. -/
def message (coded : CodedMessage) : Message :=
  ⟨[0x00], coded.community.content, coded.pduTag, coded.requestId.content,
    coded.errorStatus.content, coded.errorIndex.content,
    coded.bindings.map CodedBinding.binding⟩

/-- A message is well formed, its lengths fit their forms, and it is not too long to be received. -/
structure Legal (coded : CodedMessage) : Prop where
  fits : coded.content.length < coded.form.limit
  communityFits : coded.community.Fits
  known : coded.pduTag ∈ pduTypes
  pduFits : coded.pdu.length < coded.pduForm.limit
  numbers : ∀ number ∈ coded.numbers, number.Fits ∧ Minimal number.content
  listFits : coded.list.length < coded.listForm.limit
  bindings : ∀ binding ∈ coded.bindings, binding.Legal
  size : coded.bytes.length ≤ 1024

end CodedMessage

/-- A coded message that is legal. -/
structure LegalMessage where
  /-- The message with the forms of its lengths. -/
  coded : CodedMessage
  legal : coded.Legal

/-- A binding is read back from its content. -/
theorem CodedBinding.readBinding {coded : CodedBinding} (legal : coded.Legal) :
    SnmpAgent.readBinding ⟨0x30, coded.content⟩ = some coded.binding := by
  -- The content is two elements, the name and the value.
  have parts : elements coded.content =
      some [⟨0x06, coded.name.content⟩, ⟨coded.valueTag, coded.value.content⟩] := by
    rw [CodedBinding.content, CodedField.bytes, CodedField.bytes,
      LengthForm.elements_element legal.nameFits, LengthForm.elements_single legal.valueFits]
    rfl
  simp only [SnmpAgent.readBinding, parts, CodedBinding.binding]

/-- The bindings of a list are read back one by one. -/
theorem readBindings_coded {bindings : List CodedBinding}
    (legal : ∀ binding ∈ bindings, binding.Legal) :
    elements (bindings.flatMap CodedBinding.bytes) =
        some (bindings.map fun binding => ⟨0x30, binding.content⟩) ∧
      (bindings.map fun binding => (⟨0x30, binding.content⟩ : Tlv)).mapM readBinding =
        some (bindings.map CodedBinding.binding) := by
  -- The elements are cut apart first, and each is read as a binding then.
  constructor
  · exact @LengthForm.elements_flatMap _ CodedBinding.form
      (fun binding => ⟨0x30, binding.content⟩) bindings fun binding member =>
        (legal binding member).fits
  · -- Each element of the list is a binding, and the first that were not would end the reading.
    induction bindings with
    | nil => rfl
    | cons binding rest ih =>
      rw [List.map_cons, List.mapM_cons,
        CodedBinding.readBinding (legal binding List.mem_cons_self),
        ih fun other later => legal other (List.mem_cons_of_mem _ later)]
      rfl

/-- A legal message is read as the message that is coded. -/
theorem LegalMessage.readMessage_bytes (sent : LegalMessage) :
    readMessage sent.coded.bytes = some sent.coded.message := by
  -- Legal elements are read back in any form of their lengths.
  obtain ⟨coded, legal⟩ := sent
  have fits := legal.numbers
  simp only [CodedMessage.numbers, List.mem_cons, List.not_mem_nil, or_false, forall_eq_or_imp,
    forall_eq] at fits
  have single : ([0x00] : List UInt8).length < coded.versionForm.limit := by
    cases coded.versionForm <;> decide
  -- Every element is read at its own level, from the outermost to the bindings.
  have whole : elements coded.bytes = some [⟨0x30, coded.content⟩] :=
    LengthForm.elements_single legal.fits
  have fields : elements coded.content = some [⟨0x02, [0x00]⟩, ⟨0x04, coded.community.content⟩,
      ⟨coded.pduTag, coded.pdu⟩] := by
    rw [CodedMessage.content, CodedField.bytes, LengthForm.elements_element single,
      LengthForm.elements_element legal.communityFits, LengthForm.elements_single legal.pduFits]
    rfl
  have numbers : elements coded.pdu = some [⟨0x02, coded.requestId.content⟩,
      ⟨0x02, coded.errorStatus.content⟩, ⟨0x02, coded.errorIndex.content⟩,
      ⟨0x30, coded.list⟩] := by
    rw [CodedMessage.pdu, CodedField.bytes, CodedField.bytes, CodedField.bytes,
      LengthForm.elements_element fits.1.1, LengthForm.elements_element fits.2.1.1,
      LengthForm.elements_element fits.2.2.1, LengthForm.elements_single legal.listFits]
    rfl
  obtain ⟨items, bindings⟩ := readBindings_coded legal.bindings
  change elements coded.list = _ at items
  simp only [readMessage, whole, fields, numbers, items, Option.bind_eq_bind, Option.bind_some,
    bindings, CodedMessage.message]

end OpenwrtMisc.SnmpAgent
