import OpenwrtMisc.Lib.Ber

/-! Messages as the protocol means them, how they are written, and how a manager reads them. -/

namespace OpenwrtMisc.SnmpAgent

open Ber

/-- A variable binding on the wire: the content of its OID and the element of its value. -/
structure Binding where
  /-- The content octets of the OID. -/
  oid : List UInt8
  /-- The value. -/
  value : Tlv
  deriving DecidableEq, Repr

/-- The content of a binding. -/
def Binding.content (binding : Binding) : List UInt8 :=
  element 0x06 binding.oid ++ element binding.value.tag binding.value.content

/-- A message on the wire, with the content octets of each of its fields. -/
structure Message where
  /-- The version number. -/
  version : List UInt8
  /-- The community. -/
  community : List UInt8
  /-- The tag of the PDU. -/
  pduTag : UInt8
  /-- The request id. -/
  requestId : List UInt8
  /-- The error status. -/
  errorStatus : List UInt8
  /-- The error index. -/
  errorIndex : List UInt8
  /-- The bindings. -/
  bindings : List Binding
  deriving DecidableEq, Repr

/-- The content of the list of bindings. -/
def Message.list (message : Message) : List UInt8 :=
  message.bindings.flatMap fun binding => element 0x30 binding.content

/-- The content of the PDU. -/
def Message.pdu (message : Message) : List UInt8 :=
  element 0x02 message.requestId ++ (element 0x02 message.errorStatus ++
    (element 0x02 message.errorIndex ++ element 0x30 message.list))

/-- The content of the message. -/
def Message.content (message : Message) : List UInt8 :=
  element 0x02 message.version ++ (element 0x04 message.community ++
    element message.pduTag message.pdu)

/-- The message with a one-byte length in every element. -/
def Message.bytes (message : Message) : List UInt8 := element 0x30 message.content

/-- The binding that an element holds. -/
def readBinding (item : Tlv) : Option Binding :=
  match item.tag, elements item.content with
  | 0x30, some [⟨0x06, oid⟩, value] => some ⟨oid, value⟩
  | _, _ => none

/-- The message that bytes hold when every length field is read by the encoding rules. -/
def readMessage (bytes : List UInt8) : Option Message :=
  match elements bytes with
  | some [⟨0x30, content⟩] =>
    match elements content with
    | some [⟨0x02, version⟩, ⟨0x04, community⟩, ⟨pduTag, pdu⟩] =>
      match elements pdu with
      | some [⟨0x02, requestId⟩, ⟨0x02, errorStatus⟩, ⟨0x02, errorIndex⟩, ⟨0x30, list⟩] => do
        let items ← elements list
        let bindings ← items.mapM readBinding
        some ⟨version, community, pduTag, requestId, errorStatus, errorIndex, bindings⟩
      | _ => none
    | _ => none
  | _ => none

/-- A binding is not longer than a list that it is in. -/
theorem length_binding_le {bindings : List Binding} {binding : Binding}
    (member : binding ∈ bindings) :
    binding.content.length + 2 ≤
      (bindings.flatMap fun binding => element 0x30 binding.content).length := by
  -- The list is the bindings one after the other, so each of them is a part of it.
  induction bindings with
  | nil => cases member
  | cons first rest ih =>
    rw [List.flatMap_cons, List.length_append, length_element]
    rcases List.mem_cons.mp member with rfl | later
    · omega
    · have inside := ih later
      omega

/-- A binding of a message is not longer than the list of that message. -/
theorem Message.length_binding {message : Message} {binding : Binding}
    (member : binding ∈ message.bindings) : binding.content.length + 2 ≤ message.list.length :=
  length_binding_le member

/-- The length of a message is the sum of its fields. -/
theorem Message.length_content (message : Message) :
    message.content.length = message.version.length + message.community.length +
      message.requestId.length + message.errorStatus.length + message.errorIndex.length +
        message.list.length + 14 := by
  -- Seven headers of two bytes each.
  simp only [Message.content, Message.pdu, List.length_append, length_element]
  omega

/-- A binding with short content is read back. -/
theorem readBinding_content {binding : Binding} (short : binding.content.length < 128) :
    readBinding ⟨0x30, binding.content⟩ = some binding := by
  -- The content is two short elements.
  have sizes : binding.oid.length < 128 ∧ binding.value.content.length < 128 := by
    simp only [Binding.content, List.length_append, length_element] at short
    omega
  have parts : elements binding.content = some [⟨0x06, binding.oid⟩, binding.value] := by
    rw [Binding.content, elements_element sizes.1, elements_single sizes.2]
    rfl
  simp only [readBinding, parts]

/-- Short bindings that are written one behind the other are read back one by one. -/
theorem readBindings_list {bindings : List Binding}
    (small : ∀ binding ∈ bindings, binding.content.length < 128) :
    elements (bindings.flatMap fun binding => element 0x30 binding.content) =
        some (bindings.map fun binding => ⟨0x30, binding.content⟩) ∧
      (bindings.map fun binding => (⟨0x30, binding.content⟩ : Tlv)).mapM readBinding =
        some bindings := by
  -- The elements are cut apart first, and each is read as a binding then.
  constructor
  · have read := @elements_flatMap (bindings.map fun binding => ⟨0x30, binding.content⟩) (by
      intro item member
      obtain ⟨binding, found, rfl⟩ := List.mem_map.mp member
      exact small binding found)
    rwa [List.flatMap_map] at read
  · -- The bindings are read one by one, and the first that could not be read would end it.
    induction bindings with
    | nil => rfl
    | cons binding rest ih =>
      rw [List.map_cons, List.mapM_cons, readBinding_content (small binding List.mem_cons_self),
        ih fun other later => small other (List.mem_cons_of_mem _ later)]
      rfl

/-- A message with short content is read back as it was written. -/
theorem readMessage_bytes {message : Message} (short : message.content.length < 128) :
    readMessage message.bytes = some message := by
  have sum := message.length_content
  -- Every element is read at its own level, from the outermost to the bindings.
  have whole : elements message.bytes = some [⟨0x30, message.content⟩] := elements_single short
  have pduShort : message.pdu.length < 128 := by
    simp only [Message.content, List.length_append, length_element] at short
    omega
  have fields : elements message.content =
      some [⟨0x02, message.version⟩, ⟨0x04, message.community⟩, ⟨message.pduTag, message.pdu⟩] := by
    rw [Message.content, elements_element (by omega), elements_element (by omega),
      elements_single pduShort]
    rfl
  have numbers : elements message.pdu = some [⟨0x02, message.requestId⟩,
      ⟨0x02, message.errorStatus⟩, ⟨0x02, message.errorIndex⟩, ⟨0x30, message.list⟩] := by
    rw [Message.pdu, elements_element (by omega), elements_element (by omega),
      elements_element (by omega), elements_single (by omega)]
    rfl
  -- The bindings are short as well, since the list that they are in is.
  have inside : ∀ binding ∈ message.bindings, binding.content.length < 128 := by
    intro binding member
    have shorter := message.length_binding member
    omega
  obtain ⟨items, bindings⟩ := readBindings_list inside
  change elements message.list = _ at items
  simp only [readMessage, whole, fields, numbers, items, Option.bind_eq_bind, Option.bind_some,
    bindings]

/-- A message that is read at all consists of one element. -/
theorem readMessage_element {bytes : List UInt8} {message : Message}
    (read : readMessage bytes = some message) :
    ∃ content, readTlv bytes = some (⟨0x30, content⟩, []) := by
  -- Without an element the reader gives up at once.
  unfold readMessage at read
  split at read
  · rename_i content whole
    exact ⟨content, readTlv_of_elements whole⟩
  · cases read

end OpenwrtMisc.SnmpAgent
