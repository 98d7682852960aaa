import OpenwrtMisc.SnmpAgent.Agent
import OpenwrtMisc.SnmpAgent.Fields
import OpenwrtMisc.SnmpAgent.ObjectId

/-! A request that asks for the values of objects is received as what it says. -/

namespace OpenwrtMisc.SnmpAgent

open Ber

/-- A request for the values of objects below 1.3, with every length in short form. -/
structure GetRequest where
  /-- The community. -/
  community : List UInt8
  /-- The content octets of the request id. -/
  requestId : List UInt8
  /-- The content octets of the error status. -/
  errorStatus : List UInt8
  /-- The content octets of the error index. -/
  errorIndex : List UInt8
  /-- The subidentifiers of the objects behind 1.3. -/
  oids : List (List Nat)
  /-- The numbers have one to four bytes. -/
  numbers : ∀ content ∈ [requestId, errorStatus, errorIndex],
    1 ≤ content.length ∧ content.length ≤ 4
  /-- The subidentifiers are below a million. -/
  arcs : ∀ oid ∈ oids, ∀ arc ∈ oid, arc < 1000000
  /-- The texts of the OIDs are shorter than 100 characters. -/
  texts : ∀ oid ∈ oids, (oidText oid).length < 100
  /-- The content of the message has a length in short form, and so have all parts of it. -/
  short : (Message.content ⟨[0x00], community, 0xa0, requestId, errorStatus, errorIndex,
    oids.map fun oid => ⟨oidOctets oid, ⟨0x05, []⟩⟩⟩).length < 128

/-- The binding that asks for an object. -/
def nullBinding (oid : List Nat) : Binding := ⟨oidOctets oid, ⟨0x05, []⟩⟩

/-- The message that a request is sent as. -/
def GetRequest.message (request : GetRequest) : Message :=
  ⟨[0x00], request.community, 0xa0, request.requestId, request.errorStatus, request.errorIndex,
    request.oids.map nullBinding⟩

/-- The entry that a binding without a value is received as. -/
def nullVarbind (oid : List Nat) : Varbind := ⟨oidText oid, primvNull, .word 0⟩

/-- A name and a NULL are the fields of one element, and make one entry. -/
theorem elements_nullBinding {limit counted : Nat} {varbinds final : List Varbind}
    {oid : List Nat} {rest : List UInt8} (small : ∀ arc ∈ oid, arc < 1000000)
    (text : (oidText oid).length < 100) (short : (nullBinding oid).content.length < 128)
    (within : counted < limit)
    (tail : Elements limit (counted + ((nullBinding oid).content.length + 2))
      (nullVarbind oid :: varbinds) rest final) :
    Elements limit counted varbinds (element 0x30 (nullBinding oid).content ++ rest) final := by
  -- The name is a part of an element whose length is in short form.
  have octets : (oidOctets oid).length < 256 := by
    simp only [nullBinding, Binding.content, List.length_append, length_element] at short
    omega
  have name : NameField varbinds ((nullBinding oid).content ++ rest)
      (⟨oidText oid, 0, .absent⟩ :: varbinds) (0x05 :: 0x00 :: rest) := by
    rw [nullBinding, Binding.content, List.append_assoc]
    exact .present (oidField_octets small text octets (0x05 :: 0x00 :: rest))
  have value : ValueField (⟨oidText oid, 0, .absent⟩ :: varbinds) (0x05 :: 0x00 :: rest)
      (nullVarbind oid :: varbinds) rest :=
    .stored _ _ (.null (0x00 :: rest))
  rw [← toNat_length short] at tail
  exact .element within name value tail

/-- The elements of a list of such bindings make one entry each, in their order. -/
theorem elements_nullBindings {limit : Nat} (rest : List UInt8) :
    ∀ (oids : List (List Nat)) (counted : Nat) (varbinds : List Varbind),
      (∀ oid ∈ oids, (∀ arc ∈ oid, arc < 1000000) ∧ (oidText oid).length < 100 ∧
        (nullBinding oid).content.length < 128) →
      limit = counted + (oids.flatMap fun oid => element 0x30 (nullBinding oid).content).length →
      Elements limit counted varbinds
        ((oids.flatMap fun oid => element 0x30 (nullBinding oid).content) ++ rest)
        ((oids.map nullVarbind).reverse ++ varbinds) := by
  -- Induction on the objects that are asked for.
  intro oids
  induction oids with
  | nil =>
    intro counted varbinds _ sum
    simp only [List.flatMap_nil, List.length_nil, Nat.add_zero] at sum
    exact .done _ (by omega)
  | cons oid others ih =>
    intro counted varbinds fits sum
    obtain ⟨small, text, short⟩ := fits oid List.mem_cons_self
    -- The first element counts for what its length byte says, and so for all of its bytes.
    rw [List.flatMap_cons, List.length_append, length_element] at sum
    rw [List.flatMap_cons, List.append_assoc, List.map_cons, List.reverse_cons, List.append_assoc]
    refine elements_nullBinding small text short (by omega) ?_
    exact ih _ _ (fun other later => fits other (List.mem_cons_of_mem _ later)) (by omega)

/-- The parts of a request are short, as the whole of it is. -/
theorem GetRequest.parts_short (request : GetRequest) :
    request.message.content.length < 128 ∧ request.message.list.length < 128 ∧
      request.message.pdu.length < 128 ∧ request.community.length < 128 := by
  -- Each part is counted in the length of the whole.
  have short : request.message.content.length < 128 := request.short
  have sum := request.message.length_content
  have field : request.message.community.length = request.community.length := rfl
  have pdu : request.message.pdu.length < 128 := by
    simp only [Message.content, List.length_append, length_element] at short
    omega
  exact ⟨short, by omega, pdu, by omega⟩

/-- The message of a request is complete, whatever the buffer holds behind it. -/
theorem GetRequest.messageLayout (request : GetRequest) (stale : List UInt8) :
    MessageLayout (recvData request.message.bytes stale) (some
      ⟨BitVec.ofNat 32 (UInt8.ofNat request.message.content.length).toNat, 1,
        some request.community, some (element 0xa0 request.message.pdu ++ [0]),
        (UInt8.ofNat request.message.pdu.length).toNat⟩) := by
  -- The message has all lengths in short form, and each field follows from its own.
  obtain ⟨short, _, pduSize, communitySize⟩ := request.parts_short
  have low : ¬ (0x80 : UInt8) ≤ UInt8.ofNat request.message.content.length := by
    rw [UInt8.le_iff_toNat_le, toNat_length short]
    exact Nat.not_le.mpr short
  -- What is received is the tag and the length, and then the fields in the order of the layout.
  have shape : recvData request.message.bytes stale =
      0x30 :: UInt8.ofNat request.message.content.length :: 0x02 :: 0x01 :: ([0x00] ++ 0x04 ::
        UInt8.ofNat request.community.length :: (request.community ++ 0xa0 ::
          UInt8.ofNat request.message.pdu.length :: (request.message.pdu ++ 0 :: stale))) := by
    simp [recvData, Message.bytes, Message.content, element, GetRequest.message]
  rw [shape]
  exact MessageLayout.fields (.short _ low)
    (.present (.integer (@integerField_content [0x00] (by decide) _)))
    (.present (.string (stringField_content communitySize _)))
    (.present (0 :: stale) (by decide) (toNat_length pduSize).symm)

/-- The copy of the PDU of a request is complete, with the zero behind it. -/
theorem GetRequest.pduLayout (request : GetRequest) :
    PduLayout (element 0xa0 request.message.pdu ++ [0]) (some
      ⟨0xa0, (UInt8.ofNat request.message.pdu.length).toNat, shiftedWord request.requestId,
        lowByte (shiftedWord request.errorStatus), lowByte (shiftedWord request.errorIndex),
        some (element 0x30 request.message.list ++ [0]),
        (UInt8.ofNat request.message.list.length).toNat⟩) := by
  -- The numbers of the request have one to four bytes.
  obtain ⟨_, _, pduSize, _⟩ := request.parts_short
  exact request.message.pduLayout [0] (by decide : (0xa0 : UInt8) ∈ pduTypes) request.numbers
    pduSize

/-- The copy of the list of a request is complete, with an entry for each object. -/
theorem GetRequest.listLayout (request : GetRequest) :
    ListLayout (element 0x30 request.message.list ++ [0])
      ⟨(UInt8.ofNat request.message.list.length).toNat, request.oids.map nullVarbind⟩ := by
  -- The list is copied as it was sent, and its elements are the bindings.
  obtain ⟨short, listSize, _, _⟩ := request.parts_short
  have list : request.message.list =
      request.oids.flatMap fun oid => element 0x30 (nullBinding oid).content := by
    simp only [Message.list, GetRequest.message, List.flatMap_map]
  have fits : ∀ oid ∈ request.oids, (∀ arc ∈ oid, arc < 1000000) ∧
      (oidText oid).length < 100 ∧ (nullBinding oid).content.length < 128 := by
    intro oid member
    have inside := request.message.length_binding (List.mem_map.mpr ⟨oid, member, rfl⟩)
    exact ⟨request.arcs oid member, request.texts oid member, by omega⟩
  have limit : (UInt8.ofNat request.message.list.length).toNat =
      0 + (request.oids.flatMap fun oid => element 0x30 (nullBinding oid).content).length := by
    rw [toNat_length listSize, list, Nat.zero_add]
  have inside := elements_nullBindings [0] request.oids 0 [] fits limit
  rw [← list, List.append_nil] at inside
  -- The entries are prepended one by one, and the list is given in the order of the request.
  have layout := ListLayout.elements inside
  rwa [List.reverse_reverse] at layout

/-- A request is received with its community, its request id and an entry for each object. -/
theorem GetRequest.received (request : GetRequest) (stale : List UInt8) :
    ∃ rx, receiveRequest (recvData request.message.bytes stale) = .ok (some rx) ∧
      rx.message.community = some request.community ∧
      rx.pdu.requestId = shiftedWord request.requestId ∧
      rx.varbindList.varbindList = request.oids.map nullVarbind := by
  -- The three copies are read one after the other, each up to the zero behind it.
  have layout := RequestLayout.complete (request.messageLayout stale) rfl request.pduLayout rfl
    request.listLayout
  exact ⟨_, receiveRequest_eq_ok.mpr layout, rfl, rfl, rfl⟩

end OpenwrtMisc.SnmpAgent
