import OpenwrtMisc.SnmpAgent.Codec

/-! Taking a received datagram apart into message, PDU and variable bindings. -/

namespace OpenwrtMisc.SnmpAgent

/-- The type tag of an INTEGER. -/
abbrev primvInt : UInt8 := 0x02

/-- The type tag of an OCTET STRING. -/
abbrev primvOctstr : UInt8 := 0x04

/-- The type tag of a NULL. -/
abbrev primvNull : UInt8 := 0x05

/-- The type tag of an OBJECT IDENTIFIER. -/
abbrev primvObjid : UInt8 := 0x06

/-- The type tag of TimeTicks. -/
abbrev primvTimtick : UInt8 := 0x43

/-- The PDU types that are taken apart: the three requests and the response. -/
def pduTypes : List UInt8 := [0xa0, 0xa1, 0xa2, 0xa3]

/-- A received message. -/
structure SnmpMessageRx where
  /-- The length that the message declares. -/
  snmpMessageLength : BitVec 32
  /-- One for version 1, zero when the field is missing, 255 for any other version. -/
  version : UInt8
  /-- The block of the community, null when the field is missing. -/
  community : Option (List UInt8)
  /-- The copy of the PDU with its tag and length, null when the field is missing. -/
  snmpPdu : Option (List UInt8)
  /-- The length that the PDU declares. -/
  snmpPduLength : Nat
  deriving DecidableEq, Repr

/-- A received PDU. -/
structure SnmpPduRx where
  /-- The tag of the PDU. -/
  snmpPduType : UInt8
  /-- The length that the PDU declares. -/
  snmpPduLength : Nat
  /-- The request that a response answers. -/
  requestId : BitVec 32
  /-- The error status. -/
  error : UInt8
  /-- The binding that an error is about. -/
  errorIndex : UInt8
  /-- The copy of the list with its tag and length, null when the field is missing. -/
  varbindings : Option (List UInt8)
  /-- The length that the list declares. -/
  varbindingsLength : Nat
  deriving DecidableEq, Repr

/-- What the untyped value pointer of a binding points to. -/
inductive Value
  /-- Nothing: the pointer is null. -/
  | absent
  /-- A 32-bit word. -/
  | word (value : BitVec 32)
  /-- A block that ends with a zero. -/
  | string (bytes : List UInt8)
  /-- A block that was freed. -/
  | dangling
  deriving DecidableEq, Repr

/-- A variable binding. -/
structure Varbind where
  /-- The dotted text of the OID. -/
  oid : List UInt8
  /-- The type tag of the value, zero when there is none. -/
  dataType : UInt8
  /-- The value, stored as its type asks. -/
  value : Value
  deriving DecidableEq, Repr

/-- A received list of variable bindings. -/
structure VarbindListRx where
  /-- The length that the list declares. -/
  varbindListLength : Nat
  /-- The bindings in the order of the list. -/
  varbindList : List Varbind
  deriving DecidableEq, Repr

/-- A field that is decoded when its tag is at the pointer and otherwise keeps its zero. -/
def decodeIf {α : Type} (array : List UInt8) (pointer : Nat) (tag : UInt8)
    (decode : List UInt8 → Nat → Except Fault (α × Nat)) (absent : α) :
    Except Fault (α × Nat) := do
  let byte ← readByte array pointer
  if byte = tag then decode array pointer else return (absent, pointer)

/-- The bytes of a multi-byte length; the pointer is at the byte before the next one. -/
def lengthLoop (array : List UInt8) : Nat → Nat → BitVec 32 → Except Fault (BitVec 32 × Nat)
  | 0, pointer, length => .ok (length, pointer)
  | lenBytes + 1, pointer, length => do
    let byte ← readByte array (pointer + 1)
    -- A shift by 32 or more is undefined in C and drops the byte here; only a print reads it.
    let shifted := BitVec.ofNat 32 byte.toNat <<< (lenBytes * 8)
    lengthLoop array lenBytes (pointer + 1) (length ||| shifted)

/-- The length of the message, and the pointer behind it. -/
def messageLength (udpReceived : List UInt8) : Except Fault (BitVec 32 × Nat) := do
  let first ← readByte udpReceived 1
  if 0x80 ≤ first then
    let (length, pointer) ← lengthLoop udpReceived (first &&& 0x7f).toNat 1 0
    return (length, pointer + 1)
  else return (BitVec.ofNat 32 first.toNat, 2)

/-- The version: one for an INTEGER of zero and 255 for any other. -/
def decodeVersion (array : List UInt8) (pointer : Nat) : Except Fault (UInt8 × Nat) := do
  let (buffer, pointer) ← decodeInteger array pointer
  return (if buffer = 0 then 1 else 0xff, pointer)

/-- The community as a pointer to its block. -/
def decodeCommunity (array : List UInt8) (pointer : Nat) :
    Except Fault (Option (List UInt8) × Nat) := do
  let (string, pointer) ← decodeString array pointer
  return (some string, pointer)

/-- The copy of the element at the pointer when its tag is expected, and its declared length. -/
def copyIf (array : List UInt8) (pointer : Nat) (tags : List UInt8) :
    Except Fault (Option (List UInt8) × Nat) := do
  let tag ← readByte array pointer
  if tag ∈ tags then
    let length ← readByte array (pointer + 1)
    let copied ← copyBytes array pointer (length.toNat + 2)
    -- The block is one byte longer than the copy, and that byte stays zero.
    return (some (copied ++ [0]), length.toNat)
  else return (none, 0)

/-- The message of a datagram, null for another protocol version. -/
def createSnmpMessageRx (udpReceived : List UInt8) : Except Fault (Option SnmpMessageRx) := do
  let tag ← readByte udpReceived 0
  if tag = 0x30 then
    let (length, pointer) ← messageLength udpReceived
    let (version, pointer) ← decodeIf udpReceived pointer 0x02 decodeVersion 0
    let (community, pointer) ← decodeIf udpReceived pointer 0x04 decodeCommunity none
    let (snmpPdu, snmpPduLength) ← copyIf udpReceived pointer (0xa5 :: pduTypes)
    if version ≠ 1 then return none
    else return some ⟨length, version, community, snmpPdu, snmpPduLength⟩
  -- The version is read through the pointer that is still null.
  else .error .nullPointer

/-- The PDU of a block, null for another type. -/
def createSnmpPduRx (pdu : List UInt8) : Except Fault (Option SnmpPduRx) := do
  let type ← readByte pdu 0
  if type ∈ pduTypes then
    let length ← readByte pdu 1
    let (requestId, pointer) ← decodeIf pdu 2 0x02 decodeInteger 0
    let (error, pointer) ← decodeIf pdu pointer 0x02 decodeInteger 0
    let (errorIndex, pointer) ← decodeIf pdu pointer 0x02 decodeInteger 0
    let (varbindings, varbindingsLength) ← copyIf pdu pointer [0x30]
    return some ⟨type, length.toNat, requestId, lowByte error, lowByte errorIndex, varbindings,
      varbindingsLength⟩
  else return none

/-- The position in the list, the length that was counted, and the bindings with the last first. -/
structure ListState where
  /-- The index of the next byte. -/
  pointer : Nat
  /-- The declared lengths of the elements so far, with their tags and lengths. -/
  length : Nat
  /-- The bindings so far, the last one first. -/
  varbinds : List Varbind
  deriving DecidableEq, Repr

/-- The OID of an element makes a new entry when it is there. -/
def decodeName (varbindings : List UInt8) (pointer : Nat) (varbinds : List Varbind) :
    Except Fault (List Varbind × Nat) := do
  let tag ← readByte varbindings pointer
  if tag = 0x06 then
    let (oid, pointer) ← decodeOid varbindings pointer
    return (⟨oid, 0, .absent⟩ :: varbinds, pointer)
  else return (varbinds, pointer)

/-- A value of one of the four types that are understood, and the pointer behind it. -/
def decodePrimitive (varbindings : List UInt8) (pointer : Nat) (tag : UInt8) :
    Except Fault (Value × Nat) := do
  if tag = primvInt then
    let (value, pointer) ← decodeInteger varbindings pointer
    return (.word value, pointer)
  else if tag = primvOctstr then
    let (value, pointer) ← decodeString varbindings pointer
    return (.string value, pointer)
  else if tag = primvNull then
    -- The length byte is skipped without a look at it.
    return (.word 0, pointer + 2)
  else
    let (value, pointer) ← decodeOid varbindings pointer
    return (.string value, pointer)

/-- The types whose values are understood. -/
def primitiveTypes : List UInt8 := [primvInt, primvOctstr, primvNull, primvObjid]

/-- The value of an element goes to the last entry; other types are left where they are. -/
def decodeValue (varbindings : List UInt8) (pointer : Nat) (varbinds : List Varbind) :
    Except Fault (List Varbind × Nat) := do
  let tag ← readByte varbindings pointer
  if tag ∈ primitiveTypes then
    match varbinds with
    | [] => .error .absentEntry
    | last :: before =>
      let (value, pointer) ← decodePrimitive varbindings pointer tag
      return ({ last with dataType := tag, value := value } :: before, pointer)
  else return (varbinds, pointer)

/-- One turn of the loop over the list; only a SEQUENCE moves it on. -/
def varbindStep (varbindings : List UInt8) (state : ListState) : Except Fault ListState := do
  let tag ← readByte varbindings state.pointer
  if tag = 0x30 then
    let length ← readByte varbindings (state.pointer + 1)
    let (varbinds, pointer) ← decodeName varbindings (state.pointer + 2) state.varbinds
    let (varbinds, pointer) ← decodeValue varbindings pointer varbinds
    return ⟨pointer, state.length + (length.toNat + 2), varbinds⟩
  else return state

/-- The loop over the list, for as many turns as there is fuel. -/
def varbindLoop (varbindings : List UInt8) (limit : Nat) :
    Nat → ListState → Except Fault ListState
  | 0, state => if state.length < limit then .error .endless else .ok state
  | fuel + 1, state =>
    if state.length < limit then do
      let next ← varbindStep varbindings state
      varbindLoop varbindings limit fuel next
    else .ok state

/-- The bindings of a block, null for another tag; a turn that counts counts at least two bytes. -/
def createVarbindListRx (varbindings : List UInt8) : Except Fault (Option VarbindListRx) := do
  let tag ← readByte varbindings 0
  if tag = 0x30 then
    let length ← readByte varbindings 1
    let final ← varbindLoop varbindings length.toNat length.toNat ⟨2, 0, []⟩
    return some ⟨length.toNat, final.varbinds.reverse⟩
  else return none

/-- A request that was taken apart. -/
structure RequestRx where
  /-- The message. -/
  message : SnmpMessageRx
  /-- The PDU of the message. -/
  pdu : SnmpPduRx
  /-- The bindings of the PDU. -/
  varbindList : VarbindListRx
  deriving DecidableEq, Repr

/-- The three parts of a datagram, each found in the one before; null when one is rejected. -/
def receiveRequest (received : List UInt8) : Except Fault (Option RequestRx) := do
  match ← createSnmpMessageRx received with
  | none => return none
  | some message =>
    match ← createSnmpPduRx (← follow message.snmpPdu) with
    | none => return none
    | some pdu =>
      -- A list that is null is not asked for, but used by what comes next.
      let varbindList ← follow (← createVarbindListRx (← follow pdu.varbindings))
      return some ⟨message, pdu, varbindList⟩

end OpenwrtMisc.SnmpAgent
