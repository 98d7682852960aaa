import OpenwrtMisc.SnmpAgent.Receive

/-! Building a reply: variable bindings, their list, the PDU and the message around them. -/

namespace OpenwrtMisc.SnmpAgent

/-- The word that a value pointer leads to. -/
def Value.readWord : Value → Except Fault (BitVec 32)
  | .word value => .ok value
  | .absent => .error .nullPointer
  | .string _ => .error .wrongKind
  | .dangling => .error .wrongKind

/-- The text that a value pointer leads to, up to its first zero. -/
def Value.readString : Value → Except Fault (List UInt8)
  | .string bytes => .ok (cString bytes)
  | .absent => .error .nullPointer
  | .word _ => .error .wrongKind
  | .dangling => .error .wrongKind

/-- The word that the first four bytes behind a value pointer make on a little-endian machine. -/
def Value.firstWord : Value → Except Fault (BitVec 32)
  | .string bytes => do
    let first ← copyBytes (bytes ++ [0]) 0 4
    return shiftedWord first.reverse
  | value => value.readWord

/-- A new binding with a copy of the OID and of the value. -/
def createVarbind (oid : List UInt8) (dataType : UInt8) (value : Value) :
    Except Fault Varbind := do
  if dataType = primvInt then return ⟨oid, dataType, .word (← value.readWord)⟩
  else if dataType = primvOctstr then return ⟨oid, dataType, .string (← value.readString)⟩
  else if dataType = primvNull then return ⟨oid, dataType, .word 0⟩
  else if dataType = primvObjid then
    -- The case falls through: the copy of the text is lost, and its bytes are read as a word.
    let _ ← value.readString
    return ⟨oid, dataType, .word (← value.firstWord)⟩
  else if dataType = primvTimtick then return ⟨oid, dataType, .word (← value.readWord)⟩
  else return ⟨oid, dataType, .absent⟩

/-- A binding with another type and a copy of another value. -/
def updateVarbind (varbind : Varbind) (dataType : UInt8) (value : Value) :
    Except Fault Varbind := do
  if dataType = primvInt then return ⟨varbind.oid, dataType, .word (← value.readWord)⟩
  else if dataType = primvOctstr then
    return ⟨varbind.oid, dataType, .string (← value.readString)⟩
  else if dataType = primvNull then return ⟨varbind.oid, dataType, .word 0⟩
  else if dataType = primvObjid then
    return ⟨varbind.oid, dataType, .string (← value.readString)⟩
  else if dataType = primvTimtick then return ⟨varbind.oid, dataType, .word (← value.readWord)⟩
  -- The old value was freed, and nothing takes its place.
  else return ⟨varbind.oid, dataType, .dangling⟩

/-- A zeroed buffer. -/
def zeroed : Nat → UInt8 := fun _ => 0

/-- The bytes of an encoded field that are copied: its length byte and two more say how many. -/
def fieldBytes (data : List UInt8) : Except Fault (List UInt8) := do
  let length ← readByte data 1
  copyBytes data 0 (length.toNat + 2)

/-- Copies an encoded field to the pointer of a buffer and moves the pointer behind it. -/
def putField (size : Nat) (buffer : Nat → UInt8) (pointer : Nat) (data : List UInt8) :
    Except Fault ((Nat → UInt8) × Nat) := do
  let field ← fieldBytes data
  let buffer ← store size pointer field buffer
  return (buffer, pointer + field.length)

/-- The size of the buffer for the list of bindings. -/
def listBufferSize : Nat := 200

/-- The size of the buffer for the PDU. -/
def pduBufferSize : Nat := 300

/-- The size of the buffer for the message. -/
def messageBufferSize : Nat := 500

/-- The buffer of the list with its two pointers. -/
structure ListBuffer where
  /-- The bytes that were written. -/
  buffer : Nat → UInt8
  /-- Where the next OID goes. -/
  pointer : Nat
  /-- Where the tag and the length of the next binding go. -/
  lenPointer : Nat

/-- The types that a binding is written for. -/
def writtenTypes : List UInt8 := [primvInt, primvOctstr, primvNull, primvObjid, primvTimtick]

/-- The encoded value of a binding, as its type asks. -/
def encodeValue (varbind : Varbind) : Except Fault (List UInt8) := do
  if varbind.dataType = primvInt then return encodeInteger (← varbind.value.readWord)
  else if varbind.dataType = primvOctstr then return encodeString (← varbind.value.readString)
  else if varbind.dataType = primvNull then return [0x05, 0x00]
  else if varbind.dataType = primvObjid then encodeOid (← varbind.value.readString)
  else return encodeIntegerByLength (← varbind.value.readWord) 4 0x43

/-- One turn of the loop: the OID, the value, and then the tag and the length before them. -/
def putVarbind (state : ListBuffer) (varbind : Varbind) : Except Fault ListBuffer := do
  if varbind.dataType ∈ writtenTypes then
    let oid ← encodeOid varbind.oid
    let (buffer, pointer) ← putField listBufferSize state.buffer state.pointer oid
    let value ← encodeValue varbind
    let (buffer, pointer) ← putField listBufferSize buffer pointer value
    -- The next OID leaves room for the tag and the length of its binding.
    let pointer := pointer + 2
    let header := [0x30, UInt8.ofNat (pointer - state.lenPointer - 4)]
    let buffer ← store listBufferSize state.lenPointer header buffer
    return ⟨buffer, pointer, pointer - 2⟩
  else return state

/-- The loop over the bindings. -/
def putVarbinds : ListBuffer → List Varbind → Except Fault ListBuffer
  | state, [] => .ok state
  | state, varbind :: varbinds => do
    let next ← putVarbind state varbind
    putVarbinds next varbinds

/-- The encoded list of bindings. -/
def createVarbindListTx (varbindsToSend : List Varbind) : Except Fault (List UInt8) := do
  let final ← putVarbinds ⟨zeroed, 4, 2⟩ varbindsToSend
  let header := [0x30, UInt8.ofNat (final.pointer - 4)]
  let buffer ← store listBufferSize 0 header final.buffer
  load listBufferSize 0 (final.pointer - 2) buffer

/-- The encoded PDU around a list. -/
def createSnmpPduTx (pduType : UInt8) (requestId : BitVec 32) (error errorIndex : UInt8)
    (varbindList : List UInt8) : Except Fault (List UInt8) := do
  let (buffer, pointer) ←
    putField pduBufferSize zeroed 2 (encodeIntegerByLength requestId 4 0x02)
  let (buffer, pointer) ←
    putField pduBufferSize buffer pointer (encodeInteger (BitVec.ofNat 32 error.toNat))
  let (buffer, pointer) ←
    putField pduBufferSize buffer pointer (encodeInteger (BitVec.ofNat 32 errorIndex.toNat))
  let buffer ← store pduBufferSize pointer varbindList buffer
  let pointer := pointer + varbindList.length
  let buffer ← store pduBufferSize 0 [pduType, UInt8.ofNat (pointer - 2)] buffer
  load pduBufferSize 0 pointer buffer

/-- The encoded message around a PDU. -/
def createSnmpMessageTx (community : Option (List UInt8)) (snmpPdu : List UInt8) :
    Except Fault (List UInt8) := do
  let (buffer, pointer) ← putField messageBufferSize zeroed 2 (encodeInteger 0)
  let community ← follow community
  let (buffer, pointer) ← putField messageBufferSize buffer pointer (encodeString community)
  let buffer ← store messageBufferSize pointer snmpPdu buffer
  let pointer := pointer + snmpPdu.length
  let buffer ← store messageBufferSize 0 [0x30, UInt8.ofNat (pointer - 2)] buffer
  load messageBufferSize 0 pointer buffer

end OpenwrtMisc.SnmpAgent
