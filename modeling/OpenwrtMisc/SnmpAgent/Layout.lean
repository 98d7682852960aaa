import OpenwrtMisc.SnmpAgent.Receive

/-! The layouts of fields, elements and messages that the receiving functions read to their end. -/

namespace OpenwrtMisc.SnmpAgent

/-- An INTEGER behind its tag: a width of one to four bytes with content, or any other width. -/
inductive IntegerField : List UInt8 → BitVec 32 → List UInt8 → Prop
  | sized {width : UInt8} {content : List UInt8} (rest : List UInt8)
    (known : 1 ≤ width ∧ width ≤ 4) (size : content.length = width.toNat) :
    IntegerField (width :: (content ++ rest)) (shiftedWord content) rest
  | other {width : UInt8} (rest : List UInt8) (unknown : ¬ (1 ≤ width ∧ width ≤ 4)) :
    IntegerField (width :: rest) 4 rest

/-- An OCTET STRING behind its tag: a length and as many bytes. -/
inductive StringField : List UInt8 → List UInt8 → List UInt8 → Prop
  | sized {length : UInt8} {content : List UInt8} (rest : List UInt8)
    (size : content.length = length.toNat) :
    StringField (length :: (content ++ rest)) content rest

/-- The words that the bytes of an OID stand for, given the groups that are pending. -/
def oidArcs : BitVec 32 → List UInt8 → List (BitVec 32)
  | _, [] => []
  | pending, node :: nodes =>
    if 0x80 ≤ node then
      oidArcs ((pending ||| BitVec.ofNat 32 (node &&& 0x7f).toNat) <<< 7) nodes
    else (pending ||| BitVec.ofNat 32 node.toNat) :: oidArcs 0 nodes

/-- The texts fit: each number its buffer, and all of them the buffer of the text. -/
structure TextFits (text : List UInt8) (arcs : List (BitVec 32)) : Prop where
  /-- Every number fits the buffer for one number. -/
  number : ∀ arc ∈ arcs, (dotted arc).length < numberSize
  /-- The whole text fits the buffer for the text. -/
  whole : (text ++ arcs.flatMap dotted).length < oidTextSize

/-- An OBJECT IDENTIFIER behind its tag, with as many bytes as the length byte less one says. -/
inductive OidField : List UInt8 → List UInt8 → List UInt8 → Prop
  | sized {length first : UInt8} {nodes : List UInt8} (rest : List UInt8)
    (size : nodes.length = (length - 1).toNat)
    (fits : TextFits (oidPrefix first) (oidArcs 0 nodes)) :
    OidField (length :: first :: (nodes ++ rest))
      (oidPrefix first ++ (oidArcs 0 nodes).flatMap dotted) rest

/-- A length byte that is not zero does not wrap when the first byte is taken off. -/
theorem toNat_length_sub_one {length : UInt8} (positive : 1 ≤ length.toNat) :
    (length - 1).toNat = length.toNat - 1 :=
  UInt8.toNat_sub_of_le _ _ (UInt8.le_iff_toNat_le.mpr positive)

/-- A field that is there when its tag comes next. -/
inductive OptionalField {α : Type} (tag : UInt8) (field : List UInt8 → α → List UInt8 → Prop)
    (absent : α) : List UInt8 → α → List UInt8 → Prop
  | present {bytes : List UInt8} {value : α} {rest : List UInt8} (here : field bytes value rest) :
    OptionalField tag field absent (tag :: bytes) value rest
  | missing {other : UInt8} (bytes : List UInt8) (differs : other ≠ tag) :
    OptionalField tag field absent (other :: bytes) absent (other :: bytes)

/-- The version behind its tag. -/
inductive VersionField : List UInt8 → UInt8 → List UInt8 → Prop
  | integer {bytes : List UInt8} {buffer : BitVec 32} {rest : List UInt8}
    (field : IntegerField bytes buffer rest) :
    VersionField bytes (if buffer = 0 then 1 else 0xff) rest

/-- The community behind its tag. -/
inductive CommunityField : List UInt8 → Option (List UInt8) → List UInt8 → Prop
  | string {bytes content rest : List UInt8} (field : StringField bytes content rest) :
    CommunityField bytes (some content) rest

/-- An element that is copied when its tag is expected, and ends the layout. -/
inductive CopiedField (tags : List UInt8) : List UInt8 → Option (List UInt8) → Nat → Prop
  | present {tag length : UInt8} {content : List UInt8} (rest : List UInt8) (here : tag ∈ tags)
    (size : content.length = length.toNat) :
    CopiedField tags (tag :: length :: (content ++ rest))
      (some (tag :: length :: (content ++ [0]))) length.toNat
  | missing {tag : UInt8} (bytes : List UInt8) (differs : tag ∉ tags) :
    CopiedField tags (tag :: bytes) none 0

/-- The bytes of a multi-byte length, joined most significant byte first. -/
def joinedLength : List UInt8 → BitVec 32 → BitVec 32
  | [], length => length
  | byte :: bytes, length =>
    joinedLength bytes (length ||| BitVec.ofNat 32 byte.toNat <<< (bytes.length * 8))

/-- The length of a message: one byte, or a count and as many bytes. -/
inductive LengthField : List UInt8 → BitVec 32 → List UInt8 → Prop
  | short {first : UInt8} (rest : List UInt8) (low : ¬ 0x80 ≤ first) :
    LengthField (first :: rest) (BitVec.ofNat 32 first.toNat) rest
  | long {first : UInt8} {content : List UInt8} (rest : List UInt8) (high : 0x80 ≤ first)
    (size : content.length = (first &&& 0x7f).toNat) :
    LengthField (first :: (content ++ rest)) (joinedLength content 0) rest

/-- The name at the start of an element, if there is one. -/
inductive NameField (varbinds : List Varbind) : List UInt8 → List Varbind → List UInt8 → Prop
  | present {bytes oid rest : List UInt8} (field : OidField bytes oid rest) :
    NameField varbinds (0x06 :: bytes) (⟨oid, 0, .absent⟩ :: varbinds) rest
  | missing {tag : UInt8} (bytes : List UInt8) (differs : tag ≠ 0x06) :
    NameField varbinds (tag :: bytes) varbinds (tag :: bytes)

/-- A value of one of the types that are understood, behind its tag. -/
inductive PrimitiveField : UInt8 → List UInt8 → Value → List UInt8 → Prop
  | integer {bytes : List UInt8} {value : BitVec 32} {rest : List UInt8}
    (field : IntegerField bytes value rest) : PrimitiveField primvInt bytes (.word value) rest
  | octets {bytes content rest : List UInt8} (field : StringField bytes content rest) :
    PrimitiveField primvOctstr bytes (.string content) rest
  | null (bytes : List UInt8) : PrimitiveField primvNull bytes (.word 0) (bytes.drop 1)
  | oid {bytes text rest : List UInt8} (field : OidField bytes text rest) :
    PrimitiveField primvObjid bytes (.string text) rest

/-- The value of an element, which needs an entry that it can go to. -/
inductive ValueField : List Varbind → List UInt8 → List Varbind → List UInt8 → Prop
  | stored {tag : UInt8} {bytes rest : List UInt8} {value : Value} (last : Varbind)
    (before : List Varbind) (field : PrimitiveField tag bytes value rest) :
    ValueField (last :: before) (tag :: bytes)
      ({ last with dataType := tag, value := value } :: before) rest
  | skipped {tag : UInt8} (varbinds : List Varbind) (bytes : List UInt8)
    (differs : tag ∉ primitiveTypes) :
    ValueField varbinds (tag :: bytes) varbinds (tag :: bytes)

/-- Elements, each a SEQUENCE, until the lengths that they declare add up to the limit. -/
inductive Elements (limit : Nat) : Nat → List Varbind → List UInt8 → List Varbind → Prop
  | done {counted : Nat} {varbinds : List Varbind} (bytes : List UInt8)
    (reached : ¬ counted < limit) : Elements limit counted varbinds bytes varbinds
  | element {counted : Nat} {varbinds named valued final : List Varbind} {length : UInt8}
    {bytes behindName behindValue : List UInt8} (open_ : counted < limit)
    (name : NameField varbinds bytes named behindName)
    (value : ValueField named behindName valued behindValue)
    (tail : Elements limit (counted + (length.toNat + 2)) valued behindValue final) :
    Elements limit counted varbinds (0x30 :: length :: bytes) final

/-- A message with its fields in order; another version than the first is rejected. -/
inductive MessageLayout : List UInt8 → Option SnmpMessageRx → Prop
  | fields {bytes behindLength behindVersion behindCommunity : List UInt8} {length : BitVec 32}
    {version : UInt8} {community snmpPdu : Option (List UInt8)} {snmpPduLength : Nat}
    (lengthField : LengthField bytes length behindLength)
    (versionField : OptionalField 0x02 VersionField 0 behindLength version behindVersion)
    (communityField :
      OptionalField 0x04 CommunityField none behindVersion community behindCommunity)
    (pduField : CopiedField (0xa5 :: pduTypes) behindCommunity snmpPdu snmpPduLength) :
    MessageLayout (0x30 :: bytes)
      (if version ≠ 1 then none else some ⟨length, version, community, snmpPdu, snmpPduLength⟩)

/-- A PDU with its fields in order; another type is rejected. -/
inductive PduLayout : List UInt8 → Option SnmpPduRx → Prop
  | fields {type length : UInt8} {bytes behindId behindError behindIndex : List UInt8}
    {requestId error errorIndex : BitVec 32} {varbindings : Option (List UInt8)}
    {varbindingsLength : Nat} (known : type ∈ pduTypes)
    (idField : OptionalField 0x02 IntegerField 0 bytes requestId behindId)
    (errorField : OptionalField 0x02 IntegerField 0 behindId error behindError)
    (indexField : OptionalField 0x02 IntegerField 0 behindError errorIndex behindIndex)
    (listField : CopiedField [0x30] behindIndex varbindings varbindingsLength) :
    PduLayout (type :: length :: bytes)
      (some ⟨type, length.toNat, requestId, lowByte error, lowByte errorIndex, varbindings,
        varbindingsLength⟩)
  | wrong {type : UInt8} (bytes : List UInt8) (unknown : type ∉ pduTypes) :
    PduLayout (type :: bytes) none

/-- A list of bindings whose elements are complete. -/
inductive ListLayout : List UInt8 → VarbindListRx → Prop
  | elements {length : UInt8} {bytes : List UInt8} {varbinds : List Varbind}
    (inside : Elements length.toNat 0 [] bytes varbinds) :
    ListLayout (0x30 :: length :: bytes) ⟨length.toNat, varbinds.reverse⟩

/-- A datagram that is rejected, or whose message, PDU and list are complete. -/
inductive RequestLayout : List UInt8 → Option RequestRx → Prop
  | noMessage {received : List UInt8} (message : MessageLayout received none) :
    RequestLayout received none
  | noPdu {received block : List UInt8} {message : SnmpMessageRx}
    (first : MessageLayout received (some message)) (present : message.snmpPdu = some block)
    (second : PduLayout block none) : RequestLayout received none
  | complete {received block list : List UInt8} {message : SnmpMessageRx} {pdu : SnmpPduRx}
    {varbindList : VarbindListRx} (first : MessageLayout received (some message))
    (present : message.snmpPdu = some block) (second : PduLayout block (some pdu))
    (bound : pdu.varbindings = some list) (third : ListLayout list varbindList) :
    RequestLayout received (some ⟨message, pdu, varbindList⟩)

end OpenwrtMisc.SnmpAgent
