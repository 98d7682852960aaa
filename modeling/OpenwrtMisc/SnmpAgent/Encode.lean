import OpenwrtMisc.SnmpAgent.Transmit
import OpenwrtMisc.SnmpAgent.Wire

/-! The sending functions write the elements of a message, as long as these fit their buffers. -/

namespace OpenwrtMisc.SnmpAgent

open Ber

/-- The four bytes of a word. -/
def wordBytes (value : BitVec 32) : List UInt8 :=
  [lowByte (value >>> 24), lowByte (value >>> 16), lowByte (value >>> 8), lowByte value]

/-- The content of an INTEGER as the encoder chooses its width. -/
def integerContent (value : BitVec 32) : List UInt8 :=
  if value.toNat > 32767 then wordBytes value
  else if value.toNat > 127 then [lowByte (value >>> 8), lowByte value]
  else [lowByte value]

/-- The bytes of one token of a dotted text. -/
def arcBytes (part : List UInt8) : List UInt8 := encodeArc (BitVec.ofInt 32 (atoi part))

/-- The content of the OID of a dotted text. -/
def oidContent (text : List UInt8) : List UInt8 :=
  match strtok dot text with
  | first :: second :: parts =>
    UInt8.ofNat (BitVec.ofInt 32 (atoi first * 40 + atoi second)).toNat :: parts.flatMap arcBytes
  | _ => []

/-- A text has two tokens for the first byte, and its OID fits a buffer as long as the text. -/
def Encodable (text : List UInt8) : Prop :=
  2 ≤ (strtok dot text).length ∧ (oidContent text).length + 2 ≤ text.length + 1

/-- It is decidable whether a text can be encoded. -/
instance (text : List UInt8) : Decidable (Encodable text) := inferInstanceAs (Decidable (_ ∧ _))

/-- An INTEGER is written as an element. -/
theorem encodeInteger_eq (value : BitVec 32) :
    encodeInteger value = element 0x02 (integerContent value) := by
  -- One, two or four bytes.
  unfold encodeInteger integerContent
  split
  · rfl
  · split <;> rfl

/-- A word of full width is written as an element. -/
theorem encodeIntegerByLength_eq (value : BitVec 32) (typ : UInt8) :
    encodeIntegerByLength value 4 typ = element typ (wordBytes value) := rfl

/-- A string is written as an element. -/
theorem encodeString_eq (array : List UInt8) :
    encodeString array = element 0x04 (cString array) := rfl

/-- An INTEGER has at most four bytes of content. -/
theorem length_integerContent (value : BitVec 32) : (integerContent value).length ≤ 4 := by
  -- One, two or four bytes.
  unfold integerContent
  split
  · simp [wordBytes]
  · split <;> simp

/-- The remaining subidentifiers are written exactly when the last one ends inside the buffer. -/
theorem encodeOidLoop_eq_ok {size : Nat} {written : List UInt8} :
    ∀ (parts : List (List UInt8)) (content : List UInt8), 2 + content.length ≤ size →
      (encodeOidLoop size parts content = .ok written ↔
        2 + written.length ≤ size ∧ written = content ++ parts.flatMap arcBytes) := by
  -- Induction on the subidentifiers that are still to be written.
  intro parts
  induction parts with
  | nil =>
    intro content inside
    simp only [encodeOidLoop, Except.ok.injEq, List.flatMap_nil, List.append_nil]
    constructor
    · intro same
      subst same
      exact ⟨inside, rfl⟩
    · exact fun written => written.2.symm
  | cons part parts ih =>
    intro content inside
    have turn : encodeOidLoop size (part :: parts) content =
        if 2 + (content ++ arcBytes part).length > size then .error .overflow
        else encodeOidLoop size parts (content ++ arcBytes part) := rfl
    rw [turn, List.flatMap_cons, ← List.append_assoc]
    -- The buffer only fills up, so an overflow stays one.
    by_cases past : 2 + (content ++ arcBytes part).length > size
    · rw [if_pos past]
      simp only [reduceCtorEq, false_iff, not_and]
      rintro fits rfl
      simp only [List.length_append] at fits past
      omega
    · rw [if_neg past]
      exact ih _ (by omega)

/-- An OID is written exactly when its text can be encoded, and then as an element. -/
theorem encodeOid_eq_ok {text data : List UInt8} :
    encodeOid text = .ok data ↔ Encodable text ∧ data = element 0x06 (oidContent text) := by
  -- The text is split into its numbers, and the cases are how many there are.
  unfold encodeOid Encodable oidContent
  split
  · rename_i first second parts tokens
    simp only [tokens, List.length_cons]
    generalize UInt8.ofNat (BitVec.ofInt 32 (atoi first * 40 + atoi second)).toNat = head
    -- The first two numbers share a byte, which a buffer of less than three bytes has no room for.
    by_cases empty : 3 > text.length + 1
    · simp only [if_pos empty, reduceCtorEq, false_iff]
      omega
    · simp only [if_neg empty]
      rw [bind_eq_ok]
      constructor
      · intro given
        rcases given with ⟨content, ran, same⟩
        obtain ⟨fits, rfl⟩ := (encodeOidLoop_eq_ok parts _ (by simp; omega)).mp ran
        cases same
        simp only [List.singleton_append, List.length_cons] at fits ⊢
        exact ⟨⟨by omega, by omega⟩, rfl⟩
      · intro given
        rcases given with ⟨⟨_, fits⟩, rfl⟩
        refine ⟨head :: parts.flatMap arcBytes,
          (encodeOidLoop_eq_ok parts _ (by simp; omega)).mpr ⟨?_, rfl⟩, rfl⟩
        simp only [List.length_cons] at fits ⊢
        omega
  · -- A text of fewer than two tokens is refused, as there is nothing to make that byte of.
    rename_i short
    simp only [reduceCtorEq, false_iff, not_and]
    intro given
    rcases given with ⟨two, _⟩
    rcases tokens : strtok dot text with _ | ⟨first, _ | ⟨second, parts⟩⟩
    · simp [tokens] at two
    · simp [tokens] at two
    · exact absurd tokens (short first second parts)

/-- An element whose length fits its byte is copied as a whole. -/
theorem fieldBytes_element {tag : UInt8} {content : List UInt8} (fits : content.length < 256) :
    fieldBytes (element tag content) = .ok (element tag content) := by
  -- The length byte is the length of the content.
  refine bind_eq_ok.mpr ⟨UInt8.ofNat content.length, rfl, copyBytes_eq_ok.mpr ⟨?_, [], ?_⟩⟩
  · rw [length_element, UInt8.toNat_ofNat']
    omega
  · rw [List.drop_zero, List.append_nil]

/-- A computation goes on from an element that ends inside the buffer it is put into. -/
theorem putField_bind_eq_ok {β : Type} {size pointer : Nat} {buffer : Nat → UInt8} {tag : UInt8}
    {content : List UInt8} {next : (Nat → UInt8) × Nat → Except Fault β} {value : β}
    (fits : content.length < 256) :
    (putField size buffer pointer (element tag content) >>= next) = .ok value ↔
      pointer + (content.length + 2) ≤ size ∧
        next (patch pointer (element tag content) buffer, pointer + (content.length + 2)) =
          .ok value := by
  unfold putField
  -- The element is written as a whole, and the pointer goes behind it.
  rw [fieldBytes_element fits, bind_eq_ok]
  constructor
  · intro given
    rcases given with ⟨behind, put, ran⟩
    obtain ⟨inside, same⟩ := store_bind_eq_ok.mp put
    cases same
    exact ⟨inside, ran⟩
  · intro given
    rcases given with ⟨inside, ran⟩
    exact ⟨_, store_bind_eq_ok.mpr ⟨inside, rfl⟩, ran⟩

/-- The element that the value of a binding is written as. -/
def Varbind.tlv (varbind : Varbind) : Tlv :=
  match varbind.value with
  | .word value =>
    if varbind.dataType = primvInt then ⟨0x02, integerContent value⟩
    else if varbind.dataType = primvTimtick then ⟨0x43, wordBytes value⟩
    else ⟨0x05, []⟩
  | .string bytes =>
    if varbind.dataType = primvOctstr then ⟨0x04, cString bytes⟩
    else if varbind.dataType = primvObjid then ⟨0x06, oidContent (cString bytes)⟩
    else ⟨0x05, []⟩
  | _ => ⟨0x05, []⟩

/-- The texts of a binding are of moderate length, and its value is stored as its type asks. -/
structure Varbind.WellTyped (varbind : Varbind) : Prop where
  /-- The text of the OID fits a length byte. -/
  name : varbind.oid.length < 256
  /-- Numbers are words. -/
  number : varbind.dataType = primvInt ∨ varbind.dataType = primvTimtick →
    ∃ value, varbind.value = .word value
  /-- Texts are strings that fit a length byte. -/
  text : varbind.dataType = primvOctstr ∨ varbind.dataType = primvObjid →
    ∃ bytes, varbind.value = .string bytes ∧ bytes.length < 256
  /-- A NULL is a word as well. -/
  null : varbind.dataType = primvNull → varbind.value = .word 0

/-- A word under a number type is well typed. -/
theorem Varbind.wellTyped_word {oid : List UInt8} {dataType : UInt8} (value : BitVec 32)
    (name : oid.length < 256) (type : dataType = primvInt ∨ dataType = primvTimtick) :
    (⟨oid, dataType, .word value⟩ : Varbind).WellTyped := by
  -- The type is none of a text.
  refine ⟨name, fun _ => ⟨value, rfl⟩, ?_, ?_⟩
  · intro given
    rcases given with rfl | rfl <;> exact absurd type (by decide)
  · intro same
    subst same
    exact absurd type (by decide)

/-- A string under a text type is well typed. -/
theorem Varbind.wellTyped_string {oid bytes : List UInt8} {dataType : UInt8}
    (name : oid.length < 256) (short : bytes.length < 256)
    (type : dataType = primvOctstr ∨ dataType = primvObjid) :
    (⟨oid, dataType, .string bytes⟩ : Varbind).WellTyped := by
  -- The type is none of a number.
  refine ⟨name, ?_, fun _ => ⟨bytes, rfl, short⟩, ?_⟩
  · intro given
    rcases given with rfl | rfl <;> exact absurd type (by decide)
  · intro same
    subst same
    exact absurd type (by decide)

/-- A zero under the type of NULL is well typed. -/
theorem Varbind.wellTyped_null {oid : List UInt8} (name : oid.length < 256) :
    (⟨oid, primvNull, .word 0⟩ : Varbind).WellTyped :=
  ⟨name, fun _ => ⟨0, rfl⟩, (absurd · (show ¬ (primvNull = 0x04 ∨ primvNull = 0x06) by decide)),
    fun _ => rfl⟩

/-- A binding without a type is well typed. -/
theorem Varbind.wellTyped_absent {oid : List UInt8} (name : oid.length < 256) :
    (⟨oid, 0, .absent⟩ : Varbind).WellTyped :=
  ⟨name, (absurd · (show ¬ ((0 : UInt8) = 0x02 ∨ (0 : UInt8) = 0x43) by decide)),
    (absurd · (show ¬ ((0 : UInt8) = 0x04 ∨ (0 : UInt8) = 0x06) by decide)),
    (absurd · (show ¬ (0 : UInt8) = 0x05 by decide))⟩

/-- The texts of a binding that are written as OIDs can be encoded. -/
structure Varbind.Encodable (varbind : Varbind) : Prop where
  /-- The name can be encoded. -/
  name : SnmpAgent.Encodable varbind.oid
  /-- A value that is an OID can be encoded. -/
  value : ∀ bytes, varbind.dataType = primvObjid → varbind.value = .string bytes →
    SnmpAgent.Encodable (cString bytes)

/-- What a binding is on the wire. -/
def Varbind.binding (varbind : Varbind) : Binding := ⟨oidContent varbind.oid, varbind.tlv⟩

/-- The bindings of a list that are written. -/
def bindings (varbinds : List Varbind) : List Binding :=
  (varbinds.filter (·.dataType ∈ writtenTypes)).map Varbind.binding

/-- The content of the list that bindings are written as. -/
def listContent (varbinds : List Varbind) : List UInt8 :=
  (bindings varbinds).flatMap fun binding => element 0x30 binding.content

/-- Every binding that is written can be encoded. -/
def AllEncodable (varbinds : List Varbind) : Prop :=
  ∀ varbind ∈ varbinds, varbind.dataType ∈ writtenTypes → varbind.Encodable

/-- An OID that can be encoded is not longer than its text. -/
theorem Encodable.length {text : List UInt8} (encodable : Encodable text) :
    (oidContent text).length < text.length := by
  -- The content takes less than the buffer, which is as long as the text.
  have fits := encodable.2
  omega

/-- The value of a binding is stored as its type asks, and its encoding fits a length byte. -/
structure Varbind.Storable (varbind : Varbind) : Prop where
  /-- Numbers are words. -/
  number : varbind.dataType = primvInt ∨ varbind.dataType = primvTimtick →
    ∃ value, varbind.value = .word value
  /-- Texts are strings. -/
  text : varbind.dataType = primvOctstr ∨ varbind.dataType = primvObjid →
    ∃ bytes, varbind.value = .string bytes
  /-- A NULL is a word as well. -/
  null : varbind.dataType = primvNull → varbind.value = .word 0
  /-- A name that can be encoded is short. -/
  nameSize : SnmpAgent.Encodable varbind.oid → (oidContent varbind.oid).length < 256
  /-- A value that can be encoded is short. -/
  valueSize : (∀ bytes, varbind.dataType = primvObjid → varbind.value = .string bytes →
    SnmpAgent.Encodable (cString bytes)) → varbind.tlv.content.length < 256

/-- The value of a binding is written exactly when it can be encoded. -/
theorem encodeValue_eq_ok {varbind : Varbind} {data : List UInt8} (stored : varbind.Storable)
    (written : varbind.dataType ∈ writtenTypes) :
    encodeValue varbind = .ok data ↔
      (∀ bytes, varbind.dataType = primvObjid → varbind.value = .string bytes →
        Encodable (cString bytes)) ∧ data = element varbind.tlv.tag varbind.tlv.content := by
  -- What is stored for each type is what the branch of that type reads.
  obtain ⟨oid, dataType, value⟩ := varbind
  obtain ⟨number, text, null, _, _⟩ := stored
  simp only at number text null written
  simp only [writtenTypes, List.mem_cons, List.not_mem_nil, or_false] at written
  -- One case for each type that is written.
  rcases written with rfl | rfl | rfl | rfl | rfl
  · obtain ⟨word, rfl⟩ := number (.inl rfl)
    have ran : encodeValue ⟨oid, primvInt, .word word⟩ = .ok (encodeInteger word) := rfl
    rw [ran, encodeInteger_eq, Except.ok.injEq]
    exact ⟨fun same => ⟨nofun, same.symm⟩, fun same => same.2.symm⟩
  · obtain ⟨bytes, rfl⟩ := text (.inl rfl)
    have ran : encodeValue ⟨oid, primvOctstr, .string bytes⟩ =
        .ok (encodeString (cString bytes)) := rfl
    rw [ran, encodeString_eq, cString_cString, Except.ok.injEq]
    exact ⟨fun same => ⟨nofun, same.symm⟩, fun same => same.2.symm⟩
  · have zero := null rfl
    subst zero
    have ran : encodeValue ⟨oid, primvNull, .word 0⟩ = .ok [0x05, 0x00] := rfl
    rw [ran, Except.ok.injEq]
    exact ⟨fun same => ⟨nofun, same.symm⟩, fun same => same.2.symm⟩
  · obtain ⟨bytes, rfl⟩ := text (.inr rfl)
    have ran : encodeValue ⟨oid, primvObjid, .string bytes⟩ = encodeOid (cString bytes) := rfl
    rw [ran, encodeOid_eq_ok]
    constructor
    · intro given
      rcases given with ⟨encodable, same⟩
      refine ⟨fun other _ equal => ?_, same⟩
      cases equal
      exact encodable
    · exact fun all => ⟨all.1 bytes rfl rfl, all.2⟩
  · obtain ⟨word, rfl⟩ := number (.inr rfl)
    have ran : encodeValue ⟨oid, primvTimtick, .word word⟩ =
        .ok (encodeIntegerByLength word 4 0x43) := rfl
    rw [ran, encodeIntegerByLength_eq, Except.ok.injEq]
    exact ⟨fun same => ⟨nofun, same.symm⟩, fun same => same.2.symm⟩

/-- The value of a binding that can be encoded fits a length byte. -/
theorem Varbind.tlv_length {varbind : Varbind} (typed : varbind.WellTyped)
    (encodable : ∀ bytes, varbind.dataType = primvObjid → varbind.value = .string bytes →
      SnmpAgent.Encodable (cString bytes)) : varbind.tlv.content.length < 256 := by
  -- Numbers are short by their size, and strings because they were stored with a length byte.
  unfold Varbind.tlv
  split
  · rename_i value _
    split
    · exact Nat.lt_of_le_of_lt (length_integerContent value) (by decide)
    · split <;> simp [wordBytes]
  · rename_i bytes stored
    have shorter := length_cString_le bytes
    split
    · rename_i octets
      obtain ⟨_, same, fits⟩ := typed.text (.inl octets)
      rw [stored] at same
      cases same
      exact Nat.lt_of_le_of_lt shorter fits
    · split
      · rename_i objid
        obtain ⟨_, same, fits⟩ := typed.text (.inr objid)
        rw [stored] at same
        cases same
        have inside := (encodable bytes objid stored).length
        exact Nat.lt_trans inside (Nat.lt_of_le_of_lt shorter fits)
      · simp
  · simp

/-- A well typed binding is stored as its type asks, and its parts are short. -/
theorem Varbind.WellTyped.storable {varbind : Varbind} (typed : varbind.WellTyped) :
    varbind.Storable where
  number := typed.number
  text kind := (typed.text kind).imp fun _ both => both.1
  null := typed.null
  nameSize name := Nat.lt_trans name.length typed.name
  valueSize := Varbind.tlv_length typed

end OpenwrtMisc.SnmpAgent
