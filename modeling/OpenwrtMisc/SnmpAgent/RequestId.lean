import OpenwrtMisc.SnmpAgent.Assemble
import OpenwrtMisc.SnmpAgent.FormFields
import OpenwrtMisc.SnmpAgent.Numbers

/-! The request id on its way through the agent: it is read in one width and written in another. -/

namespace OpenwrtMisc.SnmpAgent

open Ber

/-- An INTEGER as the rules ask for it, whose number has 32 bits. -/
structure IsNumber (content : List UInt8) : Prop where
  minimal : Minimal content
  low : -2 ^ 31 ≤ twosComplement content
  high : twosComplement content < 2 ^ 31

/-- The INTEGER of a request id comes first in each PDU that is built, and has the value. -/
def Echoes (requestId : BitVec 32) (r : Int) : Prop :=
  ∀ pduType error errorIndex list reply,
    createSnmpPduTx pduType requestId error errorIndex list = .ok reply →
      ∃ content rest, readTlv (reply.drop 2) = some (⟨0x02, content⟩, rest) ∧
        twosComplement content = r

/-- A request id is written in four bytes, as the signed number that it is in memory. -/
theorem echoes_iff {requestId : BitVec 32} {r : Int} :
    Echoes requestId r ↔ requestId.toInt = r := by
  -- The four bytes come first in the PDU, whatever the other fields are.
  have first : ∀ pduType error errorIndex list,
      readTlv ((element pduType (pduContent requestId error errorIndex list)).drop 2) =
        some (⟨0x02, wordBytes requestId⟩,
          element 0x02 (integerContent (BitVec.ofNat 32 error.toNat)) ++
            (element 0x02 (integerContent (BitVec.ofNat 32 errorIndex.toNat)) ++ list)) :=
    fun _ _ _ _ => @readTlv_element 0x02 (wordBytes requestId) (show 4 < 128 by decide) _
  constructor
  · intro echoes
    obtain ⟨content, rest, read, value⟩ := echoes 0xa2 0 0 [] _
      (createSnmpPduTx_eq_ok.mpr ⟨by simp [pduContent, wordBytes, integerContent, pduBufferSize],
        rfl⟩)
    rw [first] at read
    cases read
    rw [← value, twosComplement_wordBytes]
  · rintro rfl
    intro pduType error errorIndex list reply built
    obtain ⟨_, rfl⟩ := createSnmpPduTx_eq_ok.mp built
    exact ⟨_, _, first _ _ _ _, twosComplement_wordBytes requestId⟩

/-- A request with the id -1, which has one byte in minimal form. -/
def negativeRequest : Message where
  version := [0x00]
  community := ascii "public"
  pduTag := 0xa0
  requestId := [0xff]
  errorStatus := [0x00]
  errorIndex := [0x00]
  bindings := [⟨[0x2b, 6, 1, 2, 1, 1, 1, 0], ⟨0x05, []⟩⟩]

/-- The request id -1 comes back as 255. -/
theorem negativeRequest_not_echoed :
    IsNumber negativeRequest.requestId ∧ twosComplement negativeRequest.requestId = -1 ∧
      ∃ pdu reply, createSnmpPduRx (element 0xa0 negativeRequest.pdu) = .ok (some pdu) ∧
        createSnmpPduTx 0xa2 pdu.requestId 0 0 [0x30, 0x00] = .ok reply ∧
        readTlv (reply.drop 2) = some (⟨0x02, [0x00, 0x00, 0x00, 0xff]⟩,
          [0x02, 0x01, 0x00, 0x02, 0x01, 0x00, 0x30, 0x00]) ∧
        twosComplement [0x00, 0x00, 0x00, 0xff] = 255 :=
  ⟨⟨trivial, by decide, by decide⟩, by decide, _, _, rfl, rfl, rfl, rfl⟩

/-- The word that is found behind the two first bytes of a PDU is the id that is decoded. -/
theorem decoded_of_field {block rest : List UInt8} {word : BitVec 32}
    (field : OptionalField 0x02 IntegerField 0 (block.drop 2) word rest) :
    ∃ pointer, decodeIf block 2 0x02 decodeInteger 0 = .ok (word, pointer) ∧
      ∀ pdu, createSnmpPduRx block = .ok (some pdu) → pdu.requestId = word := by
  obtain ⟨pointer, decoded, _⟩ := (decodeIf_yields decodeInteger_yields).mpr field
  refine ⟨pointer, decoded, fun pdu ran => ?_⟩
  -- The id is decoded before anything behind it is looked at.
  obtain ⟨type, _, ran⟩ := bind_eq_ok.mp ran
  split at ran
  · obtain ⟨_, _, ran⟩ := bind_eq_ok.mp ran
    obtain ⟨⟨requestId, afterId⟩, again, ran⟩ := bind_eq_ok.mp ran
    obtain ⟨_, _, ran⟩ := bind_eq_ok.mp ran
    obtain ⟨_, _, ran⟩ := bind_eq_ok.mp ran
    obtain ⟨_, _, ran⟩ := bind_eq_ok.mp ran
    cases ran
    rw [decoded] at again
    cases again
    rfl
  · cases ran

/-- What stands behind the two first bytes of an element: the other bytes of its length first. -/
theorem drop_element (form : LengthForm) (tag : UInt8) (content stale : List UInt8) :
    (form.element tag content ++ stale).drop 2 =
      form.digits content.length ++ (content ++ stale) := by
  simp [LengthForm.element, LengthForm.octets]

/-- One more length byte is no INTEGER, as the id alone makes the PDU longer than two bytes. -/
theorem field_one {content : List UInt8} (large : 3 ≤ content.length)
    (small : content.length < 256) (stale : List UInt8) :
    OptionalField 0x02 IntegerField 0 (LengthForm.one.digits content.length ++ (content ++ stale)) 0
      (UInt8.ofNat content.length :: (content ++ stale)) := by
  -- The length byte is the first one behind the digits, and is not the tag of an INTEGER.
  refine .missing _ fun tag => ?_
  have value := congrArg UInt8.toNat tag
  have two : (2 : UInt8).toNat = 2 := rfl
  rw [UInt8.toNat_ofNat', two] at value
  omega

/-- The number that is found where two more length bytes are taken for an INTEGER, or for none. -/
def lengthNumber (content : List UInt8) : Nat :=
  if content.length / 256 = 2 then
    if 1 ≤ content.length % 256 ∧ content.length % 256 ≤ 4 then
      bigEndian (content.take (content.length % 256))
    else 4
  else 0

/-- Of two more length bytes, the upper one may be the tag of an INTEGER and the other its width. -/
theorem field_two {content : List UInt8} (small : content.length < 65536) (stale : List UInt8) :
    ∃ word rest, OptionalField 0x02 IntegerField 0
        (LengthForm.two.digits content.length ++ (content ++ stale)) word rest ∧
      word.toNat = lengthNumber content := by
  -- The two bytes are read as a tag and a width, where they look like one.
  have upper : (UInt8.ofNat (content.length / 256)).toNat = content.length / 256 := by
    rw [UInt8.toNat_ofNat']
    omega
  have lower : (UInt8.ofNat content.length).toNat = content.length % 256 := UInt8.toNat_ofNat' ..
  have width : (1 ≤ UInt8.ofNat content.length ∧ UInt8.ofNat content.length ≤ 4) ↔
      1 ≤ content.length % 256 ∧ content.length % 256 ≤ 4 := by
    rw [UInt8.le_iff_toNat_le, UInt8.le_iff_toNat_le, lower]
    rfl
  rw [LengthForm.digits, List.cons_append, List.singleton_append, lengthNumber]
  by_cases tag : content.length / 256 = 2
  · rw [if_pos tag, tag]
    by_cases known : 1 ≤ content.length % 256 ∧ content.length % 256 ≤ 4
    · have taken : (content.take (content.length % 256)).length = content.length % 256 := by
        rw [List.length_take]
        omega
      -- The bytes behind the width are those of the PDU, from the tag of the id on.
      have field := IntegerField.sized (content.drop (content.length % 256) ++ stale)
        (width.mpr known) (taken.trans lower.symm)
      rw [← List.append_assoc, List.take_append_drop] at field
      refine ⟨_, _, .present field, ?_⟩
      rw [if_pos known]
      exact toNat_shiftedWord (by omega)
    · refine ⟨_, _, .present (.other _ (mt width.mp known)), ?_⟩
      rw [if_neg known]
      rfl
  · refine ⟨0, _, .missing _ fun mark => tag ?_, ?_⟩
    · rw [← upper, mark]
      rfl
    · rw [if_neg tag]
      rfl

/-- A number of at most four bytes that begins with the tag of an INTEGER is not too large. -/
theorem lengthNumber_lt (more : List UInt8) : lengthNumber (0x02 :: more) < 2 ^ 31 := by
  -- At most four bytes are put together, and 0x02 is the first of them.
  unfold lengthNumber
  split
  · split
    · rename_i width
      obtain ⟨digits, count⟩ : ∃ digits, (0x02 :: more).length % 256 = digits + 1 :=
        ⟨(0x02 :: more).length % 256 - 1, by omega⟩
      rw [count, List.take_succ_cons, bigEndian_cons]
      -- The tag is the highest of at most four digits.
      have bound := bigEndian_lt (more.take digits)
      have short : (more.take digits).length ≤ 3 := by
        rw [List.length_take]
        omega
      have weight : 256 ^ (more.take digits).length ≤ 256 ^ 3 :=
        Nat.pow_le_pow_right (by decide) short
      have tag : (0x02 : UInt8).toNat = 2 := rfl
      rw [tag]
      omega
    · decide
  · decide

/-- A GetRequest up to its request id, with any bytes behind the id. -/
structure IdRequest where
  /-- The form of the length of the PDU. -/
  pduForm : LengthForm
  /-- The request id. -/
  requestId : CodedField
  /-- The rest of the PDU, which holds the other numbers and the list in whatever form. -/
  behind : List UInt8
  fits : requestId.Fits
  number : IsNumber requestId.content
  pduFits : (requestId.bytes 0x02 ++ behind).length < pduForm.limit

namespace IdRequest

variable (request : IdRequest) (stale : List UInt8)

/-- The content of the PDU. -/
def content : List UInt8 := request.requestId.bytes 0x02 ++ request.behind

/-- The PDU. -/
def bytes : List UInt8 := request.pduForm.element 0xa0 request.content

/--
The id survives what the agent makes of the two lengths.

Only the short form is understood: behind another length of the PDU no id is found, or one that is
made of the length and of what stands behind it, and another length of the id is taken for a 4.
-/
def Survives : Prop :=
  let r := twosComplement request.requestId.content
  match request.pduForm, request.requestId.form with
  | .short, .short => 0 ≤ r ∨ r < -2 ^ 23
  | .short, _ => r = 4
  | .one, _ => r = 0
  | .two, _ => r = lengthNumber request.content

/-- Whether it does can be computed. -/
instance : Decidable request.Survives := by
  unfold Survives
  split <;> infer_instance

/-- The content of the PDU begins with the tag, the length and a byte of the id. -/
theorem content_cons :
    ∃ more, request.content = 0x02 :: more ∧ 2 ≤ more.length := by
  -- The id has a tag, a length and a byte of content at least.
  have size := (length_of_minimal request.number.minimal request.number.low
    request.number.high).1
  refine ⟨request.requestId.form.octets request.requestId.content.length ++
    request.requestId.content ++ request.behind, rfl, ?_⟩
  simp only [LengthForm.octets, List.length_append, List.length_cons]
  omega

/-- A word below the sign bit has the value just when it is the same number. -/
theorem echoes_of_toNat {word : BitVec 32} {value : Nat} (same : word.toNat = value)
    (small : value < 2 ^ 31) {r : Int} : Echoes word r ↔ r = value := by
  -- Below the sign bit the signed value is the unsigned one.
  rw [echoes_iff, BitVec.toInt_eq_toNat_of_lt (by omega), same]
  exact eq_comm

/-- What is found behind the two first bytes is the id just when it survives. -/
theorem field_survives (stale : List UInt8) :
    ∃ word rest, OptionalField 0x02 IntegerField 0 ((request.bytes ++ stale).drop 2) word rest ∧
      (Echoes word (twosComplement request.requestId.content) ↔ request.Survives) := by
  -- The bytes behind the two first ones are those of the id, or of a length.
  obtain ⟨more, shape, large⟩ := request.content_cons
  have length : request.content.length = more.length + 1 := by rw [shape, List.length_cons]
  have fits : request.content.length < request.pduForm.limit := request.pduFits
  rw [bytes, drop_element]
  -- The cases are the forms of the two lengths.
  cases pduForm : request.pduForm with
  | short =>
    have place : LengthForm.short.digits request.content.length ++ (request.content ++ stale) =
        0x02 :: (request.requestId.form.octets request.requestId.content.length ++
          (request.requestId.content ++ (request.behind ++ stale))) := by
      simp [LengthForm.digits, content, CodedField.bytes, LengthForm.element]
    rw [place]
    cases form : request.requestId.form with
    | short =>
      refine ⟨_, _, .present (integerField_content (length_of_minimal request.number.minimal
        request.number.low request.number.high) _), ?_⟩
      -- The decoder leaves out the sign of an id of less than four bytes.
      simp only [Survives, pduForm, form]
      exact echoes_iff.trans (toInt_shiftedWord_iff request.number.minimal request.number.low
        request.number.high)
    | one =>
      refine ⟨4, _, .present ((integerField_long (by decide)).mpr ⟨rfl, rfl⟩), ?_⟩
      simp only [Survives, pduForm, form]
      exact echoes_of_toNat rfl (by decide)
    | two =>
      refine ⟨4, _, .present ((integerField_long (by decide)).mpr ⟨rfl, rfl⟩), ?_⟩
      simp only [Survives, pduForm, form]
      exact echoes_of_toNat rfl (by decide)
  | one =>
    rw [pduForm] at fits
    refine ⟨0, _, field_one (by omega) fits stale, ?_⟩
    simp only [Survives, pduForm]
    exact echoes_of_toNat rfl (by decide)
  | two =>
    rw [pduForm] at fits
    obtain ⟨word, rest, field, value⟩ := field_two fits stale
    refine ⟨word, rest, field, ?_⟩
    simp only [Survives, pduForm]
    exact echoes_of_toNat value (shape ▸ lengthNumber_lt more)

end IdRequest

/--
The id that is decoded comes back exactly when it survives what the agent makes of the lengths.

With the lengths of the PDU and of the id in short form, that is when it is not negative or needs
four bytes.
Anything may stand behind the id, in the PDU and behind it: the id is decoded before all that.
-/
theorem requestId_echoed_iff (request : IdRequest) (stale : List UInt8) :
    ∃ requestId pointer,
      decodeIf (request.bytes ++ stale) 2 0x02 decodeInteger 0 = .ok (requestId, pointer) ∧
        (∀ pdu, createSnmpPduRx (request.bytes ++ stale) = .ok (some pdu) →
          pdu.requestId = requestId) ∧
        (Echoes requestId (twosComplement request.requestId.content) ↔ request.Survives) := by
  -- The word of the id is followed from the bytes to the value that it is compared with.
  obtain ⟨word, rest, field, same⟩ := request.field_survives stale
  obtain ⟨pointer, decoded, taken⟩ := decoded_of_field field
  exact ⟨word, pointer, decoded, taken, same⟩

/-- A GetRequest whose lengths are all in short form is taken apart, with the word of its id. -/
theorem createSnmpPduRx_getRequest (message : Message) (stale : List UInt8)
    (request : message.pduTag = 0xa0) (short : message.pdu.length < 128)
    (numbers : ∀ content ∈ [message.requestId, message.errorStatus, message.errorIndex],
      IsNumber content) :
    ∃ pdu, createSnmpPduRx (element 0xa0 message.pdu ++ stale) = .ok (some pdu) ∧
      pdu.requestId = shiftedWord message.requestId := by
  -- The layout of the PDU gives its id, and the parser is exact for the layout.
  have sizes := fun content member =>
    length_of_minimal (numbers content member).minimal (numbers content member).low
      (numbers content member).high
  have layout := message.pduLayout stale (request ▸ by decide) sizes short
  rw [request] at layout
  exact ⟨_, createSnmpPduRx_eq_ok.mpr layout, rfl⟩

end OpenwrtMisc.SnmpAgent
