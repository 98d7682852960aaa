import OpenwrtMisc.SnmpAgent.Agent
import OpenwrtMisc.SnmpAgent.CodedList
import OpenwrtMisc.SnmpAgent.Weights
import Mathlib.Data.List.Forall2

/-! Messages with lengths in any form: which of them the agent receives as they are meant. -/

namespace OpenwrtMisc.SnmpAgent

open Ber

/-- Only the length of the message may be in long form, and the last one of a list in some cases. -/
structure LegalMessage.Plain (sent : LegalMessage) : Prop where
  version : sent.coded.versionForm = .short
  community : sent.coded.community.form = .short
  pdu : sent.coded.pduForm = .short
  numbers : ∀ number ∈ sent.coded.numbers, number.form = .short
  list : sent.coded.listForm = .short
  requestId : Readable (twosComplement sent.coded.requestId.content)
  errors : ∀ number ∈ [sent.coded.errorStatus, sent.coded.errorIndex],
    0 ≤ twosComplement number.content ∧ twosComplement number.content < 256
  bindings : PlainBindings sent.coded.bindings

/-- The length of a message is read in every form. -/
theorem lengthField_octets (form : LengthForm) {n : Nat} (fits : n < form.limit)
    (rest : List UInt8) : ∃ length, LengthField (form.octets n ++ rest) length rest := by
  -- One case for each form of the length.
  cases form with
  | short =>
    -- In short form the first byte is below 128, and in long form it counts the others.
    refine ⟨_, .short _ ?_⟩
    have small : n < 128 := fits
    rw [UInt8.le_iff_toNat_le, LengthForm.first, UInt8.toNat_ofNat']
    have mark : (0x80 : UInt8).toNat = 128 := rfl
    omega
  | one =>
    exact ⟨_, @LengthField.long 0x81 [_] rest (by decide)
      (show 1 = ((0x81 : UInt8) &&& 0x7f).toNat by decide)⟩
  | two =>
    exact ⟨_, @LengthField.long 0x82 [_, _] rest (by decide)
      (show 2 = ((0x82 : UInt8) &&& 0x7f).toNat by decide)⟩

/-- What follows the length of a message is found in every form. -/
theorem lengthField_behind {form : LengthForm} {n : Nat} (fits : n < form.limit)
    {rest behind : List UInt8} {length : BitVec 32}
    (field : LengthField (form.octets n ++ rest) length behind) : behind = rest := by
  -- The layout says how many bytes the length takes, and the form says the same.
  rw [LengthForm.octets, List.cons_append] at field
  generalize bytes : form.first n :: (form.digits n ++ rest) = whole at field
  have mark : (0x80 : UInt8).toNat = 128 := rfl
  cases field with
  | short _ low =>
    obtain ⟨rfl, same⟩ := List.cons.inj bytes
    rw [UInt8.le_iff_toNat_le] at low
    cases form with
    | short => exact same.symm
    | one => exact absurd (show 128 ≤ (0x81 : UInt8).toNat by decide) low
    | two => exact absurd (show 128 ≤ (0x82 : UInt8).toNat by decide) low
  | long _ high size =>
    obtain ⟨rfl, same⟩ := List.cons.inj bytes
    -- The first byte counts the others, which are those of the form.
    have count : (form.digits n).length = ((form.first n) &&& 0x7f).toNat := by
      cases form with
      | short =>
        have small : n < 128 := fits
        rw [UInt8.le_iff_toNat_le, LengthForm.first, UInt8.toNat_ofNat'] at high
        omega
      | one => exact (show 1 = ((0x81 : UInt8) &&& 0x7f).toNat by decide)
      | two => exact (show 2 = ((0x82 : UInt8) &&& 0x7f).toNat by decide)
    exact (List.append_inj same (count.trans size.symm)).2.symm

/-- A copied block has the tag that it was copied for. -/
theorem CopiedField.of_some {tags : List UInt8} {tag : UInt8} {bytes block : List UInt8}
    {size : Nat} (field : CopiedField tags (tag :: bytes) (some block) size) :
    tag ∈ tags ∧ ∃ length content rest, bytes = length :: (content ++ rest) ∧
      content.length = length.toNat ∧ block = tag :: length :: (content ++ [0]) := by
  -- The other case copies nothing.
  cases field with
  | present _ here size => exact ⟨here, _, _, _, rfl, size, rfl⟩

/-- Bytes that neither an INTEGER nor a SEQUENCE begins with. -/
def Astray (bytes : List UInt8) : Prop :=
  ∃ head more, bytes = head :: more ∧ head ≠ 0x02 ∧ head ≠ 0x30

/-- No number is read from such bytes. -/
theorem Astray.number {bytes behind : List UInt8} {value : BitVec 32} (astray : Astray bytes)
    (field : OptionalField 0x02 IntegerField 0 bytes value behind) : behind = bytes := by
  -- The tag of a number does not come next.
  obtain ⟨head, more, rfl, differs, _⟩ := astray
  exact ((optionalField_missing differs).mp field).2

/-- No list is copied from such bytes. -/
theorem Astray.list {bytes block : List UInt8} {size : Nat} (astray : Astray bytes) :
    ¬ CopiedField [0x30] bytes (some block) size := by
  -- The tag of a list does not come next.
  obtain ⟨head, more, rfl, _, differs⟩ := astray
  exact fun field => differs (List.mem_singleton.mp field.of_some.1)

/-- A number that is read as it is meant is in short form, or nothing is found behind it. -/
theorem number_coded {field : CodedField} (minimal : Minimal field.content)
    (low : -2 ^ 31 ≤ twosComplement field.content) (high : twosComplement field.content < 2 ^ 31)
    {rest behind : List UInt8} {value : BitVec 32}
    (read : OptionalField 0x02 IntegerField 0 (field.bytes 0x02 ++ rest) value behind)
    (four : value = 4 → twosComplement field.content = 4) :
    (field.form = .short ∧ value = shiftedWord field.content ∧ behind = rest) ∨ Astray behind := by
  -- In long form the length byte is no width of a number.
  have size := length_of_minimal minimal low high
  rw [CodedField.bytes, LengthForm.element, List.cons_append, List.append_assoc,
    optionalField_present] at read
  by_cases short : field.form = .short
  · rw [short] at read
    exact .inl ⟨short, (integerField_iff size).mp read⟩
  · obtain ⟨rfl, rfl⟩ := (integerField_long short).mp read
    have value := four rfl
    -- The number 4 has one byte, and so its length is taken for another tag.
    have single : field.content.length = 1 := minimal.length_of_small (by omega) (by omega)
    obtain ⟨head, more, shape, values⟩ := @long_head _ short field.content.length (by omega)
      (field.content ++ rest)
    refine .inr ⟨head, more, shape, ?_, ?_⟩
    · rintro rfl
      have mark : (0x02 : UInt8).toNat = 2 := rfl
      omega
    · rintro rfl
      have mark : (0x30 : UInt8).toNat = 48 := rfl
      omega

/-- What is behind a number is not longer than what it was read from. -/
theorem length_behind_number {bytes behind : List UInt8} {value : BitVec 32}
    (field : OptionalField 0x02 IntegerField 0 bytes value behind) :
    behind.length ≤ bytes.length := by
  -- A number that is there has been taken off the bytes.
  cases field with
  | present field => cases field <;> simp only [List.length_cons, List.length_append] <;> omega
  | missing => exact Nat.le_refl _

/-- The fields of a PDU that is taken apart. -/
theorem PduLayout.of_some {type length : UInt8} {bytes : List UInt8} {pdu : SnmpPduRx}
    (layout : PduLayout (type :: length :: bytes) (some pdu)) :
    ∃ error errorIndex behindId behindError behindIndex,
      OptionalField 0x02 IntegerField 0 bytes pdu.requestId behindId ∧
      OptionalField 0x02 IntegerField 0 behindId error behindError ∧
      OptionalField 0x02 IntegerField 0 behindError errorIndex behindIndex ∧
      CopiedField [0x30] behindIndex pdu.varbindings pdu.varbindingsLength ∧
      pdu.error = lowByte error ∧ pdu.errorIndex = lowByte errorIndex := by
  -- The other layouts give no PDU.
  cases layout with
  | fields _ idField errorField indexField listField =>
    exact ⟨_, _, _, _, _, idField, errorField, indexField, listField, rfl, rfl⟩

/-- Bytes that are put before others and then cut off behind are at the front of what is left. -/
theorem head_of_rotated : ∀ {content before rest behind : List UInt8}, before ≠ [] →
    before ++ (content ++ rest) = content ++ behind →
      ∃ head more, behind = head :: more ∧ head ∈ before := by
  -- Each byte of the content is also the first one of what was put before it.
  intro content
  induction content with
  | nil =>
    intro before rest behind full same
    obtain ⟨head, more, rfl⟩ := List.exists_cons_of_ne_nil full
    rw [List.nil_append, List.nil_append, List.cons_append] at same
    exact ⟨head, _, same.symm, List.mem_cons_self⟩
  | cons byte content ih =>
    intro before rest behind full same
    obtain ⟨head, more, rfl⟩ := List.exists_cons_of_ne_nil full
    rw [List.cons_append, List.cons_append, List.cons_append, List.cons.injEq] at same
    obtain ⟨rfl, same⟩ := same
    have rotated : (more ++ [head]) ++ (content ++ rest) = content ++ behind := by
      rw [List.append_assoc, List.singleton_append, same]
    obtain ⟨first, left, shape, member⟩ := ih (List.append_ne_nil_of_right_ne_nil _
      (List.cons_ne_nil _ _)) rotated
    refine ⟨first, left, shape, ?_⟩
    rcases List.mem_append.mp member with later | last
    · exact List.mem_cons_of_mem _ later
    · rw [List.mem_singleton.mp last]
      exact List.mem_cons_self

/-- The digits of a long form whose first byte is the length are none of the tags of a PDU. -/
theorem digits_not_tag {form : LengthForm} (long : form ≠ .short) {n : Nat}
    (same : n = (form.first n).toNat) : ∀ byte ∈ form.digits n, byte ∉ 0xa5 :: pduTypes := by
  cases form with
  | short => exact absurd rfl long
  | one =>
    -- The digits are those of the length that the first byte was taken for.
    have value : n = 129 := same
    subst value
    exact List.forall_mem_singleton.mpr (by decide)
  | two =>
    have value : n = 130 := same
    subst value
    exact List.forall_mem_cons.mpr ⟨by decide, List.forall_mem_singleton.mpr (by decide)⟩

/-- A version in long form is not the first one. -/
theorem versionField_coded {form : LengthForm} {rest behind : List UInt8} {version : UInt8}
    (field : OptionalField 0x02 VersionField 0 (form.element 0x02 [0x00] ++ rest) version behind)
    (first : version = 1) : form = .short ∧ behind = rest := by
  -- In long form the byte behind the tag is no length of one byte.
  rw [LengthForm.element, List.cons_append, optionalField_present, List.append_assoc] at field
  cases field with
  | integer field =>
    by_cases short : form = .short
    · rw [short] at field
      exact ⟨short, ((@integerField_iff [0x00] _ _ _ (by decide)).mp field).2⟩
    · -- In long form the number is taken for 4, so the version is another one.
      rw [((integerField_long short).mp field).1] at first
      exact absurd first (by decide)

/-- A community that is received as it is meant is in short form, or no PDU is found behind it. -/
theorem communityField_coded {field : CodedField} (fits : field.Fits)
    {rest behind block : List UInt8} {community : Option (List UInt8)} {size : Nat}
    (read : OptionalField 0x04 CommunityField none (field.bytes 0x04 ++ rest) community behind)
    (same : community = some field.content)
    (pdu : CopiedField (0xa5 :: pduTypes) behind (some block) size) :
    field.form = .short ∧ behind = rest := by
  -- In long form the string that is read begins with the length bytes.
  rw [CodedField.bytes, LengthForm.element, List.cons_append, optionalField_present,
    List.append_assoc] at read
  cases read with
  | string string =>
    rw [Option.some.injEq] at same
    subst same
    by_cases short : field.form = .short
    · rw [CodedField.Fits, short] at fits
      rw [short] at string
      exact ⟨short, ((stringField_iff fits).mp string).2⟩
    · -- The digits of the length are taken for the first bytes, so as many are left behind.
      obtain ⟨bytes, length⟩ := stringField_octets string
      have full : field.form.digits field.content.length ≠ [] := by
        cases form : field.form with
        | short => exact absurd form short
        | one => exact List.cons_ne_nil _ _
        | two => exact List.cons_ne_nil _ _
      obtain ⟨head, more, rfl, member⟩ := head_of_rotated full bytes
      exact absurd pdu.of_some.1 (digits_not_tag short length head member)

/-- A message that is received with its community has its version and community in short form. -/
theorem LegalMessage.of_messageLayout (sent : LegalMessage) {stale block : List UInt8}
    {message : SnmpMessageRx}
    (layout : MessageLayout (recvData sent.coded.bytes stale) (some message))
    (community : message.community = some sent.coded.community.content)
    (present : message.snmpPdu = some block) :
    sent.coded.versionForm = .short ∧ sent.coded.community.form = .short ∧
      ∃ length content behind,
        sent.coded.pduForm.octets sent.coded.pdu.length ++ (sent.coded.pdu ++ 0 :: stale) =
          length :: (content ++ behind) ∧
        content.length = length.toNat ∧
        block = sent.coded.pduTag :: length :: (content ++ [0]) := by
  -- The version is read behind the length, then the community, and then the rest.
  have shape : recvData sent.coded.bytes stale =
      0x30 :: (sent.coded.form.octets sent.coded.content.length ++
        (sent.coded.versionForm.element 0x02 [0x00] ++ (sent.coded.community.bytes 0x04 ++
          (sent.coded.pduTag :: (sent.coded.pduForm.octets sent.coded.pdu.length ++
            (sent.coded.pdu ++ 0 :: stale)))))) := by
    simp only [recvData, CodedMessage.bytes, CodedMessage.content, LengthForm.element,
      List.cons_append, List.append_assoc]
  rw [shape] at layout
  generalize outcome : some message = received at layout
  cases layout with
  | @fields _ _ _ _ length version _ _ _ lengthField versionField communityField pduField =>
    split at outcome
    · cases outcome
    · rename_i first
      cases outcome
      rw [Classical.not_not] at first
      dsimp only at community present
      rw [present] at pduField
      -- Each field ends where the next one begins.
      obtain rfl := lengthField_behind sent.legal.fits lengthField
      obtain ⟨versionForm, rfl⟩ := versionField_coded versionField first
      obtain ⟨communityForm, rfl⟩ :=
        communityField_coded sent.legal.communityFits communityField community pduField
      exact ⟨versionForm, communityForm, pduField.of_some.2⟩

/-- The numbers of a PDU that a received request agrees with are those that it can hold. -/
theorem Agrees.numbers {coded : CodedMessage} {request : RequestRx}
    (agrees : Agrees coded.message request) :
    (-2 ^ 31 ≤ twosComplement coded.requestId.content ∧
        twosComplement coded.requestId.content < 2 ^ 31) ∧
      (0 ≤ twosComplement coded.errorStatus.content ∧
        twosComplement coded.errorStatus.content < 256) ∧
      (0 ≤ twosComplement coded.errorIndex.content ∧
        twosComplement coded.errorIndex.content < 256) := by
  -- The request id is a word, and the error fields are bytes.
  have requestId : request.pdu.requestId.toInt = twosComplement coded.requestId.content :=
    agrees.requestId
  have error : (request.pdu.error.toNat : Int) = twosComplement coded.errorStatus.content :=
    agrees.error
  have errorIndex : (request.pdu.errorIndex.toNat : Int) =
    twosComplement coded.errorIndex.content := agrees.errorIndex
  have errorByte := request.pdu.error.toNat_lt
  have indexByte := request.pdu.errorIndex.toNat_lt
  rw [← requestId]
  exact ⟨⟨request.pdu.requestId.le_toInt, request.pdu.requestId.toInt_lt⟩, by omega, by omega⟩

/-- The content of a PDU with what is behind it, field by field. -/
theorem CodedMessage.pdu_append (coded : CodedMessage) (rest : List UInt8) :
    coded.pdu ++ rest = coded.requestId.bytes 0x02 ++ (coded.errorStatus.bytes 0x02 ++
      (coded.errorIndex.bytes 0x02 ++ (0x30 :: (coded.listForm.octets coded.list.length ++
        (coded.list ++ rest))))) := by
  simp only [CodedMessage.pdu, LengthForm.element, List.cons_append, List.append_assoc]

/-- A PDU whose length was understood is received when all lengths in it are in short form. -/
theorem LegalMessage.of_pduLayout (sent : LegalMessage) {length : UInt8} {list : List UInt8}
    {request : RequestRx} (agrees : Agrees sent.coded.message request)
    (layout : PduLayout (sent.coded.pduTag :: length :: (sent.coded.pdu ++ [0]))
      (some request.pdu))
    (small : sent.coded.pdu.length < 128) (bound : request.pdu.varbindings = some list) :
    (∀ number ∈ sent.coded.numbers, number.form = .short) ∧
      Readable (twosComplement sent.coded.requestId.content) ∧ sent.coded.listForm = .short ∧
      list = Ber.element 0x30 sent.coded.list ++ [0] := by
  -- The three numbers are gone through in order, and each was read as it is meant.
  obtain ⟨⟨low, high⟩, error, errorIndex⟩ := agrees.numbers
  have minimal := sent.legal.numbers
  simp only [CodedMessage.numbers, List.mem_cons, List.not_mem_nil, or_false, forall_eq_or_imp,
    forall_eq] at minimal
  obtain ⟨⟨_, idMinimal⟩, ⟨_, errorMinimal⟩, _, indexMinimal⟩ := minimal
  obtain ⟨errorWord, indexWord, behindId, behindError, behindIndex, idField, errorField,
    indexField, listField, errorByte, indexByte⟩ := layout.of_some
  rw [bound] at listField
  rw [sent.coded.pdu_append] at idField
  have idValue : request.pdu.requestId.toInt = twosComplement sent.coded.requestId.content :=
    agrees.requestId
  have errorValue : (request.pdu.error.toNat : Int) =
    twosComplement sent.coded.errorStatus.content := agrees.error
  have indexValue : (request.pdu.errorIndex.toNat : Int) =
    twosComplement sent.coded.errorIndex.content := agrees.errorIndex
  -- Where a number goes astray, the list is not found any more.
  rcases number_coded idMinimal low high idField (fun four => by rw [← idValue, four]; rfl) with
    ⟨idForm, idWord, rfl⟩ | astray
  · rcases number_coded errorMinimal (by omega) (by omega) errorField
      (fun four => by rw [← errorValue, errorByte, four]; rfl) with ⟨errorForm, _, rfl⟩ | astray
    · rcases number_coded indexMinimal (by omega) (by omega) indexField
        (fun four => by rw [← indexValue, indexByte, four]; rfl) with ⟨indexForm, _, rfl⟩ | astray
      · rw [idWord, toInt_shiftedWord_iff idMinimal low high] at idValue
        obtain ⟨_, first, content, rest, shape, size, rfl⟩ := listField.of_some
        rw [LengthForm.octets, List.cons_append, List.cons.injEq] at shape
        obtain ⟨rfl, shape⟩ := shape
        have total := congrArg List.length (sent.coded.pdu_append [])
        have sizes := congrArg List.length shape
        simp only [List.length_append, List.length_cons, List.length_nil, LengthForm.octets]
          at total sizes
        have listForm : sent.coded.listForm = .short := by
          by_contra long
          have far := (long_first long sent.coded.list.length).1
          omega
        have listFits := sent.legal.listFits
        have none : LengthForm.short.digits sent.coded.list.length = [] := rfl
        rw [listForm] at shape size listFits
        rw [short_first listFits] at size
        rw [none, List.nil_append] at shape
        obtain ⟨rfl, _⟩ := List.append_inj shape size.symm
        refine ⟨?_, idValue.imp (fun nonneg => ⟨nonneg, high⟩) fun wide => ⟨low, wide⟩, listForm,
          by rw [listForm]; rfl⟩
        simp only [CodedMessage.numbers, List.mem_cons, List.not_mem_nil, or_false,
          forall_eq_or_imp, forall_eq]
        exact ⟨idForm, errorForm, indexForm⟩
      · exact absurd listField astray.list
    · rw [astray.number indexField] at listField
      exact absurd listField astray.list
  · rw [astray.number errorField] at indexField
    rw [astray.number indexField] at listField
    exact absurd listField astray.list

/-- A copied block is at most one byte longer than what it was copied from. -/
theorem CopiedField.length_le {tags bytes block : List UInt8} {size : Nat}
    (field : CopiedField tags bytes (some block) size) : block.length ≤ bytes.length + 1 := by
  -- The block has a zero behind its content.
  cases field with
  | present =>
    simp only [List.length_cons, List.length_append, List.length_nil]
    omega

/-- The bindings of a block are credible entries. -/
theorem ListLayout.credible {block : List UInt8} {varbindList : VarbindListRx}
    (layout : ListLayout block varbindList) :
    ∀ entry ∈ varbindList.varbindList, Credible entry := by
  -- The list starts without entries, and every element adds a credible one.
  cases layout with
  | elements inside =>
    have credible := inside.credible (fun _ => nofun)
    exact fun entry member => credible entry (List.mem_reverse.mp member)

/-- A PDU that agrees with what is read from so few bytes is not much longer than these. -/
theorem LegalMessage.length_pdu_le (sent : LegalMessage) {bytes list : List UInt8}
    {request : RequestRx} (agrees : Agrees sent.coded.message request)
    (few : list.length ≤ bytes.length + 1) (third : ListLayout list request.varbindList) :
    sent.coded.pdu.length ≤ 3 * bytes.length + 31 := by
  -- The PDU is its three numbers and its list, and each of them is bounded.
  obtain ⟨⟨low, high⟩, error, errorIndex⟩ := agrees.numbers
  have minimal := sent.legal.numbers
  simp only [CodedMessage.numbers, List.mem_cons, List.not_mem_nil, or_false, forall_eq_or_imp,
    forall_eq] at minimal
  -- The numbers take few bytes, and the list no more than what it was read from allows.
  have id := (length_of_minimal minimal.1.2 low high).2
  have status := (length_of_minimal minimal.2.1.2 (by omega) (by omega)).2
  have index := (length_of_minimal minimal.2.2.2 (by omega) (by omega)).2
  have weight := third.weights
  have bindings := length_bindings_le sent.legal.bindings third.credible agrees.list
  have list : sent.coded.list.length ≤ weights request.varbindList.varbindList := bindings
  have total := congrArg List.length (sent.coded.pdu_append [])
  have digits := sent.coded.listForm.length_digits_le sent.coded.list.length
  have idSize := sent.coded.requestId.form.length_element_le 0x02 sent.coded.requestId.content
  have statusSize :=
    sent.coded.errorStatus.form.length_element_le 0x02 sent.coded.errorStatus.content
  have indexSize := sent.coded.errorIndex.form.length_element_le 0x02 sent.coded.errorIndex.content
  simp only [List.length_append, List.length_cons, List.length_nil, LengthForm.octets,
    CodedField.bytes] at total
  omega

/-- A length that is taken for the tag of a list makes the tag of the request id its length. -/
theorem LegalMessage.list_of_length (sent : LegalMessage) {inner behind stale list : List UInt8}
    {request : RequestRx} {size : Nat} (agrees : Agrees sent.coded.message request)
    (shape : sent.coded.pdu ++ 0 :: stale = inner ++ behind) (enough : 4 ≤ inner.length)
    (listField : CopiedField [0x30] (0x30 :: (inner ++ [0])) (some list) size) :
    ¬ ListLayout list request.varbindList := by
  -- The tag of the request id is taken for the length of the list, which so has two bytes.
  intro third
  obtain ⟨⟨low, high⟩, _⟩ := agrees.numbers
  have minimal := sent.legal.numbers
  simp only [CodedMessage.numbers, List.mem_cons, List.not_mem_nil, or_false, forall_eq_or_imp,
    forall_eq] at minimal
  have four := (length_of_minimal minimal.1.2 low high).2
  obtain ⟨first, inner, rfl⟩ := List.exists_cons_of_length_pos (by omega : 0 < inner.length)
  rw [List.length_cons] at enough
  obtain ⟨second, inner, rfl⟩ := List.exists_cons_of_length_pos (by omega : 0 < inner.length)
  rw [sent.coded.pdu_append, CodedField.bytes, LengthForm.element, LengthForm.octets,
    List.cons_append, List.cons_append, List.cons_append, List.cons_append, List.cons_append,
    List.cons.injEq, List.cons.injEq] at shape
  obtain ⟨rfl, rfl, _⟩ := shape
  obtain ⟨_, length, content, rest, split, count, rfl⟩ := listField.of_some
  rw [List.cons_append, List.cons.injEq] at split
  obtain ⟨rfl, split⟩ := split
  -- Two bytes are copied, and the first of them is the length of the request id.
  have two : content.length = 2 := count
  obtain ⟨one, other, rfl⟩ := List.exists_cons_of_length_pos (by omega : 0 < content.length)
  obtain ⟨rfl, _⟩ := List.cons.inj split
  generalize request.varbindList = received at third
  cases third with
  | elements inside =>
    obtain ⟨_, _, _, _, _, _, element, _⟩ := inside.of_open (by decide)
    have byte := congrArg UInt8.toNat (List.cons.inj element).1
    have mark : (0x30 : UInt8).toNat = 48 := rfl
    by_cases short : sent.coded.requestId.form = .short
    · rw [short, short_first (Nat.lt_of_le_of_lt four (by decide))] at byte
      omega
    · have far := (long_first short sent.coded.requestId.content.length).1
      omega

/-- A PDU whose length is in long form is not received as it is meant. -/
theorem LegalMessage.pduForm_short (sent : LegalMessage) {length : UInt8}
    {list content behind stale : List UInt8} {request : RequestRx}
    (agrees : Agrees sent.coded.message request)
    (shape : sent.coded.pduForm.octets sent.coded.pdu.length ++ (sent.coded.pdu ++ 0 :: stale) =
      length :: (content ++ behind))
    (size : content.length = length.toNat)
    (layout : PduLayout (sent.coded.pduTag :: length :: (content ++ [0])) (some request.pdu))
    (bound : request.pdu.varbindings = some list)
    (third : ListLayout list request.varbindList) : sent.coded.pduForm = .short := by
  -- The long length is followed through what the decoder takes it for, up to a contradiction.
  by_contra long
  rw [LengthForm.octets, List.cons_append, List.cons.injEq] at shape
  obtain ⟨rfl, shape⟩ := shape
  have first := long_first long sent.coded.pdu.length
  obtain ⟨_, _, behindId, behindError, behindIndex, idField, errorField, indexField, listField,
    _, _⟩ := layout.of_some
  rw [bound] at listField
  -- The list has few bytes, so the PDU is too short to begin with a tag when two bytes count it.
  have fewer := length_behind_number idField
  have afterError := length_behind_number errorField
  have afterIndex := length_behind_number indexField
  have most := sent.length_pdu_le agrees listField.length_le third
  have least := sent.coded.listForm.le_length_element 0x30 sent.coded.list
  have total := congrArg List.length (sent.coded.pdu_append [])
  have id := sent.coded.requestId.form.le_length_element 0x02 sent.coded.requestId.content
  have fits := sent.legal.pduFits
  simp only [List.length_append, List.length_cons, List.length_nil, LengthForm.octets,
    CodedField.bytes] at total fewer
  have apart : ¬ Astray (content ++ [0]) := by
    intro astray
    rw [astray.number idField] at errorField
    rw [astray.number errorField] at indexField
    rw [astray.number indexField] at listField
    exact astray.list listField
  obtain ⟨head, inner, rfl⟩ := List.exists_cons_of_length_pos (by omega : 0 < content.length)
  have values : head.toNat = 2 ∨ head.toNat = 48 := by
    by_contra other
    refine apart ⟨head, inner ++ [0], rfl, ?_, ?_⟩
    · rintro rfl
      exact other (.inl rfl)
    · rintro rfl
      exact other (.inr rfl)
  cases form : sent.coded.pduForm with
  | short => exact long form
  | two =>
    rw [form] at shape
    have same := congrArg UInt8.toNat (List.cons.inj shape).1
    rw [UInt8.toNat_ofNat'] at same
    omega
  | one =>
    rw [form] at shape fits
    have small : sent.coded.pdu.length < 256 := fits
    obtain ⟨same, inside⟩ := List.cons.inj shape
    have byte := congrArg UInt8.toNat same
    rw [UInt8.toNat_ofNat'] at byte
    have mark : head = 0x30 := UInt8.toNat_inj.mp (values.resolve_left (by omega))
    subst mark
    -- No number is found at the length, which is taken for the tag of the list.
    obtain ⟨_, rfl⟩ := (optionalField_missing (by decide)).mp idField
    obtain ⟨_, rfl⟩ := (optionalField_missing (by decide)).mp errorField
    obtain ⟨_, rfl⟩ := (optionalField_missing (by decide)).mp indexField
    rw [List.length_cons] at size
    exact sent.list_of_length agrees inside (by omega) listField third

/-- Bindings that entries agree with can be received. -/
theorem sound_of_matches {bindings : List CodedBinding} {entries : List Varbind}
    (legal : ∀ binding ∈ bindings, binding.Legal) (credible : ∀ entry ∈ entries, Credible entry)
    (agree : List.Forall₂ Matches (bindings.map CodedBinding.binding) entries) :
    ∀ binding ∈ bindings, binding.Sound := by
  induction bindings generalizing entries with
  | nil => exact fun _ => nofun
  | cons first rest ih =>
    cases agree with
    | @cons _ entry _ entries matched others =>
      intro binding member
      -- The first binding has the first entry, and the others have those behind it.
      rcases List.mem_cons.mp member with rfl | later
      · exact matched.sound (legal _ List.mem_cons_self) (credible entry List.mem_cons_self)
      · exact ih (fun other later => legal other (List.mem_cons_of_mem _ later))
          (fun other later => credible other (List.mem_cons_of_mem _ later)) others binding later

/-- A message that is received as it is meant is plain. -/
theorem LegalMessage.plain_of_received (sent : LegalMessage) {stale : List UInt8}
    {request : RequestRx}
    (received : receiveRequest (recvData sent.coded.bytes stale) = .ok (some request))
    (agrees : Agrees sent.coded.message request) : sent.Plain := by
  -- The layout of what was received is taken apart: the message, the PDU and the list.
  have layout := receiveRequest_eq_ok.mp received
  cases layout with
  | complete first present second bound third =>
    -- Each part is copied as a whole only when its length is in short form.
    obtain ⟨version, community, length, content, behind, shape, size, rfl⟩ :=
      sent.of_messageLayout first agrees.community present
    have pduForm := sent.pduForm_short agrees shape size second bound third
    have pduFits := sent.legal.pduFits
    rw [pduForm] at shape pduFits
    have none : LengthForm.short.digits sent.coded.pdu.length = [] := rfl
    rw [LengthForm.octets, none, List.singleton_append, List.cons.injEq] at shape
    obtain ⟨rfl, inside⟩ := shape
    rw [short_first pduFits] at size
    obtain ⟨rfl, _⟩ := List.append_inj inside size.symm
    obtain ⟨numbers, requestId, listForm, rfl⟩ := sent.of_pduLayout agrees second pduFits bound
    have listFits := sent.legal.listFits
    rw [listForm] at listFits
    refine ⟨version, community, pduForm, numbers, listForm, requestId, ?_, ?_⟩
    · simp only [List.mem_cons, List.not_mem_nil, or_false, forall_eq_or_imp, forall_eq]
      exact agrees.numbers.2
    · have matched := agrees.list
      have credible := third.credible
      cases third with
      | @elements _ _ varbinds inside =>
        rw [toNat_length listFits] at inside
        have sound := sound_of_matches sent.legal.bindings credible matched
        have count := matched.length_eq
        refine (plainBindings_of_elements listFits sent.coded.bindings 0 [] varbinds
          (fun binding member => ⟨sent.legal.bindings binding member, sound binding member⟩)
          (Nat.zero_add _).symm inside ⟨?_, ?_⟩).1
        · rw [List.length_reverse] at count
          rw [← count, CodedMessage.message, List.length_map, List.length_nil, Nat.zero_add]
        · rintro new rfl
          rw [List.append_nil, List.reverse_reverse] at matched
          exact matched

/-- An error field that is not too large for a byte is stored as it is. -/
theorem toNat_errorByte {content : List UInt8} (minimal : Minimal content)
    (low : 0 ≤ twosComplement content) (high : twosComplement content < 256) :
    (1 ≤ content.length ∧ content.length ≤ 4) ∧
      ((lowByte (shiftedWord content)).toNat : Int) = twosComplement content := by
  have readable : Readable (twosComplement content) := .inl ⟨low, by omega⟩
  obtain ⟨size, word⟩ := readable.word minimal
  refine ⟨size, ?_⟩
  -- The word is not negative and below 256, so nothing of it is lost in the byte.
  rw [toNat_lowByte]
  have bound := (shiftedWord content).isLt
  rw [BitVec.toInt_eq_toNat_cond] at word
  split at word <;> omega

/-- A plain message is received as it is meant. -/
theorem LegalMessage.received_of_plain (sent : LegalMessage) (plain : sent.Plain)
    (stale : List UInt8) :
    ∃ request, receiveRequest (recvData sent.coded.bytes stale) = .ok (some request) ∧
      Agrees sent.coded.message request := by
  -- The layouts of the three parts are put together from the inside.
  have legal := sent.legal
  have minimal := legal.numbers
  have forms := plain.numbers
  have errors := plain.errors
  simp only [CodedMessage.numbers, List.mem_cons, List.not_mem_nil, or_false, forall_eq_or_imp,
    forall_eq] at minimal forms errors
  have communityFits := legal.communityFits
  rw [CodedField.Fits, plain.community] at communityFits
  have pduFits := legal.pduFits
  rw [plain.pdu] at pduFits
  have listFits := legal.listFits
  rw [plain.list] at listFits
  obtain ⟨idSize, idWord⟩ := plain.requestId.word minimal.1.2
  obtain ⟨errorSize, errorByte⟩ := toNat_errorByte minimal.2.1.2 errors.1.1 errors.1.2
  obtain ⟨indexSize, indexByte⟩ := toNat_errorByte minimal.2.2.2 errors.2.1 errors.2.2
  -- The list, the PDU and the message are complete, and each is copied with a zero behind it.
  obtain ⟨new, inside, matched⟩ := elements_of_plainBindings listFits sent.coded.bindings 0 []
    legal.bindings plain.bindings (Nat.zero_add _).symm [0]
  have list : ListLayout (element 0x30 sent.coded.list ++ [0])
      ⟨(UInt8.ofNat sent.coded.list.length).toNat, (new.reverse ++ []).reverse⟩ := by
    refine .elements ?_
    rw [toNat_length listFits]
    exact inside
  have listField : CopiedField [0x30] (element 0x30 sent.coded.list ++ [0])
      (some (element 0x30 sent.coded.list ++ [0])) (UInt8.ofNat sent.coded.list.length).toNat :=
    .present [0] (by decide) (toNat_length listFits).symm
  have pdu := (@pduLayout_numbers sent.coded.pduTag (UInt8.ofNat sent.coded.pdu.length) _ _ _ _ _
    legal.known (by
      simp only [List.mem_cons, List.not_mem_nil, or_false, forall_eq_or_imp, forall_eq]
      exact ⟨idSize, errorSize, indexSize⟩)).mpr ⟨_, _, listField, rfl⟩
  have pduShape : element sent.coded.pduTag sent.coded.pdu ++ [0] = sent.coded.pduTag ::
      UInt8.ofNat sent.coded.pdu.length :: (element 0x02 sent.coded.requestId.content ++
        (element 0x02 sent.coded.errorStatus.content ++
          (element 0x02 sent.coded.errorIndex.content ++
            (element 0x30 sent.coded.list ++ [0])))) := by
    rw [element, List.cons_append, List.cons_append, CodedMessage.pdu_append, CodedField.bytes,
      CodedField.bytes, CodedField.bytes, forms.1, forms.2.1, forms.2.2, plain.list]
    rfl
  rw [← pduShape] at pdu
  obtain ⟨length, lengthField⟩ := lengthField_octets sent.coded.form legal.fits
    (element 0x02 [0x00] ++ (element 0x04 sent.coded.community.content ++
      (element sent.coded.pduTag sent.coded.pdu ++ 0 :: stale)))
  have message := MessageLayout.fields lengthField
    (.present (.integer (@integerField_content [0x00] (by decide) _)))
    (.present (.string (stringField_content communityFits _)))
    (.present (0 :: stale) (List.mem_cons_of_mem _ legal.known) (toNat_length pduFits).symm)
  have shape : recvData sent.coded.bytes stale =
      0x30 :: (sent.coded.form.octets sent.coded.content.length ++ (element 0x02 [0x00] ++
        (element 0x04 sent.coded.community.content ++
          (element sent.coded.pduTag sent.coded.pdu ++ 0 :: stale)))) := by
    rw [recvData, CodedMessage.bytes, LengthForm.element, CodedMessage.content, plain.version,
      CodedField.bytes, plain.community, plain.pdu, LengthForm.element_short,
      LengthForm.element_short, LengthForm.element_short]
    simp only [List.cons_append, List.append_assoc]
  rw [← shape] at message
  refine ⟨_, receiveRequest_eq_ok.mpr (.complete message rfl pdu rfl list), rfl, idWord, errorByte,
    indexByte, ?_⟩
  rw [List.append_nil, List.reverse_reverse]
  exact matched

/--
A legal message is read by the rules as what it codes, whatever the forms of its lengths are, and
the agent receives the same just when it is plain.

The buffer may hold anything behind the message.
-/
theorem received_iff_plain (sent : LegalMessage) (stale : List UInt8) :
    readMessage sent.coded.bytes = some sent.coded.message ∧
      ((∃ request, receiveRequest (recvData sent.coded.bytes stale) = .ok (some request) ∧
        Agrees sent.coded.message request) ↔ sent.Plain) := by
  -- The rules read every form, and the agent the short one as far as it is asked for.
  refine ⟨sent.readMessage_bytes, ?_, fun plain => sent.received_of_plain plain stale⟩
  rintro ⟨request, received, agrees⟩
  exact sent.plain_of_received received agrees

/-- A request whose PDU has its length in long form. -/
def longPdu : LegalMessage where
  coded :=
    { form := .short
      versionForm := .short
      community := ⟨.short, ascii "public"⟩
      pduTag := 0xa0
      pduForm := .one
      requestId := ⟨.short, [0x01]⟩
      errorStatus := ⟨.short, [0x00]⟩
      errorIndex := ⟨.short, [0x00]⟩
      listForm := .short
      bindings := [⟨.short, ⟨.short, [0x2b, 6, 1, 2, 1, 1, 1, 0]⟩, 0x05, ⟨.short, []⟩⟩] }
  legal :=
    { fits := by decide
      communityFits := by decide
      known := by decide
      pduFits := by decide
      numbers := by
        simp only [CodedMessage.numbers, List.mem_cons, List.not_mem_nil, or_false,
          forall_eq_or_imp, forall_eq]
        exact ⟨⟨by decide, trivial⟩, ⟨by decide, trivial⟩, by decide, trivial⟩
      listFits := by decide
      bindings := by
        simp only [List.mem_singleton, forall_eq]
        exact ⟨by decide, by decide, by decide, ⟨43, [6, 1, 2, 1, 1, 1, 0], by decide, by decide⟩,
          .null⟩
      size := by decide }

/-- The buffer is empty behind it. -/
def longPduRest : List UInt8 := List.replicate (2047 - longPdu.coded.bytes.length) 0

/-- Its list is not found, and the agent follows a null pointer. -/
theorem longPdu_not_received : ¬ ∀ (sent : LegalMessage) (stale : List UInt8),
    ∃ request, receiveRequest (recvData sent.coded.bytes stale) = .ok (some request) ∧
      Agrees sent.coded.message request := by
  intro claim
  obtain ⟨request, received, _⟩ := claim longPdu longPduRest
  -- The length of the PDU is no INTEGER and no list, so the pointer to the list stays null.
  have fault : receiveRequest (recvData longPdu.coded.bytes longPduRest) =
      .error .nullPointer := by decide +kernel
  rw [fault] at received
  cases received

end OpenwrtMisc.SnmpAgent
