import OpenwrtMisc.SnmpAgent.Coding
import OpenwrtMisc.SnmpAgent.Identifiers
import OpenwrtMisc.SnmpAgent.Numbers

/-! When a received request agrees with a message, and what any request that does so tells. -/

namespace OpenwrtMisc.SnmpAgent

open Ber

/-- The dotted text of the content of an OID. -/
def nameText (content : List UInt8) : Option (List UInt8) :=
  match subidentifiers none content with
  | some (shared :: arcs) =>
    -- There are three roots, and only the last one has many numbers below it.
    let root := min (shared / 40) 2
    some (decimal root ++ dottedText ((shared - 40 * root) :: arcs))
  | _ => none

/-- A stored value is what an element denotes; the program has no value for the other types. -/
inductive Reads : Tlv → Value → Prop
  | integer {content : List UInt8} {word : BitVec 32}
    (value : word.toInt = twosComplement content) : Reads ⟨primvInt, content⟩ (.word word)
  | octets (content : List UInt8) : Reads ⟨primvOctstr, content⟩ (.string content)
  | null : Reads ⟨primvNull, []⟩ (.word 0)
  | objectId {content text : List UInt8} (name : nameText content = some text) :
    Reads ⟨primvObjid, content⟩ (.string text)
  | application {tag : UInt8} (known : tag ∈ applicationTags) (content : List UInt8)
    (value : Value) : Reads ⟨tag, content⟩ value

/-- An entry has the OID, the type and the value of a binding. -/
structure Matches (binding : Binding) (entry : Varbind) : Prop where
  name : nameText binding.oid = some entry.oid
  dataType : entry.dataType = binding.value.tag
  value : Reads binding.value entry.value

/--
A received request has the community, the request id, the error fields and the list.

The community is compared as a whole block, zero bytes included, though the agent later takes it
for a C string.
-/
structure Agrees (message : Message) (request : RequestRx) : Prop where
  community : request.message.community = some message.community
  requestId : request.pdu.requestId.toInt = twosComplement message.requestId
  error : (request.pdu.error.toNat : Int) = twosComplement message.errorStatus
  errorIndex : (request.pdu.errorIndex.toNat : Int) = twosComplement message.errorIndex
  list : List.Forall₂ Matches message.bindings request.varbindList.varbindList

/-- An OID below 1.3 whose numbers and text fit the buffers of the decoder. -/
def Printable (content : List UInt8) : Prop :=
  ∃ arcs, content = oidOctets arcs ∧ (∀ arc ∈ arcs, arc < 1000000) ∧
    (oidText arcs).length < oidTextSize

/-- A text that the decoder prints. -/
def PrintedText (text : List UInt8) : Prop :=
  ∃ first words, text = oidPrefix first ++ words.flatMap dotted ∧ TextFits (oidPrefix first) words

/-- An entry as the loop over the list makes it. -/
structure Credible (entry : Varbind) : Prop where
  oid : PrintedText entry.oid
  dataType : entry.dataType = 0 ∨ entry.dataType ∈ primitiveTypes
  value : entry.dataType = primvObjid → ∀ text, entry.value = .string text → PrintedText text

/-- The text of an OID that the decoder reads is printed by it. -/
theorem OidField.printed {bytes text rest : List UInt8} (field : OidField bytes text rest) :
    PrintedText text := by
  -- The text is put together from the node bytes, and fits its buffer.
  cases field with
  | sized _ _ fits => exact ⟨_, _, rfl, fits⟩

/-- The name of an element makes a credible entry. -/
theorem NameField.credible {varbinds named : List Varbind} {bytes rest : List UInt8}
    (field : NameField varbinds bytes named rest) (before : ∀ entry ∈ varbinds, Credible entry) :
    ∀ entry ∈ named, Credible entry := by
  cases field with
  | present field =>
    intro entry member
    rcases List.mem_cons.mp member with rfl | earlier
    · exact ⟨field.printed, .inl rfl, fun objid => absurd objid (show 0 ≠ primvObjid by decide)⟩
    · exact before entry earlier
  -- Without a name the entries are those that were there before.
  | missing => exact before

/-- The value of an element keeps the entries credible. -/
theorem ValueField.credible {varbinds valued : List Varbind} {bytes rest : List UInt8}
    (field : ValueField varbinds bytes valued rest) (before : ∀ entry ∈ varbinds, Credible entry) :
    ∀ entry ∈ valued, Credible entry := by
  -- Only a value that is stored changes the list, and then its last entry.
  cases field with
  | stored last earlier primitive =>
    intro entry member
    rcases List.mem_cons.mp member with rfl | other
    · refine ⟨(before last List.mem_cons_self).oid, .inr primitive.known, fun objid text same => ?_⟩
      -- Only the last of the types stores the text of an OID.
      cases primitive with
      | oid field =>
        cases same
        exact field.printed
      | integer => cases same
      | octets => exact absurd objid (show primvOctstr ≠ primvObjid by decide)
      | null => cases same
    · exact before entry (List.mem_cons_of_mem _ other)
  | skipped => exact before

/-- All entries of a list are credible. -/
theorem Elements.credible {limit counted : Nat} {varbinds final : List Varbind}
    {bytes : List UInt8} (elements : Elements limit counted varbinds bytes final)
    (before : ∀ entry ∈ varbinds, Credible entry) : ∀ entry ∈ final, Credible entry := by
  -- The induction is on the elements, each of which adds at most one entry and sets its value.
  induction elements with
  | done => exact before
  | element _ name value _ ih => exact ih (value.credible (name.credible before))

/-- The numbers of two texts of one number are the same. -/
theorem decimal_injective : Function.Injective decimal := by
  -- The number is read back from its text.
  intro first second same
  have numbers := congrArg atoi same
  rw [atoi_decimal, atoi_decimal] at numbers
  exact_mod_cast numbers

/-- The text of an OID below 1.3. -/
theorem nameText_oidOctets (arcs : List Nat) : nameText (oidOctets arcs) = some (oidText arcs) := by
  -- The first byte stands for the first two numbers, and is the group of 43.
  have shared : oidOctets arcs = (43 :: arcs).flatMap base128 := by
    rw [List.flatMap_cons, base128_small (by decide)]
    rfl
  rw [nameText, shared, subidentifiers_base128]
  rfl

/-- An OID whose text is printed by the decoder is one that the decoder can print. -/
theorem PrintedText.printable {content text : List UInt8} (printed : PrintedText text)
    (oid : IsOid content) (name : nameText content = some text) :
    ∃ arcs, content = oidOctets arcs ∧ text = oidText arcs ∧ (∀ arc ∈ arcs, arc < 1000000) ∧
      (oidText arcs).length < oidTextSize := by
  -- The text says which numbers were read, and how they were printed.
  obtain ⟨shared, arcs, _, rfl⟩ := oid
  obtain ⟨first, words, rfl, fits⟩ := printed
  simp only [nameText, subidentifiers_base128, Option.some.injEq] at name
  by_cases known : first = 0x2b
  · -- With the prefix the texts are split into their numbers.
    have start : oidPrefix first = decimal 1 ++ dot :: formatInt 3 := by
      rw [oidPrefix, if_pos known]
      decide
    have whole : oidPrefix first ++ words.flatMap dotted = decimal 1 ++
        (3 :: words.map BitVec.toInt).flatMap fun value => dot :: formatInt value := by
      rw [start, flatMap_dotted_signed, List.flatMap_cons, List.append_assoc]
    have tokens := strtok_dotted (decimal 1) (by decide) (by decide)
      (3 :: words.map BitVec.toInt)
    rw [← whole, ← name, strtok_dottedText, List.map_cons, List.map_cons, List.cons.injEq,
      List.cons.injEq] at tokens
    obtain ⟨root, below, others⟩ := tokens
    -- The first two numbers are 1 and 3, so the shared subidentifier is 43.
    have one := decimal_injective root
    have three : shared - 40 * min (shared / 40) 2 = 3 :=
      decimal_injective (below.trans (formatInt_natCast 3))
    have both : shared = 43 := by omega
    subst both
    have text : decimal (min (43 / 40) 2) ++
        dottedText ((43 - 40 * min (43 / 40) 2) :: arcs) = oidText arcs := rfl
    rw [text] at name
    have shape : (43 :: arcs).flatMap base128 = oidOctets arcs := by
      rw [List.flatMap_cons, base128_small (by decide)]
      rfl
    refine ⟨arcs, shape, name.symm, fun arc member => ?_, ?_⟩
    · have token : decimal arc ∈ (words.map BitVec.toInt).map formatInt :=
        others ▸ List.mem_map_of_mem member
      rw [List.map_map, List.mem_map] at token
      obtain ⟨word, found, same⟩ := token
      have short := fits.number word found
      -- What fits the buffer of a number has six digits at most.
      rw [dotted, List.length_cons, numberSize] at short
      rw [Function.comp_apply] at same
      rw [same] at short
      exact (@length_decimal_le_iff arc 6 (by decide)).mp (by omega)
    · rw [name]
      exact fits.whole
  · -- Without it the text begins with a dot, and that of an OID does not.
    rw [oidPrefix, if_neg known, List.nil_append] at name
    have plain : dot ∉ decimal (min (shared / 40) 2) :=
      formatInt_natCast (min (shared / 40) 2) ▸ dot_not_mem_formatInt _
    have full := decimal_ne_nil (min (shared / 40) 2)
    cases digits : decimal (min (shared / 40) 2) with
    | nil => exact absurd digits full
    | cons digit rest =>
      rw [digits] at name plain
      cases words with
      | nil => cases name
      | cons word words =>
        rw [List.flatMap_cons, dotted, List.cons_append, List.cons_append, List.cons.injEq] at name
        exact absurd (name.1 ▸ List.mem_cons_self) plain

/-- What is known of a binding that an entry agrees with. -/
structure CodedBinding.Sound (coded : CodedBinding) : Prop where
  name : Printable coded.name.content
  known : coded.valueTag ∈ primitiveTypes
  integer : coded.valueTag = primvInt → -2 ^ 31 ≤ twosComplement coded.value.content ∧
    twosComplement coded.value.content < 2 ^ 31
  objectId : coded.valueTag = primvObjid → Printable coded.value.content

/-- The name of a binding that an entry agrees with. -/
theorem Matches.name_printable {coded : CodedBinding} {entry : Varbind} (legal : coded.Legal)
    (credible : Credible entry) (agrees : Matches coded.binding entry) :
    ∃ arcs, coded.name.content = oidOctets arcs ∧ entry.oid = oidText arcs ∧
      (∀ arc ∈ arcs, arc < 1000000) ∧ (oidText arcs).length < oidTextSize :=
  credible.oid.printable legal.name agrees.name

/-- A binding that an entry agrees with has a name, a type and a value that can be received. -/
theorem Matches.sound {coded : CodedBinding} {entry : Varbind} (legal : coded.Legal)
    (credible : Credible entry) (agrees : Matches coded.binding entry) : coded.Sound := by
  -- The name and the value of the entry are looked at for themselves.
  obtain ⟨arcs, octets, _, small, short⟩ := agrees.name_printable legal credible
  have dataType : entry.dataType = coded.valueTag := agrees.dataType
  have value := agrees.value
  have wellFormed := legal.value
  have known : coded.valueTag ∈ primitiveTypes := by
    rcases credible.dataType with none | known
    · -- No value has the tag zero.
      rw [← dataType, none] at wellFormed
      cases wellFormed with
      | application known => exact absurd known (by decide)
    · rwa [← dataType]
  -- The number is that of a word, and the OID one that was printed.
  refine ⟨⟨arcs, octets, small, short⟩, known, fun integer => ?_, fun objectId => ?_⟩
  · rw [CodedBinding.binding, integer] at value
    generalize entry.value = kept at value
    cases value with
    | @integer _ word same =>
      rw [← same]
      exact ⟨word.le_toInt, word.toInt_lt⟩
    | application known => exact absurd known (by decide)
  · rw [CodedBinding.binding, objectId] at value
    generalize stored : entry.value = kept at value
    cases value with
    | @objectId content text name =>
      have printed := credible.value (dataType.trans objectId) text stored
      obtain ⟨arcs, octets, _, small, short⟩ := printed.printable (wellFormed.isOid objectId) name
      exact ⟨arcs, octets, small, short⟩
    | application known => exact absurd known (by decide)

end OpenwrtMisc.SnmpAgent
