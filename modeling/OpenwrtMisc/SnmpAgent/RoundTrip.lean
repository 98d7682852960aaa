import Mathlib.Data.List.Forall2
import OpenwrtMisc.SnmpAgent.Assemble
import OpenwrtMisc.SnmpAgent.Numbers
import OpenwrtMisc.SnmpAgent.ObjectId
import OpenwrtMisc.SnmpAgent.Parse
import OpenwrtMisc.SnmpAgent.Request

/-! A list of bindings that is written is read back with the same names, types and values. -/

namespace OpenwrtMisc.SnmpAgent

open Ber

/-- An OID below 1.3 whose numbers and text fit the buffers of the decoder. -/
structure Oid where
  /-- The numbers behind 1.3. -/
  arcs : List Nat
  /-- Every number has at most six digits. -/
  small : ∀ arc ∈ arcs, arc < 1000000
  /-- The text is shorter than its buffer. -/
  short : (oidText arcs).length < 100

/-- A value that both sides know how to write and read. -/
inductive Datum
  /-- A word. -/
  | integer (value : BitVec 32)
  /-- A text without a zero in it. -/
  | octets (bytes : List UInt8) (plain : 0 ∉ bytes)
  /-- No value. -/
  | null
  /-- The text of an OID. -/
  | oid (value : Oid)

/-- A name and its value. -/
structure Item where
  /-- The OID of the binding. -/
  name : Oid
  /-- What is bound to it. -/
  datum : Datum

/-- The type tag of a value. -/
def Datum.dataType : Datum → UInt8
  | .integer _ => primvInt
  | .octets _ _ => primvOctstr
  | .null => primvNull
  | .oid _ => primvObjid

/-- What the value pointer of a binding leads to. -/
def Datum.value : Datum → Value
  | .integer value => .word value
  | .octets bytes _ => .string bytes
  | .null => .word 0
  | .oid name => .string (oidText name.arcs)

/-- The binding in memory. -/
def Item.varbind (item : Item) : Varbind :=
  ⟨oidText item.name.arcs, item.datum.dataType, item.datum.value⟩

/-- The bytes of an OID denote its numbers, also where the encoder writes a group too many. -/
theorem oidArcs_encodeArcLoop : ∀ (j : Nat) (value : BitVec 32) (pending : Nat)
    (written : List UInt8), (pending * 128 ^ j + value.toNat / 128 % 128 ^ j) * 128 < 2 ^ 32 →
    oidArcs (BitVec.ofNat 32 (pending * 128)) (encodeArcLoop j value written) =
      oidArcs (BitVec.ofNat 32 ((pending * 128 ^ j + value.toNat / 128 % 128 ^ j) * 128))
        written := by
  -- The group that is written last is read first, and the induction is on the others.
  intro j
  induction j with
  | zero =>
    intro value pending written _
    rw [encodeArcLoop, Nat.pow_zero, Nat.mod_one, Nat.mul_one, Nat.add_zero]
  | succ j ih =>
    intro value pending written fits
    have shifted := toNat_shift_group value
    have digits := digits_succ pending (value.toNat / 128) j
    generalize sum : pending * 128 ^ (j + 1) + value.toNat / 128 % 128 ^ (j + 1) = whole at *
    generalize high : pending * 128 ^ j + value.toNat / 128 / 128 % 128 ^ j = upper at *
    have continued : (0x80 : UInt8) ≤ UInt8.ofNat (value >>> 7 &&& 0x7f).toNat ||| 0x80 := by
      rw [UInt8.le_iff_toNat_le, toNat_continued]
      exact Nat.le_add_left _ _
    -- The mark is taken off again, which leaves the group.
    have group : ((UInt8.ofNat (value >>> 7 &&& 0x7f).toNat ||| 0x80) &&& 0x7f).toNat =
        value.toNat / 128 % 128 := by
      have mask : (0x7f : UInt8).toNat = 2 ^ 7 - 1 := rfl
      rw [UInt8.toNat_and, mask, Nat.and_two_pow_sub_one_eq_mod, toNat_continued, shifted]
      omega
    have next : BitVec.ofNat 32 whole <<< 7 = BitVec.ofNat 32 (whole * 128) := by
      apply BitVec.eq_of_toNat_eq
      rw [BitVec.toNat_shiftLeft, BitVec.toNat_ofNat, BitVec.toNat_ofNat, Nat.shiftLeft_eq]
      omega
    have before := ih (value >>> 7) pending
      ((UInt8.ofNat (value >>> 7 &&& 0x7f).toNat ||| 0x80) :: written)
      (by rw [shifted, high]; omega)
    rw [shifted, high] at before
    have order : upper * 128 + value.toNat / 128 % 128 = whole := by omega
    have step : encodeArcLoop (j + 1) value written = encodeArcLoop j (value >>> 7)
        ((UInt8.ofNat (value >>> 7 &&& 0x7f).toNat ||| 0x80) :: written) := rfl
    rw [step, before, oidArcs, if_pos continued, group,
      or_group _ _ (Nat.mod_lt _ (by decide)) (by omega), order, next]

/-- What the encoder writes for a number is decoded to that number. -/
theorem oidArcs_encodeArc (value : BitVec 32) (rest : List UInt8) :
    oidArcs 0 (encodeArc value ++ rest) = value :: oidArcs 0 rest := by
  -- The groups are read one by one, each shifted in behind the ones before it.
  have bound := toNat_lt_oidItemLength value
  have word := value.isLt
  have positive := oidItemLength_pos value
  have low := toNat_group value
  -- All groups above the lowest one are there, since there are enough of them.
  have high : value.toNat / 128 < 128 ^ (oidItemLength value - 1) := by
    have step : 128 ^ oidItemLength value = 128 ^ (oidItemLength value - 1) * 128 := by
      rw [← Nat.pow_succ, Nat.succ_eq_add_one, Nat.sub_add_cancel positive]
    rw [step] at bound
    omega
  have last : ¬ 0x80 ≤ UInt8.ofNat (value &&& 0x7f).toNat := by
    rw [UInt8.le_iff_toNat_le, low]
    exact Nat.not_le.mpr (Nat.mod_lt _ (by decide))
  have groups := oidArcs_encodeArcLoop (oidItemLength value - 1) value 0
    (UInt8.ofNat (value &&& 0x7f).toNat :: rest)
  rw [Nat.zero_mul, Nat.zero_add, Nat.mod_eq_of_lt high] at groups
  have whole : encodeArc value ++ rest = encodeArcLoop (oidItemLength value - 1) value
      (UInt8.ofNat (value &&& 0x7f).toNat :: rest) := by
    rw [encodeArc, encodeArcLoop_append, encodeArcLoop_append _ _ (_ :: rest), List.append_assoc]
    rfl
  have digits : value.toNat / 128 * 128 + value.toNat % 128 = value.toNat := by omega
  have zero : (0 : BitVec 32) = BitVec.ofNat 32 0 := rfl
  rw [whole, zero, groups (by omega), oidArcs, if_neg last, low,
    or_group _ _ (Nat.mod_lt _ (by decide)) (by omega), digits, BitVec.ofNat_toNat,
    BitVec.setWidth_eq]
  rfl

/-- What the encoder writes for numbers is decoded to those numbers. -/
theorem oidArcs_encodeArcs (arcs : List Nat) :
    oidArcs 0 (arcs.flatMap fun arc => encodeArc (BitVec.ofNat 32 arc)) =
      arcs.map (BitVec.ofNat 32) := by
  -- The induction is on the numbers.
  induction arcs with
  | nil => rfl
  | cons arc rest ih => rw [List.flatMap_cons, oidArcs_encodeArc, ih, List.map_cons]

/-- The element that an OID is written as is decoded to the text of the OID. -/
theorem Oid.field (oid : Oid) (short : (oidContent (oidText oid.arcs)).length < 128)
    (rest : List UInt8) :
    OidField (UInt8.ofNat (oidContent (oidText oid.arcs)).length ::
      (oidContent (oidText oid.arcs) ++ rest)) (oidText oid.arcs) rest := by
  -- The encoder's groups are decoded to the words of the numbers.
  rw [oidContent_oidText] at short ⊢
  rw [List.length_cons] at short
  exact oidField_nodes (oidArcs_encodeArcs oid.arcs) oid.small oid.short (by omega) rest

/-- The bytes of an INTEGER make up the word, whatever its width. -/
theorem bigEndian_integerContent (value : BitVec 32) :
    bigEndian (integerContent value) = value.toNat := by
  -- Four bytes are those of the word, and two or one are enough when the others are zero.
  have upper := toNat_lowByte_shift value 8
  have lower := toNat_lowByte value
  unfold integerContent
  split
  · exact bigEndian_wordBytes value
  · split
    · simp only [bigEndian, List.foldl_cons, List.foldl_nil, upper, lower]
      omega
    · simp only [bigEndian, List.foldl_cons, List.foldl_nil, lower]
      omega

/-- The bytes of an INTEGER are shifted together to the word. -/
theorem shiftedWord_integerContent (value : BitVec 32) :
    shiftedWord (integerContent value) = value := by
  -- Both denote the same number below 2^32.
  apply BitVec.eq_of_toNat_eq
  rw [toNat_shiftedWord (length_integerContent value), bigEndian_integerContent]

/-- An INTEGER has at least one byte of content. -/
theorem integerContent_pos (value : BitVec 32) : 1 ≤ (integerContent value).length := by
  -- One, two or four bytes.
  unfold integerContent
  split
  · simp [wordBytes]
  · split <;> simp

/-- The text of an OID has no zero in it. -/
theorem cString_oidText (arcs : List Nat) : cString (oidText arcs) = oidText arcs := by
  -- The text has digits and dots.
  refine cString_eq_self fun zero => ?_
  rw [oidText, List.mem_append, List.mem_flatMap] at zero
  rcases zero with start | ⟨arc, _, member⟩
  · exact absurd start (by decide)
  · rcases List.mem_cons.mp member with isDot | digit
    · exact absurd isDot (by decide)
    · exact absurd (decimal_isDigit digit) (by decide)

/-- A value as it is written. -/
def Datum.tlv : Datum → Tlv
  | .integer value => ⟨0x02, integerContent value⟩
  | .octets bytes _ => ⟨0x04, bytes⟩
  | .null => ⟨0x05, []⟩
  | .oid name => ⟨0x06, oidContent (oidText name.arcs)⟩

/-- The binding of an item is written as its name and its value. -/
theorem Item.binding_eq (item : Item) :
    item.varbind.binding = ⟨oidContent (oidText item.name.arcs), item.datum.tlv⟩ := by
  -- One case for each type of an item.
  rcases item with ⟨name, datum⟩
  cases datum with
  | integer value => rfl
  | octets bytes plain =>
    -- What is stored as a C string is written up to its zero, which the bytes do not contain.
    have tlv : (⟨oidText name.arcs, primvOctstr, .string bytes⟩ : Varbind).tlv =
        ⟨0x04, cString bytes⟩ := rfl
    rw [cString_eq_self plain] at tlv
    exact congrArg (Binding.mk _) tlv
  | null => rfl
  | oid value =>
    have tlv : (⟨oidText name.arcs, primvObjid, .string (oidText value.arcs)⟩ : Varbind).tlv =
        ⟨0x06, oidContent (cString (oidText value.arcs))⟩ := rfl
    rw [cString_oidText] at tlv
    exact congrArg (Binding.mk _) tlv

/-- Every type of an item is written. -/
theorem Item.written (item : Item) : item.varbind.dataType ∈ writtenTypes := by
  -- The four types are looked up one by one.
  rcases item with ⟨name, datum⟩
  cases datum
  · exact (by decide : primvInt ∈ writtenTypes)
  · exact (by decide : primvOctstr ∈ writtenTypes)
  · exact (by decide : primvNull ∈ writtenTypes)
  · exact (by decide : primvObjid ∈ writtenTypes)

/-- An item with short content is stored as its type asks. -/
theorem Item.wellTyped {item : Item} (short : item.varbind.binding.content.length < 128) :
    item.varbind.WellTyped := by
  -- One case for each type of an item.
  rw [Item.binding_eq] at short
  rcases item with ⟨name, datum⟩
  have text : (oidText name.arcs).length < 256 := Nat.lt_trans name.short (by decide)
  cases datum with
  | integer value => exact Varbind.wellTyped_word value text (.inl rfl)
  | octets bytes plain =>
    -- Only strings have a length of their own, which is that of the content.
    simp only [Binding.content, Datum.tlv, List.length_append, length_element] at short
    exact Varbind.wellTyped_string text (by omega) (.inl rfl)
  | null => exact Varbind.wellTyped_null text
  | oid value =>
    exact Varbind.wellTyped_string text (Nat.lt_trans value.short (by decide)) (.inr rfl)

/-- The names and the values of items can be encoded. -/
theorem Item.encodable (item : Item) : item.varbind.Encodable := by
  -- Both a name and a value are the text of an OID, when they are one.
  have texts (oid : Oid) : SnmpAgent.Encodable (oidText oid.arcs) :=
    encodable_oidText fun arc member => Nat.lt_trans (oid.small arc member) (by decide)
  refine ⟨texts item.name, fun bytes type stored => ?_⟩
  rcases item with ⟨name, datum⟩
  cases datum with
  | integer value => cases stored
  | octets other plain => exact absurd type (by decide : primvOctstr ≠ primvObjid)
  | null => cases stored
  | oid value =>
    cases stored
    rw [cString_oidText]
    exact texts value

/-- The value of an item is decoded into the entry of its name. -/
theorem Item.valueField (item : Item) (before : List Varbind)
    (short : item.datum.tlv.content.length < 128) (rest : List UInt8) :
    ValueField (⟨oidText item.name.arcs, 0, .absent⟩ :: before)
      (element item.datum.tlv.tag item.datum.tlv.content ++ rest) (item.varbind :: before)
      rest := by
  rcases item with ⟨name, datum⟩
  cases datum with
  | integer value =>
    -- The bytes of an integer are shifted into a word again.
    have field := integerField_content ⟨integerContent_pos value, length_integerContent value⟩ rest
    rw [shiftedWord_integerContent] at field
    exact .stored _ _ (.integer field)
  | octets bytes plain => exact .stored _ _ (.octets (stringField_content short rest))
  | null => exact .stored _ _ (.null (0x00 :: rest))
  | oid value => exact .stored _ _ (.oid (value.field short rest))

/-- An item that is written is one element of the list, and makes one entry. -/
theorem Item.elements {limit counted : Nat} {varbinds final : List Varbind} {rest : List UInt8}
    (item : Item) (short : item.varbind.binding.content.length < 128) (within : counted < limit)
    (tail : Elements limit (counted + (item.varbind.binding.content.length + 2))
      (item.varbind :: varbinds) rest final) :
    Elements limit counted varbinds
      (element 0x30 item.varbind.binding.content ++ rest) final := by
  -- The item is written as a name and a value, and both are decoded to what they were.
  rw [← toNat_length short] at tail
  have content := item.binding_eq
  generalize item.varbind.binding = binding at short tail content ⊢
  subst content
  simp only [Binding.content, List.length_append, length_element] at short
  -- The name opens the entry that the value behind it goes to.
  have name : NameField varbinds
      (element 0x06 (oidContent (oidText item.name.arcs)) ++
        (element item.datum.tlv.tag item.datum.tlv.content ++ rest))
      (⟨oidText item.name.arcs, 0, .absent⟩ :: varbinds)
      (element item.datum.tlv.tag item.datum.tlv.content ++ rest) :=
    .present (item.name.field (by omega) _)
  have value := item.valueField varbinds (by omega) rest
  rw [← List.append_assoc] at name
  exact .element within name value tail

/-- Items that are written one behind the other make one entry each, in their order. -/
theorem elements_items {limit : Nat} :
    ∀ (items : List Item) (counted : Nat) (varbinds : List Varbind),
      (∀ item ∈ items, item.varbind.binding.content.length < 128) →
      limit = counted + (listContent (items.map Item.varbind)).length →
      Elements limit counted varbinds (listContent (items.map Item.varbind))
        ((items.map Item.varbind).reverse ++ varbinds) := by
  -- Induction on the items.
  intro items
  induction items with
  | nil =>
    intro counted varbinds _ sum
    have zero : (listContent []).length = 0 := rfl
    rw [List.map_nil, zero] at sum
    exact .done _ (by omega)
  | cons item others ih =>
    intro counted varbinds fits sum
    -- The first element counts for what its length byte says, and so for all of its bytes.
    rw [List.map_cons, listContent_cons_written _ item.written] at sum ⊢
    rw [List.length_append, length_element] at sum
    rw [List.reverse_cons, List.append_assoc]
    refine item.elements (fits item List.mem_cons_self) (by omega) ?_
    exact ih _ _ (fun other later => fits other (List.mem_cons_of_mem _ later)) (by omega)

/-- The bindings of items are all written. -/
theorem bindings_items (items : List Item) :
    bindings (items.map Item.varbind) = items.map fun item => item.varbind.binding := by
  -- No binding of an item is left out.
  rw [bindings, List.filter_eq_self.mpr, List.map_map]
  · rfl
  · intro varbind member
    obtain ⟨item, _, rfl⟩ := List.mem_map.mp member
    exact decide_eq_true item.written

/-- The words of the INTEGERs of a list are on the wire as their signed values. -/
def IntegersSigned (items : List Item) (read : List Binding) : Prop :=
  List.Forall₂ (fun (item : Item) (binding : Binding) =>
    ∀ value, item.datum = .integer value →
      binding.value.tag = 0x02 ∧ twosComplement binding.value.content = value.toInt) items read

/-- A list whose content fits a length byte is built, read back as it was, and signed. -/
theorem varbindList_roundTrip (items : List Item)
    (short : (listContent (items.map Item.varbind)).length ≤ 127) :
    ∃ list content tlvs read,
      createVarbindListTx (items.map Item.varbind) = .ok list ∧
      createVarbindListRx list =
        .ok (some ⟨(listContent (items.map Item.varbind)).length, items.map Item.varbind⟩) ∧
      Ber.elements list = some [⟨0x30, content⟩] ∧ Ber.elements content = some tlvs ∧
      tlvs.mapM readBinding = some read ∧ IntegersSigned items read := by
  have written := bindings_items items
  -- Every element is a part of the list, and so as short as that.
  have parts : ∀ item ∈ items, item.varbind.binding.content.length < 128 := by
    intro item member
    have inside := length_binding_le (List.mem_map.mpr ⟨item, member, rfl⟩ :
      item.varbind.binding ∈ items.map fun item => item.varbind.binding)
    rw [← written] at inside
    change _ ≤ (listContent _).length at inside
    omega
  have stored : ∀ varbind ∈ items.map Item.varbind, varbind.Storable := by
    intro varbind member
    obtain ⟨item, found, rfl⟩ := List.mem_map.mp member
    exact (Item.wellTyped (parts item found)).storable
  have encodable : AllEncodable (items.map Item.varbind) := by
    intro varbind member _
    obtain ⟨item, _, rfl⟩ := List.mem_map.mp member
    exact item.encodable
  have built := (createVarbindListTx_eq_ok stored).mpr ⟨encodable,
    show 2 + _ ≤ 200 by omega, rfl⟩
  have layout : ListLayout (element 0x30 (listContent (items.map Item.varbind)))
      ⟨(listContent (items.map Item.varbind)).length, items.map Item.varbind⟩ := by
    have few : (listContent (items.map Item.varbind)).length < 128 := by omega
    have length := toNat_length few
    have whole : (listContent (items.map Item.varbind)).length =
        0 + (listContent (items.map Item.varbind)).length := (Nat.zero_add _).symm
    have inside := elements_items items 0 [] parts whole
    rw [← length, List.append_nil] at inside
    have layout := ListLayout.elements inside
    rwa [List.reverse_reverse, length] at layout
  have bounded : ∀ binding ∈ items.map fun item => item.varbind.binding,
      binding.content.length < 128 := by
    intro binding member
    obtain ⟨item, found, rfl⟩ := List.mem_map.mp member
    exact parts item found
  obtain ⟨tlvs, read⟩ := readBindings_list bounded
  refine ⟨_, _, _, _, built, createVarbindListRx_eq_ok.mpr layout, elements_single (by omega), ?_,
    read, ?_⟩
  · rw [listContent, written]
    exact tlvs
  · refine List.forall₂_map_right_iff.mpr (List.forall₂_same.mpr fun item _ value same => ?_)
    rw [Item.binding_eq, same]
    exact ⟨rfl, twosComplement_integerContent value⟩

/-- The OID 1.3.6.200000, whose last number takes one group more than it needs. -/
def sampleOid : Oid := ⟨[6, 200000], by decide, by decide +kernel⟩

/-- A negative number, a text, a NULL and an OID. -/
def sampleItems : List Item :=
  [⟨sampleOid, .integer 0xffffff80⟩, ⟨sampleOid, .octets [0x61, 0x62] (by decide)⟩,
    ⟨sampleOid, .null⟩, ⟨sampleOid, .oid sampleOid⟩]

/-- A list with a value of each type is read back. -/
theorem varbindList_roundTrip_sample :
    ∃ list, createVarbindListTx (sampleItems.map Item.varbind) = .ok list ∧
      createVarbindListRx list = .ok (some ⟨60, sampleItems.map Item.varbind⟩) := by
  -- The list is 60 bytes long, so it fits its buffer.
  have size : (listContent (sampleItems.map Item.varbind)).length = 60 := by decide +kernel
  obtain ⟨list, _, _, _, built, read, _⟩ := varbindList_roundTrip sampleItems (by omega)
  rw [size] at read
  exact ⟨list, built, read⟩

end OpenwrtMisc.SnmpAgent
