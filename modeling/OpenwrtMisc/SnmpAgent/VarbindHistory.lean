import OpenwrtMisc.SnmpAgent.Assemble
import OpenwrtMisc.SnmpAgent.Identifiers
import OpenwrtMisc.SnmpAgent.Numbers

/-! A binding that is created and updated, and what its last call leaves of it. -/

namespace OpenwrtMisc.SnmpAgent

open Ber

/-- What a call sets a binding to: a type with a value of its kind. -/
inductive Setting
  | int (value : BitVec 32)
  | octstr (text : List UInt8) (plain : 0 ∉ text)
  /-- The value of a NULL is not looked at. -/
  | null (ignored : Value)
  | objid (oid : DottedOid)
  | timtick (value : BitVec 32)

/-- The type that a call is given. -/
def Setting.dataType : Setting → UInt8
  | .int _ => primvInt
  | .octstr _ _ => primvOctstr
  | .null _ => primvNull
  | .objid _ => primvObjid
  | .timtick _ => primvTimtick

/-- What the value pointer of a call points to. -/
def Setting.value : Setting → Value
  | .int value => .word value
  | .octstr text _ => .string text
  | .null ignored => ignored
  | .objid oid => .string oid.text
  | .timtick value => .word value

/-- What a binding keeps of the value. -/
def Setting.stored : Setting → Value
  | .null _ => .word 0
  | setting => setting.value

/-- The binding that has the type and the value of a call. -/
def Setting.varbind (setting : Setting) (oid : List UInt8) : Varbind :=
  ⟨oid, setting.dataType, setting.stored⟩

/-- An element has the type and the value of a call. -/
def Setting.CarriedBy : Setting → Tlv → Prop
  | .int value, item => item.tag = 0x02 ∧ twosComplement item.content = value.toInt
  | .octstr text _, item => item = ⟨0x04, text⟩
  | .null _, item => item = ⟨0x05, []⟩
  | .objid oid, item => item = ⟨0x06, oid.content⟩
  | .timtick value, item =>
    item.tag = 0x43 ∧ item.content.length = 4 ∧ bigEndian item.content = value.toNat

/-- A binding that is created by one call and updated by others. -/
def varbindAfter (oid : List UInt8) (first : Setting) (updates : List Setting) :
    Except Fault Varbind := do
  let varbind ← createVarbind oid first.dataType first.value
  updates.foldlM (fun varbind setting => updateVarbind varbind setting.dataType setting.value)
    varbind

/-- The list of one binding is encoded with the type and the value of a call. -/
def Listed (varbind : Varbind) (setting : Setting) : Prop :=
  ∃ list content item binding, createVarbindListTx [varbind] = .ok list ∧
    elements list = some [⟨0x30, content⟩] ∧ elements content = some [item] ∧
    readBinding item = some binding ∧ setting.CarriedBy binding.value

/-- What is expected of a binding: only its last call shows. -/
structure SetBy (oid : List UInt8) (setting : Setting) (varbind : Varbind) : Prop where
  same : varbind = setting.varbind oid
  created : createVarbind oid setting.dataType setting.value = .ok varbind
  listed : Listed varbind setting

/-- The text of an OID has no zero in it. -/
theorem DottedOid.cString_text (oid : DottedOid) : cString oid.text = oid.text := by
  -- The text consists of digits and dots.
  have number : ∀ n, (0 : UInt8) ∉ decimal n := fun n member =>
    absurd (decimal_isDigit member) (by decide)
  refine cString_eq_self fun member => ?_
  rw [DottedOid.text, dottedText, List.mem_append, List.mem_flatMap] at member
  rcases member with head | ⟨arc, _, digit⟩
  · exact number _ head
  · rcases List.mem_cons.mp digit with isDot | digit
    · exact absurd isDot (by decide)
    · exact number _ digit

/-- An update sets the type and the value, whatever the binding was before. -/
theorem updateVarbind_setting (varbind : Varbind) (setting : Setting) :
    updateVarbind varbind setting.dataType setting.value = .ok (setting.varbind varbind.oid) := by
  -- One case for each of the setters.
  cases setting with
  | int value => rfl
  | octstr text plain =>
    -- The copy stops at a zero byte, which a plain text does not have.
    have copied : updateVarbind varbind primvOctstr (.string text) =
        .ok ⟨varbind.oid, primvOctstr, .string (cString text)⟩ := rfl
    rw [cString_eq_self plain] at copied
    exact copied
  | null ignored => rfl
  | objid oid =>
    have copied : updateVarbind varbind primvObjid (.string oid.text) =
        .ok ⟨varbind.oid, primvObjid, .string (cString oid.text)⟩ := rfl
    rw [oid.cString_text] at copied
    exact copied
  | timtick value => rfl

/-- A creation sets what an update sets, unless the type is that of an OID. -/
theorem createVarbind_setting (oid : List UInt8) {setting : Setting}
    (other : setting.dataType ≠ primvObjid) :
    createVarbind oid setting.dataType setting.value = .ok (setting.varbind oid) := by
  -- The two are the same function except for an OID.
  rw [← updateVarbind_setting ⟨oid, 0, .absent⟩ setting]
  cases setting with
  | objid => exact absurd rfl other
  | _ => rfl

/-- A creation with an OID keeps a word of its text. -/
theorem createVarbind_objid (oid : List UInt8) (value : DottedOid) :
    ∃ word, createVarbind oid primvObjid (.string value.text) =
      .ok ⟨oid, primvObjid, .word word⟩ := by
  -- Two numbers and the dot between them are three characters, and the zero is the fourth.
  have root := List.length_pos_of_ne_nil (decimal_ne_nil value.first)
  have below := List.length_pos_of_ne_nil (decimal_ne_nil value.second)
  have long : 4 ≤ (value.text ++ [0]).length := by
    simp only [DottedOid.text, dottedText, List.flatMap_cons, List.length_append, List.length_cons,
      List.length_nil]
    omega
  have copied : copyBytes (value.text ++ [0]) 0 4 = .ok ((value.text ++ [0]).take 4) := by
    rw [copyBytes, List.drop_zero]
    exact if_pos (by rw [List.length_take]; omega)
  have word : (Value.string value.text).firstWord =
      .ok (shiftedWord ((value.text ++ [0]).take 4).reverse) := by
    rw [Value.firstWord, copied]
    rfl
  refine ⟨shiftedWord ((value.text ++ [0]).take 4).reverse, ?_⟩
  have ran : createVarbind oid primvObjid (.string value.text) =
      ((Value.string value.text).firstWord >>= fun word =>
        .ok ⟨oid, primvObjid, .word word⟩) := rfl
  rw [ran, word]
  rfl

/-- Only an OID has the type of an OID. -/
theorem Setting.eq_objid {setting : Setting} (objid : setting.dataType = primvObjid) :
    ∃ value, setting = .objid value := by
  -- Each setting has a type of its own.
  cases setting with
  | objid value => exact ⟨value, rfl⟩
  | int => exact absurd objid (show primvInt ≠ primvObjid by decide)
  | octstr => exact absurd objid (show primvOctstr ≠ primvObjid by decide)
  | null => exact absurd objid (show primvNull ≠ primvObjid by decide)
  | timtick => exact absurd objid (show primvTimtick ≠ primvObjid by decide)

/-- A creation goes through and keeps the OID. -/
theorem createVarbind_ok (oid : List UInt8) (setting : Setting) :
    ∃ varbind, createVarbind oid setting.dataType setting.value = .ok varbind ∧
      varbind.oid = oid := by
  -- An OID is set apart, with whatever word it stores.
  by_cases objid : setting.dataType = primvObjid
  · obtain ⟨value, rfl⟩ := Setting.eq_objid objid
    obtain ⟨word, created⟩ := createVarbind_objid oid value
    exact ⟨_, created, rfl⟩
  · exact ⟨_, createVarbind_setting oid objid, rfl⟩

/-- The binding after a creation and updates is the created one, or what the last update set. -/
theorem varbindAfter_eq (oid : List UInt8) (first : Setting) (updates : List Setting) :
    varbindAfter oid first updates = match updates.getLast? with
      | none => createVarbind oid first.dataType first.value
      | some last => .ok (last.varbind oid) := by
  obtain ⟨created, ran, kept⟩ := createVarbind_ok oid first
  -- The updates go through one after the other, and none of them changes the OID.
  have steps : ∀ (updates : List Setting) (before after : Varbind),
      updates.foldlM (fun varbind setting =>
        updateVarbind varbind setting.dataType setting.value) before = .ok after ↔
          (∀ setting ∈ updates, True) ∧ updates.foldl (fun varbind setting =>
            setting.varbind varbind.oid) before = after :=
    foldlM_eq_ok fun varbind setting after => by
      rw [updateVarbind_setting, Except.ok.injEq, true_and]
  rcases updates.eq_nil_or_concat with rfl | ⟨earlier, last, rfl⟩
  · rw [varbindAfter, ran]
    rfl
  · rw [List.concat_eq_append, List.getLast?_concat, varbindAfter, ran]
    refine (steps _ created _).mpr ⟨fun _ _ => trivial, ?_⟩
    rw [List.foldl_append, List.foldl_cons, List.foldl_nil]
    refine congrArg last.varbind ?_
    induction earlier using List.reverseRecOn with
    | nil => exact kept
    | append_singleton earlier setting ih =>
      rw [List.foldl_append, List.foldl_cons, List.foldl_nil]
      exact ih

/-- The name of a binding is encoded in less than twice the bytes that the rules need. -/
theorem DottedOid.length_oidContent (oid : DottedOid) : (oidContent oid.text).length < 256 := by
  -- Each arc takes at most twice the bytes that it needs, and so does a list of them.
  have groups : ∀ arcs : List Nat, (∀ arc ∈ arcs, arc < 2 ^ 32) →
      (arcs.flatMap fun arc => encodeArc (BitVec.ofNat 32 arc)).length ≤
        2 * (arcs.flatMap base128).length := by
    intro arcs
    induction arcs with
    | nil => exact fun _ => Nat.le_refl _
    | cons arc rest ih =>
      intro small
      have head := length_encodeArc_le_base128 (small arc List.mem_cons_self)
      have tail := ih fun other later => small other (List.mem_cons_of_mem _ later)
      rw [List.flatMap_cons, List.flatMap_cons, List.length_append, List.length_append]
      omega
  have further := groups oid.further fun arc member =>
    Nat.lt_trans (oid.words arc member) (by decide)
  have short := oid.short
  rw [List.flatMap_cons, List.length_append] at short
  rw [oidContent_text, List.length_cons]
  omega

/-- What a call stores is of the kind of its type, and fits a length byte if a text does. -/
theorem Setting.storable (setting : Setting) (oid : DottedOid)
    (texts : ∀ text plain, setting = .octstr text plain → text.length < 256) :
    (setting.varbind oid.text).Storable := by
  -- Each type has one condition that is not void: the kind of its own value.
  have name := oid.length_oidContent
  cases setting with
  | int value =>
    refine ⟨fun _ => ⟨value, rfl⟩, ?_, ?_, fun _ => name, fun _ => ?_⟩
    · exact fun other => absurd other
        (show ¬ (primvInt = primvOctstr ∨ primvInt = primvObjid) by decide)
    · exact fun other => absurd other (show primvInt ≠ primvNull by decide)
    · exact Nat.lt_of_le_of_lt (length_integerContent value) (by decide)
  | octstr text plain =>
    refine ⟨?_, fun _ => ⟨text, rfl⟩, ?_, fun _ => name, fun _ => ?_⟩
    · exact fun other => absurd other
        (show ¬ (primvOctstr = primvInt ∨ primvOctstr = primvTimtick) by decide)
    · exact fun other => absurd other (show primvOctstr ≠ primvNull by decide)
    · exact Nat.lt_of_le_of_lt (length_cString_le text) (texts text plain rfl)
  | null ignored =>
    refine ⟨fun _ => ⟨0, rfl⟩, ?_, fun _ => rfl, fun _ => name, fun _ => (by decide : 0 < 256)⟩
    exact fun other => absurd other
      (show ¬ (primvNull = primvOctstr ∨ primvNull = primvObjid) by decide)
  | objid value =>
    refine ⟨?_, fun _ => ⟨value.text, rfl⟩, ?_, fun _ => name, fun _ => ?_⟩
    · exact fun other => absurd other
        (show ¬ (primvObjid = primvInt ∨ primvObjid = primvTimtick) by decide)
    · exact fun other => absurd other (show primvObjid ≠ primvNull by decide)
    · show (oidContent (cString value.text)).length < 256
      rw [value.cString_text]
      exact value.length_oidContent
  | timtick value =>
    refine ⟨fun _ => ⟨value, rfl⟩, ?_, ?_, fun _ => name, fun _ => (by decide : 4 < 256)⟩
    · exact fun other => absurd other
        (show ¬ (primvTimtick = primvOctstr ∨ primvTimtick = primvObjid) by decide)
    · exact fun other => absurd other (show primvTimtick ≠ primvNull by decide)

/-- The types of the calls are all written. -/
theorem Setting.written (setting : Setting) (oid : List UInt8) :
    (setting.varbind oid).dataType ∈ writtenTypes := by
  -- The types are looked up one by one.
  cases setting with
  | int => exact (by decide : primvInt ∈ writtenTypes)
  | octstr => exact (by decide : primvOctstr ∈ writtenTypes)
  | null => exact (by decide : primvNull ∈ writtenTypes)
  | objid => exact (by decide : primvObjid ∈ writtenTypes)
  | timtick => exact (by decide : primvTimtick ∈ writtenTypes)

/-- A list that is built fits its buffer. -/
theorem createVarbindListTx_length {varbinds : List Varbind} {list : List UInt8}
    (built : createVarbindListTx varbinds = .ok list) : list.length ≤ listBufferSize := by
  -- The list is loaded from its buffer.
  obtain ⟨final, _, built⟩ := bind_eq_ok.mp built
  obtain ⟨buffer, _, built⟩ := bind_eq_ok.mp built
  obtain ⟨inside, rfl⟩ := load_eq_ok.mp built
  rw [length_window]
  omega

/-- A binding that is not set to an OID is written with its type and value. -/
theorem Setting.carriedBy_tlv (oid : List UInt8) {setting : Setting}
    (other : setting.dataType ≠ primvObjid) : setting.CarriedBy (setting.varbind oid).tlv := by
  -- Each setting has a type and a content of its own.
  cases setting with
  | int value => exact ⟨rfl, twosComplement_integerContent value⟩
  | octstr text plain => exact congrArg (Tlv.mk 0x04) (cString_eq_self plain)
  | null => exact rfl
  | objid => exact absurd rfl other
  | timtick value => exact ⟨rfl, rfl, bigEndian_wordBytes value⟩

/-- A text that is read from a list fits the buffer of the list. -/
theorem Listed.text_length {varbind : Varbind} {text : List UInt8} {plain : 0 ∉ text}
    (listed : Listed varbind (.octstr text plain)) : text.length < 256 := by
  -- The list, the binding in it and its value are nested, so each is shorter than the one around
  -- it.
  obtain ⟨list, content, item, binding, built, outer, inner, read, carried⟩ := listed
  have whole := createVarbindListTx_length built
  have first := elements_content _ outer _ List.mem_cons_self
  have second := elements_content _ inner _ List.mem_cons_self
  -- The value is one of the two elements of the binding.
  have third : binding.value.content.length ≤ item.content.length := by
    unfold readBinding at read
    split at read
    · rename_i parts
      cases read
      exact elements_content _ parts _ (List.mem_cons_of_mem _ List.mem_cons_self)
    · cases read
  simp only [Setting.CarriedBy] at carried
  rw [carried] at third
  simp only [listBufferSize] at whole first third
  omega

/-- The list of one binding is encoded right exactly when its content has a length in short form. -/
theorem listed_iff (oid : DottedOid) {setting : Setting} (other : setting.dataType ≠ primvObjid) :
    Listed (setting.varbind oid.text) setting ↔
      (listContent [setting.varbind oid.text]).length ≤ 127 := by
  -- The list holds the one binding, whose bytes have the length of its content as a byte.
  have written := setting.written oid.text
  have content : listContent [setting.varbind oid.text] =
      element 0x30 (setting.varbind oid.text).binding.content := by
    rw [listContent_cons_written _ written]
    exact List.append_nil _
  constructor
  · intro listed
    have stored := setting.storable oid fun text plain same => by
      subst same
      exact listed.text_length
    obtain ⟨list, _, _, _, built, outer, _⟩ := listed
    obtain ⟨_, fits, rfl⟩ := (createVarbindListTx_eq_ok (by simpa using stored)).mp built
    by_contra long
    -- A longer content would be taken for the bytes of a length, and they say far too much.
    obtain ⟨count, positive, inside, sum⟩ := readTlv_long (Nat.lt_of_not_le long)
      (readTlv_of_elements outer)
    simp only [listBufferSize] at fits
    obtain ⟨more, rfl⟩ := Nat.exists_eq_add_of_le' positive
    have digits : bigEndian ((listContent [setting.varbind oid.text]).take (more + 1)) =
        48 * 256 ^ more +
          bigEndian ((UInt8.ofNat (setting.varbind oid.text).binding.content.length ::
            (setting.varbind oid.text).binding.content).take more) := by
      have size : more ≤ (UInt8.ofNat (setting.varbind oid.text).binding.content.length ::
          (setting.varbind oid.text).binding.content).length := by
        rw [content, length_element] at inside
        rw [List.length_cons]
        omega
      rw [content, element, List.take_succ_cons, bigEndian_cons, List.length_take,
        Nat.min_eq_left size]
      rfl
    rw [digits] at sum
    rcases Nat.eq_zero_or_pos more with rfl | several
    · simp only [List.take_zero, bigEndian_nil] at sum
      omega
    · have weight : 256 ^ 1 ≤ 256 ^ more := Nat.pow_le_pow_right (by decide) several
      omega
  · intro short
    have inside : (setting.varbind oid.text).binding.content.length < 128 := by
      rw [content, length_element] at short
      omega
    have stored := setting.storable oid fun text plain same => by
      subst same
      have value : (Varbind.tlv (Setting.varbind (.octstr text plain) oid.text)).content = text :=
        cString_eq_self plain
      simp only [Varbind.binding, Binding.content, List.length_append, length_element, value]
        at inside
      omega
    have encodable : AllEncodable [setting.varbind oid.text] := by
      intro varbind member _
      obtain rfl := List.mem_singleton.mp member
      exact ⟨encodable_text oid, fun _ objid _ => absurd objid other⟩
    have built := (createVarbindListTx_eq_ok (by simpa using stored)).mpr
      ⟨encodable, show 2 + _ ≤ 200 by omega, rfl⟩
    refine ⟨_, _, _, _, built, elements_single (by omega), ?_, readBinding_content inside,
      setting.carriedBy_tlv oid.text other⟩
    rw [content]
    exact elements_single inside

/--
The history of a binding does not show exactly when the last call does not set an OID,
and the list of the binding fits the short form of a length.
-/
theorem varbindAfter_setBy_iff (oid : DottedOid) (first : Setting) (updates : List Setting) :
    (∃ varbind, varbindAfter oid.text first updates = .ok varbind ∧
        SetBy oid.text (updates.getLastD first) varbind) ↔
      (updates.getLastD first).dataType ≠ primvObjid ∧
        (listContent [(updates.getLastD first).varbind oid.text]).length ≤ 127 := by
  -- Only the last call is left to be seen in the binding, so it is about that one.
  constructor
  · intro given
    rcases given with ⟨varbind, _, same, created, listed⟩
    generalize updates.getLastD first = last at same created listed ⊢
    subst same
    have other : last.dataType ≠ primvObjid := by
      intro objid
      obtain ⟨value, rfl⟩ := Setting.eq_objid objid
      -- A creation keeps a word, which is not the text.
      obtain ⟨word, kept⟩ := createVarbind_objid oid.text value
      have both := created.symm.trans kept
      cases both
    exact ⟨other, (listed_iff oid other).mp listed⟩
  · intro given
    rcases given with ⟨other, short⟩
    have created := createVarbind_setting oid.text other
    have listed := (listed_iff oid other).mpr short
    refine ⟨_, ?_, rfl, created, listed⟩
    rw [varbindAfter_eq]
    rcases updates.eq_nil_or_concat with rfl | ⟨earlier, last, rfl⟩
    · exact created
    · rw [List.concat_eq_append, List.getLast?_concat, List.getLastD_concat]

/-- The OID 1.3.6.1. -/
def internet : DottedOid where
  first := 1
  second := 3
  further := [6, 1]
  root := by decide
  below := by decide
  words := by decide
  short := by decide

/-- A binding that is created with the OID 1.3.6.1 keeps the word of its first four characters. -/
theorem objid_not_setBy :
    varbindAfter internet.text (.objid internet) [] =
        .ok ⟨internet.text, primvObjid, .word 0x2e332e31⟩ ∧
      (∀ varbind, varbindAfter internet.text (.objid internet) [] = .ok varbind →
        ¬ SetBy internet.text (.objid internet) varbind) ∧
      createVarbindListTx [⟨internet.text, primvObjid, .word 0x2e332e31⟩] = .error .wrongKind := by
  have kept : varbindAfter internet.text (.objid internet) [] =
      .ok ⟨internet.text, primvObjid, .word 0x2e332e31⟩ := by decide +kernel
  refine ⟨kept, fun varbind ran set => ?_, by decide +kernel⟩
  -- A word is no text.
  rw [kept] at ran
  cases ran
  have same := set.same
  cases same

end OpenwrtMisc.SnmpAgent
