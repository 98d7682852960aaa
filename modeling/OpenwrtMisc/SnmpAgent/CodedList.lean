import OpenwrtMisc.SnmpAgent.FormFields

/-! The loop over a list whose bindings have lengths in any form: which lists it gets right. -/

namespace OpenwrtMisc.SnmpAgent

open Ber

/-- The numbers that the decoder gets right: a negative one needs four bytes. -/
def Readable (number : Int) : Prop :=
  (0 ≤ number ∧ number < 2 ^ 31) ∨ (-2 ^ 31 ≤ number ∧ number < -2 ^ 23)

/-- A value that is the same whatever its length field says: a NULL, or the INTEGER 4. -/
def CodedBinding.Lengthless (coded : CodedBinding) : Prop :=
  coded.valueTag = primvNull ∨
    (coded.valueTag = primvInt ∧ twosComplement coded.value.content = 4)

/-- A binding that the loop understands, but for the length of its value. -/
structure CodedBinding.Plain (coded : CodedBinding) : Prop where
  form : coded.form = .short
  nameForm : coded.name.form = .short
  name : Printable coded.name.content
  known : coded.valueTag ∈ primitiveTypes
  integer : coded.valueTag = primvInt → Readable (twosComplement coded.value.content)
  objectId : coded.valueTag = primvObjid → Printable coded.value.content

/-- A list that the loop understands; only the last value may have a length that is misread. -/
def PlainBindings : List CodedBinding → Prop
  | [] => True
  | coded :: rest =>
    coded.Plain ∧ (coded.value.form = .short ∨ (rest = [] ∧ coded.Lengthless)) ∧ PlainBindings rest

/-- Before the limit is counted the loop is at an element. -/
theorem Elements.of_open {limit counted : Nat} {varbinds final : List Varbind}
    {whole : List UInt8} (open_ : counted < limit)
    (elements : Elements limit counted varbinds whole final) :
    ∃ length bytes named behindName valued behindValue, whole = 0x30 :: length :: bytes ∧
      NameField varbinds bytes named behindName ∧ ValueField named behindName valued behindValue ∧
      Elements limit (counted + (length.toNat + 2)) valued behindValue final := by
  -- The other case is a limit that is counted already.
  cases elements with
  | done _ reached => exact absurd open_ reached
  | element _ name value tail => exact ⟨_, _, _, _, _, _, rfl, name, value, tail⟩

/-- Once the limit is counted the loop has ended. -/
theorem Elements.of_reached {limit counted : Nat} {varbinds final : List Varbind}
    {whole : List UInt8} (reached : ¬ counted < limit)
    (elements : Elements limit counted varbinds whole final) : final = varbinds := by
  -- The other case is a limit that is not counted yet.
  cases elements with
  | done => rfl
  | element open_ => exact absurd open_ reached

/-- A name that is there makes an entry. -/
theorem NameField.of_present {varbinds named : List Varbind} {bytes rest : List UInt8}
    (field : NameField varbinds (0x06 :: bytes) named rest) :
    ∃ oid, named = ⟨oid, 0, .absent⟩ :: varbinds ∧ OidField bytes oid rest := by
  -- The other case has another tag.
  cases field with
  | present field => exact ⟨_, rfl, field⟩
  | missing _ differs => exact absurd rfl differs

/-- Without a name the entries are left alone. -/
theorem NameField.of_missing {tag : UInt8} (differs : tag ≠ 0x06) {varbinds named : List Varbind}
    {bytes rest : List UInt8} (field : NameField varbinds (tag :: bytes) named rest) :
    named = varbinds := by
  -- The other case has the tag of a name.
  cases field with
  | present => exact absurd rfl differs
  | missing => rfl

/-- A value of a known type is stored in the last entry. -/
theorem ValueField.of_known {tag : UInt8} (known : tag ∈ primitiveTypes) {last : Varbind}
    {before valued : List Varbind} {bytes rest : List UInt8}
    (field : ValueField (last :: before) (tag :: bytes) valued rest) :
    ∃ value, valued = { last with dataType := tag, value := value } :: before ∧
      PrimitiveField tag bytes value rest := by
  -- The other case has a tag that the agent does not know.
  cases field with
  | stored _ _ field => exact ⟨_, rfl, field⟩
  | skipped _ _ differs => exact absurd known differs

/-- An INTEGER that is received has one to four bytes. -/
theorem CodedBinding.Sound.integer_length {coded : CodedBinding} (sound : coded.Sound)
    (legal : coded.Legal) (tag : coded.valueTag = primvInt) :
    Minimal coded.value.content ∧ 1 ≤ coded.value.content.length ∧
      coded.value.content.length ≤ 4 := by
  -- A minimal INTEGER that fits 32 bits has at most four bytes.
  have minimal := legal.value.minimal tag
  obtain ⟨low, high⟩ := sound.integer tag
  exact ⟨minimal, length_of_minimal minimal low high⟩

/-- The value of a binding is read to its end in short form, and else to no element. -/
theorem primitiveField_coded {coded : CodedBinding} (legal : coded.Legal) (sound : coded.Sound)
    {tail behind : List UInt8} {value : Value}
    (room : coded.value.content.length + tail.length < 127)
    (field : PrimitiveField coded.valueTag
      (coded.value.form.octets coded.value.content.length ++ (coded.value.content ++ tail))
      value behind) :
    (coded.value.form = .short ∧ behind = tail) ∨
      ((coded.valueTag = primvNull ∨ (coded.valueTag = primvInt ∧ value = .word 4)) ∧
        ∃ head more, behind = head :: more ∧ head ≠ 0x30) := by
  -- The value has the layout of its type when its length byte is its length.
  have fits : coded.value.content.length < 128 := by omega
  have digits := coded.value.form.length_digits_le coded.value.content.length
  have mark : (0x30 : UInt8).toNat = 48 := rfl
  -- Small numbers do not begin an element.
  have apart : ∀ {head : UInt8} {n : Nat}, n ≤ 4 → head.toNat = n ∨ head.toNat = 0 →
      head ≠ 0x30 := by
    rintro head n small values rfl
    omega
  by_cases short : coded.value.form = .short
  · refine .inl ⟨short, ?_⟩
    rw [short] at field
    rcases primitiveField_iff.mp field with ⟨tag, _, _, integer⟩ | ⟨_, _, _, string⟩ |
      ⟨tag, _, skipped⟩ | ⟨tag, _, _, oid⟩
    · exact ((integerField_iff (sound.integer_length legal tag).2).mp integer).2
    · exact ((stringField_iff fits).mp string).2
    · rw [skipped, legal.value.null_content tag]
      rfl
    · exact oidField_short (legal.value.isOid tag).ne_nil fits oid
  · refine .inr ?_
    rcases primitiveField_iff.mp field with ⟨tag, word, stored, integer⟩ | ⟨_, _, _, string⟩ |
      ⟨tag, _, skipped⟩ | ⟨_, _, _, oid⟩
    · obtain ⟨rfl, rfl⟩ := (integerField_long short).mp integer
      have four := (sound.integer_length legal tag).2.2
      obtain ⟨head, more, shape, values⟩ := @long_head _ short coded.value.content.length
        (by omega) (coded.value.content ++ tail)
      exact ⟨.inr ⟨tag, stored⟩, head, more, shape, apart four values⟩
    · obtain ⟨same, size⟩ := stringField_octets string
      have lengths := congrArg List.length same
      have first := (long_first short coded.value.content.length).1
      simp only [List.length_append] at lengths
      omega
    · rw [legal.value.null_content tag] at skipped
      obtain ⟨head, more, shape, values⟩ := @long_head _ short 0 (by decide) tail
      exact ⟨.inl tag, head, more, skipped.trans shape, apart (Nat.zero_le 4) values⟩
    · have size := oidField_long short oid
      simp only [List.length_append] at size
      omega

/-- An element in short form is read as one entry, if it is read at all. -/
theorem Elements.of_short {coded : CodedBinding} (legal : coded.Legal) (sound : coded.Sound)
    (short : coded.form = .short) {limit counted : Nat} {varbinds final : List Varbind}
    {tail : List UInt8} (open_ : counted < limit) (room : coded.bytes.length + tail.length ≤ 128)
    (elements : Elements limit counted varbinds (coded.bytes ++ tail) final) :
    coded.name.form = .short ∧ ∃ oid value behind,
      PrimitiveField coded.valueTag
        (coded.value.form.octets coded.value.content.length ++ (coded.value.content ++ tail))
        value behind ∧
      Elements limit (counted + coded.bytes.length)
        (⟨oid, coded.valueTag, value⟩ :: varbinds) behind final := by
  -- The length byte of the element is its length, so the next turn begins behind it.
  obtain ⟨length, bytes, named, behindName, valued, behindValue, shape, name, value, rest⟩ :=
    elements.of_open open_
  have fits := legal.fits
  rw [short] at fits
  rw [CodedBinding.bytes, short, LengthForm.element, LengthForm.octets, List.cons_append,
    List.cons_append, List.cons_append, List.append_assoc, List.cons.injEq, List.cons.injEq]
    at shape
  obtain ⟨_, rfl, rfl⟩ := shape
  have size : coded.bytes.length = coded.content.length + 2 := by
    rw [CodedBinding.bytes, short]
    rfl
  rw [short_first fits, ← size] at rest
  -- The name ends where the value begins.
  have parts : coded.content ++ tail = 0x06 :: (coded.name.form.octets coded.name.content.length ++
      (coded.name.content ++ (coded.valueTag ::
        (coded.value.form.octets coded.value.content.length ++
          (coded.value.content ++ tail))))) := by
    simp only [CodedBinding.content, CodedField.bytes, LengthForm.element, List.cons_append,
      List.append_assoc]
  have total : (coded.content ++ tail).length ≤ 126 := by
    rw [List.length_append]
    omega
  have digits : LengthForm.short.digits coded.content.length = [] := rfl
  rw [digits, List.nil_append, parts] at name
  rw [parts] at total
  obtain ⟨oid, rfl, field⟩ := name.of_present
  simp only [LengthForm.octets, List.length_cons, List.length_append] at total
  have nameForm : coded.name.form = .short := by
    by_contra long
    have far := oidField_long long field
    simp only [LengthForm.octets, List.length_cons, List.length_append] at far
    omega
  refine ⟨nameForm, oid, ?_⟩
  rw [nameForm] at field
  have ends := oidField_short legal.name.ne_nil (by omega) field
  rw [ends] at value
  obtain ⟨stored, rfl, primitive⟩ := value.of_known sound.known
  exact ⟨stored, behindValue, primitive, rest⟩

/-- A value goes to the last entry, if anywhere. -/
theorem ValueField.of_cons {last : Varbind} {before valued : List Varbind}
    {bytes rest : List UInt8} (field : ValueField (last :: before) bytes valued rest) :
    ∃ entry, valued = entry :: before ∧ entry.oid = last.oid := by
  -- Both cases keep the name.
  cases field with
  | stored => exact ⟨_, rfl, rfl⟩
  | skipped => exact ⟨_, rfl, rfl⟩

/-- A value makes no entry. -/
theorem ValueField.length {varbinds valued : List Varbind} {bytes rest : List UInt8}
    (field : ValueField varbinds bytes valued rest) : valued.length = varbinds.length := by
  cases field <;> rfl

/-- An OID that does not begin with 1.3 is printed without its first numbers. -/
theorem OidField.unprefixed {length first : UInt8} {bytes text rest : List UInt8}
    (field : OidField (length :: first :: bytes) text rest) (other : first ≠ 0x2b) :
    ∃ words : List (BitVec 32), text = words.flatMap dotted := by
  generalize shape : length :: first :: bytes = whole at field
  cases field with
  | sized =>
    -- The prefix of any other first byte is empty.
    obtain ⟨_, inner⟩ := List.cons.inj shape
    obtain ⟨rfl, _⟩ := List.cons.inj inner
    rw [oidPrefix, if_neg other]
    exact ⟨_, rfl⟩

/-- The text of an OID below 1.3 is not printed so. -/
theorem flatMap_dotted_ne_oidText (words : List (BitVec 32)) (arcs : List Nat) :
    words.flatMap dotted ≠ oidText arcs := by
  -- Its first character is a digit, and theirs is a dot.
  have start : oidText arcs = 0x31 :: 0x2e :: 0x33 :: arcs.flatMap fun arc => dot :: decimal arc :=
    rfl
  rw [start]
  cases words with
  | nil => exact nofun
  | cons word words =>
    rw [List.flatMap_cons, dotted, List.cons_append]
    exact fun same => absurd (List.cons.inj same).1 (by decide)

/-- An element in long form ends the loop, and leaves no entry or one with another OID. -/
theorem Elements.of_long {coded : CodedBinding} (long : coded.form ≠ .short) {limit counted : Nat}
    {varbinds final : List Varbind} {tail : List UInt8} (open_ : counted < limit)
    (below : limit < 128) (small : coded.content.length < 128)
    (elements : Elements limit counted varbinds (coded.bytes ++ tail) final) :
    final.length = varbinds.length ∨
      ∃ (entry : Varbind) (words : List (BitVec 32)), final = entry :: varbinds ∧
        entry.oid = words.flatMap dotted := by
  -- The length byte is above 127, and the turn reads on from the length's own digits.
  obtain ⟨length, bytes, named, behindName, valued, behindValue, shape, name, value, rest⟩ :=
    elements.of_open open_
  rw [CodedBinding.bytes, LengthForm.element, LengthForm.octets, List.cons_append,
    List.cons_append, List.cons_append, List.append_assoc, List.cons.injEq, List.cons.injEq]
    at shape
  obtain ⟨_, rfl, rfl⟩ := shape
  -- The length byte counts for more than the list has, so this is the last turn.
  have first := (long_first long coded.content.length).1
  have ended := rest.of_reached (by omega)
  subst ended
  by_cases six : coded.form = .one ∧ coded.content.length = 6
  · -- A length of six is taken for the tag of a name.
    obtain ⟨one, size⟩ := six
    have head : LengthForm.one.digits 6 = [0x06] := rfl
    rw [one, size, head, List.singleton_append] at name
    obtain ⟨oid, rfl, field⟩ := name.of_present
    obtain ⟨entry, rfl, same⟩ := value.of_cons
    refine .inr ⟨entry, ?_⟩
    have parts : coded.content ++ tail = 0x06 :: coded.name.form.first coded.name.content.length ::
        (coded.name.form.digits coded.name.content.length ++ (coded.name.content ++
          (coded.value.bytes coded.valueTag ++ tail))) := by
      simp only [CodedBinding.content, CodedField.bytes, LengthForm.element, LengthForm.octets,
        List.cons_append, List.append_assoc]
    have within : coded.name.content.length ≤ 6 := by
      have total := congrArg List.length parts
      simp only [List.length_cons, List.length_append] at total
      omega
    rw [parts] at field
    -- What is taken for the first byte of the OID is its length.
    have other : coded.name.form.first coded.name.content.length ≠ 0x2b := by
      intro same
      have value := congrArg UInt8.toNat same
      have mark : (0x2b : UInt8).toNat = 43 := rfl
      by_cases short : coded.name.form = .short
      · rw [short, short_first (Nat.lt_of_le_of_lt within (by decide)), mark] at value
        omega
      · have far := (long_first short coded.name.content.length).1
        omega
    obtain ⟨words, text⟩ := field.unprefixed other
    exact ⟨words, rfl, same.trans text⟩
  · refine .inl ?_
    rw [value.length]
    obtain ⟨head, more, digits, differs⟩ : ∃ head more,
        coded.form.digits coded.content.length ++ (coded.content ++ tail) = head :: more ∧
          head ≠ 0x06 := by
      have mark : (0x06 : UInt8).toNat = 6 := rfl
      cases form : coded.form with
      | short => exact absurd form long
      | one =>
        refine ⟨_, _, rfl, fun same => six ⟨form, ?_⟩⟩
        have value := congrArg UInt8.toNat same
        rw [UInt8.toNat_ofNat', mark] at value
        omega
      | two =>
        refine ⟨_, _, rfl, fun same => ?_⟩
        have value := congrArg UInt8.toNat same
        rw [UInt8.toNat_ofNat', mark] at value
        omega
    rw [digits] at name
    rw [name.of_missing differs]

/-- The number that is stored for an INTEGER is the one that it denotes. -/
theorem toInt_of_reads {coded : CodedBinding} (tag : coded.valueTag = primvInt)
    {word : BitVec 32} (reads : Reads coded.binding.value (.word word)) :
    word.toInt = twosComplement coded.value.content := by
  -- An INTEGER is no application type.
  rw [CodedBinding.binding, tag] at reads
  cases reads with
  | integer same => exact same
  | application known => exact absurd known (by decide)

/-- An INTEGER that is read right is one of the readable numbers. -/
theorem readable_of_reads {coded : CodedBinding} (legal : coded.Legal) (sound : coded.Sound)
    (tag : coded.valueTag = primvInt) {tail behind : List UInt8} {value : Value}
    (field : PrimitiveField coded.valueTag
      (coded.value.form.octets coded.value.content.length ++ (coded.value.content ++ tail))
      value behind)
    (reads : Reads coded.binding.value value) :
    Readable (twosComplement coded.value.content) := by
  -- In short form the word of the content decides, and in long form the word is 4.
  obtain ⟨minimal, size⟩ := sound.integer_length legal tag
  obtain ⟨low, high⟩ := sound.integer tag
  rw [tag] at field
  rcases primitiveField_iff.mp field with ⟨_, word, rfl, integer⟩ | other | other | other
  · have same := toInt_of_reads tag reads
    by_cases short : coded.value.form = .short
    · rw [short] at integer
      rw [((integerField_iff size).mp integer).1, toInt_shiftedWord_iff minimal low high] at same
      exact same.imp (fun nonneg => ⟨nonneg, high⟩) fun wide => ⟨low, wide⟩
    · have four : (4 : BitVec 32).toInt = 4 := rfl
      rw [((integerField_long short).mp integer).1, four] at same
      rw [← same]
      exact .inl ⟨by decide, by decide⟩
  · exact absurd other.1 (by decide)
  · exact absurd other.1 (by decide)
  · exact absurd other.1 (by decide)

/-- Behind the entries that were there before is one for each binding, and agrees with it. -/
structure AgreesBehind (varbinds : List Varbind) (bindings : List CodedBinding)
    (final : List Varbind) : Prop where
  count : final.length = varbinds.length + bindings.length
  entries : ∀ new : List Varbind, final = new.reverse ++ varbinds →
    List.Forall₂ Matches (bindings.map CodedBinding.binding) new

/-- One of the new entries belongs to the first binding, and the others to those behind it. -/
theorem AgreesBehind.tail {varbinds final : List Varbind} {coded : CodedBinding}
    {rest : List CodedBinding} (agrees : AgreesBehind varbinds (coded :: rest) final)
    (entry : Varbind) : AgreesBehind (entry :: varbinds) rest final := by
  -- The count is one less on either side, and the entry of the first binding comes first.
  refine ⟨?_, fun new shape => ?_⟩
  · have count := agrees.count
    rw [List.length_cons] at count ⊢
    omega
  · -- An entry for the first binding goes before those for the others.
    have matched := agrees.entries (entry :: new) (by
      rw [shape, List.reverse_cons, List.append_assoc, List.singleton_append])
    rw [List.map_cons, List.forall₂_cons] at matched
    exact matched.2

/-- The first of the new entries agrees with the first binding. -/
theorem AgreesBehind.head {varbinds new : List Varbind} {coded : CodedBinding}
    {rest : List CodedBinding} {entry : Varbind}
    (agrees : AgreesBehind varbinds (coded :: rest) (new.reverse ++ entry :: varbinds)) :
    Matches coded.binding entry := by
  -- The first of the bindings is matched with the first of the new entries.
  have matched := agrees.entries (entry :: new) (by
    rw [List.reverse_cons, List.append_assoc, List.singleton_append])
  rw [List.map_cons, List.forall₂_cons] at matched
  exact matched.1

/-- No list agrees whose first element is in long form. -/
theorem AgreesBehind.short {varbinds final : List Varbind} {coded : CodedBinding}
    {rest : List CodedBinding} (agrees : AgreesBehind varbinds (coded :: rest) final)
    (sound : coded.Sound) {limit counted : Nat} {tail : List UInt8} (open_ : counted < limit)
    (below : limit < 128) (small : coded.content.length < 128)
    (elements : Elements limit counted varbinds (coded.bytes ++ tail) final) :
    coded.form = .short := by
  -- In long form the list ends at once, or its first entry has no text to compare.
  by_contra long
  rcases elements.of_long long open_ below small with same | ⟨entry, words, rfl, text⟩
  · have count := agrees.count
    rw [List.length_cons] at count
    omega
  · -- The one new entry would have the OID of the binding.
    obtain ⟨arcs, octets, _, _⟩ := sound.name
    have matched : nameText coded.name.content = some entry.oid :=
      (@AgreesBehind.head varbinds [] _ _ _ agrees).name
    rw [octets, nameText_oidOctets, Option.some.injEq] at matched
    exact flatMap_dotted_ne_oidText words arcs (text.symm.trans matched.symm)

/-- A list that is read with an entry for each binding is plain, and its entries are new ones. -/
theorem plainBindings_of_elements {limit : Nat} (below : limit < 128) :
    ∀ (bindings : List CodedBinding) (counted : Nat) (varbinds final : List Varbind),
      (∀ binding ∈ bindings, binding.Legal ∧ binding.Sound) →
      limit = counted + (bindings.flatMap CodedBinding.bytes).length →
      Elements limit counted varbinds (bindings.flatMap CodedBinding.bytes ++ [0]) final →
      AgreesBehind varbinds bindings final →
      PlainBindings bindings ∧ ∃ new : List Varbind, final = new.reverse ++ varbinds := by
  -- The induction is on the bindings, with one turn of the loop for each of them.
  intro bindings
  induction bindings with
  | nil =>
    intro counted varbinds final _ sum elements _
    simp only [List.flatMap_nil, List.length_nil, Nat.add_zero] at sum
    exact ⟨trivial, [], elements.of_reached (by omega)⟩
  | cons coded rest ih =>
    intro counted varbinds final good sum elements agrees
    obtain ⟨legal, sound⟩ := good coded List.mem_cons_self
    have size : coded.content.length + 2 ≤ coded.bytes.length :=
      coded.form.le_length_element 0x30 coded.content
    rw [List.flatMap_cons, List.length_append] at sum
    rw [List.flatMap_cons, List.append_assoc] at elements
    have open_ : counted < limit := by omega
    have short := agrees.short sound open_ below (by omega) elements
    have room : coded.bytes.length + (rest.flatMap CodedBinding.bytes ++ [0]).length ≤ 128 := by
      rw [List.length_append, List.length_singleton]
      omega
    have inside : coded.value.content.length +
        (rest.flatMap CodedBinding.bytes ++ [0]).length < 127 := by
      have value := coded.value.form.le_length_element coded.valueTag coded.value.content
      have parts : coded.content.length = (coded.name.bytes 0x06).length +
        (coded.value.form.element coded.valueTag coded.value.content).length := List.length_append
      omega
    obtain ⟨nameForm, oid, value, behind, field, others⟩ :=
      elements.of_short legal sound short open_ room
    have plain : ∀ {new : List Varbind}, final = new.reverse ++ ⟨oid, coded.valueTag, value⟩ ::
        varbinds → Reads coded.binding.value value ∧ coded.Plain := by
      rintro new rfl
      have reads := agrees.head.value
      exact ⟨reads, short, nameForm, sound.name, sound.known,
        fun tag => readable_of_reads legal sound tag field reads, sound.objectId⟩
    rcases primitiveField_coded legal sound inside field with ⟨valueForm, rfl⟩ |
      ⟨lengthless, head, more, rfl, differs⟩
    · obtain ⟨plainRest, new, shape⟩ := ih (counted + coded.bytes.length) _ final
        (fun other later => good other (List.mem_cons_of_mem _ later)) (by omega) others
        (agrees.tail _)
      refine ⟨⟨(plain shape).2, .inl valueForm, plainRest⟩,
        ⟨oid, coded.valueTag, value⟩ :: new, ?_⟩
      rw [shape, List.reverse_cons, List.append_assoc, List.singleton_append]
    · -- Behind a length that was not understood is no element, so nothing may come.
      have last : rest = [] := by
        by_contra more
        obtain ⟨next, further, rfl⟩ := List.exists_cons_of_ne_nil more
        have nextSize := next.form.le_length_element 0x30 next.content
        change next.content.length + 2 ≤ next.bytes.length at nextSize
        rw [List.flatMap_cons, List.length_append] at sum
        obtain ⟨_, _, _, _, _, _, shape, _⟩ := others.of_open (by omega)
        exact differs (List.cons.inj shape).1
      subst last
      rw [List.flatMap_nil, List.length_nil] at sum
      have shape : final = [].reverse ++ ⟨oid, coded.valueTag, value⟩ :: varbinds :=
        others.of_reached (by omega)
      obtain ⟨reads, understood⟩ := plain shape
      refine ⟨⟨understood, .inr ⟨rfl, lengthless.imp_right fun four => ⟨four.1, ?_⟩⟩, trivial⟩,
        [⟨oid, coded.valueTag, value⟩], shape⟩
      rw [← toInt_of_reads four.1 (four.2 ▸ reads)]
      rfl

/-- The name of a plain binding is read to its end. -/
theorem oidField_printable {content : List UInt8} (printable : Printable content)
    (short : content.length < 128) (rest : List UInt8) :
    ∃ text, nameText content = some text ∧
      OidField (UInt8.ofNat content.length :: (content ++ rest)) text rest := by
  -- A printable name is the one of arcs below 1.3.
  obtain ⟨arcs, rfl, small, fits⟩ := printable
  exact ⟨_, nameText_oidOctets arcs,
    oidField_octets small fits (Nat.lt_trans short (by decide)) rest⟩

/-- A readable number has one to four bytes, and its word has its value. -/
theorem Readable.word {content : List UInt8} (readable : Readable (twosComplement content))
    (minimal : Minimal content) : (1 ≤ content.length ∧ content.length ≤ 4) ∧
      (shiftedWord content).toInt = twosComplement content := by
  -- Both ranges are within those of a word.
  have low : -2 ^ 31 ≤ twosComplement content := by
    rcases readable with nonneg | wide <;> omega
  have high : twosComplement content < 2 ^ 31 := by
    rcases readable with nonneg | wide <;> omega
  exact ⟨length_of_minimal minimal low high,
    (toInt_shiftedWord_iff minimal low high).mpr (readable.imp And.left And.right)⟩

/-- A value of a plain binding is read as what it denotes, and to its end in short form. -/
theorem CodedBinding.Plain.value {coded : CodedBinding} (plain : coded.Plain)
    (legal : coded.Legal) (understood : coded.value.form = .short ∨ coded.Lengthless)
    (tail : List UInt8) :
    ∃ value behind, PrimitiveField coded.valueTag
        (coded.value.form.octets coded.value.content.length ++ (coded.value.content ++ tail))
        value behind ∧
      Reads coded.binding.value value ∧ (coded.value.form = .short → behind = tail) := by
  -- One case for each type of a plain binding.
  rw [CodedBinding.binding]
  have wellFormed := legal.value
  have known := plain.known
  have integer := plain.integer
  have objectId := plain.objectId
  have fits := legal.valueFits
  rw [CodedField.Fits] at fits
  by_cases short : coded.value.form = .short
  · rw [short] at fits ⊢
    generalize coded.value.content = content at wellFormed integer objectId fits ⊢
    generalize coded.valueTag = tag at wellFormed known integer objectId ⊢
    cases wellFormed with
    -- In short form each type is read to its end.
    | integer minimal =>
      obtain ⟨size, same⟩ := (integer rfl).word minimal
      exact ⟨_, tail, .integer (integerField_content size tail), .integer same, fun _ => rfl⟩
    | octets =>
      exact ⟨_, tail, .octets (stringField_content fits tail), .octets content, fun _ => rfl⟩
    | null => exact ⟨_, tail, .null _, .null, fun _ => rfl⟩
    | objectId =>
      obtain ⟨text, name, field⟩ := oidField_printable (objectId rfl) fits tail
      exact ⟨_, tail, .oid field, .objectId name, fun _ => rfl⟩
    | application other => exact absurd known (not_primitive_of_application other)
  · -- A NULL is stored whatever its length is, and every other width of an INTEGER as 4.
    rcases understood.resolve_left short with null | ⟨tag, four⟩
    · rw [legal.value.null_content null, null]
      exact ⟨_, _, .null _, .null, fun same => absurd same short⟩
    · rw [tag]
      exact ⟨_, _, .integer ((integerField_long short).mpr ⟨rfl, rfl⟩), .integer four.symm,
        fun same => absurd same short⟩

/-- A plain list is read with an entry for each binding. -/
theorem elements_of_plainBindings {limit : Nat} (below : limit < 128) :
    ∀ (bindings : List CodedBinding) (counted : Nat) (varbinds : List Varbind),
      (∀ binding ∈ bindings, binding.Legal) → PlainBindings bindings →
      limit = counted + (bindings.flatMap CodedBinding.bytes).length → ∀ tail : List UInt8,
      ∃ new : List Varbind,
        Elements limit counted varbinds (bindings.flatMap CodedBinding.bytes ++ tail)
          (new.reverse ++ varbinds) ∧
        List.Forall₂ Matches (bindings.map CodedBinding.binding) new := by
  -- The induction is on the bindings, with one turn of the loop for each of them.
  intro bindings
  induction bindings with
  | nil =>
    intro counted varbinds _ _ sum tail
    simp only [List.flatMap_nil, List.length_nil, Nat.add_zero] at sum
    exact ⟨[], .done _ (by omega), .nil⟩
  | cons coded rest ih =>
    intro counted varbinds legal plain sum tail
    obtain ⟨understood, valueForm, plainRest⟩ := plain
    have good := legal coded List.mem_cons_self
    have size : coded.bytes.length = coded.content.length + 2 := by
      rw [CodedBinding.bytes, understood.form]
      rfl
    rw [List.flatMap_cons, List.length_append] at sum
    have nameSize : coded.name.content.length < 128 := by
      have name := coded.name.form.le_length_element 0x06 coded.name.content
      have parts : coded.content.length =
        (coded.name.form.element 0x06 coded.name.content).length +
          (coded.value.bytes coded.valueTag).length := List.length_append
      omega
    obtain ⟨value, behind, field, reads, ends⟩ := understood.value good
      (valueForm.imp_right And.right) (rest.flatMap CodedBinding.bytes ++ tail)
    obtain ⟨text, name, oid⟩ := oidField_printable understood.name nameSize
      (coded.valueTag :: (coded.value.form.octets coded.value.content.length ++
        (coded.value.content ++ (rest.flatMap CodedBinding.bytes ++ tail))))
    have matched : Matches coded.binding ⟨text, coded.valueTag, value⟩ := ⟨name, rfl, reads⟩
    -- The rest is read from where the value ends, or is empty.
    obtain ⟨new, elements, others⟩ : ∃ new : List Varbind,
        Elements limit (counted + coded.bytes.length) (⟨text, coded.valueTag, value⟩ :: varbinds)
          behind (new.reverse ++ ⟨text, coded.valueTag, value⟩ :: varbinds) ∧
        List.Forall₂ Matches (rest.map CodedBinding.binding) new := by
      rcases valueForm with short | ⟨rfl, _⟩
      · rw [ends short]
        exact ih _ _ (fun other later => legal other (List.mem_cons_of_mem _ later)) plainRest
          (by omega) tail
      · rw [List.flatMap_nil, List.length_nil] at sum
        exact ⟨[], .done _ (by omega), .nil⟩
    refine ⟨⟨text, coded.valueTag, value⟩ :: new, ?_, .cons matched others⟩
    have shape : coded.bytes ++ (rest.flatMap CodedBinding.bytes ++ tail) =
        0x30 :: UInt8.ofNat coded.content.length :: 0x06 ::
          (UInt8.ofNat coded.name.content.length :: (coded.name.content ++ (coded.valueTag ::
            (coded.value.form.octets coded.value.content.length ++ (coded.value.content ++
              (rest.flatMap CodedBinding.bytes ++ tail)))))) := by
      rw [CodedBinding.bytes, understood.form, LengthForm.element_short, element,
        CodedBinding.content, CodedField.bytes, understood.nameForm, LengthForm.element_short,
        element, CodedField.bytes, LengthForm.element]
      simp only [List.cons_append, List.append_assoc]
    have length : (UInt8.ofNat coded.content.length).toNat + 2 = coded.bytes.length := by
      rw [toNat_length (by omega), size]
    rw [List.flatMap_cons, List.append_assoc, shape, List.reverse_cons, List.append_assoc,
      List.singleton_append]
    rw [← length] at elements
    exact .element (by omega) (.present oid) (.stored _ _ field) elements

end OpenwrtMisc.SnmpAgent
