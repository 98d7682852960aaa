import OpenwrtMisc.SnmpAgent.Agreement

/-! How much a list of entries can hold of what a block of some length is read as. -/

namespace OpenwrtMisc.SnmpAgent

open Ber

/-- The bytes that a value points to. -/
def Value.block : Value → List UInt8
  | .string bytes => bytes
  | _ => []

/-- The weight of a value, which is three times the bytes that it was read from at the most. -/
def valueWeight (tag : UInt8) (value : Value) : Nat :=
  if tag = 0 then 0
  else if tag = primvObjid then 3 + 3 * value.block.count dot
  else 3 + value.block.length

/-- The weight of an entry. -/
def Varbind.weight (entry : Varbind) : Nat :=
  12 + 3 * entry.oid.count dot + valueWeight entry.dataType entry.value

/-- The weight of entries. -/
def weights (entries : List Varbind) : Nat := (entries.map Varbind.weight).sum

/-- The weight of one more entry. -/
theorem weights_cons (entry : Varbind) (entries : List Varbind) :
    weights (entry :: entries) = entry.weight + weights entries := by
  rw [weights, List.map_cons, List.sum_cons, weights]

/-- A printed number has one dot. -/
theorem count_dotted (word : BitVec 32) : (dotted word).count dot = 1 := by
  rw [dotted, List.count_cons_self, List.count_eq_zero.mpr (dot_not_mem_formatInt _)]

/-- There is a dot for each number, and at most one in the prefix. -/
theorem count_printed (first : UInt8) (words : List (BitVec 32)) :
    (oidPrefix first ++ words.flatMap dotted).count dot ≤ 1 + words.length := by
  -- Each number is printed with its dot, and the prefix has one more.
  have start : (oidPrefix first).count dot ≤ 1 := by
    unfold oidPrefix
    split <;> decide
  have numbers : (words.flatMap dotted).count dot = words.length := by
    induction words with
    | nil => rfl
    | cons word words ih =>
      rw [List.flatMap_cons, List.count_append, count_dotted, ih, List.length_cons, Nat.add_comm]
  rw [List.count_append]
  omega

/-- An OID has at most as many numbers as bytes. -/
theorem length_oidArcs_le (pending : BitVec 32) (nodes : List UInt8) :
    (oidArcs pending nodes).length ≤ nodes.length := by
  -- The induction is on the bytes, each of which ends at most one number.
  induction nodes generalizing pending with
  | nil => exact Nat.le_refl _
  | cons node nodes ih =>
    rw [oidArcs]
    split
    · exact Nat.le_succ_of_le (ih _)
    · exact Nat.succ_le_succ (ih _)

/-- An OID is read from more bytes than its text has dots. -/
theorem OidField.count_dot {bytes text rest : List UInt8} (field : OidField bytes text rest) :
    text.count dot + 1 + rest.length ≤ bytes.length := by
  cases field with
  | @sized length first nodes rest size fits =>
    -- A byte is spent on each number, and two on the length and the first byte.
    have dots := count_printed first (oidArcs 0 nodes)
    have numbers := length_oidArcs_le 0 nodes
    simp only [List.length_cons, List.length_append]
    omega

/-- A name weighs three times the bytes that it is read from, with those before it. -/
theorem NameField.weights {varbinds named : List Varbind} {bytes rest : List UInt8}
    (field : NameField varbinds bytes named rest) :
    weights named + 3 * rest.length ≤ weights varbinds + 3 * bytes.length + 6 := by
  cases field with
  | @present bytes oid rest field =>
    have dots := field.count_dot
    -- The new entry has no value yet, which would weigh more.
    have none : valueWeight 0 .absent = 0 := rfl
    rw [weights_cons, Varbind.weight, none, List.length_cons]
    dsimp only
    omega
  | missing => omega

/-- A value weighs three times the bytes that it is read from with its tag. -/
theorem PrimitiveField.weight {tag : UInt8} {bytes rest : List UInt8} {value : Value}
    (field : PrimitiveField tag bytes value rest) :
    valueWeight tag value + 3 * rest.length ≤ 3 * bytes.length + 3 := by
  -- One case for each layout of a value.
  cases field with
  | integer field =>
    -- A number weighs no more than its tag and its width.
    have weight : ∀ word, valueWeight primvInt (.word word) = 3 := fun _ => rfl
    rw [weight]
    cases field with
    | sized => simp only [List.length_cons, List.length_append]; omega
    | other => simp only [List.length_cons]; omega
  | octets field =>
    have weight : ∀ content, valueWeight primvOctstr (.string content) = 3 + content.length :=
      fun _ => rfl
    rw [weight]
    cases field with
    | sized => simp only [List.length_cons, List.length_append]; omega
  | null =>
    -- The byte behind the tag may be missing, so only the tag is sure to be there.
    have weight : valueWeight primvNull (.word 0) = 3 := rfl
    rw [weight, List.length_drop]
    omega
  | oid field =>
    have weight : ∀ text, valueWeight primvObjid (.string text) = 3 + 3 * text.count dot :=
      fun _ => rfl
    have dots := field.count_dot
    rw [weight]
    omega

/-- The value of an element does not weigh more than three times its bytes. -/
theorem ValueField.weights {varbinds valued : List Varbind} {bytes rest : List UInt8}
    (field : ValueField varbinds bytes valued rest) :
    weights valued + 3 * rest.length ≤ weights varbinds + 3 * bytes.length := by
  cases field with
  | stored last before field =>
    -- The value that was there before is lost.
    have weight := field.weight
    rw [weights_cons, weights_cons, Varbind.weight, Varbind.weight, List.length_cons]
    dsimp only
    omega
  | skipped => omega

/-- The entries of a list do not weigh more than three times its bytes. -/
theorem Elements.weights {limit counted : Nat} {varbinds final : List Varbind}
    {bytes : List UInt8} (elements : Elements limit counted varbinds bytes final) :
    weights final ≤ weights varbinds + 3 * bytes.length := by
  induction elements with
  | done => exact Nat.le_add_right _ _
  | element _ name value _ ih =>
    -- The two bytes before the name are counted for it.
    have named := name.weights
    have valued := value.weights
    simp only [List.length_cons]
    omega

/-- The bindings of a block do not weigh more than three times its bytes. -/
theorem ListLayout.weights {block : List UInt8} {varbindList : VarbindListRx}
    (layout : ListLayout block varbindList) :
    weights varbindList.varbindList ≤ 3 * block.length := by
  cases layout with
  | @elements length bytes varbinds inside =>
    have weight := inside.weights
    have none : SnmpAgent.weights [] = 0 := rfl
    -- The order of the entries does not matter for what they weigh.
    have order : SnmpAgent.weights varbinds.reverse = SnmpAgent.weights varbinds := by
      rw [SnmpAgent.weights, List.map_reverse, List.sum_reverse, SnmpAgent.weights]
    simp only [List.length_cons]
    omega

/-- The dots of a text tell how many numbers there are. -/
theorem count_oidText (arcs : List Nat) : (oidText arcs).count dot = arcs.length + 1 := by
  induction arcs with
  | nil => decide
  | cons arc arcs ih =>
    -- The digits of a number are no dots.
    have plain : (decimal arc).count dot = 0 :=
      List.count_eq_zero.mpr (formatInt_natCast arc ▸ dot_not_mem_formatInt arc)
    rw [oidText, List.count_append] at ih ⊢
    rw [List.flatMap_cons, List.count_append, List.count_cons_self, plain, List.length_cons]
    omega

/-- An OID that can be printed takes at most three bytes for each number. -/
theorem length_oidOctets_le {arcs : List Nat} (small : ∀ arc ∈ arcs, arc < 1000000) :
    (oidOctets arcs).length + 2 ≤ 3 * (oidText arcs).count dot := by
  rw [count_oidText]
  induction arcs with
  | nil => decide
  | cons arc arcs ih =>
    have rest := ih fun other later => small other (List.mem_cons_of_mem _ later)
    -- A number of six digits fits three groups.
    have below : arc < 128 ^ (2 + 1) := Nat.lt_trans (small arc List.mem_cons_self) (by decide)
    have three := length_base128_le_of_lt below
    simp only [oidOctets, List.length_cons, List.flatMap_cons, List.length_append] at rest ⊢
    omega

/-- A binding takes at most as many bytes as an entry weighs that agrees with it. -/
theorem Matches.length_le {coded : CodedBinding} {entry : Varbind} (legal : coded.Legal)
    (credible : Credible entry) (agrees : Matches coded.binding entry) :
    coded.bytes.length ≤ entry.weight := by
  -- The name and the value are bounded for themselves.
  obtain ⟨arcs, octets, text, small, _⟩ := agrees.name_printable legal credible
  have sound := agrees.sound legal credible
  have dataType : entry.dataType = coded.valueTag := agrees.dataType
  have name := length_oidOctets_le small
  rw [← octets, ← text] at name
  -- The value is longer than its weight by one byte at the most, which the name makes up for.
  have value : coded.value.content.length ≤ valueWeight entry.dataType entry.value + 1 := by
    have stored : Reads ⟨coded.valueTag, coded.value.content⟩ entry.value := agrees.value
    have objectId := sound.objectId
    have integer := sound.integer
    have known := sound.known
    have wellFormed := legal.value
    rw [dataType]
    generalize coded.valueTag = tag at stored objectId integer known wellFormed
    generalize coded.value.content = content at stored objectId integer wellFormed
    generalize kept : entry.value = value at stored
    cases stored with
    | @integer _ word same =>
      obtain ⟨low, high⟩ := integer rfl
      have four := (length_of_minimal (wellFormed.minimal rfl) low high).2
      have weight : valueWeight primvInt (.word word) = 3 := rfl
      omega
    | octets =>
      have weight : valueWeight primvOctstr (.string content) = 3 + content.length := rfl
      omega
    | null => exact Nat.zero_le _
    | @objectId _ text name =>
      obtain ⟨arcs, rfl, small, _⟩ := objectId rfl
      rw [nameText_oidOctets, Option.some.injEq] at name
      have three := length_oidOctets_le small
      have weight : valueWeight primvObjid (.string text) = 3 + 3 * text.count dot := rfl
      rw [name] at three
      omega
    | application other => exact absurd known (not_primitive_of_application other)
  have form := coded.form.length_element_le 0x30 coded.content
  have nameForm := coded.name.form.length_element_le 0x06 coded.name.content
  have valueForm := coded.value.form.length_element_le coded.valueTag coded.value.content
  have parts : coded.content.length = (coded.name.form.element 0x06 coded.name.content).length +
      (coded.value.form.element coded.valueTag coded.value.content).length := List.length_append
  rw [CodedBinding.bytes, Varbind.weight]
  omega

/-- Bindings take at most as many bytes as entries weigh that agree with them. -/
theorem length_bindings_le {bindings : List CodedBinding} {entries : List Varbind}
    (legal : ∀ binding ∈ bindings, binding.Legal) (credible : ∀ entry ∈ entries, Credible entry)
    (agree : List.Forall₂ Matches (bindings.map CodedBinding.binding) entries) :
    (bindings.flatMap CodedBinding.bytes).length ≤ weights entries := by
  -- Induction on the bindings, next to their entries.
  induction bindings generalizing entries with
  | nil => exact Nat.zero_le _
  | cons binding bindings ih =>
    cases agree with
    | @cons _ entry _ entries first others =>
      -- The entries are weighed one by one.
      have one := first.length_le (legal binding List.mem_cons_self)
        (credible entry List.mem_cons_self)
      have rest := ih (fun other later => legal other (List.mem_cons_of_mem _ later))
        (fun other later => credible other (List.mem_cons_of_mem _ later)) others
      rw [List.flatMap_cons, List.length_append, weights_cons]
      omega

end OpenwrtMisc.SnmpAgent
