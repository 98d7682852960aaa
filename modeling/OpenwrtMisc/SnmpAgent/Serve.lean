import OpenwrtMisc.SnmpAgent.Agent
import OpenwrtMisc.SnmpAgent.Encode
import OpenwrtMisc.SnmpAgent.Parse

/-! Every binding of a request is answered by the one served object of its name, or kept. -/

namespace OpenwrtMisc.SnmpAgent

/-- The value of a served object is stored as its type asks, and a text has no zero inside. -/
inductive Served.WellTyped (served : Served) : Prop
  | number (value : BitVec 32) (type : served.dataType = primvInt ∨ served.dataType = primvTimtick)
    (stored : served.value = .word value)
  | text (bytes : List UInt8) (type : served.dataType = primvOctstr)
    (stored : served.value = .string bytes) (plain : cString bytes = bytes)
    (short : bytes.length < 256)

/-- What a binding becomes when it is answered from a table. -/
def answerFrom (table : List Served) (varbind : Varbind) : Varbind :=
  match table.find? fun served => served.oid = varbind.oid with
  | some served => ⟨varbind.oid, served.dataType, served.value⟩
  | none => varbind

/-- The answers to the bindings from an index on. -/
def answered (current : CurrentValues) : Nat → List Varbind → List Varbind
  | _, [] => []
  | i, varbind :: varbinds =>
    answerFrom (servedTable current i) varbind :: answered current (i + 1) varbinds

/-- An update with the value of a served object takes over its type and its value. -/
theorem updateVarbind_served (varbind : Varbind) {served : Served} (typed : served.WellTyped) :
    updateVarbind varbind served.dataType served.value =
      .ok ⟨varbind.oid, served.dataType, served.value⟩ := by
  -- One case for each type of a served object.
  cases typed with
  | number value type stored =>
    rcases type with type | type
    · rw [type, stored]
      rfl
    · rw [type, stored]
      rfl
  | text bytes type stored plain _ =>
    -- The text is copied up to its first zero, which is all of it.
    have copied : updateVarbind varbind primvOctstr (.string bytes) =
        .ok ⟨varbind.oid, primvOctstr, .string (cString bytes)⟩ := rfl
    rw [type, stored, copied, plain]

/-- A binding that no entry of a table is for is kept by all comparisons. -/
theorem serveAll_unmatched {varbind : Varbind} :
    ∀ {table : List Served}, (∀ served ∈ table, served.oid ≠ varbind.oid) →
      serveAll varbind table = .ok varbind := by
  -- The induction is on the table, no entry of which compares equal.
  intro table
  induction table with
  | nil => intro _; rfl
  | cons served rest ih =>
    intro differs
    have kept : serve varbind served = .ok varbind := if_neg (differs served List.mem_cons_self)
    rw [serveAll, kept]
    exact ih fun other later => differs other (List.mem_cons_of_mem _ later)

/-- The comparisons with a table of distinct names answer a binding from it. -/
theorem serveAll_eq {varbind : Varbind} :
    ∀ {table : List Served}, (∀ served ∈ table, served.WellTyped) →
      table.Pairwise (fun first second => first.oid ≠ second.oid) →
      serveAll varbind table = .ok (answerFrom table varbind) := by
  -- The induction is on the table. Behind the entry that matches no other one does, as the names
  -- differ.
  intro table
  induction table with
  | nil => intros; rfl
  | cons served rest ih =>
    intro typed distinct
    obtain ⟨apart, distinct⟩ := List.pairwise_cons.mp distinct
    rw [serveAll]
    by_cases found : served.oid = varbind.oid
    · -- The update keeps the name, so no later entry is for the binding.
      have updated : serve varbind served = .ok ⟨varbind.oid, served.dataType, served.value⟩ := by
        rw [serve, if_pos found]
        exact updateVarbind_served varbind (typed served List.mem_cons_self)
      have later : serveAll ⟨varbind.oid, served.dataType, served.value⟩ rest =
          .ok ⟨varbind.oid, served.dataType, served.value⟩ :=
        serveAll_unmatched fun other member same => apart other member (found.trans same.symm)
      rw [updated]
      show serveAll _ rest = _
      rw [later]
      simp [answerFrom, found]
    · have kept : serve varbind served = .ok varbind := if_neg found
      have skipped : answerFrom (served :: rest) varbind = answerFrom rest varbind := by
        simp [answerFrom, found]
      rw [kept, skipped]
      exact ih (fun other later => typed other (List.mem_cons_of_mem _ later)) distinct

/-- The served objects are stored as their types ask. -/
theorem servedTable_wellTyped (current : CurrentValues) (i : Nat) :
    ∀ served ∈ servedTable current i, served.WellTyped := by
  -- The nine entries are looked up one by one.
  intro served member
  simp only [servedTable, List.mem_cons, List.not_mem_nil, or_false] at member
  rcases member with rfl | rfl | rfl | rfl | rfl | rfl | rfl | rfl | rfl
  · exact .text description rfl rfl (by decide) (by decide)
  · exact .number _ (.inr rfl) rfl
  · exact .text masterName rfl rfl (by decide) (by decide)
  · exact .text masterLocation rfl rfl (by decide) (by decide)
  all_goals exact .number _ (.inl rfl) rfl

/-- The names of the served objects. -/
def servedNames : List (List UInt8) :=
  [ascii "1.3.6.1.2.1.1.1.0", ascii "1.3.6.1.2.1.1.3.0", ascii "1.3.6.1.4.1.39241.1.1.0",
    ascii "1.3.6.1.4.1.39241.1.2.0", ascii "1.3.6.1.4.1.39241.1.3.0",
    ascii "1.3.6.1.4.1.39241.1.8.0", ascii "1.3.6.1.4.1.39241.1.8.1",
    ascii "1.3.6.1.4.1.39241.1.8.2", ascii "1.3.6.1.4.1.39241.16.7.0"]

/-- No two served objects have the same name. -/
theorem servedTable_distinct (current : CurrentValues) (i : Nat) :
    (servedTable current i).Pairwise fun first second => first.oid ≠ second.oid := by
  -- The names are the same for all values, so they are compared once.
  have names : (servedTable current i).map Served.oid = servedNames := rfl
  have distinct : servedNames.Pairwise (· ≠ ·) := by decide
  rw [← names] at distinct
  exact List.pairwise_map.mp distinct

/-- The loop over the bindings answers each of them. -/
theorem processVarbindList_eq (current : CurrentValues) :
    ∀ (varbinds : List Varbind) (i : Nat),
      processVarbindList current i varbinds = .ok (answered current i varbinds) := by
  intro varbinds
  induction varbinds with
  | nil => intro i; rfl
  | cons varbind rest ih =>
    intro i
    rw [processVarbindList, serveAll_eq (servedTable_wellTyped current i)
      (servedTable_distinct current i)]
    -- The table of this turn has no type error, so that the first entry of this name answers.
    show (processVarbindList current (i + 1) rest >>= _) = _
    rw [ih (i + 1)]
    rfl

/-- An answer keeps the name of the binding. -/
theorem answerFrom_oid (table : List Served) (varbind : Varbind) :
    (answerFrom table varbind).oid = varbind.oid := by
  -- Only the type and the value are taken from an entry.
  unfold answerFrom
  split <;> rfl

/-- An answer from a table of well typed objects to a well typed binding is well typed. -/
theorem answerFrom_wellTyped {table : List Served} {varbind : Varbind}
    (served : ∀ served ∈ table, served.WellTyped) (typed : varbind.WellTyped) :
    (answerFrom table varbind).WellTyped := by
  -- The object is found in the table, or the answer says that there is none.
  unfold answerFrom
  split
  · rename_i entry found
    -- The answer is of the type that the table gives its entry.
    cases served entry (List.mem_of_find?_eq_some found) with
    | number value type stored =>
      rw [stored]
      exact Varbind.wellTyped_word value typed.name type
    | text bytes type stored _ short =>
      rw [stored]
      exact Varbind.wellTyped_string typed.name short (.inl type)
  · exact typed

/-- The answers to well typed bindings are well typed. -/
theorem answered_wellTyped (current : CurrentValues) :
    ∀ (varbinds : List Varbind) (i : Nat), (∀ varbind ∈ varbinds, varbind.WellTyped) →
      ∀ varbind ∈ answered current i varbinds, varbind.WellTyped := by
  -- The induction is on the bindings, with the row of the table counted up.
  intro varbinds
  induction varbinds with
  | nil => intro _ _ varbind member; cases member
  | cons head rest ih =>
    intro i typed varbind member
    rcases List.mem_cons.mp member with rfl | later
    · exact answerFrom_wellTyped (servedTable_wellTyped current i) (typed head List.mem_cons_self)
    · exact ih (i + 1) (fun other found => typed other (List.mem_cons_of_mem _ found)) varbind later

/-- The text of a name that was read fits its buffer. -/
theorem OidField.length {bytes text rest : List UInt8} (field : OidField bytes text rest) :
    text.length < oidTextSize := by
  -- The decoder has checked it against the buffer.
  obtain ⟨_, _, fits⟩ := field
  exact fits.whole

/-- A string that was read fits a length byte. -/
theorem StringField.length {bytes content rest : List UInt8}
    (field : StringField bytes content rest) : content.length < 256 := by
  -- The length of the string is what its length byte says.
  obtain ⟨_, size⟩ := field
  rename_i length
  rw [size]
  exact length.toNat_lt

/-- A name adds a well typed binding, if any. -/
theorem NameField.wellTyped {varbinds named : List Varbind} {bytes rest : List UInt8}
    (name : NameField varbinds bytes named rest)
    (typed : ∀ varbind ∈ varbinds, varbind.WellTyped) : ∀ varbind ∈ named, varbind.WellTyped := by
  -- A new entry has neither type nor value.
  cases name with
  | present field =>
    intro varbind member
    rcases List.mem_cons.mp member with rfl | before
    · exact Varbind.wellTyped_absent (Nat.lt_trans field.length (by decide))
    · exact typed varbind before
  | missing => exact typed

/-- A value makes the last binding well typed, if it is taken over. -/
theorem ValueField.wellTyped {varbinds valued : List Varbind} {bytes rest : List UInt8}
    (value : ValueField varbinds bytes valued rest)
    (typed : ∀ varbind ∈ varbinds, varbind.WellTyped) : ∀ varbind ∈ valued, varbind.WellTyped := by
  -- Only the last binding changes, and it keeps its name.
  cases value with
  | stored last before field =>
    intro varbind member
    rcases List.mem_cons.mp member with rfl | earlier
    · have name := (typed last List.mem_cons_self).name
      cases field with
      | integer => exact Varbind.wellTyped_word _ name (.inl rfl)
      | octets field => exact Varbind.wellTyped_string name field.length (.inl rfl)
      | null => exact Varbind.wellTyped_null name
      | oid field =>
        exact Varbind.wellTyped_string name (Nat.lt_trans field.length (by decide)) (.inr rfl)
    · exact typed varbind (List.mem_cons_of_mem _ earlier)
  | skipped => exact typed

/-- The elements of a list leave well typed bindings. -/
theorem Elements.wellTyped {limit counted : Nat} {varbinds final : List Varbind}
    {bytes : List UInt8} (elements : Elements limit counted varbinds bytes final)
    (typed : ∀ varbind ∈ varbinds, varbind.WellTyped) :
    ∀ varbind ∈ final, varbind.WellTyped := by
  -- The induction is on the elements.
  induction elements with
  | done => exact typed
  | element _ name value _ ih => exact ih (value.wellTyped (name.wellTyped typed))

/-- The bindings of a list that was read are well typed. -/
theorem ListLayout.wellTyped {block : List UInt8} {varbindList : VarbindListRx}
    (layout : ListLayout block varbindList) :
    ∀ varbind ∈ varbindList.varbindList, varbind.WellTyped := by
  -- The list starts without bindings.
  obtain ⟨inside⟩ := layout
  intro varbind member
  exact inside.wellTyped nofun varbind (List.mem_reverse.mp member)

/-- A community that was read fits a length byte. -/
theorem MessageLayout.community_length {received community : List UInt8} {message : SnmpMessageRx}
    (layout : MessageLayout received (some message)) (found : message.community = some community) :
    community.length < 256 := by
  -- A missing community has no length, and one that is there had a length byte.
  generalize parsed : some message = outcome at layout
  obtain ⟨_, _, communityField, _⟩ := layout
  split at parsed
  · cases parsed
  · cases parsed
    cases communityField with
    | present here =>
      obtain ⟨field⟩ := here
      cases found
      exact field.length
    | missing => cases found

end OpenwrtMisc.SnmpAgent
