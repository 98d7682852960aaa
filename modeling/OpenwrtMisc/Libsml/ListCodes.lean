import OpenwrtMisc.Libsml.FieldCodes
import OpenwrtMisc.Libsml.Trees

/-! Lists, sequences and trees as they are written, and which of them are read back. -/

namespace OpenwrtMisc.Libsml

/-- What is written from behind a pointer, which is followed. -/
def written {α : Type} (write : α → Writer Unit) (pointer : Option α) : Writer Unit := do
  let value ← follow pointer
  write value

/-- `sml_sequence_write`. -/
def smlSequenceWrite {α : Type} (elemWrite : α → Writer Unit) : Option (List α) → Writer Unit
  | none => smlBufOptionalWrite
  | some seq => do
    smlBufSetTypeAndLength smlTypeList seq.length.toUInt32
    seq.forM elemWrite

/-- `sml_list_entry_write`. -/
def smlListEntryWrite (list : SmlList) : Writer Unit := do
  smlBufSetTypeAndLength smlTypeList 7
  smlOctetStringWrite list.objName
  smlStatusWrite list.status
  smlTimeWrite list.valTime
  smlU8Write list.unit
  smlI8Write list.scaler
  smlValueWrite list.value
  smlOctetStringWrite list.valueSignature

/-- `sml_list_write`. -/
def smlListWrite : List SmlList → Writer Unit
  | [] => smlBufOptionalWrite
  | list => do
    smlBufSetTypeAndLength smlTypeList list.length.toUInt32
    list.forM smlListEntryWrite

/-- `sml_tree_path_write`. -/
def smlTreePathWrite : Option SmlTreePath → Writer Unit
  | none => smlBufOptionalWrite
  -- A path without entries is not written at all.
  | some [] => return ()
  | some entries => do
    smlBufSetTypeAndLength smlTypeList entries.length.toUInt32
    entries.forM fun entry => smlOctetStringWrite (some entry)

/-- `sml_period_entry_write`. -/
def smlPeriodEntryWrite : Option SmlPeriodEntry → Writer Unit
  | none => smlBufOptionalWrite
  | some period => do
    smlBufSetTypeAndLength smlTypeList 5
    smlOctetStringWrite period.objName
    smlUnitWrite period.unit
    smlI8Write period.scaler
    smlValueWrite period.value
    smlOctetStringWrite period.valueSignature

/-- The three fields of a quantity. -/
def quantityWrite (quantity : SmlQuantity) : Writer Unit := do
  smlUnitWrite quantity.unit
  smlI8Write quantity.scaler
  smlI64Write quantity.value

/-- `sml_tupel_entry_write`. -/
def smlTupelEntryWrite : Option SmlTupelEntry → Writer Unit
  | none => smlBufOptionalWrite
  | some tupel => do
    smlBufSetTypeAndLength smlTypeList 23
    smlOctetStringWrite tupel.serverId
    smlTimeWrite tupel.secIndex
    smlU64Write tupel.status
    quantityWrite tupel.pA
    quantityWrite tupel.R1
    quantityWrite tupel.R4
    smlOctetStringWrite tupel.signaturePAR1R4
    quantityWrite tupel.mA
    quantityWrite tupel.R2
    quantityWrite tupel.R3
    smlOctetStringWrite tupel.signatureMAR2R3

/-- The tag of a value at a node. -/
def SmlProcParValue.tag : SmlProcParValue → BitVec 8
  | .value _ => smlProcParValueTagValue
  | .periodEntry _ => smlProcParValueTagPeriodEntry
  | .tupelEntry _ => smlProcParValueTagTupelEntry
  | .time _ => smlProcParValueTagTime

/-- `sml_proc_par_value_write`. -/
def smlProcParValueWrite : Option SmlProcParValue → Writer Unit
  | none => smlBufOptionalWrite
  | some value => do
    smlBufSetTypeAndLength smlTypeList 2
    smlU8Write (some value.tag)
    match value with
    | .value data => smlValueWrite data
    | .periodEntry data => smlPeriodEntryWrite data
    | .tupelEntry data => smlTupelEntryWrite data
    | .time data => smlTimeWrite data

mutual

/-- The part of `sml_tree_write` for a tree that is there. -/
def treeWrite : SmlTree → Writer Unit
  | .node parameterName parameterValue childList => do
    smlBufSetTypeAndLength smlTypeList 3
    smlOctetStringWrite parameterName
    smlProcParValueWrite parameterValue
    if childList.length = 0 then smlBufOptionalWrite
    else
      smlBufSetTypeAndLength smlTypeList childList.length.toUInt32
      treesWrite childList

/-- The loop of `sml_tree_write`. -/
def treesWrite : List SmlTree → Writer Unit
  | [] => return ()
  | head :: rest => do
    treeWrite head
    treesWrite rest

end

/-- `sml_tree_write`. -/
def smlTreeWrite : Option SmlTree → Writer Unit
  | none => smlBufOptionalWrite
  | some tree => treeWrite tree

section Kept

/-- A string, value, status or time that is read back when it is given. -/
structure SmlList.Kept (list : SmlList) : Prop where
  objName : ∀ given ∈ list.objName, StringKept given
  status : ∀ given ∈ list.status, SmlStatus.Kept given
  valTime : ∀ given ∈ list.valTime, SmlTime.Kept given
  value : ∀ given ∈ list.value, SmlValue.Kept given
  valueSignature : ∀ given ∈ list.valueSignature, StringKept given
  /-- The serial number of a meter that is helped changes what follows it. -/
  fine : detectBuggyDzgDvs74 list = .ok false

/-- A list that is read back: the length of a longer one is not kept. -/
def ListKept (list : List SmlList) : Prop := list.length < 16 ∧ ∀ entry ∈ list, SmlList.Kept entry

/-- A sequence that is read back is there, and short. -/
def SequenceKept {α : Type} (P : α → Prop) (seq : Option (List α)) : Prop :=
  ∃ elems ∈ seq, elems.length < 16 ∧ ∀ elem ∈ elems, P elem

/-- A path that is read back has entries, but not too many. -/
def PathKept (path : SmlTreePath) : Prop :=
  path ≠ [] ∧ path.length < 16 ∧ ∀ entry ∈ path, StringKept entry

/-- An entry of a period that is read back. -/
structure SmlPeriodEntry.Kept (period : SmlPeriodEntry) : Prop where
  objName : ∀ given ∈ period.objName, StringKept given
  value : ∀ given ∈ period.value, SmlValue.Kept given
  valueSignature : ∀ given ∈ period.valueSignature, StringKept given

/-- A value at a node that is read back: the fields of a tuple are too many for a list. -/
def SmlProcParValue.Kept : SmlProcParValue → Prop
  | .value data => ∀ given ∈ data, SmlValue.Kept given
  | .periodEntry data => ∀ given ∈ data, SmlPeriodEntry.Kept given
  | .tupelEntry data => data = none
  | .time data => ∀ given ∈ data, SmlTime.Kept given

/-- A tree that is read back. -/
inductive SmlTree.Kept : SmlTree → Prop
  | node {parameterName : Option OctetString} {parameterValue : Option SmlProcParValue}
      {childList : List SmlTree} (name : ∀ given ∈ parameterName, StringKept given)
      (value : ∀ given ∈ parameterValue, SmlProcParValue.Kept given)
      (few : childList.length < 16) (children : ∀ child ∈ childList, SmlTree.Kept child) :
      SmlTree.Kept (.node parameterName parameterValue childList)

end Kept

section Carries

variable {α β : Type}

/-- What is behind a pointer is written. -/
theorem Carries.written {write : α → Writer Unit} {value : α} {parse : Reader β} {result : β}
    (carried : Carries (write value) parse result) :
    Carries (Libsml.written write (some value)) parse result := carried

/-- A sequence is carried when its elements are. -/
theorem carries_sequence {P : α → Prop} {write : α → Writer Unit} {parse : Reader α}
    (each : ∀ elem, P elem → Carries (write elem) parse elem) {seq : Option (List α)}
    (kept : SequenceKept P seq) :
    Carries (smlSequenceWrite write seq) (smlSequenceParse parse) seq := by
  -- The elements are carried behind the number of them.
  obtain ⟨elems, rfl, few, all⟩ := kept
  have carried : Carries (elems.forM write) (elements parse elems.length) (some (elems.map id)) :=
    Carries.elements fun elem member => each elem (all elem member)
  rw [List.map_id] at carried
  exact Carries.listed few carried

/-- A computation that reads nothing is read from no byte. -/
theorem reads_checked {computation : Except Fault α} {value : α}
    (ended : computation = .ok value) : Reads (checked computation) [] value := by
  -- What reads nothing leaves the cursor where it is.
  subst ended
  exact .pure value

/-- An entry is carried when it is kept, by a meter that needs no help. -/
theorem carries_listEntry {list : SmlList} (kept : list.Kept) :
    Carries (smlListEntryWrite list) (smlListEntryParse false) (some (list, false)) := by
  -- Nothing is changed in an entry as long as no meter is known to need help.
  have same (valueTl : UInt8) : workAround false valueTl list = .ok (list, false) := by
    simp [workAround, kept.fine, Bind.bind, Except.bind, Pure.pure, Except.pure]
  refine Carries.listOf 7 (by decide) <| (carries_string kept.objName).field <|
    (carries_status kept.status).field <| (carries_time kept.valTime).field <|
    (carries_u8 _).field <| (carries_i8 _).field ?_
  obtain ⟨value, wroteValue, readValue⟩ := carries_value kept.value
  obtain ⟨signature, wroteSignature, readSignature⟩ := carries_string kept.valueSignature
  refine ⟨value ++ (signature ++ ([] ++ [])), ?_, reads_left fun left more => ?_⟩
  · simpa using wroteValue.bind wroteSignature
  · rw [if_neg (by omega)]
    refine reads_peek fun valueTl => reads_field readValue (reads_field readSignature ?_)
    exact (reads_checked (same valueTl)).bind (.pure _)

/-- The entries of a list are carried behind each other. -/
theorem carries_entries {list : List SmlList} (kept : ∀ entry ∈ list, SmlList.Kept entry) :
    Carries (list.forM smlListEntryWrite) (listLoop list.length false) (some list) := by
  -- The induction is on the entries, of which each is read after the one before.
  induction list with
  | nil => exact ⟨[], .pure, .pure _⟩
  | cons head tail ih =>
    obtain ⟨bytes, wrote, read⟩ := carries_listEntry (kept head List.mem_cons_self)
    obtain ⟨more, wroteMore, readMore⟩ := ih fun entry member => kept entry (.tail _ member)
    refine ⟨bytes ++ ([] ++ (more ++ [])), ?_, reads_field read ?_⟩
    · simpa using wrote.bind wroteMore
    · exact (reads_checked rfl).bind (readMore.bind (.pure _))

/-- A list is carried when it is kept. -/
theorem carries_list {list : List SmlList} (kept : ListKept list) :
    Carries (smlListWrite list) smlListParse list := by
  -- A list without entries is a skipped field.
  obtain ⟨few, all⟩ := kept
  cases list with
  | nil =>
    obtain ⟨bytes, wrote, read⟩ : Carries smlBufOptionalWrite (optional do
        let type ← smlBufGetNextType
        if type ≠ some smlTypeList then failed
        else
          let elems ← smlBufGetNextLength
          listLoop elems.toNat false) none := Carries.skipped
    exact ⟨bytes, wrote, reads_map read _⟩
  | cons head tail =>
    obtain ⟨bytes, wrote, read⟩ : Carries (smlListWrite (head :: tail)) (optional do
        let type ← smlBufGetNextType
        if type ≠ some smlTypeList then failed
        else
          let elems ← smlBufGetNextLength
          listLoop elems.toNat false) (some (head :: tail)) :=
      Carries.optionalListed few (carries_entries all)
    exact ⟨bytes, wrote, reads_map read _⟩

/-- A path is carried when it is kept. -/
theorem carries_path {path : Option SmlTreePath} (kept : ∀ given ∈ path, PathKept given) :
    Carries (smlTreePathWrite path) smlTreePathParse path := by
  -- A path without names cannot be written, and any other one is a list of strings.
  cases path with
  | none => exact Carries.skipped
  | some path =>
    obtain ⟨some, few, all⟩ := kept path rfl
    obtain ⟨entry, rest, rfl⟩ := List.exists_cons_of_ne_nil some
    have each : ∀ name ∈ entry :: rest, Carries (smlOctetStringWrite (.some name))
        smlOctetStringParse (.some name) := fun name member =>
      carries_string fun given here => by
        cases here
        exact all name member
    obtain ⟨bytes, wrote, read⟩ := @Carries.elements _ _ _
      (fun name => smlOctetStringWrite (.some name))
      Option.some _ each
    have linked := reads_map read (Option.map (List.filterMap id))
    rw [Option.map_some, List.filterMap_map, Function.id_comp, List.filterMap_some] at linked
    exact Carries.optionalListed few ⟨bytes, wrote, linked⟩

/-- An entry of a period is carried when it is kept. -/
theorem carries_periodEntry {period : Option SmlPeriodEntry}
    (kept : ∀ given ∈ period, SmlPeriodEntry.Kept given) :
    Carries (smlPeriodEntryWrite period) smlPeriodEntryParse period := by
  -- Field by field, in the order of the source.
  cases period with
  | none => exact Carries.skipped
  | some period =>
    obtain ⟨name, value, signature⟩ := kept period rfl
    exact Carries.optionalListOf 5 (by decide) <| (carries_string name).field <|
      (carries_unit _).field <| (carries_i8 _).field <| (carries_value value).field <|
      (carries_string signature).last rfl

/-- A value at a node is carried when it is kept. -/
theorem carries_procParValue {value : Option SmlProcParValue}
    (kept : ∀ given ∈ value, SmlProcParValue.Kept given) :
    Carries (smlProcParValueWrite value) smlProcParValueParse value := by
  -- The tag comes first, and says which of the four kinds follows.
  cases value with
  | none => exact Carries.skipped
  | some value =>
    have held := kept value rfl
    refine Carries.optionalListOf 2 (by decide) <| (carries_u8 (some value.tag)).field ?_
    cases value with
    | value data =>
      obtain ⟨bytes, wrote, read⟩ := carries_value held
      exact ⟨bytes, wrote, reads_map read fun data => some (SmlProcParValue.value data)⟩
    | periodEntry data =>
      obtain ⟨bytes, wrote, read⟩ := carries_periodEntry held
      exact ⟨bytes, wrote, reads_map read fun data => some (SmlProcParValue.periodEntry data)⟩
    | tupelEntry data =>
      obtain rfl : data = none := held
      obtain ⟨bytes, wrote, read⟩ : Carries (smlTupelEntryWrite none) smlTupelEntryParse none :=
        Carries.skipped
      exact ⟨bytes, wrote, reads_map read fun data => some (SmlProcParValue.tupelEntry data)⟩
    | time data =>
      obtain ⟨bytes, wrote, read⟩ := carries_time held
      exact ⟨bytes, wrote, reads_map read fun data => some (SmlProcParValue.time data)⟩

/-- A tree is carried by a parser that goes down far enough. -/
def TreeCarried (tree : SmlTree) (bytes : List UInt8) : Prop :=
  Writes (treeWrite tree) bytes ∧
    ∀ levels, bytes.length ≤ levels → Reads (treeParse levels) bytes (some tree)

/-- Trees that are carried are carried behind each other. -/
theorem carries_trees {trees : List SmlTree}
    (each : ∀ tree ∈ trees, ∃ bytes, TreeCarried tree bytes) :
    ∃ bytes, Writes (treesWrite trees) bytes ∧ ∀ levels, bytes.length ≤ levels →
      Reads (elements (treeParse levels) trees.length) bytes (some (trees.map some)) := by
  -- The induction is on the trees, which share the levels that are enough for all of them.
  induction trees with
  | nil => exact ⟨[], .pure, fun _ _ => .pure _⟩
  | cons head tail ih =>
    obtain ⟨bytes, wrote, read⟩ := each head List.mem_cons_self
    obtain ⟨more, wroteMore, readMore⟩ := ih fun tree member => each tree (.tail _ member)
    refine ⟨bytes ++ more, wrote.bind wroteMore, fun levels enough => ?_⟩
    rw [List.length_append] at enough
    refine reads_field (read levels (by omega)) ?_
    exact reads_map (readMore levels (by omega)) (Option.map (some head :: ·))

/-- The list of children, which is a skipped field when there are none. -/
theorem carries_children {childList : List SmlTree} (few : childList.length < 16)
    (each : ∀ child ∈ childList, ∃ bytes, TreeCarried child bytes) (node : List SmlTree → SmlTree) :
    ∃ bytes, Writes (if childList.length = 0 then smlBufOptionalWrite else do
        smlBufSetTypeAndLength smlTypeList childList.length.toUInt32
        treesWrite childList) bytes ∧
      ∀ levels, bytes.length ≤ levels →
        Reads (childrenParse (treeParse levels) node) bytes (some (node childList)) := by
  -- Without children the field is skipped, and with some it is a list of them.
  by_cases empty : childList.length = 0
  · obtain rfl := List.eq_nil_of_length_eq_zero empty
    refine ⟨[smlOptionalSkipped], writes_put _, fun levels _ => ?_⟩
    exact reads_skipped.bind (by exact .pure _)
  · obtain ⟨more, wrote, read⟩ := carries_trees each
    obtain ⟨first, begins, other, _⟩ := header_list few
    rw [if_neg empty]
    refine ⟨_, writes_listed few wrote, fun levels enough => ?_⟩
    rw [List.length_append] at enough
    refine reads_present (begins _) other (reads_listed few ?_)
    have linked := reads_map (read levels (by omega))
      (Option.map fun children => node (children.filterMap id))
    rwa [Option.map_some, List.filterMap_map, Function.id_comp, List.filterMap_some] at linked

/-- A tree that is kept is carried. -/
theorem treeCarried {tree : SmlTree} (kept : tree.Kept) : ∃ bytes, TreeCarried tree bytes := by
  -- The induction is on the tree, whose children take fewer levels than it does.
  induction kept with
  | @node parameterName parameterValue childList name value few _ ih =>
    obtain ⟨first, wroteName, readName⟩ := carries_string name
    obtain ⟨second, wroteValue, readValue⟩ := carries_procParValue value
    obtain ⟨more, wroteChildren, readChildren⟩ := carries_children few ih
      (.node parameterName parameterValue)
    obtain ⟨byte, begins, other, _⟩ := @header_list 3 (by decide)
    have positive : 0 < (header smlTypeList 3).length := by decide
    refine ⟨header smlTypeList 3 ++ (first ++ (second ++ more)), ?_, fun levels enough => ?_⟩
    · rw [treeWrite]
      exact writes_listed (by decide) (wroteName.bind (wroteValue.bind wroteChildren))
    · -- The header takes a byte, so there is a level more than the children need.
      simp only [List.length_append] at enough
      obtain ⟨levels, rfl⟩ : ∃ less, levels = less + 1 := ⟨levels - 1, by omega⟩
      refine reads_optional (begins _) other (reads_listOf (by decide) ?_)
      exact reads_field readName (reads_field readValue (readChildren levels (by omega)))

/-- A tree is carried when it is kept. -/
theorem carries_tree {tree : Option SmlTree} (kept : ∀ given ∈ tree, SmlTree.Kept given) :
    Carries (smlTreeWrite tree) smlTreeParse tree := by
  -- A tree that is there is parsed to its own depth, and one that is not is a skipped field.
  cases tree with
  | none =>
    refine ⟨_, writes_put _, fun before after some => ?_⟩
    have skipped (levels : Nat) : Reads (treeParse (levels + 1)) [smlOptionalSkipped] none :=
      reads_none
    exact skipped _ before after some
  | some tree =>
    obtain ⟨bytes, wrote, read⟩ := treeCarried (kept tree rfl)
    refine ⟨bytes, wrote, fun before after some => ?_⟩
    -- There are at least as many levels as bytes.
    refine read _ ?_ before after some
    simp [Cursor.room]
    omega

end Carries

end OpenwrtMisc.Libsml
