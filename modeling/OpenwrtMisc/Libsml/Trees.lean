import OpenwrtMisc.Libsml.Lists

/-! The trees of parameters, and what stands at their nodes. -/

namespace OpenwrtMisc.Libsml

/-- The entries of a path that are not skipped. -/
abbrev SmlTreePath : Type := List OctetString

/-- `sml_tree_path_parse`. -/
def smlTreePathParse : Reader (Option SmlTreePath) :=
  optional do
    let type ← smlBufGetNextType
    if type ≠ some smlTypeList then failed
    else
      let elems ← smlBufGetNextLength
      let entries ← elements smlOctetStringParse elems.toNat
      return entries.map (List.filterMap id)

/-- An entry of a period. -/
structure SmlPeriodEntry where
  objName : Option OctetString
  unit : Option (BitVec 8)
  scaler : Option (BitVec 8)
  value : Option SmlValue
  valueSignature : Option OctetString
  deriving DecidableEq, Repr

/-- `sml_period_entry_parse`. -/
def smlPeriodEntryParse : Reader (Option SmlPeriodEntry) :=
  optional <| listOf 5 <|
    field smlOctetStringParse fun objName =>
    field smlUnitParse fun unit =>
    field smlI8Parse fun scaler =>
    field smlValueParse fun value =>
    field smlOctetStringParse fun valueSignature =>
      return some { objName, unit, scaler, value, valueSignature }

/-- One of the quantities of a tuple: its unit, its scaler and its value. -/
structure SmlQuantity where
  unit : Option (BitVec 8)
  scaler : Option (BitVec 8)
  value : Option (BitVec 64)
  deriving DecidableEq, Repr

/-- The three fields of a quantity, and what follows them. -/
def quantity {α : Type} (rest : SmlQuantity → Reader (Option α)) : Reader (Option α) :=
  field smlUnitParse fun unit =>
  field smlI8Parse fun scaler =>
  field smlI64Parse fun value =>
    rest { unit, scaler, value }

/-- A tuple of quantities, with the signature of each half of them. -/
structure SmlTupelEntry where
  serverId : Option OctetString
  secIndex : Option SmlTime
  status : Option (BitVec 64)
  pA : SmlQuantity
  R1 : SmlQuantity
  R4 : SmlQuantity
  signaturePAR1R4 : Option OctetString
  mA : SmlQuantity
  R2 : SmlQuantity
  R3 : SmlQuantity
  signatureMAR2R3 : Option OctetString
  deriving DecidableEq, Repr

/-- `sml_tupel_entry_parse`. -/
def smlTupelEntryParse : Reader (Option SmlTupelEntry) :=
  optional <| listOf 23 <|
    field smlOctetStringParse fun serverId =>
    field smlTimeParse fun secIndex =>
    field smlU64Parse fun status =>
    quantity fun pA =>
    quantity fun R1 =>
    quantity fun R4 =>
    field smlOctetStringParse fun signaturePAR1R4 =>
    quantity fun mA =>
    quantity fun R2 =>
    quantity fun R3 =>
    field smlOctetStringParse fun signatureMAR2R3 =>
      return some
        ⟨serverId, secIndex, status, pA, R1, R4, signaturePAR1R4, mA, R2, R3, signatureMAR2R3⟩

/-- The value at a node, whose constructor is its tag. -/
inductive SmlProcParValue
  | value (data : Option SmlValue)
  | periodEntry (data : Option SmlPeriodEntry)
  | tupelEntry (data : Option SmlTupelEntry)
  | time (data : Option SmlTime)
  deriving DecidableEq, Repr

/-- `SML_PROC_PAR_VALUE_TAG_VALUE` and the other tags. -/
def smlProcParValueTagValue : BitVec 8 := 0x01
def smlProcParValueTagPeriodEntry : BitVec 8 := 0x02
def smlProcParValueTagTupelEntry : BitVec 8 := 0x03
def smlProcParValueTagTime : BitVec 8 := 0x04

/-- The part of `sml_proc_par_value_parse` behind the tag. -/
def procParValueParse : Option (BitVec 8) → Reader (Option SmlProcParValue)
  -- A tag that is skipped is no error.
  | none => return none
  | some tag => do
    if tag = smlProcParValueTagValue then return some (.value (← smlValueParse))
    else if tag = smlProcParValueTagPeriodEntry then
      return some (.periodEntry (← smlPeriodEntryParse))
    else if tag = smlProcParValueTagTupelEntry then return some (.tupelEntry (← smlTupelEntryParse))
    else if tag = smlProcParValueTagTime then return some (.time (← smlTimeParse))
    else failed

/-- `sml_proc_par_value_parse`. -/
def smlProcParValueParse : Reader (Option SmlProcParValue) :=
  optional <| listOf 2 <| field smlU8Parse procParValueParse

/-- A node with the trees below it. -/
inductive SmlTree
  | node (parameterName : Option OctetString) (parameterValue : Option SmlProcParValue)
      (childList : List SmlTree)

/-- The list of children, which is empty when it is skipped. -/
def childrenParse (parse : Reader (Option SmlTree)) (node : List SmlTree → SmlTree) :
    Reader (Option SmlTree) := do
  let skipped ← smlBufOptionalIsSkipped
  if skipped ≠ 0 then return some (node [])
  else
    let type ← smlBufGetNextType
    if type ≠ some smlTypeList then failed
    else
      let elems ← smlBufGetNextLength
      let children ← elements parse elems.toNat
      return children.map fun children => node (children.filterMap id)

/-- `sml_tree_parse`, for so many levels at most. -/
def treeParse : Nat → Reader (Option SmlTree)
  | 0 => throw .endless
  | levels + 1 =>
    optional <| listOf 3 <|
      field smlOctetStringParse fun parameterName =>
      field smlProcParValueParse fun parameterValue =>
        childrenParse (treeParse levels) (.node parameterName parameterValue)

/-- `sml_tree_parse`, which calls itself for as many levels as there are bytes at most. -/
def smlTreeParse : Reader (Option SmlTree) := fun cursor => treeParse (cursor.room + 1) cursor

section Safe

open Cursor

variable {α : Type} {room : Nat}

/-- Paths, period entries and tuples are safe. -/
theorem smlTreePathParse_safe : Safe room smlTreePathParse :=
  optional_safe <| smlBufGetNextType_safe.bind fun _ => .ite (fun _ => failed_safe) fun _ =>
    smlBufGetNextLength_safe.bind fun _ =>
      (elements_safe smlOctetStringParse_safe _).bind fun _ => .pure _

/-- A period is safe. -/
theorem smlPeriodEntryParse_safe : Safe room smlPeriodEntryParse :=
  optional_safe <| listOf_safe (by decide) fun _ _ =>
    field_safe smlOctetStringParse_safe fun _ => field_safe wordParse_safe fun _ =>
    field_safe wordParse_safe fun _ => field_safe smlValueParse_safe fun _ =>
    field_safe smlOctetStringParse_safe fun _ => .pure _

/-- A quantity in front of a safe field is safe. -/
theorem quantity_safe {rest : SmlQuantity → Reader (Option α)}
    (safe : ∀ value, Safe room (rest value)) : Safe room (quantity rest) :=
  field_safe wordParse_safe fun _ => field_safe wordParse_safe fun _ =>
    field_safe wordParse_safe fun _ => safe _

/-- A tupel is safe. -/
theorem smlTupelEntryParse_safe : Safe room smlTupelEntryParse :=
  optional_safe <| listOf_safe (by decide) fun _ _ =>
    field_safe smlOctetStringParse_safe fun _ => field_safe smlTimeParse_safe fun _ =>
    field_safe wordParse_safe fun _ =>
    quantity_safe fun _ => quantity_safe fun _ => quantity_safe fun _ =>
    field_safe smlOctetStringParse_safe fun _ =>
    quantity_safe fun _ => quantity_safe fun _ => quantity_safe fun _ =>
    field_safe smlOctetStringParse_safe fun _ => .pure _

/-- The value at a node is safe. -/
theorem smlProcParValueParse_safe : Safe room smlProcParValueParse := by
  -- The tag is tested before it is looked at.
  refine optional_safe <| listOf_safe (by decide) fun _ _ => field_safe wordParse_safe fun tag => ?_
  cases tag with
  | none => exact .pure _
  | some tag =>
    refine .ite (fun _ => smlValueParse_safe.bind fun _ => .pure _) fun _ => ?_
    refine .ite (fun _ => smlPeriodEntryParse_safe.bind fun _ => .pure _) fun _ => ?_
    refine .ite (fun _ => smlTupelEntryParse_safe.bind fun _ => .pure _) fun _ => ?_
    exact .ite (fun _ => smlTimeParse_safe.bind fun _ => .pure _) fun _ => failed_safe

/-- The question whether a field is skipped is safe. -/
theorem smlBufOptionalIsSkipped_safe : Safe room smlBufOptionalIsSkipped :=
  fun _ inside _ => (smlBufOptionalIsSkipped_runs inside).weaken fun _ _ told => told.1

/-- The children of a node are safe when each of them is. -/
theorem childrenParse_safe {parse : Reader (Option SmlTree)} (safe : Safe room parse)
    (node : List SmlTree → SmlTree) : Safe room (childrenParse parse node) :=
  smlBufOptionalIsSkipped_safe.bind fun _ => .ite (fun _ => .pure _) fun _ =>
    smlBufGetNextType_safe.bind fun _ => .ite (fun _ => failed_safe) fun _ =>
      smlBufGetNextLength_safe.bind fun _ => (elements_safe safe _).bind fun _ => .pure _

/-- A tree has no more levels than bytes. -/
theorem treeParse_safe : ∀ {levels room : Nat}, room < levels → Safe room (treeParse levels) := by
  intro levels
  induction levels with
  | zero => exact fun below => absurd below (Nat.not_lt_zero _)
  | succ levels ih =>
    intro room below
    -- A level takes a byte of the list that it is.
    refine optional_safe <| listOf_safe (by decide) fun less lost => ?_
    refine field_safe smlOctetStringParse_safe fun _ =>
      field_safe smlProcParValueParse_safe fun _ => ?_
    exact childrenParse_safe (ih (by omega)) _

/-- A tree is safe. -/
theorem smlTreeParse_safe : Safe room smlTreeParse := by
  -- There are more levels than bytes.
  intro cursor inside _
  have ran := treeParse_safe (Nat.lt_succ_self cursor.room) cursor inside (Nat.le_refl _)
  unfold Runs smlTreeParse
  exact ran

end Safe

end OpenwrtMisc.Libsml
