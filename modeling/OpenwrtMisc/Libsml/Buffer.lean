import OpenwrtMisc.Lib.Cursor

/-! The buffer of a file that is parsed, and the types and lengths of its fields. -/

namespace OpenwrtMisc.Libsml

/-- `SML_MESSAGE_END`. -/
def smlMessageEnd : UInt8 := 0x0

/-- `SML_OPTIONAL_SKIPPED`. -/
def smlOptionalSkipped : UInt8 := 0x1

/-- The parts of a byte that starts a field. -/
def smlTypeField : UInt8 := 0x70
def smlLengthField : UInt8 := 0xF
def smlAnotherTl : UInt8 := 0x80

/-- The types of fields. -/
def smlTypeOctetString : UInt8 := 0x0
def smlTypeBoolean : UInt8 := 0x40
def smlTypeInteger : UInt8 := 0x50
def smlTypeUnsigned : UInt8 := 0x60
def smlTypeList : UInt8 := 0x70

/-- How many bytes there are from the cursor on. -/
def smlLeft : Reader Nat := fun cursor => .ok (cursor.room, cursor)

/-- An error is noted. -/
def smlSetError : Reader Unit := fun cursor => .ok ((), { cursor with error := true })

/-- `sml_buf_has_errors`. -/
def smlBufHasErrors : Reader Bool := fun cursor => .ok (cursor.error, cursor)

/-- `sml_buf_get_current_byte`. -/
def smlBufGetCurrentByte : Reader UInt8 := fun cursor => do
  let byte ← readByte cursor.bytes cursor.place
  return (byte, cursor)

/-- `sml_buf_update_bytes_read`. -/
def smlBufUpdateBytesRead (bytes : Nat) : Reader Unit := fun cursor =>
  .ok ((), { cursor with place := cursor.place + bytes })

/-- The bytes that are copied from `sml_buf_get_current_buf`. -/
def smlBufGetCurrentBuf (count : Nat) : Reader (List UInt8) := fun cursor => do
  let data ← copyBytes cursor.bytes cursor.place count
  return (data, cursor)

/-- `sml_buf_get_next_type`, which has no type at the end of the buffer. -/
def smlBufGetNextType : Reader (Option UInt8) := do
  let left ← smlLeft
  if left = 0 then
    smlSetError
    return none
  else
    let byte ← smlBufGetCurrentByte
    return some (byte &&& smlTypeField)

/-- The loop of `sml_buf_get_next_length`, which has a turn for each byte that is left at most. -/
def nextLengthLoop : Nat → UInt32 → Int → Reader (UInt32 × Int)
  | 0, length, list => return (length, list)
  | left + 1, length, list => do
    let byte ← smlBufGetCurrentByte
    let length := length <<< 4 ||| (byte &&& smlLengthField).toUInt32
    if byte &&& smlAnotherTl ≠ smlAnotherTl then
      return (length, list)
    else
      smlBufUpdateBytesRead 1
      nextLengthLoop left length (if list ≠ 0 then list - 1 else list)

/-- `sml_buf_get_next_length`. -/
def smlBufGetNextLength : Reader Int := do
  let left ← smlLeft
  if left = 0 then
    smlSetError
    return -1
  else
    let byte ← smlBufGetCurrentByte
    let list : Int := if byte &&& smlTypeField = smlTypeList then 0 else -1
    let (length, list) ← nextLengthLoop left 0 list
    let left ← smlLeft
    if 0 < left then
      smlBufUpdateBytesRead 1
      return (length.toBitVec + BitVec.ofInt 32 list).toInt
    else
      smlSetError
      return -1

/-- `sml_buf_optional_is_skipped`. -/
def smlBufOptionalIsSkipped : Reader Int := do
  let left ← smlLeft
  if left = 0 then
    smlSetError
    return -1
  else
    let byte ← smlBufGetCurrentByte
    if byte = smlOptionalSkipped then
      smlBufUpdateBytesRead 1
      return 1
    else
      return 0

/-- The null pointer that a parser returns when it notes an error. -/
def failed {α : Type} : Reader (Option α) := do
  smlSetError
  return none

/-- An optional field, which is a null pointer when it is skipped. -/
def optional {α : Type} (parse : Reader (Option α)) : Reader (Option α) := do
  let skipped ← smlBufOptionalIsSkipped
  if skipped ≠ 0 then return none else parse

/-- A list with so many fields. -/
def listOf {α : Type} (count : Int) (fields : Reader (Option α)) : Reader (Option α) := do
  let type ← smlBufGetNextType
  if type ≠ some smlTypeList then
    failed
  else
    let length ← smlBufGetNextLength
    if length ≠ count then failed else fields

/-- A field, and what follows it unless there was an error. -/
def field {α β : Type} (parse : Reader α) (rest : α → Reader (Option β)) : Reader (Option β) := do
  let value ← parse
  let error ← smlBufHasErrors
  if error then return none else rest value

/-- Elements that are parsed one after another, without any of them when there is an error. -/
def elements {α : Type} (parse : Reader α) : Nat → Reader (Option (List α))
  | 0 => return some []
  | count + 1 =>
    field parse fun head => do
      let rest ← elements parse count
      return rest.map (head :: ·)

section Safe

open Cursor

variable {α β : Type} {room : Nat}

/-- The questions about the buffer leave it as it is. -/
theorem smlLeft_runs (cursor : Cursor) :
    Runs smlLeft cursor fun left after => left = cursor.room ∧ after = cursor :=
  ⟨_, _, rfl, rfl, rfl⟩

/-- Looking at the error of the buffer changes nothing. -/
theorem smlBufHasErrors_runs (cursor : Cursor) :
    Runs smlBufHasErrors cursor fun error after => error = cursor.error ∧ after = cursor :=
  ⟨_, _, rfl, rfl, rfl⟩

/-- An error is noted where the cursor stands. -/
theorem smlSetError_runs (cursor : Cursor) :
    Runs smlSetError cursor fun _ after => after = { cursor with error := true } :=
  ⟨_, _, rfl, rfl⟩

/-- A byte that is there is read. -/
theorem smlBufGetCurrentByte_runs {cursor : Cursor} (some : 0 < cursor.room) :
    Runs smlBufGetCurrentByte cursor fun byte after =>
      cursor.bytes[cursor.place]? = .some byte ∧ after = cursor := by
  have here : cursor.place < cursor.bytes.length := by
    simp only [room] at some
    omega
  -- A byte of the buffer is there, so the access does not fail.
  refine ⟨cursor.bytes[cursor.place], cursor, ?_, List.getElem?_eq_getElem here, rfl⟩
  unfold smlBufGetCurrentByte readByte
  rw [List.getElem?_eq_getElem here]
  rfl

/-- The cursor goes over bytes that are there. -/
theorem smlBufUpdateBytesRead_runs {cursor : Cursor} {bytes : Nat} (inside : cursor.Inside)
    (some : bytes ≤ cursor.room) :
    Runs (smlBufUpdateBytesRead bytes) cursor fun _ after =>
      cursor.Moves after ∧ after.place = cursor.place + bytes := by
  -- The place moves by as much as there is room for.
  refine ⟨(), _, rfl, ⟨rfl, by simp, ?_, id⟩, rfl⟩
  simp only [Inside, Cursor.room] at inside some ⊢
  omega

/-- Bytes that are there are copied. -/
theorem smlBufGetCurrentBuf_runs {cursor : Cursor} {count : Nat} (some : count ≤ cursor.room) :
    Runs (smlBufGetCurrentBuf count) cursor fun data after =>
      data = (cursor.bytes.drop cursor.place).take count ∧ after = cursor := by
  refine ⟨(cursor.bytes.drop cursor.place).take count, cursor, ?_, rfl, rfl⟩
  -- The copy is as long as it was asked for, so it does not leave the buffer.
  have full : ((cursor.bytes.drop cursor.place).take count).length = count := by
    simp only [room] at some
    simp only [List.length_take, List.length_drop]
    omega
  unfold smlBufGetCurrentBuf copyBytes
  simp only [full, if_true]
  rfl

/-- An error is noted without an access. -/
theorem noted {cursor : Cursor} (inside : cursor.Inside) :
    cursor.Moves { cursor with error := true } :=
  ⟨rfl, Nat.le_refl _, inside, fun _ => rfl⟩

/-- The type of the next field is read where there is one. -/
theorem smlBufGetNextType_runs {cursor : Cursor} (inside : cursor.Inside) :
    Runs smlBufGetNextType cursor fun type after =>
      cursor.Moves after ∧ after.place = cursor.place ∧
        (0 < cursor.room → type.isSome ∧ after = cursor) := by
  -- At the end of the buffer there is an error instead of a type.
  refine (smlLeft_runs cursor).bind fun _ _ told => ?_
  obtain ⟨rfl, rfl⟩ := told
  refine Runs.ite (fun none => ?_) fun some => ?_
  · refine (smlSetError_runs _).bind fun _ _ told => Runs.pure ?_
    subst told
    exact ⟨noted inside, rfl, fun some => by omega⟩
  · refine (smlBufGetCurrentByte_runs (by omega)).bind fun _ _ told => Runs.pure ?_
    obtain ⟨_, rfl⟩ := told
    exact ⟨.refl inside, rfl, fun _ => ⟨rfl, rfl⟩⟩

/-- The loop goes on for as long as there are bytes, and no further. -/
theorem nextLengthLoop_runs :
    ∀ (left : Nat) (length : UInt32) (list : Int) {cursor : Cursor}, cursor.Inside →
      left ≤ cursor.room →
      Runs (nextLengthLoop left length list) cursor fun _ after => cursor.Moves after := by
  -- The induction is on the bytes that are left, of which every turn takes one.
  intro left
  induction left with
  | zero =>
    intro _ _ _ inside _
    exact Runs.pure (.refl inside)
  | succ left ih =>
    intro length list cursor inside enough
    refine (smlBufGetCurrentByte_runs (by omega)).bind fun byte _ told => ?_
    obtain ⟨_, rfl⟩ := told
    refine Runs.ite (fun _ => Runs.pure (.refl inside)) fun _ => ?_
    refine (smlBufUpdateBytesRead_runs inside (by omega)).bind fun _ between told => ?_
    obtain ⟨moves, further⟩ := told
    -- One byte is gone, and one turn with it.
    have fewer : left ≤ between.room := by
      simp only [room, moves.bytes, further] at enough ⊢
      omega
    exact (ih _ _ moves.inside fewer).weaken fun _ _ more => moves.trans more

/-- A length takes at least one byte, or it is negative and an error. -/
theorem smlBufGetNextLength_runs {cursor : Cursor} (inside : cursor.Inside) :
    Runs smlBufGetNextLength cursor fun length after =>
      cursor.Moves after ∧
        (cursor.place < after.place ∨ length = -1 ∧ after.error = true) := by
  -- The loop goes over the continued bytes, and then one byte more is taken.
  refine (smlLeft_runs cursor).bind fun _ _ told => ?_
  obtain ⟨rfl, rfl⟩ := told
  refine Runs.ite (fun _ => ?_) fun some => ?_
  · refine (smlSetError_runs _).bind fun _ _ told => Runs.pure ?_
    subst told
    exact ⟨noted inside, .inr ⟨rfl, rfl⟩⟩
  · refine (smlBufGetCurrentByte_runs (by omega)).bind fun byte _ told => ?_
    obtain ⟨_, rfl⟩ := told
    refine (nextLengthLoop_runs _ _ _ inside (Nat.le_refl _)).bind fun _ between moves => ?_
    refine (smlLeft_runs between).bind fun _ _ told => ?_
    obtain ⟨rfl, rfl⟩ := told
    refine Runs.ite (fun last => ?_) fun _ => ?_
    · refine (smlBufUpdateBytesRead_runs moves.inside last).bind fun _ _ told => Runs.pure ?_
      obtain ⟨more, further⟩ := told
      have forward := moves.forward
      exact ⟨moves.trans more, .inl (by omega)⟩
    · refine (smlSetError_runs _).bind fun _ _ told => Runs.pure ?_
      subst told
      exact ⟨moves.trans (noted moves.inside), .inr ⟨rfl, rfl⟩⟩

/-- There is a byte of a field that is not skipped at the cursor. -/
def Present (cursor : Cursor) : Prop :=
  ∃ byte, cursor.bytes[cursor.place]? = some byte ∧ byte ≠ smlOptionalSkipped

/-- A field that is present has room. -/
theorem Present.room_pos {cursor : Cursor} (present : Present cursor) : 0 < cursor.room := by
  -- There is a byte at the cursor.
  obtain ⟨byte, here, _⟩ := present
  have below := (List.getElem?_eq_some_iff.mp here).1
  simp only [Cursor.room]
  omega

/-- An optional field is not skipped when it is present. -/
theorem smlBufOptionalIsSkipped_runs {cursor : Cursor} (inside : cursor.Inside) :
    Runs smlBufOptionalIsSkipped cursor fun skipped after =>
      cursor.Moves after ∧ (skipped = 0 ↔ Present cursor) ∧ (skipped = 0 → after = cursor) := by
  -- At the end of the buffer there is an error, and elsewhere a byte to look at.
  refine (smlLeft_runs cursor).bind fun _ _ told => ?_
  obtain ⟨rfl, rfl⟩ := told
  refine Runs.ite (fun none => ?_) fun some => ?_
  · refine (smlSetError_runs _).bind fun _ _ told => Runs.pure ?_
    subst told
    exact ⟨noted inside, ⟨nofun, fun present => absurd none (Nat.ne_of_gt present.room_pos)⟩, nofun⟩
  · refine (smlBufGetCurrentByte_runs (by omega)).bind fun byte _ told => ?_
    obtain ⟨here, rfl⟩ := told
    refine Runs.ite (fun same => ?_) fun other => ?_
    · refine (smlBufUpdateBytesRead_runs inside (by omega)).bind fun _ _ told => Runs.pure ?_
      refine ⟨told.1, ⟨nofun, fun present => ?_⟩, nofun⟩
      obtain ⟨_, there, other⟩ := present
      rw [here, Option.some.injEq] at there
      exact absurd (there ▸ same) other
    · exact Runs.pure ⟨.refl inside, ⟨fun _ => ⟨byte, here, other⟩, fun _ => rfl⟩, fun _ => rfl⟩

/-- Giving up is an error, whatever would be told of a value. -/
theorem failed_gives {P : Option α → Prop} {cursor : Cursor} (inside : cursor.Inside) :
    Gives P failed cursor := by
  -- Nothing is promised after an error.
  refine (smlSetError_runs cursor).bind fun _ _ told => Runs.pure ?_
  subst told
  exact ⟨noted inside, nofun⟩

/-- Giving up is no access. -/
theorem failed_safe : Safe room (failed : Reader (Option α)) :=
  .of_gives (P := fun _ _ => True) fun _ inside _ => failed_gives inside

/-- An optional field gives a null pointer where it is skipped, and its value elsewhere. -/
theorem optional_gives {P : Option α → Prop} {parse : Reader (Option α)} {cursor : Cursor}
    (inside : cursor.Inside) (absent : ¬ Present cursor → P none)
    (value : Present cursor → Gives P parse cursor) : Gives P (optional parse) cursor := by
  -- The cursor of a field that is present has not moved.
  refine (smlBufOptionalIsSkipped_runs inside).bind fun skipped between told => ?_
  obtain ⟨moves, asked, stays⟩ := told
  refine Runs.ite (fun gone => Runs.pure ⟨moves, fun _ => absent (mt asked.mpr gone)⟩)
    fun here => ?_
  rw [stays (not_not.mp here)]
  exact value (asked.mp (not_not.mp here))

/-- An optional field is safe when it is safe where it is present. -/
theorem optional_safe {parse : Reader (Option α)} (safe : Safe room parse) :
    Safe room (optional parse) :=
  .of_gives fun _ inside within =>
    optional_gives inside (fun _ => trivial) fun _ => safe.gives inside within

/-- The fields of a list begin behind a byte of it. -/
theorem listOf_runs {post : Option α → Cursor → Prop} {count : Int} (natural : 0 ≤ count)
    {fields : Reader (Option α)} {cursor : Cursor} (inside : cursor.Inside)
    (wrong : ∀ after, cursor.Moves after → after.error = true → post none after)
    (given : ∀ later, cursor.Moves later → cursor.place < later.place → Runs fields later post) :
    Runs (listOf count fields) cursor post := by
  -- Either check gives up with an error, behind whatever was read until then.
  have stops : ∀ {after : Cursor}, cursor.Moves after → Runs failed after post := by
    intro after moves
    refine (smlSetError_runs after).bind fun _ _ told => Runs.pure ?_
    subst told
    exact wrong _ (moves.trans (noted moves.inside)) rfl
  refine (smlBufGetNextType_runs inside).bind fun type between told => ?_
  obtain ⟨moves, stays, _⟩ := told
  refine Runs.ite (fun _ => stops moves) fun _ => ?_
  refine (smlBufGetNextLength_runs moves.inside).bind fun length later told => ?_
  obtain ⟨more, further⟩ := told
  refine Runs.ite (fun _ => stops (moves.trans more)) fun same => ?_
  -- A length that is not negative was read from a byte.
  exact given later (moves.trans more) (by omega)

/-- The fields of a list have less room than the list. -/
theorem listOf_gives {P : Option α → Prop} {count : Int} (natural : 0 ≤ count)
    {fields : Reader (Option α)} {cursor : Cursor} (inside : cursor.Inside)
    (given : ∀ later : Cursor, later.Inside → later.room < cursor.room → Gives P fields later) :
    Gives P (listOf count fields) cursor := by
  -- The type and the length are gone before the first field.
  refine listOf_runs natural inside (fun _ moves wrong => ⟨moves, fun fine => ?_⟩)
    fun later moves further => ?_
  · exact absurd (fine.symm.trans wrong) (by decide)
  · refine Runs.weaken (given later moves.inside (moves.room_lt further)) fun _ _ told => ?_
    exact ⟨moves.trans told.1, told.2⟩

/-- A list is safe when its fields are. -/
theorem listOf_safe {count : Int} (natural : 0 ≤ count) {fields : Reader (Option α)}
    (safe : ∀ less < room, Safe less fields) : Safe room (listOf count fields) :=
  .of_gives fun _ inside within => listOf_gives natural inside fun _ later lost =>
    (safe _ (Nat.lt_of_lt_of_le lost within)).gives later (Nat.le_refl _)

/-- What follows a field begins without an error. -/
theorem field_gives {P : α → Prop} {Q : Option β → Prop} {parse : Reader α}
    {rest : α → Reader (Option β)} {cursor : Cursor} (first : Gives P parse cursor)
    (others : ∀ value after, cursor.Moves after → P value → Gives Q (rest value) after) :
    Gives Q (field parse rest) cursor := by
  -- After an error nothing is promised, so only a value without one is handed on.
  refine Gives.bind first fun value after moves told => ?_
  refine (smlBufHasErrors_runs after).bind fun error _ asked => ?_
  obtain ⟨rfl, rfl⟩ := asked
  refine Runs.ite (fun wrong => Runs.pure ⟨.refl moves.inside, fun fine => ?_⟩) fun fine => ?_
  · exact absurd (fine.symm.trans wrong) (by decide)
  · exact others value _ moves (told (Bool.eq_false_iff.mpr fine))

/-- A field and what follows it are safe when both are. -/
theorem field_safe {parse : Reader α} {rest : α → Reader (Option β)} (first : Safe room parse)
    (others : ∀ value, Safe room (rest value)) : Safe room (field parse rest) :=
  .of_gives fun _ inside within => field_gives (first.gives inside within) fun value _ moves _ =>
    (others value).gives moves.inside (Nat.le_trans moves.room_le within)

/-- Any number of elements is safe when each of them is. -/
theorem elements_safe {parse : Reader α} (safe : Safe room parse) :
    ∀ count, Safe room (elements parse count)
  | 0 => .pure _
  | count + 1 =>
    field_safe safe fun _ => (elements_safe safe count).bind fun _ => .pure _

end Safe

end OpenwrtMisc.Libsml
