import OpenwrtMisc.Libsml.Bodies
import OpenwrtMisc.Libsml.Crc16

/-! The messages of a file, and that a file is parsed whatever it holds. -/

namespace OpenwrtMisc.Libsml

/-- The tags of the messages. -/
def smlMessageOpenRequest : BitVec 32 := 0x00000100
def smlMessageOpenResponse : BitVec 32 := 0x00000101
def smlMessageCloseRequest : BitVec 32 := 0x00000200
def smlMessageCloseResponse : BitVec 32 := 0x00000201
def smlMessageGetProfilePackRequest : BitVec 32 := 0x00000300
def smlMessageGetProfilePackResponse : BitVec 32 := 0x00000301
def smlMessageGetProfileListRequest : BitVec 32 := 0x00000400
def smlMessageGetProfileListResponse : BitVec 32 := 0x00000401
def smlMessageGetProcParameterRequest : BitVec 32 := 0x00000500
def smlMessageGetProcParameterResponse : BitVec 32 := 0x00000501
def smlMessageSetProcParameterRequest : BitVec 32 := 0x00000600
def smlMessageGetListRequest : BitVec 32 := 0x00000700
def smlMessageGetListResponse : BitVec 32 := 0x00000701
def smlMessageAttentionResponse : BitVec 32 := 0x0000FF01

/-- The data of a message, whose constructor belongs to its tag. -/
inductive SmlMessageData
  | openRequest (data : Option SmlOpenRequest)
  | openResponse (data : Option SmlOpenResponse)
  | closeRequest (data : Option SmlClose)
  | closeResponse (data : Option SmlClose)
  | getProfilePackRequest (data : Option SmlGetProfilePackRequest)
  | getProfilePackResponse (data : Option SmlGetProfilePackResponse)
  | getProfileListRequest (data : Option SmlGetProfilePackRequest)
  | getProfileListResponse (data : Option SmlGetProfileListResponse)
  | getProcParameterRequest (data : Option SmlGetProcParameterRequest)
  | getProcParameterResponse (data : Option SmlGetProcParameterResponse)
  | setProcParameterRequest (data : Option SmlSetProcParameterRequest)
  | getListRequest (data : Option SmlGetListRequest)
  | getListResponse (data : Option SmlGetListResponse)
  | attentionResponse (data : Option SmlAttentionResponse)
  /-- The bytes of another message are left where they are. -/
  | notImplemented

/-- A tag with its data. -/
structure SmlMessageBody where
  tag : BitVec 32
  data : SmlMessageData

/-- A message. -/
structure SmlMessage where
  transactionId : Option OctetString
  groupId : Option (BitVec 8)
  abortOnError : Option (BitVec 8)
  messageBody : Option SmlMessageBody
  crc : BitVec 16

/-- The data that is parsed for a tag. -/
def messageDataParse (tag : BitVec 32) : Reader SmlMessageData :=
  if tag = smlMessageOpenRequest then return .openRequest (← smlOpenRequestParse)
  else if tag = smlMessageOpenResponse then return .openResponse (← smlOpenResponseParse)
  else if tag = smlMessageCloseRequest then return .closeRequest (← smlCloseRequestParse)
  else if tag = smlMessageCloseResponse then return .closeResponse (← smlCloseResponseParse)
  else if tag = smlMessageGetProfilePackRequest then
    return .getProfilePackRequest (← smlGetProfilePackRequestParse)
  else if tag = smlMessageGetProfilePackResponse then
    return .getProfilePackResponse (← smlGetProfilePackResponseParse)
  else if tag = smlMessageGetProfileListRequest then
    return .getProfileListRequest (← smlGetProfilePackRequestParse)
  else if tag = smlMessageGetProfileListResponse then
    return .getProfileListResponse (← smlGetProfileListResponseParse)
  else if tag = smlMessageGetProcParameterRequest then
    return .getProcParameterRequest (← smlGetProcParameterRequestParse)
  else if tag = smlMessageGetProcParameterResponse then
    return .getProcParameterResponse (← smlGetProcParameterResponseParse)
  else if tag = smlMessageSetProcParameterRequest then
    return .setProcParameterRequest (← smlSetProcParameterRequestParse)
  else if tag = smlMessageGetListRequest then return .getListRequest (← smlGetListRequestParse)
  else if tag = smlMessageGetListResponse then return .getListResponse (← smlGetListResponseParse)
  else if tag = smlMessageAttentionResponse then
    return .attentionResponse (← smlAttentionResponseParse)
  else return .notImplemented

/-- The part of `sml_message_body_parse` behind the tag. -/
def bodyParse : Option (BitVec 32) → Reader (Option SmlMessageBody)
  -- A message without a tag has no body, which is no error.
  | none => return none
  | some tag => do
    let data ← messageDataParse tag
    return some { tag, data }

/-- `sml_message_body_parse`. -/
def smlMessageBodyParse : Reader (Option SmlMessageBody) := do
  let left ← smlLeft
  if left < 1 then failed else listOf 2 (field smlU32Parse bodyParse)

/-- The place of the cursor. -/
def smlCursor : Reader Nat := fun cursor => .ok (cursor.place, cursor)

/-- The bytes of the buffer from a place on. -/
def smlBytes (start len : Nat) : Reader (List UInt8) := fun cursor => do
  let data ← copyBytes cursor.bytes start len
  return (data, cursor)

/-- The end of `sml_message_parse`: the checksum of what was read since the start. -/
def messageEnd (msgStart : Nat) (message : BitVec 16 → SmlMessage) :
    Reader (Option SmlMessage) := do
  let here ← smlCursor
  let left ← smlLeft
  if left < 3 then failed
  else
    let crc ← smlU16Parse
    let error ← smlBufHasErrors
    match error, crc with
    | false, some crc =>
      let bytes ← smlBytes msgStart (here - msgStart)
      if crc ≠ (smlCrc16Calculate bytes).toBitVec ∧ crc ≠ (smlCrc16kermitCalculate bytes).toBitVec
      then
        -- A message with another checksum is dropped, which is no error.
        return none
      else
        let left ← smlLeft
        if left = 0 then failed
        else
          let byte ← smlBufGetCurrentByte
          smlBufUpdateBytesRead (if byte = smlMessageEnd then 1 else 0)
          return some (message crc)
    | _, _ => failed

/-- `sml_message_parse`. -/
def smlMessageParse : Reader (Option SmlMessage) := do
  let msgStart ← smlCursor
  listOf 6 <|
    field smlOctetStringParse fun transactionId =>
    field smlU8Parse fun groupId =>
    field smlU8Parse fun abortOnError =>
    field smlMessageBodyParse fun messageBody =>
      messageEnd msgStart fun crc => { transactionId, groupId, abortOnError, messageBody, crc }

/-- The loop of `sml_file_parse`, for so many turns at most. -/
def fileLoop : Nat → Reader (List SmlMessage)
  | 0 => throw .endless
  | turns + 1 => do
    let left ← smlLeft
    if left = 0 then return []
    else
      let byte ← smlBufGetCurrentByte
      if byte = smlMessageEnd then
        smlBufUpdateBytesRead 1
        fileLoop turns
      else
        let msg ← smlMessageParse
        let error ← smlBufHasErrors
        -- The rest of a file with an error is not read.
        if error then return []
        else
          let rest ← fileLoop turns
          return msg.toList ++ rest

/-- `sml_file_parse`, whose loop has a turn for each byte at most, and one to end. -/
def smlFileParse (buffer : List UInt8) : Except Fault (List SmlMessage) := do
  let (messages, _) ← fileLoop (buffer.length + 1) ⟨buffer, 0, false⟩
  return messages

section Safe

open Cursor

variable {room : Nat}

/-- The data of every message is safe. -/
theorem messageDataParse_safe (tag : BitVec 32) : Safe room (messageDataParse tag) :=
  .ite (fun _ => smlOpenRequestParse_safe.bind fun _ => .pure _) fun _ =>
  .ite (fun _ => smlOpenResponseParse_safe.bind fun _ => .pure _) fun _ =>
  .ite (fun _ => smlCloseRequestParse_safe.bind fun _ => .pure _) fun _ =>
  .ite (fun _ => smlCloseRequestParse_safe.bind fun _ => .pure _) fun _ =>
  .ite (fun _ => smlGetProfilePackRequestParse_safe.bind fun _ => .pure _) fun _ =>
  .ite (fun _ => smlGetProfilePackResponseParse_safe.bind fun _ => .pure _) fun _ =>
  .ite (fun _ => smlGetProfilePackRequestParse_safe.bind fun _ => .pure _) fun _ =>
  .ite (fun _ => smlGetProfileListResponseParse_safe.bind fun _ => .pure _) fun _ =>
  .ite (fun _ => smlGetProcParameterRequestParse_safe.bind fun _ => .pure _) fun _ =>
  .ite (fun _ => smlGetProcParameterResponseParse_safe.bind fun _ => .pure _) fun _ =>
  .ite (fun _ => smlSetProcParameterRequestParse_safe.bind fun _ => .pure _) fun _ =>
  .ite (fun _ => smlGetListRequestParse_safe.bind fun _ => .pure _) fun _ =>
  .ite (fun _ => smlGetListResponseParse_safe.bind fun _ => .pure _) fun _ =>
  .ite (fun _ => smlAttentionResponseParse_safe.bind fun _ => .pure _) fun _ => .pure _

/-- The body of a message is safe. -/
theorem smlMessageBodyParse_safe : Safe room smlMessageBodyParse := by
  -- The tag is looked at before the data it announces.
  refine .of_gives (P := fun _ _ => True) fun cursor inside within => smlLeft_gives ?_
  refine .ite (fun _ => failed_gives inside) fun _ => ?_
  refine (listOf_safe (by decide) fun _ _ => field_safe wordParse_safe fun tag => ?_).gives inside
    within
  cases tag with
  | none => exact .pure _
  | some tag => exact (messageDataParse_safe tag).bind fun _ => .pure _

/-- The place of the cursor, as a first step. -/
theorem smlCursor_runs {α : Type} {next : Nat → Reader α} {post : α → Cursor → Prop}
    {cursor : Cursor} (rest : Runs (next cursor.place) cursor post) :
    Runs (smlCursor >>= next) cursor post := rest

/-- Bytes that were read are still in the buffer. -/
theorem smlBytes_runs {msgStart stop : Nat} {cursor : Cursor}
    (within : stop ≤ cursor.bytes.length) :
    Runs (smlBytes msgStart (stop - msgStart)) cursor fun _ after => after = cursor := by
  -- The bytes lie in front of the cursor.
  refine ⟨(cursor.bytes.drop msgStart).take (stop - msgStart), cursor, ?_, rfl⟩
  have full : ((cursor.bytes.drop msgStart).take (stop - msgStart)).length = stop - msgStart := by
    simp only [List.length_take, List.length_drop]
    omega
  simp only [smlBytes, copyBytes, full, if_true]
  rfl

/-- The end of a message is safe. -/
theorem messageEnd_safe {msgStart : Nat} {message : BitVec 16 → SmlMessage} :
    Safe room (messageEnd msgStart message) := by
  -- The checksum is read before it is compared, and before the byte that ends the message.
  refine .of_gives (P := fun _ _ => True) fun cursor inside _ => ?_
  refine smlCursor_runs (smlLeft_gives (.ite (fun _ => failed_gives inside) fun _ => ?_))
  refine Gives.bind (wordParse_safe.gives inside (Nat.le_refl _)) fun crc after moves _ => ?_
  refine (smlBufHasErrors_runs after).bind fun error _ told => ?_
  obtain ⟨rfl, rfl⟩ := told
  split
  · refine (smlBytes_runs (moves.bytes ▸ inside)).bind fun bytes _ told => ?_
    subst told
    refine Gives.ite (fun _ => Gives.pure moves.inside trivial) fun _ => smlLeft_gives ?_
    refine Gives.ite (fun _ => failed_gives moves.inside) fun some => ?_
    refine smlBufGetCurrentByte_gives (by omega) fun byte => ?_
    refine Gives.bind (smlBufUpdateBytesRead_runs moves.inside ?_) fun _ _ more _ => ?_
    · split <;> omega
    · exact Gives.pure more.inside trivial
  · exact failed_gives moves.inside

/-- A message takes a byte, or there is an error. -/
theorem smlMessageParse_runs {cursor : Cursor} (inside : cursor.Inside) :
    Runs smlMessageParse cursor fun _ after =>
      cursor.Moves after ∧ (after.error = false → cursor.place < after.place) := by
  -- A list takes a byte for its length, or there is an error.
  refine smlCursor_runs <| listOf_runs (by decide) inside
    (fun _ moves wrong => ⟨moves, fun fine => ?_⟩) fun later moves further => ?_
  · exact absurd (fine.symm.trans wrong) (by decide)
  have fields : ∀ {reader : Reader (Option SmlMessage)}, Safe later.room reader →
      Runs reader later fun _ after =>
        cursor.Moves after ∧ (after.error = false → cursor.place < after.place) := by
    intro reader safe
    refine (safe later moves.inside (Nat.le_refl _)).weaken fun _ after more => ?_
    exact ⟨moves.trans more, fun _ => Nat.lt_of_lt_of_le further more.forward⟩
  exact fields <| field_safe smlOctetStringParse_safe fun _ => field_safe wordParse_safe fun _ =>
    field_safe wordParse_safe fun _ => field_safe smlMessageBodyParse_safe fun _ => messageEnd_safe

/-- The loop ends when there is a turn for each byte, and one more. -/
theorem fileLoop_runs : ∀ {turns : Nat} {cursor : Cursor}, cursor.Inside → cursor.room < turns →
    Runs (fileLoop turns) cursor fun _ after => cursor.Moves after := by
  -- Induction on the turns, of which there are more than bytes left.
  intro turns
  induction turns with
  | zero => exact fun _ below => absurd below (Nat.not_lt_zero _)
  | succ turns ih =>
    intro cursor inside enough
    refine (smlLeft_runs cursor).bind fun _ _ told => ?_
    obtain ⟨rfl, rfl⟩ := told
    refine Runs.ite (fun _ => Runs.pure (.refl inside)) fun some => ?_
    refine (smlBufGetCurrentByte_runs (by omega)).bind fun byte _ told => ?_
    obtain ⟨_, rfl⟩ := told
    refine Runs.ite (fun _ => ?_) fun _ => ?_
    · refine (smlBufUpdateBytesRead_runs inside (by omega)).bind fun _ between told => ?_
      obtain ⟨moves, further⟩ := told
      have lost := moves.room_lt (by omega)
      exact (ih moves.inside (by omega)).weaken fun _ _ more => moves.trans more
    · refine (smlMessageParse_runs inside).bind fun msg between told => ?_
      obtain ⟨moves, further⟩ := told
      refine (smlBufHasErrors_runs between).bind fun error _ told => ?_
      obtain ⟨rfl, rfl⟩ := told
      refine Runs.ite (fun _ => Runs.pure moves) fun fine => ?_
      -- A message without an error takes a byte, and a turn with it.
      have lost := moves.room_lt (further (Bool.eq_false_iff.mpr fine))
      refine (ih moves.inside (by omega)).bind fun rest _ more => Runs.pure ?_
      exact moves.trans more

/-- A file is parsed whatever it holds: no byte outside it is read, and no pointer is null. -/
theorem smlFileParse_ok (buffer : List UInt8) : ∃ messages, smlFileParse buffer = .ok messages := by
  -- The turns of the loop are more than the bytes of the buffer.
  have begun : (Cursor.mk buffer 0 false).Inside := Nat.zero_le _
  obtain ⟨messages, after, ran, _⟩ := fileLoop_runs begun (Nat.lt_succ_self buffer.length)
  refine ⟨messages, ?_⟩
  unfold smlFileParse
  rw [ran]
  rfl

end Safe

end OpenwrtMisc.Libsml
