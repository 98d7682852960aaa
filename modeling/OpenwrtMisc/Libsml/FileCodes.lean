import OpenwrtMisc.Libsml.BodyCodes
import OpenwrtMisc.Libsml.Messages

/-! The messages of a file as they are written, and that a file is read back. -/

namespace OpenwrtMisc.Libsml

/-- The tags of messages whose data is written and parsed. -/
def messageTags : List (BitVec 32) :=
  [smlMessageOpenRequest, smlMessageOpenResponse, smlMessageCloseRequest, smlMessageCloseResponse,
    smlMessageGetProfilePackRequest, smlMessageGetProfilePackResponse,
    smlMessageGetProfileListRequest, smlMessageGetProfileListResponse,
    smlMessageGetProcParameterRequest, smlMessageGetProcParameterResponse,
    smlMessageSetProcParameterRequest, smlMessageGetListRequest, smlMessageGetListResponse,
    smlMessageAttentionResponse]

/-- Data is written as what the tag says, which it has to be. -/
def tagged (fits : Bool) (writer : Writer Unit) : Writer Unit :=
  if fits then writer else throw .wrongKind

/-- The data that is written for a tag. -/
def messageDataWrite (tag : BitVec 32) : SmlMessageData → Writer Unit
  | .openRequest msg => tagged (tag = smlMessageOpenRequest) (written smlOpenRequestWrite msg)
  | .openResponse msg => tagged (tag = smlMessageOpenResponse) (written smlOpenResponseWrite msg)
  | .closeRequest msg => tagged (tag = smlMessageCloseRequest) (written smlCloseRequestWrite msg)
  | .closeResponse msg => tagged (tag = smlMessageCloseResponse) (written smlCloseResponseWrite msg)
  | .getProfilePackRequest msg =>
    tagged (tag = smlMessageGetProfilePackRequest) (written smlGetProfilePackRequestWrite msg)
  | .getProfilePackResponse msg =>
    tagged (tag = smlMessageGetProfilePackResponse) (written smlGetProfilePackResponseWrite msg)
  | .getProfileListRequest msg =>
    tagged (tag = smlMessageGetProfileListRequest) (written smlGetProfilePackRequestWrite msg)
  | .getProfileListResponse msg =>
    tagged (tag = smlMessageGetProfileListResponse) (written smlGetProfileListResponseWrite msg)
  | .getProcParameterRequest msg =>
    tagged (tag = smlMessageGetProcParameterRequest) (written smlGetProcParameterRequestWrite msg)
  | .getProcParameterResponse msg =>
    tagged (tag = smlMessageGetProcParameterResponse) (written smlGetProcParameterResponseWrite msg)
  | .setProcParameterRequest msg =>
    tagged (tag = smlMessageSetProcParameterRequest) (written smlSetProcParameterRequestWrite msg)
  | .getListRequest msg =>
    tagged (tag = smlMessageGetListRequest) (written smlGetListRequestWrite msg)
  | .getListResponse msg =>
    tagged (tag = smlMessageGetListResponse) (written smlGetListResponseWrite msg)
  | .attentionResponse msg =>
    tagged (tag = smlMessageAttentionResponse) (written smlAttentionResponseWrite msg)
  -- Nothing is written for another tag.
  | .notImplemented => tagged (tag ∉ messageTags) (return ())

/-- `sml_message_body_write`. -/
def smlMessageBodyWrite (messageBody : SmlMessageBody) : Writer Unit := do
  smlBufSetTypeAndLength smlTypeList 2
  smlU32Write (some messageBody.tag)
  messageDataWrite messageBody.tag messageBody.data

/-- The place where the next byte is written. -/
def smlPlace : Writer Nat := fun page => .ok (page.place, page)

/-- The bytes that were written from a place on. -/
def smlWritten (start : Nat) : Writer (List UInt8) := fun page => .ok (page.written start, page)

/-- The part of a message that its checksum is about. -/
def messageHeadWrite (msg : SmlMessage) : Writer Unit := do
  smlBufSetTypeAndLength smlTypeList 6
  smlOctetStringWrite msg.transactionId
  smlU8Write msg.groupId
  smlU8Write msg.abortOnError
  written smlMessageBodyWrite msg.messageBody

/-- The checksum of these bytes, and the end of the message, which has it from then on. -/
def messageEndWrite (msg : SmlMessage) (bytes : List UInt8) : Writer SmlMessage := do
  let crc := (smlCrc16Calculate bytes).toBitVec
  smlU16Write (some crc)
  smlBufPut [smlMessageEnd]
  return { msg with crc }

/-- `sml_message_write`. -/
def smlMessageWrite (msg : SmlMessage) : Writer SmlMessage := do
  let msgStart ← smlPlace
  messageHeadWrite msg
  let bytes ← smlWritten msgStart
  messageEndWrite msg bytes

/-- `SML_FILE_BUFFER_LENGTH`. -/
def smlFileBufferLength : Nat := 512

/-- `sml_buffer_init`. -/
def smlBufferInit (length : Nat) : Page where
  memory := fun _ => 0
  size := length
  place := 0

/-- The buffer of `sml_file_init`. -/
def smlFileInit : Page := smlBufferInit smlFileBufferLength

/-- `sml_file_write`. -/
def smlFileWrite (messages : List SmlMessage) : Writer (List SmlMessage) :=
  messages.mapM smlMessageWrite

section Kept

/-- Data that is read back for a tag: it is there, and of the tag's kind. -/
def DataKept (tag : BitVec 32) : SmlMessageData → Prop
  | .openRequest msg => tag = smlMessageOpenRequest ∧ Given SmlOpenRequest.Kept msg
  | .openResponse msg => tag = smlMessageOpenResponse ∧ Given SmlOpenResponse.Kept msg
  | .closeRequest msg => tag = smlMessageCloseRequest ∧ Given SmlClose.Kept msg
  | .closeResponse msg => tag = smlMessageCloseResponse ∧ Given SmlClose.Kept msg
  | .getProfilePackRequest msg =>
    tag = smlMessageGetProfilePackRequest ∧ Given SmlGetProfilePackRequest.Kept msg
  | .getProfilePackResponse msg =>
    tag = smlMessageGetProfilePackResponse ∧ Given SmlGetProfilePackResponse.Kept msg
  | .getProfileListRequest msg =>
    tag = smlMessageGetProfileListRequest ∧ Given SmlGetProfilePackRequest.Kept msg
  | .getProfileListResponse msg =>
    tag = smlMessageGetProfileListResponse ∧ Given SmlGetProfileListResponse.Kept msg
  | .getProcParameterRequest msg =>
    tag = smlMessageGetProcParameterRequest ∧ Given SmlGetProcParameterRequest.Kept msg
  | .getProcParameterResponse msg =>
    tag = smlMessageGetProcParameterResponse ∧ Given SmlGetProcParameterResponse.Kept msg
  | .setProcParameterRequest msg =>
    tag = smlMessageSetProcParameterRequest ∧ Given SmlSetProcParameterRequest.Kept msg
  | .getListRequest msg => tag = smlMessageGetListRequest ∧ Given SmlGetListRequest.Kept msg
  | .getListResponse msg => tag = smlMessageGetListResponse ∧ Given SmlGetListResponse.Kept msg
  | .attentionResponse msg =>
    tag = smlMessageAttentionResponse ∧ Given SmlAttentionResponse.Kept msg
  | .notImplemented => tag ∉ messageTags

/-- A message that is read back has a body. -/
structure SmlMessage.Kept (msg : SmlMessage) : Prop where
  transactionId : ∀ given ∈ msg.transactionId, StringKept given
  messageBody : Given (fun body => DataKept body.tag body.data) msg.messageBody

end Kept

section Carries

/-- Data of a kind is carried under its tag. -/
theorem carries_kind {α : Type} {P : α → Prop} {write : α → Writer Unit}
    {parse : Reader (Option α)} {make : Option α → SmlMessageData} {tag : BitVec 32}
    (each : ∀ msg, P msg → Carries (write msg) parse (some msg))
    (parses : messageDataParse tag = do return make (← parse)) {msg : Option α}
    (kept : Given P msg) :
    Carries (tagged (decide (tag = tag)) (written write msg)) (messageDataParse tag)
      (make msg) := by
  -- The tag of the data is the one it is written under, so the data is not left out.
  obtain ⟨bytes, wrote, read⟩ := carries_entry each msg kept
  rw [parses]
  refine ⟨bytes, ?_, reads_map read make⟩
  simpa [tagged] using wrote

/-- Data is carried when it is kept. -/
theorem carries_data {tag : BitVec 32} {data : SmlMessageData} (kept : DataKept tag data) :
    Carries (messageDataWrite tag data) (messageDataParse tag) data := by
  -- Each kind of data has its own tag, writer and parser.
  cases data with
  | openRequest msg =>
    obtain ⟨rfl, given⟩ := kept
    exact carries_kind (fun _ => carries_openRequest) rfl given
  | openResponse msg =>
    obtain ⟨rfl, given⟩ := kept
    exact carries_kind (fun _ => carries_openResponse) rfl given
  | closeRequest msg =>
    obtain ⟨rfl, given⟩ := kept
    exact carries_kind (fun _ => carries_close) rfl given
  | closeResponse msg =>
    obtain ⟨rfl, given⟩ := kept
    exact carries_kind (fun _ => carries_close) rfl given
  | getProfilePackRequest msg =>
    obtain ⟨rfl, given⟩ := kept
    exact carries_kind (fun _ => carries_getProfilePackRequest) rfl given
  | getProfilePackResponse msg =>
    obtain ⟨rfl, given⟩ := kept
    exact carries_kind (fun _ => carries_getProfilePackResponse) rfl given
  | getProfileListRequest msg =>
    obtain ⟨rfl, given⟩ := kept
    exact carries_kind (fun _ => carries_getProfilePackRequest) rfl given
  | getProfileListResponse msg =>
    obtain ⟨rfl, given⟩ := kept
    exact carries_kind (fun _ => carries_getProfileListResponse) rfl given
  | getProcParameterRequest msg =>
    obtain ⟨rfl, given⟩ := kept
    exact carries_kind (fun _ => carries_getProcParameterRequest) rfl given
  | getProcParameterResponse msg =>
    obtain ⟨rfl, given⟩ := kept
    exact carries_kind (fun _ => carries_getProcParameterResponse) rfl given
  | setProcParameterRequest msg =>
    obtain ⟨rfl, given⟩ := kept
    exact carries_kind (fun _ => carries_setProcParameterRequest) rfl given
  | getListRequest msg =>
    obtain ⟨rfl, given⟩ := kept
    exact carries_kind (fun _ => carries_getListRequest) rfl given
  | getListResponse msg =>
    obtain ⟨rfl, given⟩ := kept
    exact carries_kind (fun _ => carries_getListResponse) rfl given
  | attentionResponse msg =>
    obtain ⟨rfl, given⟩ := kept
    exact carries_kind (fun _ => carries_attentionResponse) rfl given
  | notImplemented =>
    have unknown : tag ∉ messageTags := kept
    simp only [messageTags, List.mem_cons, List.not_mem_nil, or_false, not_or] at unknown
    have parses : messageDataParse tag = return .notImplemented := by
      simp [messageDataParse, unknown]
    rw [parses]
    exact ⟨[], by simpa [messageDataWrite, tagged, show tag ∉ messageTags from kept] using .pure,
      .pure _⟩

/-- A body is carried when its data is kept. -/
theorem carries_body {body : SmlMessageBody} (kept : DataKept body.tag body.data) :
    Carries (smlMessageBodyWrite body) smlMessageBodyParse (some body) := by
  -- The tag is written in front of the data and says how to parse it.
  obtain ⟨data, wrote, read⟩ := carries_data kept
  have parsed : Carries (messageDataWrite body.tag body.data) (bodyParse (some body.tag))
      (some body) :=
    ⟨data, wrote, reads_map read fun data => some (SmlMessageBody.mk body.tag data)⟩
  obtain ⟨bytes, wroteAll, readAll⟩ :=
    Carries.listOf 2 (by decide) ((carries_u32 (some body.tag)).field parsed)
  refine ⟨bytes, wroteAll, reads_left fun left more => ?_⟩
  rw [if_neg (by omega)]
  exact readAll

end Carries

section Message

variable {α β : Type} {f : Option α → Reader (Option β)}

/-- What follows a parser that may fail is what follows its last field. -/
theorem field_bind {γ : Type} (none : f none = pure none) (parse : Reader γ)
    (rest : γ → Reader (Option α)) :
    field parse rest >>= f = field parse fun value => rest value >>= f := by
  -- An error before the last field gives the same on both sides.
  simp only [field, bind_assoc]
  refine congrArg _ (funext fun value => congrArg _ (funext fun error => ?_))
  cases error with
  | false => rfl
  | true => simp only [if_true, pure_bind, none]

/-- The same holds of a list. -/
theorem listOf_bind (none : f none = pure none) (count : Int) (fields : Reader (Option α)) :
    listOf count fields >>= f = listOf count (fields >>= f) := by
  -- A wrong type or number of elements gives the same on both sides.
  have fails : failed >>= f = failed := by
    simp only [failed, bind_assoc, pure_bind, none]
  simp only [listOf, bind_assoc]
  refine congrArg _ (funext fun type => ?_)
  split
  · exact fails
  · simp only [bind_assoc]
    refine congrArg _ (funext fun length => ?_)
    split
    · exact fails
    · rfl

/-- The fields of a message before its checksum. -/
def messageHeadParse : Reader (Option (BitVec 16 → SmlMessage)) :=
  listOf 6 <|
    field smlOctetStringParse fun transactionId =>
    field smlU8Parse fun groupId =>
    field smlU8Parse fun abortOnError =>
    field smlMessageBodyParse fun messageBody =>
      return some fun crc => { transactionId, groupId, abortOnError, messageBody, crc }

/-- What follows the head of a message. -/
def messageRest (msgStart : Nat) :
    Option (BitVec 16 → SmlMessage) → Reader (Option SmlMessage)
  | none => return none
  | some message => messageEnd msgStart message

/-- A message is its head, and the end that belongs to it. -/
theorem smlMessageParse_eq : smlMessageParse = (do
    let msgStart ← smlCursor
    let head ← messageHeadParse
    messageRest msgStart head) := by
  -- The checksum and the end of the message are read behind the last of its fields.
  unfold smlMessageParse messageHeadParse
  refine congrArg _ (funext fun msgStart => ?_)
  have none : messageRest msgStart none = pure none := rfl
  rw [listOf_bind none, field_bind none]
  simp only [field_bind none, pure_bind]
  rfl

/-- The head of a message that is kept is carried, and begins as a list of six does. -/
theorem carries_head {msg : SmlMessage} (kept : msg.Kept) :
    ∃ fields, Writes (messageHeadWrite msg) (header smlTypeList 6 ++ fields) ∧
      Reads messageHeadParse (header smlTypeList 6 ++ fields)
        (some fun crc => { msg with crc }) := by
  -- The four fields of the head are carried one after the other.
  obtain ⟨fields, wrote, read⟩ : Carries (do
      smlOctetStringWrite msg.transactionId
      smlU8Write msg.groupId
      smlU8Write msg.abortOnError
      written smlMessageBodyWrite msg.messageBody)
      (field smlOctetStringParse fun transactionId =>
        field smlU8Parse fun groupId =>
        field smlU8Parse fun abortOnError =>
        field smlMessageBodyParse fun messageBody =>
          return some fun crc =>
            SmlMessage.mk transactionId groupId abortOnError messageBody crc)
      (some fun crc => { msg with crc }) :=
    (carries_string kept.transactionId).field <| (carries_u8 msg.groupId).field <|
      (carries_u8 msg.abortOnError).field <|
      (carries_entry (fun _ => carries_body) msg.messageBody kept.messageBody).last rfl
  exact ⟨_, writes_listed (by decide) wrote, reads_listOf (by decide) read⟩

end Message

section File

/-- The checksum that is written behind a head. -/
def headCrc (head : List UInt8) : BitVec 16 := (smlCrc16Calculate head).toBitVec

/-- The bytes of the checksum. -/
def crcBytes (head : List UInt8) : List UInt8 :=
  (smlTypeUnsigned ||| UInt8.ofNat 3) :: bigEndianBytes 2 (headCrc head).toNat

/-- The bytes of a message with such a head. -/
def messageBytes (head : List UInt8) : List UInt8 := head ++ (crcBytes head ++ [smlMessageEnd])

/-- The checksum is carried. -/
theorem carries_crc (head : List UInt8) :
    Writes (smlU16Write (some (headCrc head))) (crcBytes head) ∧
      Reads smlU16Parse (crcBytes head) (some (headCrc head)) :=
  @carries_given smlTypeUnsigned (by decide) (by decide) 2 (by decide) (by decide) _

/-- A message is written with its checksum. -/
theorem smlMessageWrite_fills {msg : SmlMessage} {head : List UInt8}
    (wrote : Writes (messageHeadWrite msg) head) {page : Page} (blank : page.Blank) :
    Fills (smlMessageWrite msg) page (messageBytes head) { msg with crc := headCrc head } := by
  refine .ask (show smlPlace page = .ok (page.place, page) from rfl) ?_
  refine (Fills.of_writes wrote blank).bind fun fits => ?_
  have blank := blank.append fits
  -- The checksum is that of the bytes that were just written.
  have found : smlWritten page.place (page.append head) = .ok (head, page.append head) := by
    rw [smlWritten, Page.written_append]
  refine .ask found ?_
  refine (Fills.of_writes (carries_crc head).1 blank).bind fun fits => ?_
  have blank := blank.append fits
  refine (Fills.of_writes (writes_put _) blank).bind fun fits => ?_
  exact .pure fits _

/-- Bytes that were read are copied from the buffer. -/
theorem smlBytes_eq (before bytes after : List UInt8) (place : Nat) (error : Bool) :
    smlBytes before.length bytes.length ⟨before ++ bytes ++ after, place, error⟩ =
      .ok (bytes, ⟨before ++ bytes ++ after, place, error⟩) := by
  -- The copy begins where the message did.
  have found : ((before ++ bytes ++ after).drop before.length).take bytes.length = bytes := by
    rw [List.append_assoc, List.drop_left, List.take_left' rfl]
  simp only [smlBytes, copyBytes, found, if_true]
  rfl

/-- The end of a message is read, and its checksum is right. -/
theorem messageEnd_read (message : BitVec 16 → SmlMessage) (before head after : List UInt8) :
    messageEnd before.length message
        ⟨before ++ messageBytes head ++ after, before.length + head.length, false⟩ =
      .ok (some (message (headCrc head)),
        ⟨before ++ messageBytes head ++ after, before.length + (messageBytes head).length,
          false⟩) := by
  -- The parser stands before the checksum, behind which a byte follows in any case.
  have crc := (carries_crc head).2 (before ++ head) (smlMessageEnd :: after) (by simp)
  have all : before ++ messageBytes head ++ after =
      before ++ head ++ crcBytes head ++ smlMessageEnd :: after := by
    simp [messageBytes]
  have size : (crcBytes head).length = 3 := rfl
  have left (place : Nat) (error : Bool) : smlLeft ⟨before ++ messageBytes head ++ after, place,
      error⟩ = .ok ((before ++ messageBytes head ++ after).length - place,
        ⟨before ++ messageBytes head ++ after, place, error⟩) := rfl
  have length : (before ++ messageBytes head ++ after).length =
      before.length + head.length + 4 + after.length := by
    simp [messageBytes, size]
    omega
  rw [← all, List.length_append] at crc
  have read := smlBytes_eq before head (crcBytes head ++ smlMessageEnd :: after)
    (before.length + head.length + 3) false
  rw [← List.append_assoc, ← all] at read
  unfold messageEnd
  rw [Reader.bind_ok (show smlCursor _ = .ok (before.length + head.length, _) from rfl),
    Reader.bind_ok (left _ _), if_neg (by omega), Reader.bind_ok crc,
    Reader.bind_ok (show smlBufHasErrors _ = .ok (false, _) from rfl)]
  simp only [size, Nat.add_sub_cancel_left]
  rw [Reader.bind_ok read, if_neg (by simp [headCrc]), Reader.bind_ok (left _ _),
    if_neg (by omega)]
  have byte := smlBufGetCurrentByte_append (before ++ head ++ crcBytes head) smlMessageEnd after
    false
  rw [← all, List.length_append, List.length_append, size] at byte
  rw [Reader.bind_ok byte, if_pos rfl]
  have total : (messageBytes head).length = head.length + 3 + 1 := by
    simp [messageBytes, size]
  rw [total]
  rfl

/-- A message is read back, with the checksum of its head. -/
theorem smlMessageParse_read {head : List UInt8} {message : BitVec 16 → SmlMessage}
    (read : Reads messageHeadParse head (some message)) (before after : List UInt8) :
    smlMessageParse ⟨before ++ messageBytes head ++ after, before.length, false⟩ =
      .ok (some (message (headCrc head)),
        ⟨before ++ messageBytes head ++ after, before.length + (messageBytes head).length,
          false⟩) := by
  -- The head is read, and then the checksum is compared with that of the copy.
  have fields := read before (crcBytes head ++ [smlMessageEnd] ++ after) (by simp)
  have all : before ++ head ++ (crcBytes head ++ [smlMessageEnd] ++ after) =
      before ++ messageBytes head ++ after := by
    simp [messageBytes]
  rw [all] at fields
  rw [smlMessageParse_eq, Reader.bind_ok (show smlCursor _ = .ok (before.length, _) from rfl),
    Reader.bind_ok fields]
  exact messageEnd_read message before head after

/-- The head of a message, as it is written and read back. -/
structure MessageCarried (msg : SmlMessage) (head : List UInt8) : Prop where
  wrote : Writes (messageHeadWrite msg) head
  read : Reads messageHeadParse head (some fun crc => { msg with crc })
  /-- No message begins with the byte that is skipped between messages. -/
  begins : ∃ first tail, head = first :: tail ∧ first ≠ smlMessageEnd

/-- A message that is kept is carried. -/
theorem messageCarried {msg : SmlMessage} (kept : msg.Kept) :
    ∃ head, MessageCarried msg head := by
  -- The head of a list of six begins with 0x76.
  obtain ⟨fields, wrote, read⟩ := carries_head kept
  exact ⟨_, wrote, read, 0x76, fields, rfl, by decide⟩

/-- A message without its checksum, which is what the writer is given. -/
def SmlMessage.unsealed (msg : SmlMessage) : SmlMessage := { msg with crc := 0 }

/-- A file is carried: these bytes are written for it, and parsed as these messages. -/
structure FileCarried (messages : List SmlMessage) (bytes : List UInt8)
    (parsed : List SmlMessage) : Prop where
  wrote : ∀ page : Page, page.Blank → Fills (smlFileWrite messages) page bytes parsed
  /-- Zeros that follow are skipped. -/
  read : ∀ (before : List UInt8) (padding turns : Nat), bytes.length + padding < turns →
    fileLoop turns ⟨before ++ bytes ++ List.replicate padding 0, before.length, false⟩ =
      .ok (parsed, ⟨before ++ bytes ++ List.replicate padding 0,
        before.length + bytes.length + padding, false⟩)
  same : parsed.map SmlMessage.unsealed = messages.map SmlMessage.unsealed

/-- Zeros behind the messages are skipped. -/
theorem fileLoop_padding (before : List UInt8) (padding turns : Nat) (enough : padding < turns) :
    fileLoop turns ⟨before ++ List.replicate padding 0, before.length, false⟩ =
      .ok ([], ⟨before ++ List.replicate padding 0, before.length + padding, false⟩) := by
  -- The induction is on the zeros, each of which takes one turn.
  induction padding generalizing before turns with
  | zero =>
    obtain ⟨turns, rfl⟩ : ∃ less, turns = less + 1 := ⟨turns - 1, by omega⟩
    have left : smlLeft ⟨before ++ [], before.length, false⟩ =
        .ok (0, ⟨before ++ [], before.length, false⟩) := by simp [smlLeft, Cursor.room]
    rw [List.replicate_zero, fileLoop, Reader.bind_ok left]
    rfl
  | succ padding ih =>
    obtain ⟨turns, rfl⟩ : ∃ less, turns = less + 1 := ⟨turns - 1, by omega⟩
    have left : smlLeft ⟨before ++ List.replicate (padding + 1) 0, before.length, false⟩ =
        .ok (padding + 1, ⟨before ++ List.replicate (padding + 1) 0, before.length, false⟩) := by
      simp [smlLeft, Cursor.room]
    have byte := smlBufGetCurrentByte_append before 0 (List.replicate padding 0) false
    have rest := ih (before ++ [0]) turns (by omega)
    rw [List.append_assoc, List.singleton_append, ← List.replicate_succ, List.length_append,
      List.length_singleton] at rest
    rw [← List.replicate_succ] at byte
    have zero : (0 : UInt8) = smlMessageEnd := rfl
    rw [fileLoop, Reader.bind_ok left, if_neg (by omega), Reader.bind_ok byte, if_pos zero]
    refine Eq.trans (Reader.bind_ok rfl) (rest.trans ?_)
    rw [Nat.add_assoc, Nat.add_comm 1]

/-- A file without messages is empty. -/
theorem FileCarried.nil : FileCarried [] [] [] where
  wrote _ blank := .pure blank.inside _
  read before padding turns enough := by
    rw [List.append_nil]
    exact fileLoop_padding before padding turns (by simpa using enough)
  same := rfl

/-- A message is written in front of a file. -/
theorem FileCarried.wrote_cons {msg : SmlMessage} {messages parsed : List SmlMessage}
    {head more : List UInt8} (carried : MessageCarried msg head)
    (rest : FileCarried messages more parsed) {page : Page} (blank : page.Blank) :
    Fills (smlFileWrite (msg :: messages)) page (messageBytes head ++ more)
      ({ msg with crc := headCrc head } :: parsed) := by
  -- The page that the message leaves is blank behind it.
  rw [smlFileWrite, List.mapM_cons]
  refine (smlMessageWrite_fills carried.wrote blank).bind fun fits => ?_
  have blank := blank.append fits
  rw [← List.append_nil more]
  exact (rest.wrote _ blank).bind fun fits => .pure fits _

/-- A message is parsed in front of a file. -/
theorem FileCarried.read_cons {msg : SmlMessage} {messages parsed : List SmlMessage}
    {head more : List UInt8} (carried : MessageCarried msg head)
    (rest : FileCarried messages more parsed) (before : List UInt8) {padding turns : Nat}
    (enough : (messageBytes head ++ more).length + padding < turns) :
    fileLoop turns
        ⟨before ++ (messageBytes head ++ more) ++ List.replicate padding 0, before.length, false⟩ =
      .ok ({ msg with crc := headCrc head } :: parsed,
        ⟨before ++ (messageBytes head ++ more) ++ List.replicate padding 0,
          before.length + (messageBytes head ++ more).length + padding, false⟩) := by
  -- The loop parses the message as its bytes say, and the rest by what is known of the file.
  obtain ⟨first, tail, begins, other⟩ := carried.begins
  have some : 0 < (messageBytes head).length := by simp [messageBytes]
  rw [List.length_append] at enough
  obtain ⟨turns, rfl⟩ : ∃ less, turns = less + 1 := ⟨turns - 1, by omega⟩
  -- The messages and the padding behind this one stand in the same buffer.
  generalize later : more ++ List.replicate padding 0 = after
  have all : before ++ (messageBytes head ++ more) ++ List.replicate padding 0 =
      before ++ messageBytes head ++ after := by
    simp [← later]
  have length : after.length = more.length + padding := by simp [← later]
  rw [all]
  have left : smlLeft ⟨before ++ messageBytes head ++ after, before.length, false⟩ =
      .ok ((messageBytes head).length + after.length,
        ⟨before ++ messageBytes head ++ after, before.length, false⟩) := by
    simp [smlLeft, Cursor.room]
  have byte := smlBufGetCurrentByte_append before first
    (tail ++ (crcBytes head ++ [smlMessageEnd]) ++ after) false
  have split : before ++ first :: (tail ++ (crcBytes head ++ [smlMessageEnd]) ++ after) =
      before ++ messageBytes head ++ after := by
    simp [messageBytes, begins]
  rw [split] at byte
  have message := smlMessageParse_read carried.read before after
  -- The loop goes on behind the message, with a turn less.
  have others := rest.read (before ++ messageBytes head) padding turns (by omega)
  rw [List.append_assoc _ more, later, List.length_append] at others
  rw [fileLoop, Reader.bind_ok left, if_neg (by omega), Reader.bind_ok byte, if_neg other,
    Reader.bind_ok message, Reader.bind_ok (show smlBufHasErrors _ = .ok (false, _) from rfl),
    if_neg (by simp), Reader.bind_ok others, List.length_append, ← Nat.add_assoc before.length]
  rfl

/-- A message that is carried may stand in front of a file. -/
theorem FileCarried.cons {msg : SmlMessage} {messages parsed : List SmlMessage}
    {head more : List UInt8} (rest : FileCarried messages more parsed)
    (carried : MessageCarried msg head) :
    FileCarried (msg :: messages) (messageBytes head ++ more)
      ({ msg with crc := headCrc head } :: parsed) where
  wrote _ blank := rest.wrote_cons carried blank
  read before _ _ enough := rest.read_cons carried before enough
  same := by
    -- The parts of a file follow each other.
    rw [List.map_cons, List.map_cons, rest.same]
    rfl

/-- A file of messages that are kept is carried. -/
theorem fileCarried {messages : List SmlMessage} (kept : ∀ msg ∈ messages, SmlMessage.Kept msg) :
    ∃ bytes parsed, FileCarried messages bytes parsed := by
  -- The induction is on the messages.
  induction messages with
  | nil => exact ⟨[], [], .nil⟩
  | cons msg messages ih =>
    obtain ⟨head, carried⟩ := messageCarried (kept msg List.mem_cons_self)
    obtain ⟨more, parsed, rest⟩ := ih fun msg member => kept msg (.tail _ member)
    exact ⟨_, _, rest.cons carried⟩

/-- A file that is carried is parsed, with zeros behind it too. -/
theorem FileCarried.parse {messages parsed : List SmlMessage} {bytes : List UInt8}
    (carried : FileCarried messages bytes parsed) (padding : Nat) :
    smlFileParse (bytes ++ List.replicate padding 0) = .ok parsed := by
  -- There are enough turns for the messages and for the zeros behind them.
  have read := carried.read [] padding (bytes.length + padding + 1) (by omega)
  rw [List.nil_append, List.length_nil] at read
  unfold smlFileParse
  rw [List.length_append, List.length_replicate, read]
  rfl

/-- A file of a meter that tells the energy that it counted. -/
def meterFile : List SmlMessage :=
  let entry : SmlList :=
    { objName := some [1, 0, 1, 8, 0, 255]
      status := some ⟨0x62, some [0, 0x82]⟩
      valTime := none
      unit := some 30
      scaler := some (-1)
      value := some ⟨0x58, .number (some [0, 0, 0, 0, 0, 1, 0xe2, 0x40])⟩
      valueSignature := none }
  let response : SmlGetListResponse :=
    ⟨none, some [0x0a, 1], none, some ⟨some 1, some 4711⟩, [entry], none, none⟩
  [⟨some [0x31], some 0, some 0,
    some ⟨smlMessageGetListResponse, .getListResponse (some response)⟩, 0⟩]

/-- Nothing is lost of it. -/
theorem meterFile_kept : ∀ msg ∈ meterFile, SmlMessage.Kept msg := by
  -- The strings of the message are short, so that their lengths are kept.
  have name := @stringKept_short [1, 0, 1, 8, 0, 255] (by simp) (by simp)
  have server := @stringKept_short [0x0a, 1] (by simp) (by simp)
  have transaction := @stringKept_short [0x31] (by simp) (by simp)
  intro msg member
  obtain rfl := List.mem_singleton.mp member
  refine ⟨by simpa using transaction, _, rfl, rfl, _, rfl, ?_, ?_, ?_⟩
  · simpa [StringsKept] using server
  · simp [TimesKept, SmlTime.Kept]
  · refine ⟨by simp, fun entry member => ?_⟩
    obtain rfl := List.mem_singleton.mp member
    refine ⟨by simpa using name, ?_, by simp, ?_, by simp, rfl⟩
    · simp [SmlStatus.Kept, numberSizes]
      decide
    · simp [SmlValue.Kept, numberSizes]
      decide

end File

end OpenwrtMisc.Libsml
