import OpenwrtMisc.Libsml.Transmission
import OpenwrtMisc.SmlServer.Receiver
import Mathlib.Data.List.Forall2

/-! The thread that reads the meter's line, from the bytes that arrive to the counters. -/

namespace OpenwrtMisc.SmlServer

open Libsml (Heard smlFileParse smlTransportListen smlTransportWrite smlBufferInit framePayload)

/-- The types of a value that the receiver takes for a number. -/
def integerTypes : List UInt8 := [0x51, 0x52, 0x54, 0x58, 0x61, 0x62, 0x64, 0x68]

/-- The number that a value of one of these types points to. -/
def readNumber (type : UInt8) (np : List UInt8) : SmlValue :=
  let number := Ber.bigEndian np
  if type = 0x51 then .int8 (.ofNat 8 number)
  else if type = 0x52 then .int16 (.ofNat 16 number)
  else if type = 0x54 then .int32 (.ofNat 32 number)
  else if type = 0x58 then .int64 (.ofNat 64 number)
  else if type = 0x61 then .uint8 (.ofNat 8 number)
  else if type = 0x62 then .uint16 (.ofNat 16 number)
  else if type = 0x64 then .uint32 (.ofNat 32 number)
  else if type = 0x68 then .uint64 (.ofNat 64 number)
  else .other

/-- A value as the receiver sees it, which is missing where its type tells of an absent number. -/
def readValue (value : Libsml.SmlValue) : Option SmlValue :=
  if value.type ∈ integerTypes then
    match value.data with
    | .number np => np.map (readNumber value.type)
    | _ => none
  else
    some .other

/-- An entry as the receiver sees it. -/
def readEntry (entry : Libsml.SmlList) : SmlList where
  objName := entry.objName
  scaler := entry.scaler
  value := entry.value.bind readValue

/-- A list response as the receiver sees it. -/
def readResponse (body : Libsml.SmlGetListResponse) : SmlGetListResponse where
  actSensorTime := body.actSensorTime.map fun time => ⟨time.timestamp⟩
  valList := body.valList.map readEntry
  actGatewayTime := body.actGatewayTime.map fun time => ⟨time.timestamp⟩

/-- A message as the receiver sees it, which looks at the tag and at the data of one tag. -/
def readMessage (message : Libsml.SmlMessage) : Except Fault SmlMessageBody := do
  let body ← follow message.messageBody
  if body.tag = Libsml.smlMessageGetListResponse then
    match body.data with
    | .getListResponse data => do
      let response ← follow data
      return .getListResponse (readResponse response)
    | _ => throw .wrongKind
  else
    return .other

section Receive

variable {double : Type} (arith : Arithmetic double)

/-- The turn of the receiver's loop for one message of a parsed file. -/
def receiveParsed (counters : Counters) (message : Libsml.SmlMessage) : Except Fault Counters := do
  let body ← readMessage message
  receiveMessage arith counters body

/-- `transport_receiver`, from the bytes of a frame on. -/
def receiveFrame (counters : Counters) (buffer : List UInt8) : Except Fault Counters := do
  let file ← smlFileParse (framePayload buffer)
  file.foldlM (receiveParsed arith) counters

/-- `reader_thread`, whose line ends at some time. -/
def readerThread (line : List Arrival) (counters : Counters) : Except Fault Counters :=
  smlTransportListen (receiveFrame arith) counters line

/-- A message whose pointers the receiver can follow. -/
def Followed (message : Libsml.SmlMessage) : Prop :=
  ∃ body, readMessage message = .ok body ∧ body.Readable

/-- The entries that the receiver finds in a message. -/
def entriesOf (message : Libsml.SmlMessage) : List SmlList :=
  match readMessage message with
  | .ok body => body.entries
  | .error _ => []

/-- A file that the writer put into a frame, and of which nothing gets lost. -/
structure Wrote (messages : List Libsml.SmlMessage) (frame : List UInt8) : Prop where
  kept : ∀ msg ∈ messages, Libsml.SmlMessage.Kept msg
  written : ∃ length page, smlTransportWrite messages (smlBufferInit length) = .ok (frame, page)

/-- A frame that is parsed as a file. -/
def ParsedAs (frame : List UInt8) (file : List Libsml.SmlMessage) : Prop :=
  smlFileParse (framePayload frame) = .ok file

variable {frames : List (List UInt8)} {files : List (List Libsml.SmlMessage)} {line : List Arrival}

/-- A message is received when it can be followed, and its entries are recorded then. -/
theorem receiveParsed_eq_ok (counters : Counters) (message : Libsml.SmlMessage)
    (after : Counters) : receiveParsed arith counters message = .ok after ↔
      Followed message ∧ (entriesOf message).foldl (Counters.record arith) counters = after := by
  -- What the receiver reads of a message is what it then receives.
  simp only [receiveParsed, bind_eq_ok, receiveMessage_eq_ok]
  constructor
  · rintro ⟨body, read, readable, recorded⟩
    exact ⟨⟨body, read, readable⟩, by rwa [entriesOf, read]⟩
  · rintro ⟨⟨body, read, readable⟩, recorded⟩
    rw [entriesOf, read] at recorded
    exact ⟨body, read, readable, recorded⟩

/-- Frame by frame, the receiver goes through all messages of the files. -/
theorem receiveFrames_eq (parsed : List.Forall₂ ParsedAs frames files) (counters : Counters) :
    frames.foldlM (receiveFrame arith) counters =
      files.flatten.foldlM (receiveParsed arith) counters := by
  induction parsed generalizing counters with
  | nil => rfl
  | @cons frame file frames files parsed _ ih =>
    -- The file that a frame is parsed as decides what the receiver does with it.
    have received : receiveFrame arith counters frame =
        file.foldlM (receiveParsed arith) counters := by
      rw [receiveFrame, show smlFileParse (framePayload frame) = .ok file from parsed]
      rfl
    rw [List.foldlM_cons, List.flatten_cons, List.foldlM_append, received]
    exact congrArg _ (funext ih)

/-- The thread ends without a fault when all messages on its line can be followed. -/
theorem readerThread_heard (heard : Heard frames (arriving line))
    (parsed : List.Forall₂ ParsedAs frames files) (counters after : Counters) :
    readerThread arith line counters = .ok after ↔
      (∀ message ∈ files.flatten, Followed message) ∧
        (files.flatten.flatMap entriesOf).foldl (Counters.record arith) counters = after := by
  -- Listening hands over the frames, and a frame stands for its file.
  rw [readerThread, Libsml.smlTransportListen_heard heard, receiveFrames_eq arith parsed,
    foldlM_eq_ok (receiveParsed_eq_ok arith), List.foldl_flatMap]

/-- A file that was written is parsed from its frame, up to the checksums. -/
theorem Wrote.parsed {messages : List Libsml.SmlMessage} {frame : List UInt8}
    (wrote : Wrote messages frame) : ∃ file, ParsedAs frame file ∧
      file.map Libsml.SmlMessage.unsealed = messages.map Libsml.SmlMessage.unsealed := by
  -- The writer has a single outcome, so the frame is the one that is known to be parsed.
  obtain ⟨bytes, file, carried⟩ := Libsml.fileCarried wrote.kept
  obtain ⟨length, page, written⟩ := wrote.written
  have filled := Libsml.smlTransportWrite_fills carried length
  rw [Fills, written] at filled
  split at filled
  · obtain ⟨rfl, _⟩ := Prod.mk.inj (Except.ok.inj filled)
    refine ⟨file, ?_, carried.same⟩
    rw [ParsedAs, Libsml.framePayload_frameOf]
    exact carried.parse _
  · -- A buffer that is too small is not written at all.
    cases filled

/-- Files that were written one after another are parsed so. -/
theorem parsed_of_wrote (wrote : List.Forall₂ Wrote files frames) :
    ∃ parsed, List.Forall₂ ParsedAs frames parsed ∧
      parsed.flatten.map Libsml.SmlMessage.unsealed =
        files.flatten.map Libsml.SmlMessage.unsealed := by
  -- The induction is on the files.
  induction wrote with
  | nil => exact ⟨[], .nil, rfl⟩
  | cons first _ ih =>
    obtain ⟨file, read, same⟩ := first.parsed
    obtain ⟨parsed, others, rest⟩ := ih
    refine ⟨file :: parsed, .cons read others, ?_⟩
    rw [List.flatten_cons, List.flatten_cons, List.map_append, List.map_append, same, rest]

/-- Every frame is parsed as some file. -/
theorem exists_parsedAs (frames : List (List UInt8)) :
    ∃ files, List.Forall₂ ParsedAs frames files := by
  -- Induction on the frames.
  induction frames with
  | nil => exact ⟨[], .nil⟩
  | cons frame frames ih =>
    obtain ⟨files, parsed⟩ := ih
    -- The loop of the parser ends on every payload.
    have begun : (Cursor.mk (framePayload frame) 0 false).Inside := Nat.zero_le _
    obtain ⟨file, after, ran, _⟩ := Libsml.fileLoop_runs begun
      (Nat.lt_succ_self (framePayload frame).length)
    have read : ParsedAs frame file := by
      rw [ParsedAs, smlFileParse, ran]
      rfl
    exact ⟨file :: files, .cons read parsed⟩

/--
Whatever arrives on the line, the thread goes through the messages of the frames on it.

It ends without a fault just when all of them can be followed, and with all their entries recorded,
in whatever arithmetic the receiver computes.
-/
theorem readerThread_eq_ok (line : List Arrival) :
    ∃ frames files, Heard frames (arriving line) ∧ List.Forall₂ ParsedAs frames files ∧
      ∀ counters after, readerThread arith line counters = .ok after ↔
        (∀ message ∈ files.flatten, Followed message) ∧
          (files.flatten.flatMap entriesOf).foldl (Counters.record arith) counters = after := by
  -- Every line has its frames, and every frame its file.
  obtain ⟨frames, heard⟩ := Libsml.exists_heard (arriving line)
  obtain ⟨files, parsed⟩ := exists_parsedAs frames
  exact ⟨frames, files, heard, parsed, readerThread_heard arith heard parsed⟩

end Receive

end OpenwrtMisc.SmlServer
