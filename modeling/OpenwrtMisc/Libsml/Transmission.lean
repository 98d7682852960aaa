import OpenwrtMisc.Libsml.FileCodes
import OpenwrtMisc.Libsml.Transport

/-! Files that are written as frames, and that they arrive at the other end of a line. -/

namespace OpenwrtMisc.Libsml

/-- The number of the bytes that fill up a group of four. -/
def paddingOf (cursor : Nat) : Nat := if cursor % 4 ≠ 0 then 4 - cursor % 4 else 0

/-- Zeros that fill up the last group, if there is a gap. -/
def paddingWrite (padding : Nat) : Writer Unit :=
  if padding ≠ 0 then smlBufPut (List.replicate padding 0) else return ()

/-- The cursor is set back to the start. -/
def smlRewind : Writer Unit := fun page => .ok ((), { page with place := 0 })

/-- The checksum of these bytes, of which the highest byte comes first. -/
def frameCrcWrite (bytes : List UInt8) : Writer Unit := do
  let crc := smlCrc16Calculate bytes
  smlBufPut [((crc &&& 0xFF00) >>> 8).toUInt8]
  smlBufPut [(crc &&& 0x00FF).toUInt8]

/-- The end of a frame, with the checksum of all bytes before it. -/
def frameEndWrite (padding : Nat) : Writer (List UInt8) := do
  smlBufPut endSeq
  smlBufPut [UInt8.ofNat padding]
  let bytes ← smlWritten 0
  frameCrcWrite bytes
  smlWritten 0

/-- `sml_transport_write`, with the bytes that it writes to its descriptor. -/
def smlTransportWrite (messages : List SmlMessage) : Writer (List UInt8) := do
  smlRewind
  smlBufPut startSeq
  let _ ← smlFileWrite messages
  let cursor ← smlPlace
  paddingWrite (paddingOf cursor)
  frameEndWrite (paddingOf cursor)

/-- The bytes of a frame that are handed to the parser of files. -/
def framePayload (buffer : List UInt8) : List UInt8 := (buffer.drop 8).take (buffer.length - 16)

section Frame

/-- The bytes before the checksum of a frame. -/
def frameBody (bytes : List UInt8) (padding : Nat) : List UInt8 :=
  startSeq ++ (bytes ++ List.replicate padding 0) ++ endSeq ++ [UInt8.ofNat padding]

/-- The checksum of a frame. -/
def frameCrc (bytes : List UInt8) : List UInt8 :=
  [((smlCrc16Calculate bytes &&& 0xFF00) >>> 8).toUInt8,
    (smlCrc16Calculate bytes &&& 0x00FF).toUInt8]

/-- The frame of a file with these bytes. -/
def frameOf (bytes : List UInt8) : List UInt8 :=
  frameBody bytes (paddingOf bytes.length) ++ frameCrc (frameBody bytes (paddingOf bytes.length))

/-- The start sequence does not change the padding. -/
theorem paddingOf_add (length : Nat) : paddingOf (8 + length) = paddingOf length := by
  simp [paddingOf, Nat.add_mod]

/-- The bytes that were written since the start of a page. -/
theorem smlWritten_start {page : Page} (begun : page.place = 0) (bytes : List UInt8) :
    smlWritten 0 (page.append bytes) = .ok (bytes, page.append bytes) := by
  -- All of the page was written since then.
  have found := Page.written_append page bytes
  rw [begun] at found
  rw [smlWritten, found]

/-- The padding is written whatever its length. -/
theorem writes_padding (padding : Nat) :
    Writes (paddingWrite padding) (List.replicate padding 0) := by
  -- A padding of no bytes is not written at all.
  unfold paddingWrite
  split
  · exact writes_put _
  · obtain rfl : padding = 0 := by omega
    exact .pure

/-- The end of a frame is written behind what its checksum is about. -/
theorem frameEndWrite_fills {page : Page} (begun : page.place = 0) {bytes : List UInt8}
    {padding : Nat}
    (blank : (page.append (startSeq ++ (bytes ++ List.replicate padding 0))).Blank) :
    Fills (frameEndWrite padding) (page.append (startSeq ++ (bytes ++ List.replicate padding 0)))
      (endSeq ++ ([UInt8.ofNat padding] ++ frameCrc (frameBody bytes padding)))
      (frameBody bytes padding ++ frameCrc (frameBody bytes padding)) := by
  -- The end is written piece by piece, each behind the blank space that the last one left.
  refine (Fills.of_writes (writes_put _) blank).bind fun fits => ?_
  have blank := blank.append fits
  refine (Fills.of_writes (writes_put _) blank).bind fun fits => ?_
  have blank := blank.append fits
  rw [Page.append_append, Page.append_append] at blank ⊢
  refine .ask (smlWritten_start begun _) ?_
  -- The checksum is about all bytes that were written so far.
  have body : startSeq ++ (bytes ++ List.replicate padding 0) ++ (endSeq ++ [UInt8.ofNat padding]) =
      frameBody bytes padding := by
    simp [frameBody]
  rw [body] at blank ⊢
  have crc : Writes (frameCrcWrite (frameBody bytes padding))
      (frameCrc (frameBody bytes padding)) := (writes_put _).bind (writes_put _)
  rw [← List.append_nil (frameCrc (frameBody bytes padding))]
  refine (Fills.of_writes crc blank).bind fun fits => ?_
  have inside := (blank.append fits).inside
  rw [Page.append_append] at inside ⊢
  rw [List.append_nil]
  exact .answer inside (smlWritten_start begun _)

/-- The bytes of a frame. -/
theorem frameOf_eq (bytes : List UInt8) : frameOf bytes = startSeq ++ (bytes ++
    (List.replicate (paddingOf bytes.length) 0 ++
      (endSeq ++ ([UInt8.ofNat (paddingOf bytes.length)] ++
        frameCrc (frameBody bytes (paddingOf bytes.length)))))) := by
  simp [frameOf, frameBody]

/-- A file is written as a frame into an empty buffer. -/
theorem smlTransportWrite_fills {messages parsed : List SmlMessage} {bytes : List UInt8}
    (carried : FileCarried messages bytes parsed) (length : Nat) :
    Fills (smlTransportWrite messages) (smlBufferInit length) (frameOf bytes) (frameOf bytes) := by
  -- The parts are written behind each other, and each leaves a page that is blank behind it.
  have empty : (smlBufferInit length).Blank := ⟨Nat.zero_le _, fun _ _ => rfl⟩
  have begun : (smlBufferInit length).place = 0 := rfl
  have rewound : smlRewind (smlBufferInit length) = .ok ((), smlBufferInit length) := rfl
  generalize smlBufferInit length = page at empty begun rewound
  refine .ask rewound ?_
  rw [frameOf_eq]
  refine (Fills.of_writes (writes_put _) empty).bind fun fits => ?_
  have blank := empty.append fits
  refine (carried.wrote _ blank).bind fun fits => ?_
  have blank := blank.append fits
  -- The padding is counted from the start of the frame, whose eight bytes do not matter.
  have place : smlPlace ((page.append startSeq).append bytes) =
      .ok (8 + bytes.length, (page.append startSeq).append bytes) := by
    simp [smlPlace, Page.append, begun, startSeq]
  refine .ask place ?_
  rw [paddingOf_add]
  refine (Fills.of_writes (writes_padding _) blank).bind fun fits => ?_
  have blank := blank.append fits
  rw [Page.append_append, Page.append_append] at blank ⊢
  rw [← frameOf_eq bytes]
  exact frameEndWrite_fills begun blank

/-- The payload of a frame is the file with its padding. -/
theorem framePayload_frameOf (bytes : List UInt8) : framePayload (frameOf bytes) =
    bytes ++ List.replicate (paddingOf bytes.length) 0 := by
  -- Eight bytes stand in front of the payload, and eight behind it.
  have size : (bytes ++ List.replicate (paddingOf bytes.length) 0).length =
      (frameOf bytes).length - 16 := by
    simp [frameOf_eq, startSeq, endSeq, frameCrc]
    omega
  have start : startSeq.length = 8 := rfl
  rw [framePayload, ← size, frameOf_eq, List.drop_left' start, ← List.append_assoc bytes,
    List.take_left' rfl]

/-- A frame is one that can be read just when its payload has no escaped group, and it fits. -/
theorem framed_frameOf {maxLen : Nat} (bytes : List UInt8) :
    Framed maxLen (frameOf bytes) ↔
      Grouped (framePayload (frameOf bytes)) ∧ (frameOf bytes).length < maxLen := by
  -- The payload is read off the frame, so only the padding and the checksum are to be found.
  rw [framePayload_frameOf]
  constructor
  · rintro ⟨payload, last, same, ⟨grouped, padding, high, low, rfl⟩, fits⟩
    refine ⟨?_, fits⟩
    -- The last eight bytes are the end of the frame in either reading of it.
    rw [frameOf_eq, List.append_assoc, List.append_cancel_left_eq, ← List.append_assoc] at same
    obtain ⟨payloads, _⟩ := List.append_inj' same rfl
    exact payloads ▸ grouped
  · rintro ⟨grouped, fits⟩
    have ends : ∃ high low, frameCrc (frameBody bytes (paddingOf bytes.length)) = [high, low] :=
      ⟨_, _, rfl⟩
    obtain ⟨high, low, crc⟩ := ends
    refine ⟨_, endSeq ++ [UInt8.ofNat (paddingOf bytes.length), high, low], ?_,
      ⟨grouped, _, _, _, rfl⟩, fits⟩
    rw [frameOf_eq, crc]
    simp

end Frame

section Meter

/-- The head of the message in the meter's file. -/
def meterHead : List UInt8 :=
  [0x76] ++ ([2, 0x31] ++ ([0x62, 0] ++ ([0x62, 0] ++ ([0x72] ++ ([0x65, 0, 0, 7, 1] ++
    ([0x77] ++ ([1] ++ ([3, 0x0a, 1] ++ ([1] ++ (([0x72] ++ ([0x62, 1] ++
      [0x65, 0, 0, 0x12, 0x67])) ++ (([0x71] ++ (([0x77] ++ ([7, 1, 0, 1, 8, 0, 255] ++
        ([0x63, 0, 0x82] ++ ([1] ++ ([0x62, 30] ++ ([0x52, 0xff] ++
          ([0x59, 0, 0, 0, 0, 0, 1, 0xe2, 0x40] ++ [1]))))))) ++ [])) ++ ([1] ++ [1]))))))))))))

/-- A string is written behind its length. -/
theorem writes_string (str : OctetString) (small : str.length.toUInt32.toNat < 2 ^ 28 - 8) :
    Writes (smlOctetStringWrite (some str))
      (header smlTypeOctetString str.length.toUInt32.toNat ++ str) :=
  (writes_header small).bind (writes_put str)

/-- A number is written behind its type and its size. -/
theorem writes_number {type : UInt8} (number : type = smlTypeUnsigned ∨ type = smlTypeInteger)
    (np : List UInt8) (some : np ≠ []) (few : np.length < 15) :
    Writes (smlNumberWrite (.some np) type np.length)
      ((type ||| UInt8.ofNat (np.length + 1)) :: np) := by
  -- A number is unsigned or not.
  rcases number with rfl | rfl
  · exact (carries_number (by decide) (by decide) some few).1
  · exact (carries_number (by decide) (by decide) some few).1

/-- The head of the meter's message is written so. -/
theorem writes_meterHead : ∀ msg ∈ meterFile, Writes (messageHeadWrite msg) meterHead := by
  -- The fields are written one by one, and each of them is the bytes that stand in the head.
  intro msg member
  obtain rfl := List.mem_singleton.mp member
  have u (np : List UInt8) := @writes_number smlTypeUnsigned (.inl rfl) np
  have i (np : List UInt8) := @writes_number smlTypeInteger (.inr rfl) np
  -- The message up to its response, which has the entry as the only one of its list.
  refine .bind (writes_header (by decide)) <| .bind (writes_string [0x31] (by decide)) <|
    .bind (u [0] (by decide) (by decide)) <| .bind (u [0] (by decide) (by decide)) <|
    .bind (writes_header (by decide)) <| .bind (u [0, 0, 7, 1] (by decide) (by decide)) <|
    .bind (writes_header (by decide)) <| .bind (writes_put _) <|
    .bind (writes_string [0x0a, 1] (by decide)) <| .bind (writes_put _) <|
    .bind (.bind (writes_header (by decide)) <| .bind (u [1] (by decide) (by decide)) <|
      u [0, 0, 0x12, 0x67] (by decide) (by decide)) <|
    .bind (.bind (writes_header (by decide)) <| .bind ?_ .pure) <|
    .bind (writes_put _) (writes_put _)
  exact .bind (writes_header (by decide)) <|
    .bind (writes_string [1, 0, 1, 8, 0, 255] (by decide)) <|
    .bind (u [0, 0x82] (by decide) (by decide)) <| .bind (writes_put _) <|
    .bind (u [30] (by decide) (by decide)) <| .bind (i [0xff] (by decide) (by decide)) <|
    .bind (i [0, 0, 0, 0, 0, 1, 0xe2, 0x40] (by decide) (by decide)) (writes_put _)

/-- The meter's file is written as these bytes. -/
theorem meterFile_carried :
    ∃ parsed, FileCarried meterFile (messageBytes meterHead ++ []) parsed := by
  have carried : ∀ msg ∈ meterFile, MessageCarried msg meterHead := by
    intro msg member
    -- The bytes that are known to be parsed are the ones that are written.
    obtain ⟨head, carried⟩ := messageCarried (meterFile_kept msg member)
    obtain rfl := carried.wrote.unique (writes_meterHead msg member)
    exact carried
  exact ⟨_, FileCarried.nil.cons (carried _ (List.mem_singleton.mpr rfl))⟩

/-- The frame of the meter's file. -/
def meterFrame : List UInt8 := frameOf (messageBytes meterHead ++ [])

/-- The meter writes this frame. -/
theorem smlTransportWrite_meterFile : smlTransportWrite meterFile smlFileInit =
    .ok (meterFrame, smlFileInit.append meterFrame) := by
  -- The frame fits in the buffer, so that the writer does not overflow.
  obtain ⟨parsed, carried⟩ := meterFile_carried
  have filled : Fills (smlTransportWrite meterFile) smlFileInit meterFrame meterFrame :=
    smlTransportWrite_fills carried smlFileBufferLength
  have fits : smlFileInit.place + meterFrame.length ≤ smlFileInit.size := by decide +kernel
  rwa [Fills, if_pos fits] at filled

/-- The frame can be read, since no group of it is escaped. -/
theorem meterFrame_framed : Framed mcSmlBufferLen meterFrame := by
  -- The payload is cut into its groups of four, of which none is the escape sequence.
  refine (framed_frameOf _).mpr ⟨?_, by decide +kernel⟩
  have groups : framePayload (frameOf (messageBytes meterHead ++ [])) =
      [[0x76, 2, 0x31, 0x62], [0, 0x62, 0, 0x72], [0x65, 0, 0, 7], [1, 0x77, 1, 3],
        [0x0a, 1, 1, 0x72], [0x62, 1, 0x65, 0], [0, 0x12, 0x67, 0x71], [0x77, 7, 1, 0],
        [1, 8, 0, 0xff], [0x63, 0, 0x82, 1], [0x62, 0x1e, 0x52, 0xff], [0x59, 0, 0, 0],
        [0, 0, 1, 0xe2], [0x40, 1, 1, 1], [0x63, 0xe1, 0x80, 0]].flatten := by decide +kernel
  rw [groups]
  exact grouped_flatten (by decide +kernel)

/-- The frame is the only one on a line that has nothing else. -/
theorem meterFrame_heard : Heard [meterFrame] (arriving (putBack meterFrame [])) := by
  -- Behind the frame there are too few bytes for another one.
  have silent : Heard [] [] := .silent fun skipped frame later _ framed same => by
    have size := framed.length
    have none := congrArg List.length same
    simp only [List.length_append, List.length_nil] at none
    omega
  have heard := Heard.frame .nil meterFrame_framed silent
  rwa [List.nil_append, List.append_nil] at heard

end Meter

end OpenwrtMisc.Libsml
