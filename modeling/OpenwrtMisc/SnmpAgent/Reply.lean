import OpenwrtMisc.SnmpAgent.Assemble
import OpenwrtMisc.SnmpAgent.Serve

/-! A reply is complete and well formed exactly when its content fits the short form of a length. -/

namespace OpenwrtMisc.SnmpAgent

open Ber

/-- The message that a reply stands for. -/
def replyMessage (community : List UInt8) (requestId : BitVec 32) (varbinds : List Varbind) :
    Message :=
  ⟨[0x00], cString community, 0xa2, wordBytes requestId, [0x00], [0x00], bindings varbinds⟩

/-- The reply to a request is the message with its answers, if these can be encoded and fit. -/
theorem answer_eq_ok {current : CurrentValues} {request : RequestRx} {reply : List UInt8}
    (typed : ∀ varbind ∈ request.varbindList.varbindList, varbind.WellTyped)
    (short : ∀ text, request.message.community = some text → text.length < 256) :
    answer current request = .ok reply ↔
      ∃ text, request.message.community = some text ∧
        AllEncodable (answered current 0 request.varbindList.varbindList) ∧
        2 + (listContent (answered current 0 request.varbindList.varbindList)).length ≤
          listBufferSize ∧
        reply = (replyMessage text request.pdu.requestId
          (answered current 0 request.varbindList.varbindList)).bytes := by
  -- The list is assembled first, and the PDU and the message around it.
  have answers := fun varbind member =>
    (answered_wellTyped current _ 0 typed varbind member).storable
  unfold answer
  rw [processVarbindList_eq]
  show (createVarbindListTx _ >>= _) = _ ↔ _
  generalize answered current 0 request.varbindList.varbindList = varbinds at answers
  rw [bind_eq_ok]
  constructor
  · intro given
    rcases given with ⟨list, listRan, ran⟩
    obtain ⟨pdu, pduRan, ran⟩ := bind_eq_ok.mp ran
    obtain ⟨encodable, fits, rfl⟩ := (createVarbindListTx_eq_ok answers).mp listRan
    obtain ⟨_, rfl⟩ := createSnmpPduTx_eq_ok.mp pduRan
    obtain ⟨text, found, _, rfl⟩ := (createSnmpMessageTx_eq_ok short).mp ran
    exact ⟨text, found, encodable, fits, rfl⟩
  · intro given
    rcases given with ⟨text, found, encodable, fits, rfl⟩
    have cut := Nat.le_trans (length_cString_le text) (Nat.le_of_lt_succ (short text found))
    have pduSize : (pduContent request.pdu.requestId 0x00 0x00
        (element 0x30 (listContent varbinds))).length = 14 + (listContent varbinds).length := by
      have zero : (integerContent (BitVec.ofNat 32 (0x00 : UInt8).toNat)).length = 1 := rfl
      have word : (wordBytes request.pdu.requestId).length = 4 := rfl
      simp only [pduContent, List.length_append, length_element, zero, word]
      omega
    -- What fits the list buffer fits the buffers around it.
    refine ⟨_, (createVarbindListTx_eq_ok answers).mpr ⟨encodable, fits, rfl⟩, ?_⟩
    refine bind_eq_ok.mpr ⟨_, createSnmpPduTx_eq_ok.mpr ⟨?_, rfl⟩, ?_⟩
    · rw [pduSize]
      simp only [listBufferSize, pduBufferSize] at fits ⊢
      omega
    · refine (createSnmpMessageTx_eq_ok short).mpr ⟨text, found, ?_, rfl⟩
      simp only [messageContent, List.length_append, length_element, List.length_singleton,
        pduSize]
      simp only [listBufferSize, messageBufferSize] at fits ⊢
      omega

/-- The length of the content of a reply. -/
def replyLength (community : List UInt8) (varbinds : List Varbind) : Nat :=
  21 + (cString community).length + ((bindings varbinds).map fun binding =>
    6 + binding.oid.length + binding.value.content.length).sum

/-- The list takes six bytes for each binding beside its name and value. -/
theorem length_listContent (varbinds : List Varbind) :
    (listContent varbinds).length = ((bindings varbinds).map fun binding =>
      6 + binding.oid.length + binding.value.content.length).sum := by
  -- The induction is on the bindings, each of which has three headers.
  unfold listContent
  induction bindings varbinds with
  | nil => rfl
  | cons binding rest ih =>
    rw [List.flatMap_cons, List.length_append, ih, List.map_cons, List.sum_cons, length_element,
      Binding.content, List.length_append, length_element, length_element]
    omega

/-- The content of a reply is as long as its fields say. -/
theorem length_replyMessage (community : List UInt8) (requestId : BitVec 32)
    (varbinds : List Varbind) :
    (replyMessage community requestId varbinds).content.length =
      replyLength community varbinds := by
  -- The numbers of a reply have fixed lengths.
  have list : (replyMessage community requestId varbinds).list = listContent varbinds := rfl
  rw [Message.length_content, list, length_listContent]
  simp only [replyMessage, replyLength, wordBytes, List.length_cons, List.length_nil]
  omega

/-- A reply is written inside its buffers, and its length fields read by the rules are right. -/
def WellFormedReply (current : CurrentValues) (request : RequestRx) : Prop :=
  ∃ reply message, answer current request = .ok reply ∧ readMessage reply = some message

/-- The condition for a reply: a community, names that can be encoded, and content in short form. -/
structure ReplyFits (current : CurrentValues) (request : RequestRx) : Prop where
  /-- Every name that is written can be encoded. -/
  encodable : AllEncodable (answered current 0 request.varbindList.varbindList)
  /-- There is a community, and with it the content is at most 127 bytes long. -/
  short : ∃ community, request.message.community = some community ∧
    replyLength community (answered current 0 request.varbindList.varbindList) ≤ 127

/-- A reply that does not fit the short form is not read as one element. -/
theorem not_readTlv_long {message : Message} (version : message.version = [0x00])
    (long : 127 < message.content.length) (small : message.content.length < 515) (item : Tlv) :
    readTlv message.bytes ≠ some (item, []) := by
  intro read
  obtain ⟨count, positive, inside, sum⟩ := readTlv_long long read
  -- The bytes taken for a long length are the version and what follows it.
  obtain ⟨rest, shape⟩ : ∃ rest, message.content = 0x02 :: 0x01 :: 0x00 :: rest := by
    rw [Message.content, version]
    exact ⟨_, rfl⟩
  rw [shape] at sum inside small long
  simp only [List.length_cons] at sum inside small long
  obtain rfl | rfl | more : count = 1 ∨ count = 2 ∨ 3 ≤ count := by omega
  · have first : bigEndian (List.take 1 (0x02 :: 0x01 :: 0x00 :: rest)) = 2 := rfl
    omega
  · have first : bigEndian (List.take 2 (0x02 :: 0x01 :: 0x00 :: rest)) = 513 := rfl
    omega
  · obtain ⟨count, rfl⟩ := Nat.exists_eq_add_of_le' more
    have first : List.take (count + 3) (0x02 :: 0x01 :: 0x00 :: rest) =
        0x02 :: 0x01 :: 0x00 :: rest.take count := rfl
    rw [first, bigEndian_cons] at sum
    have weight : 256 ^ 2 ≤ 256 ^ (0x01 :: 0x00 :: rest.take count : List UInt8).length :=
      Nat.pow_le_pow_right (by decide) (by simp)
    have two : (0x02 : UInt8).toNat = 2 := rfl
    rw [two] at sum
    omega

/-- The bindings of a request that was taken apart are well typed, and its community is short. -/
theorem received_wellTyped {received : List UInt8} {request : RequestRx}
    (accepted : receiveRequest received = .ok (some request)) :
    (∀ varbind ∈ request.varbindList.varbindList, varbind.WellTyped) ∧
      ∀ text, request.message.community = some text → text.length < 256 := by
  -- Only one outcome of the receiver gives a request.
  generalize outcome : some request = parsed at accepted
  obtain ⟨⟩ | ⟨⟩ | ⟨first, _, _, _, third⟩ := receiveRequest_eq_ok.mp accepted
  · cases outcome
  · cases outcome
  · cases outcome
    exact ⟨third.wellTyped, fun text found => first.community_length found⟩

/-- A reply is well formed exactly when it fits, for every request that is accepted. -/
theorem reply_wellFormed_iff (current : CurrentValues) {datagram stale : List UInt8}
    {request : RequestRx}
    (accepted : receiveRequest (recvData datagram stale) = .ok (some request)) :
    WellFormedReply current request ↔ ReplyFits current request := by
  -- What is sent is the message that was meant, so it is a question of its length only.
  obtain ⟨typed, short⟩ := received_wellTyped accepted
  constructor
  · intro given
    rcases given with ⟨reply, message, ran, read⟩
    obtain ⟨text, found, encodable, fits, rfl⟩ := (answer_eq_ok typed short).mp ran
    obtain ⟨content, whole⟩ := readMessage_element read
    refine ⟨encodable, text, found, ?_⟩
    -- A longer content would have been misread; the list buffer keeps it below 515 bytes.
    rw [← length_replyMessage text request.pdu.requestId]
    by_contra long
    have cut := Nat.le_trans (length_cString_le text) (Nat.le_of_lt_succ (short text found))
    refine not_readTlv_long rfl (Nat.lt_of_not_le long) ?_ _ whole
    rw [length_replyMessage, replyLength, ← length_listContent]
    simp only [listBufferSize] at fits
    omega
  · intro given
    rcases given with ⟨encodable, text, found, inside⟩
    refine ⟨_, _, (answer_eq_ok typed short).mpr ⟨text, found, encodable, ?_, rfl⟩,
      readMessage_bytes ?_⟩
    · rw [replyLength, ← length_listContent] at inside
      simp only [listBufferSize]
      omega
    · rw [length_replyMessage]
      omega

/-- Readings of a meter right after the start. -/
def sampleValues : CurrentValues := ⟨0, fun _ => 5, 1200, 0, 34, 0xfffffff6⟩

/-- A request for so many copies of the description of the system. -/
def descriptionRequest (count : Nat) : List UInt8 :=
  Message.bytes ⟨[0x00], ascii "public", 0xa0, [0x01], [0x00], [0x00],
    List.replicate count ⟨[0x2b, 6, 1, 2, 1, 1, 1, 0], ⟨0x05, []⟩⟩⟩

/-- The rest of the receive buffer behind a request for the description. -/
def descriptionRest (count : Nat) : List UInt8 :=
  List.replicate (2047 - (descriptionRequest count).length) 0x00

/-- A request for one description is accepted, and its reply is well formed because it fits. -/
theorem reply_wellFormed_description :
    ∃ request, receiveRequest (recvData (descriptionRequest 1) (descriptionRest 1)) =
      .ok (some request) ∧ WellFormedReply sampleValues request ∧
        ReplyFits sampleValues request := by
  -- The exchange is computed, and the condition follows from its reply.
  have parsed : ∃ request, receiveRequest (recvData (descriptionRequest 1) (descriptionRest 1)) =
      .ok (some request) ∧ WellFormedReply sampleValues request := ⟨_, rfl, _, _, rfl, rfl⟩
  obtain ⟨request, accepted, formed⟩ := parsed
  exact ⟨request, accepted, formed, (reply_wellFormed_iff sampleValues accepted).mp formed⟩

/-- A request for three descriptions is accepted, and its reply overflows the list buffer. -/
theorem reply_overflow : ¬ ∀ (current : CurrentValues) (datagram stale : List UInt8)
    (request : RequestRx), datagram.length ≤ 1024 → (recvData datagram stale).length = 2048 →
      receiveRequest (recvData datagram stale) = .ok (some request) →
      WellFormedReply current request := by
  intro claim
  -- The request is taken apart, and its answer runs over the buffer of the list.
  have parsed : ∃ request, receiveRequest (recvData (descriptionRequest 3) (descriptionRest 3)) =
      .ok (some request) ∧ answer sampleValues request = .error .overflow := ⟨_, rfl, rfl⟩
  obtain ⟨request, accepted, overflow⟩ := parsed
  obtain ⟨reply, message, ran, _⟩ := claim sampleValues (descriptionRequest 3)
    (descriptionRest 3) request (by decide)
    (by
      have size : (descriptionRequest 3).length = 68 := by decide
      simp only [recvData, descriptionRest, List.length_append, List.length_cons,
        List.length_replicate, size]) accepted
  rw [overflow] at ran
  cases ran

end OpenwrtMisc.SnmpAgent
