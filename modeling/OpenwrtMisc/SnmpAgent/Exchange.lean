import OpenwrtMisc.SnmpAgent.Numbers
import OpenwrtMisc.SnmpAgent.Reply
import OpenwrtMisc.SnmpAgent.Request

/-! A request and its reply: every object is answered in its place with its current value. -/

namespace OpenwrtMisc.SnmpAgent

open Ber

/-- The current value of a served object. -/
inductive Object
  /-- A text. -/
  | octets (bytes : List UInt8)
  /-- A number with a sign. -/
  | integer (value : BitVec 32)
  /-- A time in hundredths of a second. -/
  | timeticks (value : BitVec 32)

/-- The element of a binding has the type of an object and denotes its value. -/
def Object.CarriedBy : Object → Tlv → Prop
  | .octets bytes, item => item = ⟨0x04, bytes⟩
  | .integer value, item => item.tag = 0x02 ∧ twosComplement item.content = value.toInt
  | .timeticks value, item =>
    item.tag = 0x43 ∧ item.content.length = 4 ∧ bigEndian item.content = value.toNat

/-- The served objects by their subidentifiers behind 1.3. -/
def objectTable (current : CurrentValues) (i : Nat) : List (List Nat × Object) :=
  [([6, 1, 2, 1, 1, 1, 0], .octets description),
    ([6, 1, 2, 1, 1, 3, 0], .timeticks (current.timeticks i)),
    ([6, 1, 4, 1, 39241, 1, 1, 0], .octets masterName),
    ([6, 1, 4, 1, 39241, 1, 2, 0], .octets masterLocation),
    ([6, 1, 4, 1, 39241, 1, 3, 0], .integer numberOfAgents),
    ([6, 1, 4, 1, 39241, 1, 8, 0], .integer current.counterTarif0),
    ([6, 1, 4, 1, 39241, 1, 8, 1], .integer current.counterTarif1),
    ([6, 1, 4, 1, 39241, 1, 8, 2], .integer current.counterTarif2),
    ([6, 1, 4, 1, 39241, 16, 7, 0], .integer current.pmeter)]

/-- The object that subidentifiers name, if it is served. -/
def servedObject (current : CurrentValues) (i : Nat) (oid : List Nat) : Option Object :=
  ((objectTable current i).find? fun entry => entry.1 = oid).map Prod.snd

/-- A binding of a reply answers for an object: its name, and its value or a NULL. -/
structure Answers (current : CurrentValues) (i : Nat) (oid : List Nat) (binding : Binding) :
    Prop where
  /-- The name has the subidentifiers that were asked for, if a leading group may be empty. -/
  name : subidentifiers none binding.oid = some (43 :: oid)
  /-- The name has the bytes that were asked for when no subidentifier is above the threshold. -/
  octets : (∀ arc ∈ oid, arc < 2 ^ 17) → binding.oid = oidOctets oid
  /-- A served object is answered with its current value. -/
  value : ∀ object, servedObject current i oid = some object → object.CarriedBy binding.value
  /-- Any other object is answered with a NULL. -/
  null : servedObject current i oid = none → binding.value = ⟨0x05, []⟩

/-- The length of the content of the reply to a request. -/
def expectedLength (current : CurrentValues) (request : GetRequest) : Nat :=
  replyLength request.community (answered current 0 (request.oids.map nullVarbind))

/-- What a request is answered with, as a manager reads it. -/
structure Exchange (current : CurrentValues) (request : GetRequest) (stale community : List UInt8)
    (rx : RequestRx) (reply : List UInt8) (message : Message) : Prop where
  /-- The request is accepted. -/
  received : receiveRequest (recvData request.message.bytes stale) = .ok (some rx)
  /-- The reply is built. -/
  built : answer current rx = .ok reply
  /-- The agent sends that reply when it was asked for anything. -/
  sent : request.oids ≠ [] →
    snmpAgent current (recvData request.message.bytes stale) = .ok (some reply)
  /-- The reply is a message by the encoding rules. -/
  read : readMessage reply = some message
  /-- It is a response of the first version without an error. -/
  response : message.version = [0x00] ∧ message.pduTag = 0xa2 ∧ message.errorStatus = [0x00] ∧
    message.errorIndex = [0x00]
  /-- Its request id is the one that was asked with, read without a sign. -/
  requestId : bigEndian message.requestId = bigEndian request.requestId
  /-- It has the community. -/
  community : message.community = community
  /-- It has one answer for each object, in the order of the request. -/
  bindings : List.Forall₂ (fun (asked : List Nat × Nat) binding =>
    Answers current asked.2 asked.1 binding) request.oids.zipIdx message.bindings

/-- The entry that an object is served from. -/
def Object.served (oid : List Nat) : Object → Served
  | .octets bytes => ⟨oidText oid, 0x04, .string bytes⟩
  | .integer value => ⟨oidText oid, 0x02, .word value⟩
  | .timeticks value => ⟨oidText oid, 0x43, .word value⟩

/-- The table of the agent has the texts of the names of the objects. -/
theorem servedTable_eq (current : CurrentValues) (i : Nat) :
    servedTable current i = (objectTable current i).map fun entry => entry.2.served entry.1 := rfl

/-- An object is found in the table of the agent by its text. -/
theorem find?_servedTable (current : CurrentValues) (i : Nat) (oid : List Nat) :
    (servedTable current i).find? (fun served => served.oid = oidText oid) =
      (servedObject current i oid).map (Object.served oid) := by
  -- Both tables are searched in the same order, by texts in one and by numbers in the other.
  have named : ∀ entry : List Nat × Object, (entry.2.served entry.1).oid = oidText entry.1 := by
    intro given
    rcases given with ⟨arcs, object⟩
    cases object <;> rfl
  rw [servedTable_eq, List.find?_map, servedObject, Option.map_map]
  -- Different subidentifiers have different texts, so the same entry is found.
  have same : ((fun served : Served => decide (served.oid = oidText oid)) ∘
      fun entry : List Nat × Object => entry.2.served entry.1) =
      fun entry : List Nat × Object => decide (entry.1 = oid) := by
    funext entry
    simp only [Function.comp_apply, named, oidText_injective.eq_iff]
  rw [same]
  cases found : (objectTable current i).find? fun entry => entry.1 = oid with
  | none => rfl
  | some entry =>
    have equal : entry.1 = oid := by simpa using List.find?_some found
    rw [Option.map_some, Option.map_some, Function.comp_apply, equal]

/-- A binding that asks for a served object takes its type and value. -/
theorem answerFrom_served {current : CurrentValues} {i : Nat} {oid : List Nat} {object : Object}
    (served : servedObject current i oid = some object) :
    answerFrom (servedTable current i) (nullVarbind oid) =
      ⟨oidText oid, (object.served oid).dataType, (object.served oid).value⟩ := by
  -- The entry of the table is the one of the object.
  have found := find?_servedTable current i oid
  rw [served] at found
  have name : (nullVarbind oid).oid = oidText oid := rfl
  rw [answerFrom, name, found]
  rfl

/-- A binding that asks for any other object is kept. -/
theorem answerFrom_unserved {current : CurrentValues} {i : Nat} {oid : List Nat}
    (unserved : servedObject current i oid = none) :
    answerFrom (servedTable current i) (nullVarbind oid) = nullVarbind oid := by
  -- No entry of the table has this name.
  have found := find?_servedTable current i oid
  rw [unserved] at found
  have name : (nullVarbind oid).oid = oidText oid := rfl
  rw [answerFrom, name, found]
  rfl

/-- The answer to a binding that asks for an object is written, and has no OID as its value. -/
theorem answerFrom_written (current : CurrentValues) (i : Nat) (oid : List Nat) :
    (answerFrom (servedTable current i) (nullVarbind oid)).dataType ∈ writtenTypes ∧
      (answerFrom (servedTable current i) (nullVarbind oid)).dataType ≠ primvObjid := by
  -- What is not served stays null, and what is served is of one of the three written types.
  cases served : servedObject current i oid with
  | none =>
    rw [answerFrom_unserved served]
    exact (show primvNull ∈ writtenTypes ∧ primvNull ≠ primvObjid by decide)
  | some object =>
    rw [answerFrom_served served]
    cases object with
    | octets => exact (show primvOctstr ∈ writtenTypes ∧ primvOctstr ≠ primvObjid by decide)
    | integer => exact (show primvInt ∈ writtenTypes ∧ primvInt ≠ primvObjid by decide)
    | timeticks => exact (show primvTimtick ∈ writtenTypes ∧ primvTimtick ≠ primvObjid by decide)

/-- A text that is served has no zero inside. -/
theorem servedObject_plain {current : CurrentValues} {i : Nat} {oid : List Nat}
    {bytes : List UInt8} (served : servedObject current i oid = some (.octets bytes)) :
    cString bytes = bytes := by
  -- Texts are cut at their first zero when the table is made.
  have found := find?_servedTable current i oid
  rw [served] at found
  cases servedTable_wellTyped current i _ (List.mem_of_find?_eq_some found) with
  | number value _ stored => cases stored
  | text text _ stored plain _ =>
    cases stored
    exact plain

/-- A binding that asks for an object becomes an answer for it. -/
theorem answers_answerFrom (current : CurrentValues) (i : Nat) {oid : List Nat}
    (small : ∀ arc ∈ oid, arc < 1000000) :
    Answers current i oid (answerFrom (servedTable current i) (nullVarbind oid)).binding := by
  -- Either the table has an entry of that name, or the binding is kept as it came.
  have name : (answerFrom (servedTable current i) (nullVarbind oid)).binding.oid =
      oidContent (oidText oid) := by
    rw [Varbind.binding, answerFrom_oid]
    rfl
  refine ⟨?_, ?_, ?_, ?_⟩
  · -- The first byte is 1.3, and the subidentifiers behind it are read as they were asked for.
    have low : (0x2b : UInt8).toNat < 128 := by decide
    rw [name, oidContent_oidText, subidentifiers_last none low,
      subidentifiers_flatMap fun arc member => Nat.lt_trans (small arc member) (by decide)]
    rfl
  · -- Below the threshold the encoder writes the minimal form, which the manager used.
    intro below
    rw [name, oidContent_eq_octets below]
  · -- The value is the one of the entry, in the form that its type is written in.
    intro object served
    rw [answerFrom_served served]
    cases object with
    | octets bytes =>
      have text : (⟨oidText oid, primvOctstr, .string bytes⟩ : Varbind).tlv =
          ⟨0x04, cString bytes⟩ := rfl
      rw [servedObject_plain served] at text
      exact text
    | integer value => exact ⟨rfl, twosComplement_integerContent value⟩
    | timeticks value => exact ⟨rfl, rfl, bigEndian_wordBytes value⟩
  · intro other
    rw [answerFrom_unserved other]
    rfl

/-- The bindings that ask for objects become answers for them, one for each in their order. -/
theorem bindings_answered (current : CurrentValues) :
    ∀ (oids : List (List Nat)) (i : Nat), (∀ oid ∈ oids, ∀ arc ∈ oid, arc < 1000000) →
      List.Forall₂ (fun (asked : List Nat × Nat) binding =>
        Answers current asked.2 asked.1 binding) (oids.zipIdx i)
          (bindings (answered current i (oids.map nullVarbind))) := by
  -- Induction on the objects that are asked for.
  intro oids
  induction oids with
  | nil => intro _ _; exact .nil
  | cons oid rest ih =>
    intro i small
    -- No answer is left out of the reply, so the bindings stay in step with the request.
    have written := (answerFrom_written current i oid).1
    have first : bindings (answered current i ((oid :: rest).map nullVarbind)) =
        (answerFrom (servedTable current i) (nullVarbind oid)).binding ::
          bindings (answered current (i + 1) (rest.map nullVarbind)) := by
      simp [bindings, answered, written]
    rw [List.zipIdx_cons, first]
    exact .cons (answers_answerFrom current i (small oid List.mem_cons_self))
      (ih (i + 1) fun other later => small other (List.mem_cons_of_mem _ later))

/-- The answers to bindings that ask for objects can be encoded. -/
theorem answered_encodable (current : CurrentValues) :
    ∀ (oids : List (List Nat)) (i : Nat), (∀ oid ∈ oids, ∀ arc ∈ oid, arc < 1000000) →
      AllEncodable (answered current i (oids.map nullVarbind)) := by
  -- Induction on the objects that are asked for.
  intro oids
  induction oids with
  | nil => intro _ _ varbind member; cases member
  | cons oid rest ih =>
    intro i small varbind member known
    -- The answer keeps the name of its binding, which is the text of a small OID.
    rcases List.mem_cons.mp member with rfl | later
    · refine ⟨?_, fun _ objid _ => absurd objid (answerFrom_written current i oid).2⟩
      rw [answerFrom_oid]
      exact encodable_oidText fun arc found =>
        Nat.lt_trans (small oid List.mem_cons_self arc found) (by decide)
    · exact ih (i + 1) (fun other found => small other (List.mem_cons_of_mem _ found))
        varbind later known

/-- A request whose reply fits is answered, with the community up to its first zero. -/
theorem request_exchange (current : CurrentValues) (request : GetRequest) (stale : List UInt8)
    (fits : expectedLength current request ≤ 127) :
    ∃ rx reply message,
      Exchange current request stale (cString request.community) rx reply message := by
  -- What is received is known from the request, and so are the answers and their encoding.
  obtain ⟨rx, accepted, community, requestId, varbinds⟩ := request.received stale
  obtain ⟨typed, short⟩ := received_wellTyped accepted
  have encodable := answered_encodable current request.oids 0 request.arcs
  rw [expectedLength] at fits
  -- A reply that fits a short length has a list that fits the smallest of the three buffers.
  have listFits : 2 + (listContent (answered current 0 rx.varbindList.varbindList)).length ≤
      listBufferSize := by
    rw [replyLength, ← length_listContent] at fits
    rw [varbinds, listBufferSize]
    omega
  have built : answer current rx = .ok _ := (answer_eq_ok typed short).mpr
    ⟨request.community, community, by rw [varbinds]; exact encodable, listFits, rfl⟩
  have read := @readMessage_bytes (replyMessage request.community rx.pdu.requestId
    (answered current 0 rx.varbindList.varbindList)) (by
      rw [length_replyMessage, varbinds]
      omega)
  refine ⟨rx, _, _, accepted, built, ?_, read, ⟨rfl, rfl, rfl, rfl⟩, ?_, rfl, ?_⟩
  · -- The agent looks at the first entry before it answers, and there is one.
    intro asked
    obtain ⟨first, rest, list⟩ := List.exists_cons_of_ne_nil asked
    have entry : firstEntry rx.varbindList.varbindList = .ok (nullVarbind first) := by
      rw [varbinds, list]
      rfl
    exact bind_eq_ok.mpr ⟨some rx, accepted, bind_eq_ok.mpr ⟨_, entry,
      bind_eq_ok.mpr ⟨_, rfl, bind_eq_ok.mpr ⟨_, built, rfl⟩⟩⟩⟩
  · -- The id comes back in four bytes, however many it had, and so as the same number.
    have number := request.numbers request.requestId List.mem_cons_self
    rw [replyMessage, bigEndian_wordBytes, requestId, toNat_shiftedWord number.2]
  · have answers := bindings_answered current request.oids 0 request.arcs
    rw [← varbinds] at answers
    exact answers

/-- A request for the description, the start of the agent and an object that is not served. -/
def sampleRequest : GetRequest where
  community := ascii "public"
  requestId := [0x12, 0x34]
  errorStatus := [0x00]
  errorIndex := [0x00]
  oids := [[6, 1, 2, 1, 1, 3, 0], [6, 1, 4, 1, 39241, 1, 8, 0], [6, 1, 300000]]
  numbers := by decide
  arcs := by decide
  texts := by decide
  short := by decide

/-- A request for a time, a counter and an object that is not served is answered. -/
theorem request_exchange_sample : expectedLength sampleValues sampleRequest ≤ 127 ∧
    ∃ rx reply message,
      Exchange sampleValues sampleRequest [] (cString sampleRequest.community) rx reply message :=
  have fits : expectedLength sampleValues sampleRequest ≤ 127 := by decide
  ⟨fits, request_exchange sampleValues sampleRequest [] fits⟩

/-- A request with a community of three bytes, of which the second is zero. -/
def zeroRequest : GetRequest where
  community := [0x70, 0x00, 0x71]
  requestId := [0x01]
  errorStatus := [0x00]
  errorIndex := [0x00]
  oids := [[6, 1, 2, 1, 1, 1, 0]]
  numbers := by decide
  arcs := by decide
  texts := by decide
  short := by decide

/-- A community with a zero inside does not come back as it was sent. -/
theorem request_exchange_zero : ¬ ∀ (current : CurrentValues) (request : GetRequest)
    (stale : List UInt8), expectedLength current request ≤ 127 →
      ∃ rx reply message, Exchange current request stale request.community rx reply message := by
  -- The reply of the run is computed, and its community is compared with the one that was sent.
  intro claim
  have fits : expectedLength sampleValues zeroRequest ≤ 127 := by decide
  obtain ⟨rx, reply, message, exchange⟩ := claim sampleValues zeroRequest [] fits
  -- The exchange is computed up to the community that a manager would read.
  have run : ∃ rx reply message,
      receiveRequest (recvData zeroRequest.message.bytes []) = .ok (some rx) ∧
        answer sampleValues rx = .ok reply ∧ readMessage reply = some message ∧
          message.community = [0x70] := ⟨_, _, _, rfl, rfl, rfl, rfl⟩
  obtain ⟨received, sent, answered, accepted, built, read, cut⟩ := run
  -- The run is the one that the exchange is about, so its community is the one that was cut.
  obtain rfl : rx = received := by
    have same := exchange.received.symm.trans accepted
    simpa using same
  obtain rfl : reply = sent := by
    have same := exchange.built.symm.trans built
    simpa using same
  obtain rfl : message = answered := by
    have same := exchange.read.symm.trans read
    simpa using same
  have whole := exchange.community
  rw [cut] at whole
  exact absurd whole (by decide)

end OpenwrtMisc.SnmpAgent
