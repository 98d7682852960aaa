import OpenwrtMisc.SnmpAgent.Parse
import OpenwrtMisc.SnmpAgent.Wire

/-! Which datagrams are taken apart without leaving them, and rejected when they do not parse. -/

namespace OpenwrtMisc.SnmpAgent

/-- A message of the first version by the encoding rules, with a PDU of a known type. -/
def WellFormedRequest (datagram : List UInt8) : Prop :=
  ∃ message, readMessage datagram = some message ∧ Ber.bigEndian message.version = 0 ∧
    message.pduTag ∈ pduTypes

/-- A run stays in its buffers, follows no null pointer and ends; what does not parse is refused. -/
def RequestSafe (datagram : List UInt8) : Prop :=
  ∃ outcome, receiveRequest datagram = .ok outcome ∧
    (¬ WellFormedRequest datagram → outcome = none)

/-- A datagram whose fields are complete up to where the message or the PDU is rejected. -/
def Rejected (datagram : List UInt8) : Prop := RequestLayout datagram none

/-- A datagram whose message, PDU and list have all their fields complete. -/
def Complete (datagram : List UInt8) : Prop := ∃ request, RequestLayout datagram (some request)

/-- The layout of a datagram has one outcome. -/
theorem RequestLayout.unique {datagram : List UInt8} {first second : Option RequestRx}
    (one : RequestLayout datagram first) (other : RequestLayout datagram second) :
    first = second := by
  -- Each outcome is the one that the receiver returns.
  have ran := receiveRequest_eq_ok.mpr one
  rw [receiveRequest_eq_ok.mpr other] at ran
  cases ran
  rfl

/-- A datagram is handled safely exactly when it is rejected, or complete and well formed. -/
theorem requestSafe_iff (datagram : List UInt8) :
    RequestSafe datagram ↔
      Rejected datagram ∨ (Complete datagram ∧ WellFormedRequest datagram) := by
  -- Each way the layout that the parsing follows is compared with the grammar.
  constructor
  · intro given
    rcases given with ⟨outcome, ran, strict⟩
    -- A datagram that is taken apart is complete, and one that is malformed may not be.
    have layout := receiveRequest_eq_ok.mp ran
    cases outcome with
    | none => exact .inl layout
    | some request =>
      refine .inr ⟨⟨request, layout⟩, ?_⟩
      by_contra malformed
      cases strict malformed
  · intro given
    rcases given with rejected | ⟨⟨request, layout⟩, formed⟩
    · exact ⟨none, receiveRequest_eq_ok.mpr rejected, fun _ => rfl⟩
    · exact ⟨some request, receiveRequest_eq_ok.mpr layout, fun malformed =>
        absurd formed malformed⟩

/-- A datagram that does not start with a SEQUENCE leads to a null message that is followed. -/
theorem requestSafe_violated :
    ¬ ∀ datagram : List UInt8, datagram.length ≤ 1024 → RequestSafe datagram := by
  -- One byte is enough, which is not the tag of a SEQUENCE.
  intro claim
  obtain ⟨outcome, ran, _⟩ := claim [0x00] (by decide)
  have fault : receiveRequest [0x00] = .error .nullPointer := rfl
  rw [fault] at ran
  cases ran

/-- An INTEGER is complete whatever comes behind it. -/
theorem IntegerField.append {bytes rest : List UInt8} {value : BitVec 32}
    (field : IntegerField bytes value rest) (extra : List UInt8) :
    IntegerField (bytes ++ extra) value (rest ++ extra) := by
  -- The bytes of the number are counted in front.
  cases field with
  | @sized width content rest known size =>
    rw [List.cons_append, List.append_assoc]
    exact .sized _ known size
  | other rest unknown => exact .other _ unknown

/-- An OCTET STRING is complete whatever comes behind it. -/
theorem StringField.append {bytes content rest : List UInt8}
    (field : StringField bytes content rest) (extra : List UInt8) :
    StringField (bytes ++ extra) content (rest ++ extra) := by
  -- The bytes of the string are counted in front.
  obtain ⟨rest, size⟩ := field
  rw [List.cons_append, List.append_assoc]
  exact .sized _ size

/-- A length is complete whatever comes behind it. -/
theorem LengthField.append {bytes rest : List UInt8} {length : BitVec 32}
    (field : LengthField bytes length rest) (extra : List UInt8) :
    LengthField (bytes ++ extra) length (rest ++ extra) := by
  -- A short length is one byte, a long one counts its own.
  cases field with
  | short rest low => exact .short _ low
  | @long first content rest high size =>
    rw [List.cons_append, List.append_assoc]
    exact .long _ high size

/-- An optional field is complete whatever comes behind it when the field is. -/
theorem OptionalField.append {α : Type} {tag : UInt8} {field : List UInt8 → α → List UInt8 → Prop}
    {absent value : α} {bytes rest : List UInt8} {extra : List UInt8}
    (optional : OptionalField tag field absent bytes value rest)
    (complete : ∀ {bytes value rest}, field bytes value rest →
      field (bytes ++ extra) value (rest ++ extra)) :
    OptionalField tag field absent (bytes ++ extra) value (rest ++ extra) := by
  -- The field is there, or another tag is.
  cases optional with
  | present here => exact .present (complete here)
  | missing bytes differs => exact .missing _ differs

/-- An element is copied whatever comes behind it. -/
theorem CopiedField.append {tags bytes : List UInt8} {block : Option (List UInt8)} {size : Nat}
    (field : CopiedField tags bytes block size) (extra : List UInt8) :
    CopiedField tags (bytes ++ extra) block size := by
  -- The element is there and counts its bytes, or another tag is.
  cases field with
  | @present tag length content rest here count =>
    rw [List.cons_append, List.cons_append, List.append_assoc]
    exact .present _ here count
  | missing bytes differs => exact .missing _ differs

/-- A message is taken apart alike whatever comes behind it. -/
theorem MessageLayout.append {received : List UInt8} {outcome : Option SnmpMessageRx}
    (layout : MessageLayout received outcome) (extra : List UInt8) :
    MessageLayout (received ++ extra) outcome := by
  -- Each field in turn is complete whatever comes behind it.
  obtain ⟨lengthField, versionField, communityField, pduField⟩ := layout
  refine .fields (lengthField.append extra) (versionField.append ?_) (communityField.append ?_)
    (pduField.append extra)
  · rintro _ _ _ ⟨field⟩
    exact .integer (field.append extra)
  · rintro _ _ _ ⟨field⟩
    exact .string (field.append extra)

/-- A datagram that is handled safely is taken apart alike from the receive buffer it came in. -/
theorem receiveRequest_recvBuffer {datagram : List UInt8} {outcome : Option RequestRx}
    (ran : receiveRequest datagram = .ok outcome) (stale : List UInt8) :
    receiveRequest (datagram ++ stale) = .ok outcome := by
  refine receiveRequest_eq_ok.mpr ?_
  -- Only the message is read from the receive buffer; the rest comes from copies.
  cases receiveRequest_eq_ok.mp ran with
  | noMessage message => exact .noMessage (message.append stale)
  | noPdu first present second => exact .noPdu (first.append stale) present second
  | complete first present second bound third =>
    exact .complete (first.append stale) present second bound third

end OpenwrtMisc.SnmpAgent
