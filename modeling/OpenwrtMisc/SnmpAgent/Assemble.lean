import OpenwrtMisc.SnmpAgent.Encode

/-! The list, the PDU and the message are assembled exactly when they fit their scratch buffers. -/

namespace OpenwrtMisc.SnmpAgent

open Ber

/-- The list buffer with its header place at an index. -/
def listBuffer (buffer : Nat → UInt8) (lenPointer : Nat) : ListBuffer :=
  ⟨buffer, lenPointer + 2, lenPointer⟩

/-- The names and values of two field writes and the header before them are one write. -/
theorem patch_binding (buffer : Nat → UInt8) (start : Nat) (binding : Binding) :
    patch start [0x30, UInt8.ofNat binding.content.length]
        (patch (start + 2 + (binding.oid.length + 2))
          (element binding.value.tag binding.value.content)
          (patch (start + 2) (element 0x06 binding.oid) buffer)) =
      patch start (element 0x30 binding.content) buffer := by
  -- The two fields are one write, and the header is in front of them.
  have fields := patch_append (start + 2) (element 0x06 binding.oid)
    (element binding.value.tag binding.value.content) buffer
  rw [length_element] at fields
  rw [fields]
  exact patch_prepend start [0x30, UInt8.ofNat binding.content.length] binding.content buffer

/-- A binding that is written is put into the list exactly when it can be encoded and fits. -/
theorem putVarbind_eq_ok {varbind : Varbind} {buffer : Nat → UInt8} {start : Nat}
    {next : ListBuffer} (stored : varbind.Storable) (written : varbind.dataType ∈ writtenTypes) :
    putVarbind (listBuffer buffer start) varbind = .ok next ↔
      varbind.Encodable ∧ start + (varbind.binding.content.length + 2) ≤ listBufferSize ∧
        next = listBuffer (patch start (element 0x30 varbind.binding.content) buffer)
          (start + (varbind.binding.content.length + 2)) := by
  -- The name and the value are put behind the room for the header, which is stored last.
  have size : varbind.binding.content.length =
      (oidContent varbind.oid).length + 2 + (varbind.tlv.content.length + 2) := by
    rw [Binding.content, List.length_append, length_element, length_element]
    rfl
  -- The length byte counts what the two fields take, and the next header comes behind them.
  have counted : start + 2 + ((oidContent varbind.oid).length + 2) +
      (varbind.tlv.content.length + 2) + 2 - start - 4 = varbind.binding.content.length := by
    omega
  have behind : start + 2 + ((oidContent varbind.oid).length + 2) +
      (varbind.tlv.content.length + 2) = start + (varbind.binding.content.length + 2) := by
    omega
  have assembled : (⟨patch start [0x30, UInt8.ofNat (start + 2 + ((oidContent varbind.oid).length +
        2) + (varbind.tlv.content.length + 2) + 2 - start - 4)]
        (patch (start + 2 + ((oidContent varbind.oid).length + 2))
          (element varbind.tlv.tag varbind.tlv.content)
          (patch (start + 2) (element 0x06 (oidContent varbind.oid)) buffer)),
      start + 2 + ((oidContent varbind.oid).length + 2) + (varbind.tlv.content.length + 2) + 2,
      start + 2 + ((oidContent varbind.oid).length + 2) + (varbind.tlv.content.length + 2) + 2 -
        2⟩ : ListBuffer) =
      listBuffer (patch start (element 0x30 varbind.binding.content) buffer)
        (start + (varbind.binding.content.length + 2)) := by
    rw [counted, behind, ← patch_binding buffer start varbind.binding]
    rfl
  -- The three stores succeed in their order exactly when the last of them is inside the buffer.
  unfold putVarbind listBuffer
  rw [if_pos written, bind_eq_ok]
  constructor
  · intro given
    rcases given with ⟨oid, named, ran⟩
    obtain ⟨name, rfl⟩ := encodeOid_eq_ok.mp named
    obtain ⟨_, ran⟩ := (putField_bind_eq_ok (stored.nameSize name)).mp ran
    obtain ⟨data, valued, ran⟩ := bind_eq_ok.mp ran
    obtain ⟨value, rfl⟩ := (encodeValue_eq_ok stored written).mp valued
    obtain ⟨inside, ran⟩ := (putField_bind_eq_ok (stored.valueSize value)).mp ran
    obtain ⟨_, ran⟩ := store_bind_eq_ok.mp ran
    cases ran
    dsimp only at inside
    exact ⟨⟨name, value⟩, by omega, assembled⟩
  · intro given
    rcases given with ⟨⟨name, value⟩, inside, rfl⟩
    refine ⟨_, encodeOid_eq_ok.mpr ⟨name, rfl⟩, ?_⟩
    refine (putField_bind_eq_ok (stored.nameSize name)).mpr
      ⟨by dsimp only; omega, ?_⟩
    refine bind_eq_ok.mpr ⟨_, (encodeValue_eq_ok stored written).mpr ⟨value, rfl⟩, ?_⟩
    refine (putField_bind_eq_ok (stored.valueSize value)).mpr ⟨by dsimp only; omega, ?_⟩
    refine store_bind_eq_ok.mpr ⟨show start + 2 ≤ listBufferSize by omega, ?_⟩
    exact congrArg Except.ok assembled

/-- The content of a list that begins with a binding that is written. -/
theorem listContent_cons_written {varbind : Varbind} (rest : List Varbind)
    (written : varbind.dataType ∈ writtenTypes) :
    listContent (varbind :: rest) = element 0x30 varbind.binding.content ++ listContent rest := by
  simp [listContent, bindings, written]

/-- A binding of an unknown type leaves no trace in the list. -/
theorem listContent_cons_unwritten {varbind : Varbind} (rest : List Varbind)
    (unwritten : varbind.dataType ∉ writtenTypes) :
    listContent (varbind :: rest) = listContent rest := by
  simp [listContent, bindings, unwritten]

/-- The bindings are put into the list exactly when they can be encoded and fit. -/
theorem putVarbinds_eq_ok {final : ListBuffer} :
    ∀ (varbinds : List Varbind) (buffer : Nat → UInt8) (start : Nat),
      (∀ varbind ∈ varbinds, varbind.Storable) → start ≤ listBufferSize →
      (putVarbinds (listBuffer buffer start) varbinds = .ok final ↔
        AllEncodable varbinds ∧ start + (listContent varbinds).length ≤ listBufferSize ∧
          final = listBuffer (patch start (listContent varbinds) buffer)
            (start + (listContent varbinds).length)) := by
  -- Along the list, what was written so far is one write from the start.
  intro varbinds
  induction varbinds with
  | nil =>
    intro buffer start _ inside
    have empty : listContent [] = [] := rfl
    rw [putVarbinds, Except.ok.injEq, empty, patch_nil]
    exact ⟨fun same => ⟨nofun, inside, same.symm⟩, fun all => all.2.2.symm⟩
  | cons varbind rest ih =>
    intro buffer start stored inside
    have storedRest : ∀ other ∈ rest, other.Storable :=
      fun other later => stored other (List.mem_cons_of_mem _ later)
    rw [putVarbinds, bind_eq_ok]
    by_cases written : varbind.dataType ∈ writtenTypes
    · -- The first binding and the rest are written behind each other, as one content.
      have one := patch_append start (element 0x30 varbind.binding.content)
        (listContent rest) buffer
      have sum : start + (varbind.binding.content.length + 2 + (listContent rest).length) =
          start + (varbind.binding.content.length + 2) + (listContent rest).length := by omega
      rw [length_element] at one
      rw [listContent_cons_written rest written, List.length_append, length_element, ← one, sum]
      constructor
      · intro given
        rcases given with ⟨next, step, ran⟩
        obtain ⟨encodable, fits, rfl⟩ :=
          (putVarbind_eq_ok (stored varbind List.mem_cons_self) written).mp step
        obtain ⟨others, all, rfl⟩ := (ih _ _ storedRest fits).mp ran
        refine ⟨fun other member known => ?_, all, rfl⟩
        rcases List.mem_cons.mp member with rfl | later
        · exact encodable
        · exact others other later known
      · intro given
        rcases given with ⟨all, fits, rfl⟩
        refine ⟨_, (putVarbind_eq_ok (stored varbind List.mem_cons_self) written).mpr
          ⟨all varbind List.mem_cons_self written, by omega, rfl⟩, ?_⟩
        exact (ih _ _ storedRest (by omega)).mpr
          ⟨fun other later => all other (List.mem_cons_of_mem _ later), fits, rfl⟩
    · -- A type that is not known is passed over.
      rw [listContent_cons_unwritten rest written]
      have step : putVarbind (listBuffer buffer start) varbind = .ok (listBuffer buffer start) := by
        rw [putVarbind, if_neg written]
        rfl
      have encodable : AllEncodable (varbind :: rest) ↔ AllEncodable rest := by
        constructor
        · exact fun all other later => all other (List.mem_cons_of_mem _ later)
        · intro others other member known
          rcases List.mem_cons.mp member with rfl | later
          · exact absurd known written
          · exact others other later known
      rw [encodable, ← ih _ _ storedRest inside]
      constructor
      · intro given
        rcases given with ⟨next, same, ran⟩
        rw [step] at same
        cases same
        exact ran
      · exact fun ran => ⟨_, step, ran⟩

/-- A body behind a header of two bytes is loaded from a buffer as one list. -/
theorem load_patch {size : Nat} {header body data : List UInt8} {memory : Nat → UInt8}
    (two : header.length = 2) :
    load size 0 (2 + body.length) (patch 0 header (patch 2 body memory)) = .ok data ↔
      2 + body.length ≤ size ∧ header ++ body = data := by
  -- The header and the body are one write, of which all is loaded.
  rw [load_eq_ok]
  have one := patch_prepend 0 header body memory
  rw [Nat.zero_add, two] at one
  have count : 2 + body.length = (header ++ body).length := by
    rw [List.length_append, two]
  rw [one, count, window_patch_same, Nat.zero_add]

/-- The list is built exactly when its bindings can be encoded and fit its buffer. -/
theorem createVarbindListTx_eq_ok {varbinds : List Varbind} {list : List UInt8}
    (stored : ∀ varbind ∈ varbinds, varbind.Storable) :
    createVarbindListTx varbinds = .ok list ↔
      AllEncodable varbinds ∧ 2 + (listContent varbinds).length ≤ listBufferSize ∧
        list = element 0x30 (listContent varbinds) := by
  unfold createVarbindListTx
  rw [bind_eq_ok]
  -- The list begins behind its own header, with the header of the first binding.
  have start : (⟨zeroed, 4, 2⟩ : ListBuffer) = listBuffer zeroed 2 := rfl
  rw [start]
  have counted : 2 + (listContent varbinds).length + 2 - 4 = (listContent varbinds).length := by
    omega
  have taken : 2 + (listContent varbinds).length + 2 - 2 = 2 + (listContent varbinds).length := by
    omega
  constructor
  · intro given
    rcases given with ⟨final, ran, rest⟩
    obtain ⟨all, fits, rfl⟩ := (putVarbinds_eq_ok _ _ _ stored (by decide)).mp ran
    obtain ⟨_, rest⟩ := store_bind_eq_ok.mp rest
    simp only [listBuffer, counted, taken] at rest
    obtain ⟨_, rfl⟩ := (load_patch (by rfl)).mp rest
    exact ⟨all, fits, rfl⟩
  · intro given
    rcases given with ⟨all, fits, rfl⟩
    refine ⟨_, (putVarbinds_eq_ok _ _ _ stored (by decide)).mpr ⟨all, fits, rfl⟩, ?_⟩
    refine store_bind_eq_ok.mpr ⟨show 0 + 2 ≤ listBufferSize by decide, ?_⟩
    simp only [listBuffer, counted, taken]
    exact (load_patch (by rfl)).mpr ⟨fits, rfl⟩

/-- What is written behind an element is written together with it. -/
theorem patch_element (start : Nat) (tag : UInt8) (content rest : List UInt8)
    (buffer : Nat → UInt8) :
    patch (start + (content.length + 2)) rest (patch start (element tag content) buffer) =
      patch start (element tag content ++ rest) buffer :=
  patch_append start (element tag content) rest buffer

/-- A finished element is loaded from its buffer when its body was counted into its length. -/
theorem load_element {size total : Nat} {tag : UInt8} {body data : List UInt8}
    {memory : Nat → UInt8} (count : total = 2 + body.length) :
    load size 0 total (patch 0 [tag, UInt8.ofNat (total - 2)] (patch 2 body memory)) = .ok data ↔
      2 + body.length ≤ size ∧ data = element tag body := by
  -- The length byte counts the body.
  have length : 2 + body.length - 2 = body.length := by omega
  rw [count, length, load_patch (by rfl)]
  exact and_congr_right fun _ => eq_comm

/-- The content of the PDU around a list. -/
def pduContent (requestId : BitVec 32) (error errorIndex : UInt8) (list : List UInt8) :
    List UInt8 :=
  element 0x02 (wordBytes requestId) ++
    (element 0x02 (integerContent (BitVec.ofNat 32 error.toNat)) ++
      (element 0x02 (integerContent (BitVec.ofNat 32 errorIndex.toNat)) ++ list))

/-- The PDU is built exactly when it fits its buffer. -/
theorem createSnmpPduTx_eq_ok {pduType : UInt8} {requestId : BitVec 32} {error errorIndex : UInt8}
    {list pdu : List UInt8} :
    createSnmpPduTx pduType requestId error errorIndex list = .ok pdu ↔
      2 + (pduContent requestId error errorIndex list).length ≤ pduBufferSize ∧
        pdu = element pduType (pduContent requestId error errorIndex list) := by
  -- No field is longer than its length byte says, so the pointer moves by what was put.
  have small : ∀ value : BitVec 32, (integerContent value).length < 256 :=
    fun value => Nat.lt_of_le_of_lt (length_integerContent value) (by decide)
  have full : (wordBytes requestId).length < 256 := by simp [wordBytes]
  -- The pointer behind the last field has counted the content and the header.
  have total : 2 + ((wordBytes requestId).length + 2) +
      ((integerContent (BitVec.ofNat 32 error.toNat)).length + 2) +
      ((integerContent (BitVec.ofNat 32 errorIndex.toNat)).length + 2) + list.length =
      2 + (pduContent requestId error errorIndex list).length := by
    simp only [pduContent, List.length_append, length_element]
    omega
  unfold createSnmpPduTx
  rw [encodeIntegerByLength_eq, encodeInteger_eq, encodeInteger_eq, putField_bind_eq_ok full]
  -- Three numbers and the list are put behind each other, and the header before them.
  simp only [putField_bind_eq_ok (small _), store_bind_eq_ok]
  have body : element 0x02 (wordBytes requestId) ++
      (element 0x02 (integerContent (BitVec.ofNat 32 error.toNat)) ++
        (element 0x02 (integerContent (BitVec.ofNat 32 errorIndex.toNat)) ++ list)) =
      pduContent requestId error errorIndex list := rfl
  rw [patch_element _ _ _ list, patch_element _ _ _ (_ ++ list),
    patch_element _ _ _ (_ ++ (_ ++ list)), body, load_element total]
  constructor
  · intro given
    rcases given with ⟨_, _, _, _, _, inside, same⟩
    exact ⟨inside, same⟩
  · intro given
    rcases given with ⟨inside, same⟩
    refine ⟨?_, ?_, ?_, ?_, show 0 + 2 ≤ pduBufferSize by decide, inside, same⟩
    all_goals omega

/-- The content of the message around a PDU. -/
def messageContent (community snmpPdu : List UInt8) : List UInt8 :=
  element 0x02 [0x00] ++ (element 0x04 (cString community) ++ snmpPdu)

/-- The message is built exactly when there is a community and it fits its buffer. -/
theorem createSnmpMessageTx_eq_ok {community : Option (List UInt8)} {snmpPdu reply : List UInt8}
    (short : ∀ text, community = some text → text.length < 256) :
    createSnmpMessageTx community snmpPdu = .ok reply ↔
      ∃ text, community = some text ∧
        2 + (messageContent text snmpPdu).length ≤ messageBufferSize ∧
        reply = element 0x30 (messageContent text snmpPdu) := by
  -- The version and the community are put before the PDU, with the header in front.
  have zero : encodeInteger 0 = element 0x02 [0x00] := rfl
  have single : ([0x00] : List UInt8).length = 1 := rfl
  unfold createSnmpMessageTx
  rw [zero, putField_bind_eq_ok (by rw [single]; decide), single]
  cases community with
  | none =>
    simp [follow, Bind.bind, Except.bind]
  | some text =>
    -- The community is written up to its first zero, so it is not longer than it was.
    have fits : (cString text).length < 256 :=
      Nat.lt_of_le_of_lt (length_cString_le text) (short text rfl)
    have total : 2 + (1 + 2) + ((cString text).length + 2) + snmpPdu.length =
        2 + (messageContent text snmpPdu).length := by
      simp only [messageContent, List.length_append, length_element, List.length_singleton]
      omega
    have found : follow (some text) = .ok text := rfl
    simp only [found, encodeString_eq, Option.some.injEq, exists_eq_left']
    show _ ∧ (putField messageBufferSize _ _ (element 0x04 (cString text)) >>= _) = _ ↔ _
    simp only [putField_bind_eq_ok fits, store_bind_eq_ok]
    have body : element 0x02 [0x00] ++ (element 0x04 (cString text) ++ snmpPdu) =
        messageContent text snmpPdu := rfl
    have first := patch_element 2 0x02 [0x00] (element 0x04 (cString text) ++ snmpPdu) zeroed
    rw [single] at first
    rw [patch_element _ _ _ snmpPdu, first, body, load_element total]
    constructor
    · intro given
      rcases given with ⟨_, _, _, _, inside, same⟩
      exact ⟨inside, same⟩
    · intro given
      rcases given with ⟨inside, same⟩
      refine ⟨?_, ?_, ?_, show 0 + 2 ≤ messageBufferSize by decide, inside, same⟩
      all_goals omega

end OpenwrtMisc.SnmpAgent
