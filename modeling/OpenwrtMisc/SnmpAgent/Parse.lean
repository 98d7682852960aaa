import OpenwrtMisc.SnmpAgent.Decode

/-! A datagram is taken apart exactly when its message, PDU and list have their layouts. -/

namespace OpenwrtMisc.SnmpAgent

/-- The name of an element is decoded exactly from its layout. -/
theorem decodeName_yields {array : List UInt8} {pointer : Nat} {varbinds named : List Varbind}
    {rest : List UInt8} :
    Yields array (decodeName array pointer varbinds) named rest ↔
      NameField varbinds (array.drop pointer) named rest := by
  -- The tag is read first, and the name is left where it is when the tag is another one.
  unfold decodeName
  rw [yields_bind]
  constructor
  · intro given
    rcases given with ⟨tag, read, yields⟩
    obtain ⟨tail, here⟩ := readByte_eq_ok.mp read
    rw [here]
    split at yields
    · rename_i same
      subst same
      obtain ⟨⟨oid, behind⟩, ran, yields⟩ := yields_bind.mp yields
      obtain ⟨rfl, left⟩ := yields_ok.mp yields
      refine .present ?_
      rw [← drop_succ_of_cons here]
      exact decodeOid_yields.mp ⟨behind, ran, left⟩
    · -- An element without a name keeps the list as it is, and reads the value at once.
      rename_i differs
      obtain ⟨rfl, rfl⟩ := yields_ok.mp yields
      rw [here]
      exact .missing _ differs
  · intro name
    generalize here : array.drop pointer = bytes at name
    cases name with
    | present field =>
      refine ⟨0x06, readByte_eq_ok.mpr ⟨_, here⟩, ?_⟩
      rw [if_pos rfl]
      rw [← drop_succ_of_cons here] at field
      obtain ⟨behind, ran, left⟩ := decodeOid_yields.mpr field
      exact yields_bind.mpr ⟨_, ran, yields_ok.mpr ⟨rfl, left⟩⟩
    | @missing tag bytes differs =>
      refine ⟨tag, readByte_eq_ok.mpr ⟨_, here⟩, ?_⟩
      rw [if_neg differs]
      exact yields_ok.mpr ⟨rfl, here⟩

/-- A value of a known type is decoded exactly from its layout. -/
theorem decodePrimitive_yields {array : List UInt8} {pointer : Nat} {tag : UInt8} {value : Value}
    {rest : List UInt8} (known : tag ∈ primitiveTypes) :
    Yields array (decodePrimitive array pointer tag) value rest ↔
      PrimitiveField tag (array.drop (pointer + 1)) value rest := by
  -- The branch is chosen by the tag, and each calls one decoder.
  unfold decodePrimitive
  constructor
  · intro yields
    -- One case for each branch of the switch.
    split at yields
    · rename_i same
      obtain ⟨⟨word, behind⟩, ran, yields⟩ := yields_bind.mp yields
      obtain ⟨rfl, left⟩ := yields_ok.mp yields
      exact same ▸ .integer (decodeInteger_yields.mp ⟨behind, ran, left⟩)
    · split at yields
      · rename_i same
        obtain ⟨⟨string, behind⟩, ran, yields⟩ := yields_bind.mp yields
        obtain ⟨rfl, left⟩ := yields_ok.mp yields
        exact same ▸ .octets (decodeString_yields.mp ⟨behind, ran, left⟩)
      · split at yields
        · rename_i same
          obtain ⟨rfl, rfl⟩ := yields_ok.mp yields
          have skipped : array.drop (pointer + 2) = (array.drop (pointer + 1)).drop 1 := by
            rw [List.drop_drop]
          rw [skipped]
          exact same ▸ .null _
        · rename_i notInt notOctets notNull
          have same : tag = primvObjid := by
            simpa [primitiveTypes, notInt, notOctets, notNull] using known
          obtain ⟨⟨text, behind⟩, ran, yields⟩ := yields_bind.mp yields
          obtain ⟨rfl, left⟩ := yields_ok.mp yields
          exact same ▸ .oid (decodeOid_yields.mp ⟨behind, ran, left⟩)
  · intro primitive
    cases primitive with
    | integer field =>
      obtain ⟨behind, ran, left⟩ := decodeInteger_yields.mpr field
      rw [if_pos rfl]
      exact yields_bind.mpr ⟨_, ran, yields_ok.mpr ⟨rfl, left⟩⟩
    | octets field =>
      obtain ⟨behind, ran, left⟩ := decodeString_yields.mpr field
      rw [if_neg (by decide), if_pos rfl]
      exact yields_bind.mpr ⟨_, ran, yields_ok.mpr ⟨rfl, left⟩⟩
    | null =>
      rw [if_neg (by decide), if_neg (by decide), if_pos rfl]
      exact yields_ok.mpr ⟨rfl, by rw [List.drop_drop]⟩
    | oid field =>
      obtain ⟨behind, ran, left⟩ := decodeOid_yields.mpr field
      rw [if_neg (by decide), if_neg (by decide), if_neg (by decide)]
      exact yields_bind.mpr ⟨_, ran, yields_ok.mpr ⟨rfl, left⟩⟩

/-- Only the known types have a layout. -/
theorem PrimitiveField.known {tag : UInt8} {bytes rest : List UInt8} {value : Value}
    (field : PrimitiveField tag bytes value rest) : tag ∈ primitiveTypes := by
  cases field <;> decide

/-- The value of an element is decoded exactly from its layout. -/
theorem decodeValue_yields {array : List UInt8} {pointer : Nat} {varbinds valued : List Varbind}
    {rest : List UInt8} :
    Yields array (decodeValue array pointer varbinds) valued rest ↔
      ValueField varbinds (array.drop pointer) valued rest := by
  -- The tag is read first, and tells a value of a known type from another one.
  unfold decodeValue
  rw [yields_bind]
  constructor
  · intro given
    rcases given with ⟨tag, read, yields⟩
    obtain ⟨tail, here⟩ := readByte_eq_ok.mp read
    rw [here]
    split at yields
    · rename_i known
      cases varbinds with
      | nil => exact absurd yields not_yields_error
      | cons last before =>
        -- The value goes to the last entry of the list, whichever element named it.
        obtain ⟨⟨value, behind⟩, ran, yields⟩ := yields_bind.mp yields
        obtain ⟨rfl, left⟩ := yields_ok.mp yields
        refine .stored last before ?_
        rw [← drop_succ_of_cons here]
        exact (decodePrimitive_yields known).mp ⟨behind, ran, left⟩
    · rename_i unknown
      obtain ⟨rfl, rfl⟩ := yields_ok.mp yields
      rw [here]
      exact .skipped _ _ unknown
  · intro field
    generalize here : array.drop pointer = bytes at field
    cases field with
    | @stored tag bytes rest value last before primitive =>
      refine ⟨tag, readByte_eq_ok.mpr ⟨_, here⟩, ?_⟩
      rw [if_pos primitive.known]
      have known := primitive.known
      rw [← drop_succ_of_cons here] at primitive
      obtain ⟨behind, ran, left⟩ := (decodePrimitive_yields known).mpr primitive
      exact yields_bind.mpr ⟨_, ran, yields_ok.mpr ⟨rfl, left⟩⟩
    | @skipped tag varbinds bytes unknown =>
      refine ⟨tag, readByte_eq_ok.mpr ⟨_, here⟩, ?_⟩
      rw [if_neg unknown]
      exact yields_ok.mpr ⟨rfl, here⟩

/-- A turn of the loop leaves the state alone or goes over one element. -/
theorem varbindStep_inv {block : List UInt8} {state next : ListState}
    (ran : varbindStep block state = .ok next) :
    next = state ∨
      ∃ length bytes named behindName, block.drop state.pointer = 0x30 :: length :: bytes ∧
        NameField state.varbinds bytes named behindName ∧
        ValueField named behindName next.varbinds (block.drop next.pointer) ∧
        next.length = state.length + (length.toNat + 2) := by
  -- The turn reads a tag, and goes on from 30 only.
  unfold varbindStep at ran
  obtain ⟨tag, read, ran⟩ := bind_eq_ok.mp ran
  obtain ⟨tail, here⟩ := readByte_eq_ok.mp read
  split at ran
  · rename_i same
    subst same
    obtain ⟨length, readLength, ran⟩ := bind_eq_ok.mp ran
    obtain ⟨⟨named, behindName⟩, nameRan, ran⟩ := bind_eq_ok.mp ran
    obtain ⟨⟨valued, behindValue⟩, valueRan, ran⟩ := bind_eq_ok.mp ran
    obtain ⟨bytes, nextBytes⟩ := readByte_eq_ok.mp readLength
    cases ran
    rw [drop_succ_of_cons here] at nextBytes
    subst nextBytes
    -- The name and the value are read behind the tag and the length of the element.
    have inside : block.drop (state.pointer + 2) = bytes :=
      drop_succ_of_cons (drop_succ_of_cons here)
    refine .inr ⟨length, bytes, named, block.drop behindName, here, ?_, ?_, rfl⟩
    · rw [← inside]
      exact decodeName_yields.mp ⟨_, nameRan, rfl⟩
    · exact decodeValue_yields.mp ⟨_, valueRan, rfl⟩
  · cases ran
    exact .inl rfl

/-- A turn of the loop goes over an element with a layout. -/
theorem varbindStep_of_element {block bytes behindName behindValue : List UInt8}
    {state : ListState} {length : UInt8} {named valued : List Varbind}
    (here : block.drop state.pointer = 0x30 :: length :: bytes)
    (name : NameField state.varbinds bytes named behindName)
    (value : ValueField named behindName valued behindValue) :
    ∃ pointer, varbindStep block state =
        .ok ⟨pointer, state.length + (length.toNat + 2), valued⟩ ∧
      block.drop pointer = behindValue := by
  -- The calls of the turn are replayed from the layout.
  have next := drop_succ_of_cons here
  have inside : block.drop (state.pointer + 2) = bytes := drop_succ_of_cons next
  rw [← inside] at name
  -- The value is read from wherever the name ended.
  obtain ⟨behindOid, nameRan, nameLeft⟩ := decodeName_yields.mpr name
  rw [← nameLeft] at value
  obtain ⟨pointer, valueRan, valueLeft⟩ := decodeValue_yields.mpr value
  refine ⟨pointer, ?_, valueLeft⟩
  unfold varbindStep
  refine bind_eq_ok.mpr ⟨0x30, readByte_eq_ok.mpr ⟨_, here⟩, ?_⟩
  rw [if_pos rfl]
  exact bind_eq_ok.mpr ⟨length, readByte_eq_ok.mpr ⟨_, next⟩,
    bind_eq_ok.mpr ⟨_, nameRan, bind_eq_ok.mpr ⟨_, valueRan, rfl⟩⟩⟩

/-- A turn that leaves the state alone is repeated until the fuel is used up. -/
theorem varbindLoop_stuck {block : List UInt8} {limit : Nat} {state : ListState}
    (open_ : state.length < limit) (stuck : varbindStep block state = .ok state) :
    ∀ fuel, varbindLoop block limit fuel state = .error .endless := by
  -- The induction is on the fuel.
  intro fuel
  induction fuel with
  | zero => simp [varbindLoop, open_]
  | succ fuel ih =>
    rw [varbindLoop, if_pos open_, stuck]
    exact ih

/-- A loop that ends has gone over complete elements. -/
theorem varbindLoop_elements {block : List UInt8} {limit : Nat} :
    ∀ (fuel : Nat) (state final : ListState), varbindLoop block limit fuel state = .ok final →
      Elements limit state.length state.varbinds (block.drop state.pointer) final.varbinds := by
  -- The induction is on the turns that are left.
  intro fuel
  induction fuel with
  | zero =>
    intro state final ran
    rw [varbindLoop] at ran
    split at ran
    · cases ran
    · rename_i reached
      cases ran
      exact .done _ reached
  | succ fuel ih =>
    intro state final ran
    have whole := ran
    rw [varbindLoop] at ran
    split at ran
    · rename_i open_
      obtain ⟨next, step, rest⟩ := bind_eq_ok.mp ran
      rcases varbindStep_inv step with rfl | ⟨length, bytes, named, behindName, here, name, value,
        counted⟩
      · -- A loop that makes no progress does not end.
        rw [varbindLoop_stuck open_ step] at whole
        cases whole
      · have tail := ih _ _ rest
        rw [counted] at tail
        rw [here]
        exact .element open_ name value tail
    · rename_i reached
      cases ran
      exact .done _ reached

/-- The loop goes over complete elements with as much fuel as there is length to count. -/
theorem Elements.varbindLoop {block bytes : List UInt8} {limit counted : Nat}
    {varbinds final : List Varbind} (elements : Elements limit counted varbinds bytes final) :
    ∀ (fuel pointer : Nat), block.drop pointer = bytes → limit ≤ counted + fuel →
      ∃ state, SnmpAgent.varbindLoop block limit fuel ⟨pointer, counted, varbinds⟩ = .ok state ∧
        state.varbinds = final := by
  -- The induction follows the layout, with one turn of the loop for each element.
  induction elements with
  | @done counted varbinds bytes reached =>
    intro fuel pointer _ _
    refine ⟨⟨pointer, counted, varbinds⟩, ?_, rfl⟩
    cases fuel <;> simp [SnmpAgent.varbindLoop, reached]
  | @element counted varbinds named valued final length bytes behindName behindValue open_ name
      value _ ih =>
    intro fuel pointer here enough
    cases fuel with
    | zero => omega
    | succ fuel =>
      obtain ⟨behind, step, left⟩ :=
        @varbindStep_of_element _ _ _ _ ⟨pointer, counted, varbinds⟩ _ _ _ here name value
      obtain ⟨state, ran, same⟩ := ih fuel behind left (by omega)
      refine ⟨state, ?_, same⟩
      rw [SnmpAgent.varbindLoop, if_pos open_]
      exact bind_eq_ok.mpr ⟨_, step, ran⟩

/-- A list is taken apart exactly when it has the layout. -/
theorem createVarbindListRx_eq_ok {block : List UInt8} {varbindList : VarbindListRx} :
    createVarbindListRx block = .ok (some varbindList) ↔ ListLayout block varbindList := by
  -- The tag and the length are read, and then the elements.
  unfold createVarbindListRx
  rw [bind_eq_ok]
  constructor
  · intro given
    rcases given with ⟨tag, read, ran⟩
    obtain ⟨tail, here⟩ := readByte_eq_ok.mp read
    split at ran
    · rename_i same
      subst same
      obtain ⟨length, readLength, ran⟩ := bind_eq_ok.mp ran
      obtain ⟨final, loop, ran⟩ := bind_eq_ok.mp ran
      obtain ⟨bytes, next⟩ := readByte_eq_ok.mp readLength
      cases ran
      rw [drop_succ_of_cons here] at next
      subst next
      have inside : block.drop 2 = bytes := drop_succ_of_cons (drop_succ_of_cons here)
      have elements := varbindLoop_elements _ _ _ loop
      rw [inside] at elements
      rw [List.drop_zero] at here
      rw [here]
      exact .elements elements
    · cases ran
  · intro given
    rcases given with @⟨length, bytes, varbinds, inside⟩
    refine ⟨0x30, rfl, ?_⟩
    rw [if_pos rfl]
    -- The loop takes the elements from behind the two bytes.
    obtain ⟨state, ran, rfl⟩ := @Elements.varbindLoop (0x30 :: length :: bytes) _ _ _ _ _ inside
      length.toNat 2 rfl (by omega)
    exact bind_eq_ok.mpr ⟨length, rfl, bind_eq_ok.mpr ⟨state, ran, rfl⟩⟩

/-- A PDU is taken apart or rejected exactly when it has the layout. -/
theorem createSnmpPduRx_eq_ok {block : List UInt8} {outcome : Option SnmpPduRx} :
    createSnmpPduRx block = .ok outcome ↔ PduLayout block outcome := by
  -- Each way the fields are gone through in the order in which they are read.
  unfold createSnmpPduRx
  rw [bind_eq_ok]
  constructor
  · intro given
    rcases given with ⟨type, read, ran⟩
    obtain ⟨tail, here⟩ := readByte_eq_ok.mp read
    split at ran
    · rename_i known
      obtain ⟨length, readLength, ran⟩ := bind_eq_ok.mp ran
      obtain ⟨⟨requestId, afterId⟩, idRan, ran⟩ := bind_eq_ok.mp ran
      obtain ⟨⟨error, afterError⟩, errorRan, ran⟩ := bind_eq_ok.mp ran
      obtain ⟨⟨errorIndex, afterIndex⟩, indexRan, ran⟩ := bind_eq_ok.mp ran
      obtain ⟨⟨varbindings, size⟩, listRan, ran⟩ := bind_eq_ok.mp ran
      obtain ⟨bytes, next⟩ := readByte_eq_ok.mp readLength
      cases ran
      rw [drop_succ_of_cons here] at next
      subst next
      have inside : block.drop 2 = bytes := drop_succ_of_cons (drop_succ_of_cons here)
      -- Each field begins where the one before it ended.
      have idField := (decodeIf_yields decodeInteger_yields).mp ⟨afterId, idRan, rfl⟩
      rw [inside] at idField
      rw [List.drop_zero] at here
      rw [here]
      exact .fields known idField
        ((decodeIf_yields decodeInteger_yields).mp ⟨afterError, errorRan, rfl⟩)
        ((decodeIf_yields decodeInteger_yields).mp ⟨afterIndex, indexRan, rfl⟩)
        (copyIf_eq_ok.mp listRan)
    · rename_i unknown
      cases ran
      rw [List.drop_zero] at here
      rw [here]
      exact .wrong _ unknown
  · intro layout
    cases layout with
    | @fields type length bytes _ _ _ _ _ _ _ _ known idField errorField indexField listField =>
      refine ⟨type, rfl, ?_⟩
      rw [if_pos known]
      obtain ⟨afterId, idRan, idLeft⟩ := (@decodeIf_yields _ (type :: length :: bytes) 2 _ _ _ _ _ _
        decodeInteger_yields).mpr idField
      rw [← idLeft] at errorField
      obtain ⟨afterError, errorRan, errorLeft⟩ :=
        (decodeIf_yields decodeInteger_yields).mpr errorField
      rw [← errorLeft] at indexField
      obtain ⟨afterIndex, indexRan, indexLeft⟩ :=
        (decodeIf_yields decodeInteger_yields).mpr indexField
      rw [← indexLeft] at listField
      exact bind_eq_ok.mpr ⟨length, rfl, bind_eq_ok.mpr ⟨_, idRan, bind_eq_ok.mpr
        ⟨_, errorRan, bind_eq_ok.mpr ⟨_, indexRan, bind_eq_ok.mpr
          ⟨_, copyIf_eq_ok.mpr listField, rfl⟩⟩⟩⟩⟩
    | @wrong type bytes unknown =>
      refine ⟨type, rfl, ?_⟩
      rw [if_neg unknown]
      rfl

/-- A message is taken apart or rejected exactly when it has the layout. -/
theorem createSnmpMessageRx_eq_ok {received : List UInt8} {outcome : Option SnmpMessageRx} :
    createSnmpMessageRx received = .ok outcome ↔ MessageLayout received outcome := by
  -- Each way the fields are gone through in the order in which they are read.
  unfold createSnmpMessageRx
  rw [bind_eq_ok]
  constructor
  · intro given
    rcases given with ⟨tag, read, ran⟩
    obtain ⟨bytes, here⟩ := readByte_eq_ok.mp read
    split at ran
    · rename_i same
      subst same
      obtain ⟨⟨length, afterLength⟩, lengthRan, ran⟩ := bind_eq_ok.mp ran
      obtain ⟨⟨version, afterVersion⟩, versionRan, ran⟩ := bind_eq_ok.mp ran
      obtain ⟨⟨community, afterCommunity⟩, communityRan, ran⟩ := bind_eq_ok.mp ran
      obtain ⟨⟨snmpPdu, size⟩, pduRan, ran⟩ := bind_eq_ok.mp ran
      have lengthField := messageLength_yields.mp ⟨afterLength, lengthRan, rfl⟩
      rw [drop_succ_of_cons here] at lengthField
      have layout := MessageLayout.fields lengthField
        ((decodeIf_yields decodeVersion_yields).mp ⟨afterVersion, versionRan, rfl⟩)
        ((decodeIf_yields decodeCommunity_yields).mp ⟨afterCommunity, communityRan, rfl⟩)
        (copyIf_eq_ok.mp pduRan)
      rw [List.drop_zero] at here
      rw [here]
      -- Only after everything is read does the code look at the version.
      by_cases other : version ≠ 1
      · simp only [if_pos other] at ran layout
        cases ran
        exact layout
      · simp only [if_neg other] at ran layout
        cases ran
        exact layout
    · cases ran
  · rintro @⟨bytes, _, _, _, length, version, community, snmpPdu, size, lengthField, versionField,
      communityField, pduField⟩
    refine ⟨0x30, rfl, ?_⟩
    rw [if_pos rfl]
    obtain ⟨afterLength, lengthRan, lengthLeft⟩ :=
      (@messageLength_yields (0x30 :: bytes) _ _).mpr lengthField
    rw [← lengthLeft] at versionField
    obtain ⟨afterVersion, versionRan, versionLeft⟩ :=
      (decodeIf_yields decodeVersion_yields).mpr versionField
    rw [← versionLeft] at communityField
    obtain ⟨afterCommunity, communityRan, communityLeft⟩ :=
      (decodeIf_yields decodeCommunity_yields).mpr communityField
    rw [← communityLeft] at pduField
    refine bind_eq_ok.mpr ⟨_, lengthRan, bind_eq_ok.mpr ⟨_, versionRan, bind_eq_ok.mpr
      ⟨_, communityRan, bind_eq_ok.mpr ⟨_, copyIf_eq_ok.mpr pduField, ?_⟩⟩⟩⟩
    by_cases other : version ≠ 1
    · simp only [if_pos other]
      rfl
    · simp only [if_neg other]
      rfl

/-- A datagram is taken apart or rejected exactly when it has the layout. -/
theorem receiveRequest_eq_ok {received : List UInt8} {outcome : Option RequestRx} :
    receiveRequest received = .ok outcome ↔ RequestLayout received outcome := by
  -- Each of the three parts is taken from what the part before has left, or ends the request.
  unfold receiveRequest
  rw [bind_eq_ok]
  constructor
  · intro given
    rcases given with ⟨message, messageRan, ran⟩
    have first := createSnmpMessageRx_eq_ok.mp messageRan
    cases message with
    | none =>
      cases ran
      exact .noMessage first
    | some message =>
      obtain ⟨block, present, ran⟩ := bind_eq_ok.mp ran
      obtain ⟨pdu, pduRan, ran⟩ := bind_eq_ok.mp ran
      have second := createSnmpPduRx_eq_ok.mp pduRan
      have found := follow_eq_ok.mp present
      cases pdu with
      | none =>
        cases ran
        exact .noPdu first found second
      | some pdu =>
        obtain ⟨list, bound, ran⟩ := bind_eq_ok.mp ran
        obtain ⟨parsed, listRan, ran⟩ := bind_eq_ok.mp ran
        obtain ⟨varbindList, some_, ran⟩ := bind_eq_ok.mp ran
        cases ran
        rw [follow_eq_ok.mp some_] at listRan
        exact .complete first found second (follow_eq_ok.mp bound)
          (createVarbindListRx_eq_ok.mp listRan)
  · intro layout
    cases layout with
    | noMessage message => exact ⟨none, createSnmpMessageRx_eq_ok.mpr message, rfl⟩
    | noPdu first present second =>
      exact ⟨_, createSnmpMessageRx_eq_ok.mpr first, bind_eq_ok.mpr
        ⟨_, follow_eq_ok.mpr present, bind_eq_ok.mpr
          ⟨_, createSnmpPduRx_eq_ok.mpr second, rfl⟩⟩⟩
    | complete first present second bound third =>
      exact ⟨_, createSnmpMessageRx_eq_ok.mpr first, bind_eq_ok.mpr
        ⟨_, follow_eq_ok.mpr present, bind_eq_ok.mpr
          ⟨_, createSnmpPduRx_eq_ok.mpr second, bind_eq_ok.mpr
            ⟨_, follow_eq_ok.mpr bound, bind_eq_ok.mpr
              ⟨_, createVarbindListRx_eq_ok.mpr third, rfl⟩⟩⟩⟩⟩

end OpenwrtMisc.SnmpAgent
