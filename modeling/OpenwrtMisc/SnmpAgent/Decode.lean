import OpenwrtMisc.SnmpAgent.Layout

/-! The receiving functions read their input to the end exactly when it has the layout. -/

namespace OpenwrtMisc.SnmpAgent

/-- An INTEGER is decoded exactly from its layout. -/
theorem decodeInteger_yields {array : List UInt8} {pointer : Nat} {value : BitVec 32}
    {rest : List UInt8} :
    Yields array (decodeInteger array pointer) value rest ↔
      IntegerField (array.drop (pointer + 1)) value rest := by
  -- The length byte is read first, and as many bytes as it says behind it.
  unfold decodeInteger
  rw [yields_bind]
  constructor
  · intro given
    rcases given with ⟨width, read, yields⟩
    obtain ⟨tail, here⟩ := readByte_eq_ok.mp read
    rw [here]
    have behind := drop_succ_of_cons here
    split at yields
    · -- A known width is followed by that many bytes, which are all of the value.
      rename_i known
      obtain ⟨content, copied, yields⟩ := yields_bind.mp yields
      obtain ⟨size, others, split⟩ := copyBytes_eq_ok.mp copied
      obtain ⟨rfl, rfl⟩ := yields_ok.mp yields
      have left := drop_add_of_append split size
      rw [left, ← behind, split]
      exact .sized _ known size
    · -- The other widths read nothing, and the cursor stays behind the width.
      rename_i unknown
      obtain ⟨rfl, rfl⟩ := yields_ok.mp yields
      rw [behind]
      exact .other _ unknown
  · intro field
    generalize here : array.drop (pointer + 1) = bytes at field
    cases field with
    | @sized width content rest known size =>
      refine ⟨width, readByte_eq_ok.mpr ⟨_, here⟩, ?_⟩
      have behind := drop_succ_of_cons here
      rw [if_pos known]
      exact yields_bind.mpr ⟨content, copyBytes_eq_ok.mpr ⟨size, _, behind⟩,
        yields_ok.mpr ⟨rfl, drop_add_of_append behind size⟩⟩
    | @other width rest unknown =>
      refine ⟨width, readByte_eq_ok.mpr ⟨_, here⟩, ?_⟩
      rw [if_neg unknown]
      exact yields_ok.mpr ⟨rfl, drop_succ_of_cons here⟩

/-- An OCTET STRING is decoded exactly from its layout. -/
theorem decodeString_yields {array : List UInt8} {pointer : Nat} {content rest : List UInt8} :
    Yields array (decodeString array pointer) content rest ↔
      StringField (array.drop (pointer + 1)) content rest := by
  -- The length byte is read, and then as many bytes are copied.
  unfold decodeString
  rw [yields_bind]
  constructor
  · intro given
    rcases given with ⟨length, read, yields⟩
    obtain ⟨tail, here⟩ := readByte_eq_ok.mp read
    obtain ⟨copied, ran, yields⟩ := yields_bind.mp yields
    -- A copy that succeeds found all of its bytes, and the rest is what follows them.
    obtain ⟨size, others, split⟩ := copyBytes_eq_ok.mp ran
    obtain ⟨rfl, rfl⟩ := yields_ok.mp yields
    rw [here, ← drop_succ_of_cons here, split, drop_add_of_append split size]
    exact .sized _ size
  · intro field
    generalize here : array.drop (pointer + 1) = bytes at field
    cases field with
    | @sized length content rest size =>
      have behind := drop_succ_of_cons here
      exact ⟨length, readByte_eq_ok.mpr ⟨_, here⟩, yields_bind.mpr ⟨content,
        copyBytes_eq_ok.mpr ⟨size, _, behind⟩,
        yields_ok.mpr ⟨rfl, drop_add_of_append behind size⟩⟩⟩

/-- A number is appended exactly when it and the text with it fit. -/
theorem appendNumber_eq_ok {buffer text : List UInt8} {value : BitVec 32} :
    appendNumber buffer value = .ok text ↔
      (dotted value).length < numberSize ∧ (buffer ++ dotted value).length < oidTextSize ∧
        text = buffer ++ dotted value := by
  -- Either bound may be missed, and the buffer of the number is asked first.
  unfold appendNumber
  split
  · simp only [reduceCtorEq, false_iff]
    omega
  · split
    · simp only [reduceCtorEq, false_iff]
      omega
    · constructor
      · intro same
        cases same
        exact ⟨by omega, by omega, rfl⟩
      · intro given
        rcases given with ⟨_, _, rfl⟩
        rfl

/-- A text fits with one more number in front exactly when that number and then the rest do. -/
theorem textFits_cons {text : List UInt8} {arc : BitVec 32} {arcs : List (BitVec 32)} :
    TextFits text (arc :: arcs) ↔
      ((dotted arc).length < numberSize ∧ (text ++ dotted arc).length < oidTextSize) ∧
        TextFits (text ++ dotted arc) arcs := by
  -- The loop appends number by number, so the buffer only fills up.
  constructor
  · intro given
    rcases given with ⟨number, whole⟩
    -- The text that grew by the first number is the one that the others are appended to.
    simp only [List.flatMap_cons, List.length_append] at whole
    refine ⟨⟨number arc List.mem_cons_self, ?_⟩, fun other later => ?_, ?_⟩
    · rw [List.length_append]
      omega
    · exact number other (List.mem_cons_of_mem _ later)
    · simp only [List.length_append]
      omega
  · intro given
    rcases given with ⟨⟨first, _⟩, number, whole⟩
    refine ⟨fun other member => ?_, ?_⟩
    · rcases List.mem_cons.mp member with rfl | later
      · exact first
      · exact number other later
    · simp only [List.flatMap_cons, List.length_append] at whole ⊢
      omega

/-- A last group is printed together with the pending groups, whether there are any or not. -/
theorem decodeOidLoop_succ (array : List UInt8) (length pointer : Nat) (pending : BitVec 32)
    (buffer : List UInt8) :
    decodeOidLoop array (length + 1) pointer pending buffer = (do
      let node ← readByte array (pointer + 1)
      if 0x80 ≤ node then
        decodeOidLoop array length (pointer + 1)
          ((pending ||| BitVec.ofNat 32 (node &&& 0x7f).toNat) <<< 7) buffer
      else do
        let buffer ← appendNumber buffer (pending ||| BitVec.ofNat 32 node.toNat)
        decodeOidLoop array length (pointer + 1) 0 buffer) := by
  -- The two branches of the source differ in what the pending groups are, which may be none.
  rw [decodeOidLoop]
  congr 1
  funext node
  split
  · rfl
  · split
    · rfl
    · -- Without pending groups the code prints the byte itself, which is the same number.
      rename_i none
      have zero : pending = 0 := Classical.not_not.mp none
      have joined : (0 : BitVec 32) ||| BitVec.ofNat 32 node.toNat = BitVec.ofNat 32 node.toNat :=
        BitVec.zero_or
      rw [zero, joined]

/-- The loop over an OID reads its bytes exactly when they are there and their text fits. -/
theorem decodeOidLoop_eq_ok {array text : List UInt8} {behind : Nat} :
    ∀ (length pointer : Nat) (pending : BitVec 32) (buffer : List UInt8),
      buffer.length < oidTextSize →
      (decodeOidLoop array length pointer pending buffer = .ok (text, behind) ↔
        ∃ nodes rest, array.drop (pointer + 1) = nodes ++ rest ∧ nodes.length = length ∧
          TextFits buffer (oidArcs pending nodes) ∧
          text = buffer ++ (oidArcs pending nodes).flatMap dotted ∧
          behind = pointer + length) := by
  -- Induction on the bytes that are left to read.
  intro length
  induction length with
  | zero =>
    intro pointer pending buffer small
    simp only [decodeOidLoop, Except.ok.injEq, Prod.mk.injEq]
    constructor
    · intro given
      rcases given with ⟨rfl, rfl⟩
      exact ⟨[], _, rfl, rfl, ⟨nofun, by simpa [oidArcs] using small⟩, by simp [oidArcs], rfl⟩
    · intro given
      rcases given with ⟨nodes, rest, _, none, _, rfl, rfl⟩
      rw [List.length_eq_zero_iff.mp none]
      simp [oidArcs]
  | succ length ih =>
    intro pointer pending buffer small
    rw [decodeOidLoop_succ, bind_eq_ok]
    -- The first byte decides whether a number is printed before the rest of the bytes is read.
    constructor
    · intro given
      rcases given with ⟨node, read, ran⟩
      obtain ⟨others, here⟩ := readByte_eq_ok.mp read
      have behindNode := drop_succ_of_cons here
      split at ran
      · -- A continued byte prints nothing and leaves its group to the bytes behind it.
        rename_i continued
        obtain ⟨nodes, rest, split, size, fits, rfl, rfl⟩ := (ih _ _ _ small).mp ran
        refine ⟨node :: nodes, rest, ?_, by rw [List.length_cons, size], ?_, ?_, by omega⟩
        · rw [here, ← behindNode, split, List.cons_append]
        · simpa only [oidArcs, if_pos continued] using fits
        · simp only [oidArcs, if_pos continued]
      · -- A last byte prints its number, which has to fit before the others are read.
        rename_i last
        obtain ⟨printed, appended, ran⟩ := bind_eq_ok.mp ran
        obtain ⟨number, whole, rfl⟩ := appendNumber_eq_ok.mp appended
        obtain ⟨nodes, rest, split, size, fits, rfl, rfl⟩ := (ih _ _ _ whole).mp ran
        refine ⟨node :: nodes, rest, ?_, by rw [List.length_cons, size], ?_, ?_, by omega⟩
        · rw [here, ← behindNode, split, List.cons_append]
        · simpa only [oidArcs, if_neg last] using textFits_cons.mpr ⟨⟨number, whole⟩, fits⟩
        · simp only [oidArcs, if_neg last, List.flatMap_cons, List.append_assoc]
    · intro given
      rcases given with ⟨nodes, rest, split, size, fits, rfl, rfl⟩
      cases nodes with
      | nil => cases size
      | cons node nodes =>
        have behindNode := drop_succ_of_cons split
        have count : nodes.length = length := by simpa using size
        refine ⟨node, readByte_eq_ok.mpr ⟨_, split⟩, ?_⟩
        by_cases continued : 0x80 ≤ node
        · rw [oidArcs, if_pos continued] at fits
          rw [if_pos continued]
          refine (ih _ _ _ small).mpr ⟨nodes, rest, behindNode, count, fits, ?_, by omega⟩
          rw [oidArcs, if_pos continued]
        · rw [oidArcs, if_neg continued] at fits
          rw [if_neg continued]
          obtain ⟨⟨number, whole⟩, fits⟩ := textFits_cons.mp fits
          refine bind_eq_ok.mpr ⟨_, appendNumber_eq_ok.mpr ⟨number, whole, rfl⟩, ?_⟩
          refine (ih _ _ _ whole).mpr ⟨nodes, rest, behindNode, count, fits, ?_, by omega⟩
          rw [oidArcs, if_neg continued, List.flatMap_cons, List.append_assoc]

/-- The known prefix fits the text buffer. -/
theorem oidPrefix_length (first : UInt8) : (oidPrefix first).length < oidTextSize := by
  -- The prefix is either of two texts.
  unfold oidPrefix
  split <;> decide

/-- An OBJECT IDENTIFIER is decoded exactly from its layout. -/
theorem decodeOid_yields {array : List UInt8} {pointer : Nat} {text rest : List UInt8} :
    Yields array (decodeOid array pointer) text rest ↔
      OidField (array.drop (pointer + 1)) text rest := by
  -- The first byte is printed by itself, and the loop does the others.
  unfold decodeOid
  rw [yields_bind]
  constructor
  · intro given
    rcases given with ⟨length, readLength, yields⟩
    obtain ⟨first, readFirst, yields⟩ := yields_bind.mp yields
    obtain ⟨⟨string, behind⟩, ran, yields⟩ := yields_bind.mp yields
    obtain ⟨tail, here⟩ := readByte_eq_ok.mp readLength
    obtain ⟨others, next⟩ := readByte_eq_ok.mp readFirst
    -- The length byte counts the first byte too, so the loop takes one byte less.
    obtain ⟨nodes, left, split, size, fits, rfl, rfl⟩ :=
      (decodeOidLoop_eq_ok _ _ _ _ (oidPrefix_length first)).mp ran
    obtain ⟨rfl, rfl⟩ := yields_ok.mp yields
    have behindNodes : array.drop (pointer + 2 + (length - 1).toNat + 1) = left := by
      have shifted : pointer + 2 + (length - 1).toNat + 1 =
          pointer + 2 + 1 + (length - 1).toNat := by omega
      rw [shifted]
      exact drop_add_of_append split size
    rw [here, ← drop_succ_of_cons here, next, ← drop_succ_of_cons next, split, behindNodes]
    exact .sized _ size fits
  · intro field
    generalize here : array.drop (pointer + 1) = bytes at field
    cases field with
    | @sized length first nodes rest size fits =>
      have next := drop_succ_of_cons here
      have split := drop_succ_of_cons next
      refine ⟨length, readByte_eq_ok.mpr ⟨_, here⟩, yields_bind.mpr
        ⟨first, readByte_eq_ok.mpr ⟨_, next⟩, yields_bind.mpr ⟨_,
          (decodeOidLoop_eq_ok _ _ _ _ (oidPrefix_length first)).mpr
            ⟨nodes, rest, split, size, fits, rfl, rfl⟩, yields_ok.mpr ⟨rfl, ?_⟩⟩⟩⟩
      have shifted : pointer + 2 + (length - 1).toNat + 1 =
          pointer + 2 + 1 + (length - 1).toNat := by omega
      rw [shifted]
      exact drop_add_of_append split size

/-- An optional field is decoded exactly from its layout when the field is. -/
theorem decodeIf_yields {α : Type} {array : List UInt8} {pointer : Nat} {tag : UInt8}
    {decode : List UInt8 → Nat → Except Fault (α × Nat)} {absent value : α} {rest : List UInt8}
    {field : List UInt8 → α → List UInt8 → Prop}
    (exact_ : ∀ {value rest}, Yields array (decode array pointer) value rest ↔
      field (array.drop (pointer + 1)) value rest) :
    Yields array (decodeIf array pointer tag decode absent) value rest ↔
      OptionalField tag field absent (array.drop pointer) value rest := by
  -- The tag is read first, and the field is left where it is when the tag is another one.
  unfold decodeIf
  rw [yields_bind]
  constructor
  · intro given
    rcases given with ⟨byte, read, yields⟩
    obtain ⟨tail, here⟩ := readByte_eq_ok.mp read
    rw [here]
    split at yields
    · rename_i same
      subst same
      refine .present ?_
      rw [← drop_succ_of_cons here]
      exact exact_.mp yields
    · -- Without the tag nothing is read, and the cursor stays where it was.
      rename_i differs
      obtain ⟨rfl, rfl⟩ := yields_ok.mp yields
      rw [here]
      exact .missing _ differs
  · intro optional
    generalize here : array.drop pointer = bytes at optional
    cases optional with
    | present found =>
      refine ⟨tag, readByte_eq_ok.mpr ⟨_, here⟩, ?_⟩
      rw [if_pos rfl]
      refine exact_.mpr ?_
      rw [drop_succ_of_cons here]
      exact found
    | @missing other bytes differs =>
      refine ⟨other, readByte_eq_ok.mpr ⟨_, here⟩, ?_⟩
      rw [if_neg differs]
      exact yields_ok.mpr ⟨rfl, here⟩

/-- A version is decoded exactly from its layout. -/
theorem decodeVersion_yields {array : List UInt8} {pointer : Nat} {version : UInt8}
    {rest : List UInt8} :
    Yields array (decodeVersion array pointer) version rest ↔
      VersionField (array.drop (pointer + 1)) version rest := by
  -- The version is the lowest byte of the integer that stands there.
  unfold decodeVersion
  rw [yields_bind]
  constructor
  · intro given
    rcases given with ⟨⟨buffer, behind⟩, ran, yields⟩
    obtain ⟨rfl, left⟩ := yields_ok.mp yields
    exact .integer (decodeInteger_yields.mp ⟨behind, ran, left⟩)
  · intro given
    rcases given with ⟨field⟩
    obtain ⟨behind, ran, left⟩ := decodeInteger_yields.mpr field
    exact ⟨_, ran, yields_ok.mpr ⟨rfl, left⟩⟩

/-- A community is decoded exactly from its layout. -/
theorem decodeCommunity_yields {array : List UInt8} {pointer : Nat}
    {community : Option (List UInt8)} {rest : List UInt8} :
    Yields array (decodeCommunity array pointer) community rest ↔
      CommunityField (array.drop (pointer + 1)) community rest := by
  -- The community is the string that stands there.
  unfold decodeCommunity
  rw [yields_bind]
  constructor
  · intro given
    rcases given with ⟨⟨string, behind⟩, ran, yields⟩
    obtain ⟨rfl, left⟩ := yields_ok.mp yields
    exact .string (decodeString_yields.mp ⟨behind, ran, left⟩)
  · intro given
    rcases given with ⟨field⟩
    obtain ⟨behind, ran, left⟩ := decodeString_yields.mpr field
    exact ⟨_, ran, yields_ok.mpr ⟨rfl, left⟩⟩

/-- An element is copied exactly from its layout. -/
theorem copyIf_eq_ok {array : List UInt8} {pointer : Nat} {tags : List UInt8}
    {block : Option (List UInt8)} {size : Nat} :
    copyIf array pointer tags = .ok (block, size) ↔
      CopiedField tags (array.drop pointer) block size := by
  -- The tag is one of those that are asked for, and as many bytes are copied as the element has.
  unfold copyIf
  rw [bind_eq_ok]
  constructor
  · intro given
    rcases given with ⟨tag, read, ran⟩
    obtain ⟨tail, here⟩ := readByte_eq_ok.mp read
    split at ran
    · rename_i expected
      obtain ⟨length, readLength, ran⟩ := bind_eq_ok.mp ran
      obtain ⟨copied, copy, ran⟩ := bind_eq_ok.mp ran
      obtain ⟨others, next⟩ := readByte_eq_ok.mp readLength
      obtain ⟨count, rest, split⟩ := copyBytes_eq_ok.mp copy
      cases ran
      -- The copy begins with the tag and the length, and the content is what follows them.
      rw [drop_succ_of_cons here] at next
      rw [here, next] at split
      obtain ⟨content, rfl⟩ : ∃ content, copied = tag :: length :: content := by
        match copied, count, split with
        | _ :: _ :: content, _, split =>
          simp only [List.cons_append, List.cons.injEq] at split
          exact ⟨content, by rw [split.1, split.2.1]⟩
      simp only [List.cons_append, List.cons.injEq, true_and] at split
      rw [here, next, split]
      exact .present rest expected (by simpa using count)
    · -- Another tag leaves the block empty and the size at nothing.
      rename_i other
      cases ran
      rw [here]
      exact .missing _ other
  · intro field
    generalize here : array.drop pointer = bytes at field
    cases field with
    | @present tag length content rest expected count =>
      refine ⟨tag, readByte_eq_ok.mpr ⟨_, here⟩, ?_⟩
      rw [if_pos expected]
      refine bind_eq_ok.mpr ⟨length, readByte_eq_ok.mpr ⟨_, drop_succ_of_cons here⟩, ?_⟩
      refine bind_eq_ok.mpr ⟨tag :: length :: content, copyBytes_eq_ok.mpr ⟨?_, rest, here⟩, rfl⟩
      simp only [List.length_cons, count]
    | @missing tag bytes other =>
      refine ⟨tag, readByte_eq_ok.mpr ⟨_, here⟩, ?_⟩
      rw [if_neg other]
      rfl

/-- The loop over a multi-byte length reads its bytes exactly when they are there. -/
theorem lengthLoop_eq_ok {array : List UInt8} {length : BitVec 32} {behind : Nat} :
    ∀ (lenBytes pointer : Nat) (before : BitVec 32),
      (lengthLoop array lenBytes pointer before = .ok (length, behind) ↔
        ∃ content rest, array.drop (pointer + 1) = content ++ rest ∧ content.length = lenBytes ∧
          length = joinedLength content before ∧ behind = pointer + lenBytes) := by
  -- The induction is on the bytes of the length that are left.
  intro lenBytes
  induction lenBytes with
  | zero =>
    intro pointer before
    simp only [lengthLoop, Except.ok.injEq, Prod.mk.injEq]
    constructor
    · intro given
      rcases given with ⟨rfl, rfl⟩
      exact ⟨[], _, rfl, rfl, rfl, rfl⟩
    · intro given
      rcases given with ⟨content, rest, _, none, rfl, rfl⟩
      rw [List.length_eq_zero_iff.mp none]
      exact ⟨rfl, rfl⟩
  | succ lenBytes ih =>
    intro pointer before
    rw [lengthLoop, bind_eq_ok]
    constructor
    · intro given
      rcases given with ⟨byte, read, ran⟩
      obtain ⟨others, here⟩ := readByte_eq_ok.mp read
      obtain ⟨content, rest, split, size, rfl, rfl⟩ := (ih _ _).mp ran
      refine ⟨byte :: content, rest, ?_, by rw [List.length_cons, size], ?_, by omega⟩
      · rw [here, ← drop_succ_of_cons here, split, List.cons_append]
      · rw [joinedLength, size]
    · intro given
      rcases given with ⟨content, rest, split, size, rfl, rfl⟩
      cases content with
      | nil => cases size
      | cons byte content =>
        have count : content.length = lenBytes := by simpa using size
        refine ⟨byte, readByte_eq_ok.mpr ⟨_, split⟩, (ih _ _).mpr
          ⟨content, rest, drop_succ_of_cons split, count, ?_, by omega⟩⟩
        rw [joinedLength, count]

/-- The length of a message is read exactly from its layout. -/
theorem messageLength_yields {received : List UInt8} {length : BitVec 32} {rest : List UInt8} :
    Yields received (messageLength received) length rest ↔
      LengthField (received.drop 1) length rest := by
  -- The first byte is the length, or says how many bytes of it follow.
  unfold messageLength
  rw [yields_bind]
  constructor
  · intro given
    rcases given with ⟨first, read, yields⟩
    obtain ⟨tail, here⟩ := readByte_eq_ok.mp read
    split at yields
    · -- The first byte only counts the bytes of the length.
      rename_i high
      obtain ⟨⟨joined, behind⟩, ran, yields⟩ := yields_bind.mp yields
      obtain ⟨content, left, split, size, rfl, rfl⟩ := (lengthLoop_eq_ok _ _ _).mp ran
      obtain ⟨rfl, rfl⟩ := yields_ok.mp yields
      have order : 1 + (first &&& 0x7f).toNat + 1 = 1 + 1 + (first &&& 0x7f).toNat := by omega
      rw [order, drop_add_of_append split size, here, ← drop_succ_of_cons here, split]
      exact .long _ high size
    · -- The first byte is the length itself.
      rename_i low
      obtain ⟨rfl, rfl⟩ := yields_ok.mp yields
      rw [here, drop_succ_of_cons here]
      exact .short _ low
  · intro field
    generalize here : received.drop 1 = bytes at field
    cases field with
    | @short first rest low =>
      refine ⟨first, readByte_eq_ok.mpr ⟨_, here⟩, ?_⟩
      rw [if_neg low]
      exact yields_ok.mpr ⟨rfl, drop_succ_of_cons here⟩
    | @long first content rest high size =>
      refine ⟨first, readByte_eq_ok.mpr ⟨_, here⟩, ?_⟩
      rw [if_pos high]
      have split := drop_succ_of_cons here
      refine yields_bind.mpr ⟨_, (lengthLoop_eq_ok _ _ _).mpr
        ⟨content, rest, split, size, rfl, rfl⟩, yields_ok.mpr ⟨rfl, ?_⟩⟩
      have order : 1 + (first &&& 0x7f).toNat + 1 = 1 + 1 + (first &&& 0x7f).toNat := by omega
      rw [order]
      exact drop_add_of_append split size

end OpenwrtMisc.SnmpAgent
