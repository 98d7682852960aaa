import OpenwrtMisc.Libsml.Fields
import OpenwrtMisc.Libsml.Length

/-! What writers put into a buffer, and that readers find it there. -/

namespace OpenwrtMisc.Libsml

/-- Bytes that are put behind the page. -/
def smlBufPut (data : List UInt8) : Writer Unit := fun page => do
  let memory ← store page.size page.place data page.memory
  return ((), { page with memory, place := page.place + data.length })

/-- `sml_buf_optional_write`. -/
def smlBufOptionalWrite : Writer Unit := smlBufPut [smlOptionalSkipped]

/-- Bytes are put where there is room for them. -/
theorem writes_put (data : List UInt8) : Writes (smlBufPut data) data := by
  -- The bytes are stored at the cursor, and the page is blank behind them still.
  intro page _
  unfold smlBufPut store
  split <;> rfl

/-- A writer and a reader agree on a value: what is written is what is read. -/
def Carries {α : Type} (writer : Writer Unit) (reader : Reader α) (value : α) : Prop :=
  ∃ bytes, Writes writer bytes ∧ Reads reader bytes value

section Peek

variable {α : Type} {bytes data : List UInt8} {value : α}

/-- A question about the next byte is answered before it is read. -/
theorem reads_currentByte {next : UInt8 → Reader α} {first : UInt8}
    (head : bytes.head? = some first) (rest : Reads (next first) bytes value) :
    Reads (smlBufGetCurrentByte >>= next) bytes value := by
  -- The byte at the cursor is the first one of what is to be read.
  intro before after some
  obtain ⟨tail, rfl⟩ : ∃ tail, bytes = first :: tail := by
    cases bytes with
    | nil => simp at head
    | cons byte tail => exact ⟨tail, by simpa using head⟩
  have here := smlBufGetCurrentByte_append before first (tail ++ after) false
  rw [← List.cons_append, ← List.append_assoc] at here
  exact (Reader.bind_ok here).trans (rest before after some)

/-- A question about the next byte does not matter when its answer does not. -/
theorem reads_peek {next : UInt8 → Reader α} (rest : ∀ first, Reads (next first) bytes value) :
    Reads (smlBufGetCurrentByte >>= next) bytes value := by
  intro before after some
  -- Something follows, so there is a byte in any case.
  obtain ⟨first, tail, split⟩ : ∃ first tail, bytes ++ after = first :: tail :=
    List.exists_cons_of_ne_nil (by simp [some])
  have here := smlBufGetCurrentByte_append before first tail false
  rw [← split, ← List.append_assoc] at here
  exact (Reader.bind_ok here).trans (rest first before after some)

/-- There is always more than the bytes that are taken. -/
theorem reads_left {next : Nat → Reader α}
    (rest : ∀ left, bytes.length < left → Reads (next left) bytes value) :
    Reads (smlLeft >>= next) bytes value := by
  -- What is to be read is in the buffer, so it is not at its end.
  intro before after some
  have positive := List.length_pos_iff.mpr some
  have here : smlLeft ⟨before ++ bytes ++ after, before.length, false⟩ =
      .ok (bytes.length + after.length, ⟨before ++ bytes ++ after, before.length, false⟩) := by
    simp [smlLeft, Cursor.room]
  exact (Reader.bind_ok here).trans (rest _ (by omega) before after some)

/-- The type of a field is told by its first byte. -/
theorem reads_nextType {next : Option UInt8 → Reader α} {first : UInt8}
    (head : bytes.head? = some first)
    (rest : Reads (next (some (first &&& smlTypeField))) bytes value) :
    Reads (smlBufGetNextType >>= next) bytes value := by
  -- At the end of the buffer there would be an error, but there is a byte.
  have question : smlBufGetNextType >>= next = (do
      let left ← smlLeft
      if left = 0 then
        smlSetError
        next none
      else
        let byte ← smlBufGetCurrentByte
        next (some (byte &&& smlTypeField))) := by
    unfold smlBufGetNextType
    simp only [bind_assoc]
    refine congrArg _ (funext fun left => ?_)
    split <;> simp only [bind_assoc, pure_bind]
  rw [question]
  refine reads_left fun left more => ?_
  rw [if_neg (by omega)]
  exact reads_currentByte head rest

/-- A field that begins with another byte is not skipped. -/
theorem reads_present {next : Int → Reader α} {first : UInt8} (head : bytes.head? = some first)
    (other : first ≠ smlOptionalSkipped) (rest : Reads (next 0) bytes value) :
    Reads (smlBufOptionalIsSkipped >>= next) bytes value := by
  -- The byte is there, and it is not the one of a skipped field.
  have question : smlBufOptionalIsSkipped >>= next = (do
      let left ← smlLeft
      if left = 0 then
        smlSetError
        next (-1)
      else
        let byte ← smlBufGetCurrentByte
        if byte = smlOptionalSkipped then
          smlBufUpdateBytesRead 1
          next 1
        else
          next 0) := by
    unfold smlBufOptionalIsSkipped
    simp only [bind_assoc]
    refine congrArg _ (funext fun left => ?_)
    split
    · simp only [bind_assoc, pure_bind]
    · simp only [bind_assoc]
      refine congrArg _ (funext fun byte => ?_)
      split <;> simp only [bind_assoc, pure_bind]
  rw [question]
  refine reads_left fun left more => ?_
  rw [if_neg (by omega)]
  refine reads_currentByte head ?_
  rw [if_neg other]
  exact rest

/-- A field that is skipped is one byte. -/
theorem reads_skipped : Reads smlBufOptionalIsSkipped [smlOptionalSkipped] 1 := by
  -- The byte is there, and the cursor goes over it.
  refine reads_left fun left more => ?_
  rw [if_neg (by simp at more; omega)]
  refine reads_currentByte rfl ?_
  rw [if_pos rfl]
  intro before after _
  rfl

/-- Bytes are copied, and the cursor goes over them. -/
theorem reads_copy {f : List UInt8 → α} {count : Nat} (size : data.length = count) :
    Reads (do
      let data ← smlBufGetCurrentBuf count
      smlBufUpdateBytesRead count
      return f data) data (f data) := by
  -- The copy ends where the bytes do.
  intro before after _
  have here : smlBufGetCurrentBuf count ⟨before ++ data ++ after, before.length, false⟩ =
      .ok (data, ⟨before ++ data ++ after, before.length, false⟩) := by
    have found : ((before ++ data ++ after).drop before.length).take count = data := by
      rw [List.append_assoc, List.drop_left, List.take_left' size]
    simp only [smlBufGetCurrentBuf, copyBytes, found, size, if_true]
    rfl
  refine (Reader.bind_ok here).trans ?_
  rw [← size]
  rfl

/-- A byte is read, and the cursor goes over it. -/
theorem reads_byte {f : UInt8 → α} (byte : UInt8) :
    Reads (do
      let byte ← smlBufGetCurrentByte
      smlBufUpdateBytesRead 1
      return f byte) [byte] (f byte) := by
  -- A byte is the case of a copy of length one.
  refine reads_currentByte rfl ?_
  intro before after _
  rfl

end Peek

section Rules

variable {α β : Type} {writer others : Writer Unit} {parse : Reader α}
  {rest : α → Reader (Option β)} {value : α} {result : Option β}

/-- No error was noted before these bytes. -/
theorem reads_noErrors {next : Bool → Reader α} {bytes : List UInt8}
    (fine : Reads (next false) bytes value) : Reads (smlBufHasErrors >>= next) bytes value :=
  fun before after some => (Reader.bind_ok rfl).trans (fine before after some)

/-- A field and what follows it are read behind each other. -/
theorem reads_field {bytes more : List UInt8} (first : Reads parse bytes value)
    (second : Reads (rest value) more result) :
    Reads (field parse rest) (bytes ++ more) result :=
  first.bind <| reads_noErrors (by simpa using second)

/-- What a list consists of is read behind its length. -/
theorem reads_listed {next : Int → Reader (Option β)} {count : Nat} {more : List UInt8}
    (few : count < 16) (read : Reads (next count) more result) :
    Reads (do
      let type ← smlBufGetNextType
      if type ≠ some smlTypeList then failed
      else
        let length ← smlBufGetNextLength
        next length) (header smlTypeList count ++ more) result := by
  -- The type is looked at before the length, in the same byte.
  have kept : LengthKept smlTypeList count := by simpa [LengthKept] using few
  have small : count < 2 ^ 28 - 8 := by omega
  obtain ⟨some, four, _, _⟩ := @lengthGroups_small smlTypeList count small
  obtain ⟨first, tail, bytes, typeOf⟩ := @tlBytes_first smlTypeList (by decide) _ some four
  have head : (header smlTypeList count ++ more).head? = .some first := by
    rw [header, bytes]
    rfl
  refine reads_nextType head ?_
  rw [typeOf, if_neg (by simp)]
  exact (reads_header (by decide) small kept).bind read

/-- The fields of a list are read behind its length. -/
theorem reads_listOf {fields : Reader (Option β)} {count : Nat} {more : List UInt8}
    (few : count < 16) (read : Reads fields more result) :
    Reads (listOf count fields) (header smlTypeList count ++ more) result := by
  -- The number of elements is the one that is asked for.
  refine reads_listed few ?_
  rw [if_neg (by simp)]
  exact read

/-- The first byte of a field has its type, and is not that of a skipped field. -/
theorem header_first {type : UInt8} (typed : type ∈ fieldTypes) {l : Nat} (small : l < 2 ^ 28 - 8)
    (some : type = smlTypeOctetString → 0 < l) :
    ∃ first, (∀ more, (header type l ++ more).head? = .some first) ∧
      first &&& smlTypeField = type ∧ first ≠ smlOptionalSkipped := by
  -- The first byte has the type in its upper half and the highest group of the length below.
  obtain ⟨nonempty, four, _, _⟩ := @lengthGroups_small type l small
  obtain ⟨first, tail, bytes, typeOf⟩ := tlBytes_first typed nonempty four
  refine ⟨first, fun _ => by rw [header, bytes]; rfl, typeOf, fun skipped => ?_⟩
  -- Only a string has no bit of its type in the byte, and then it has one of its length.
  have string : type = smlTypeOctetString := typeOf.symm.trans (skipped ▸ rfl)
  subst string skipped
  have short : ∀ group < 16, smlTypeOctetString ||| UInt8.ofNat group = smlOptionalSkipped →
      group = 1 := by decide
  have long : ∀ group < 16,
      smlTypeOctetString ||| smlAnotherTl ||| UInt8.ofNat group ≠ smlOptionalSkipped := by decide
  cases groups : lengthGroups smlTypeOctetString l with
  | nil => exact nonempty groups
  | cons group others =>
    rw [groups] at bytes four
    cases others with
    | nil =>
      have one := short group (four _ (.head _)) (List.cons.inj bytes).1
      have counts : counted smlTypeOctetString l = l + 1 := if_neg (by decide)
      unfold lengthGroups at groups
      split at groups
      · have same := (List.cons.inj groups).1
        have positive := some rfl
        omega
      · have count := length_writtenGroups (counted smlTypeOctetString l)
          (Nat.log 16 (counted smlTypeOctetString l))
        have positive := (spread_log (Nat.le_of_not_lt ‹_›)).positive
        rw [groups, List.length_singleton] at count
        omega
    | cons next rest => exact long group (four _ (.head _)) (List.cons.inj bytes).1

/-- An optional field is read when it begins with another byte than a skipped one. -/
theorem reads_optional {parse : Reader (Option α)} {bytes : List UInt8} {value : Option α}
    {first : UInt8} (head : bytes.head? = .some first) (other : first ≠ smlOptionalSkipped)
    (read : Reads parse bytes value) : Reads (optional parse) bytes value :=
  reads_present head other read

/-- A field that is carried, and what follows it. -/
theorem Carries.field (first : Carries writer parse value)
    (second : Carries others (rest value) result) :
    Carries (do writer; others) (Libsml.field parse rest) result := by
  -- What is written in sequence is read in sequence.
  obtain ⟨bytes, wrote, read⟩ := first
  obtain ⟨more, wroteMore, readMore⟩ := second
  exact ⟨bytes ++ more, wrote.bind wroteMore, reads_field read readMore⟩

/-- The last field of a structure. -/
theorem Carries.last (first : Carries writer parse value) (done : rest value = pure result) :
    Carries writer (Libsml.field parse rest) result := by
  -- Behind the last field nothing is read.
  obtain ⟨bytes, wrote, read⟩ := first
  refine ⟨bytes ++ [], by rwa [List.append_nil], reads_field read ?_⟩
  exact done ▸ .pure result

/-- The length of a list is written as a header. -/
theorem writes_listed {more : List UInt8} {count : Nat} (few : count < 16)
    (wrote : Writes writer more) :
    Writes (do smlBufSetTypeAndLength smlTypeList count.toUInt32; writer)
      (header smlTypeList count ++ more) := by
  -- The number of elements fits in the four bits of a single byte.
  have word : count.toUInt32.toNat = count :=
    UInt32.toNat_ofNat_of_lt' (Nat.lt_trans few (by decide))
  have head := @writes_header smlTypeList count.toUInt32 (by rw [word]; omega)
  rw [word] at head
  exact head.bind wrote

/-- A list of things that are carried. -/
theorem Carries.listed {next : Int → Reader (Option β)} {count : Nat} (few : count < 16)
    (carried : Carries writer (next count) result) :
    Carries (do smlBufSetTypeAndLength smlTypeList count.toUInt32; writer) (do
      let type ← smlBufGetNextType
      if type ≠ some smlTypeList then failed
      else
        let length ← smlBufGetNextLength
        next length) result := by
  -- Writer and reader deal with the length in front of the elements.
  obtain ⟨bytes, wrote, read⟩ := carried
  exact ⟨_, writes_listed few wrote, reads_listed few read⟩

/-- A list of fields that are carried. -/
theorem Carries.listOf {fields : Reader (Option β)} (count : Nat) (few : count < 16)
    (carried : Carries writer fields result) :
    Carries (do smlBufSetTypeAndLength smlTypeList count.toUInt32; writer)
      (Libsml.listOf count fields) result := by
  -- Writer and reader deal with the length in front of the fields.
  obtain ⟨bytes, wrote, read⟩ := carried
  exact ⟨_, writes_listed few wrote, reads_listOf few read⟩

/-- An optional field that is skipped is none. -/
theorem reads_none {parse : Reader (Option α)} :
    Reads (optional parse) [smlOptionalSkipped] none := reads_skipped.bind (by exact .pure none)

/-- A field that is skipped is carried. -/
theorem Carries.skipped {parse : Reader (Option α)} :
    Carries smlBufOptionalWrite (optional parse) none := ⟨_, writes_put _, reads_none⟩

/-- A list is no skipped field. -/
theorem header_list {count : Nat} (few : count < 16) : ∃ first,
    (∀ more, (header smlTypeList count ++ more).head? = .some first) ∧
      first ≠ smlOptionalSkipped ∧ first ≠ smlMessageEnd := by
  -- A list has a type of its own, which the other two bytes do not have.
  obtain ⟨first, begins, typeOf, other⟩ :=
    @header_first smlTypeList (by decide) count (by omega) nofun
  refine ⟨first, begins, other, fun zero => ?_⟩
  subst zero
  exact absurd typeOf (by decide)

/-- An optional list of things that are carried. -/
theorem Carries.optionalListed {next : Int → Reader (Option β)} {count : Nat} (few : count < 16)
    (carried : Carries writer (next count) result) :
    Carries (do smlBufSetTypeAndLength smlTypeList count.toUInt32; writer) (optional do
      let type ← smlBufGetNextType
      if type ≠ some smlTypeList then failed
      else
        let length ← smlBufGetNextLength
        next length) result := by
  -- The first byte tells that the list is not skipped.
  obtain ⟨bytes, wrote, read⟩ := carried
  obtain ⟨first, begins, other, _⟩ := header_list few
  exact ⟨_, writes_listed few wrote, reads_optional (begins _) other (reads_listed few read)⟩

/-- An optional list of fields that are carried. -/
theorem Carries.optionalListOf {fields : Reader (Option β)} (count : Nat) (few : count < 16)
    (carried : Carries writer fields result) :
    Carries (do smlBufSetTypeAndLength smlTypeList count.toUInt32; writer)
      (optional (Libsml.listOf count fields)) result := by
  -- The first byte tells that the list is not skipped.
  obtain ⟨bytes, wrote, read⟩ := carried
  obtain ⟨first, begins, other, _⟩ := header_list few
  exact ⟨_, writes_listed few wrote, reads_optional (begins _) other (reads_listOf few read)⟩

/-- Elements that are carried are carried behind each other. -/
theorem Carries.elements {γ : Type} {write : γ → Writer Unit} {kept : γ → α} {items : List γ}
    (each : ∀ item ∈ items, Carries (write item) parse (kept item)) :
    Carries (items.forM write) (Libsml.elements parse items.length) (some (items.map kept)) := by
  -- The induction is on the items, which are linked behind each other.
  induction items with
  | nil => exact ⟨[], .pure, .pure _⟩
  | cons head tail ih =>
    obtain ⟨bytes, wrote, read⟩ := each head List.mem_cons_self
    obtain ⟨more, wroteMore, readMore⟩ := ih fun item member => each item (.tail _ member)
    refine ⟨bytes ++ more, wrote.bind wroteMore, reads_field read ?_⟩
    have linked : Reads (Libsml.elements parse tail.length >>= fun rest =>
        pure (rest.map (kept head :: ·))) (more ++ []) (some (kept head :: tail.map kept)) :=
      readMore.bind (.pure _)
    rwa [List.append_nil] at linked

/-- A value that is read may be changed afterwards. -/
theorem reads_map {γ : Type} {bytes : List UInt8} (read : Reads parse bytes value) (f : α → γ) :
    Reads (do let value ← parse; return f value) bytes (f value) := by
  -- The change takes no byte.
  have mapped : Reads (parse >>= fun value => pure (f value)) (bytes ++ []) (f value) :=
    read.bind (.pure _)
  rwa [List.append_nil] at mapped

/-- A structure is not given up where there was no error. -/
theorem reads_given {bytes : List UInt8} (read : Reads parse bytes value) (build : α → β) :
    Reads (do let value ← parse; unlessError (build value)) bytes (some (build value)) := by
  -- The question for an error takes no byte.
  have fine : Reads (unlessError (build value)) [] (some (build value)) :=
    reads_noErrors (.pure _)
  have given : Reads (parse >>= fun value => unlessError (build value)) (bytes ++ [])
      (some (build value)) := read.bind fine
  rwa [List.append_nil] at given

end Rules

end OpenwrtMisc.Libsml
