import OpenwrtMisc.Lib.Checked

/-! Readers of a buffer, which move a cursor and may note an error, and what they do in total. -/

namespace OpenwrtMisc

/-- A buffer with the place of its next byte, and whether an error was noted. -/
structure Cursor where
  bytes : List UInt8
  place : Nat
  error : Bool
  deriving DecidableEq, Repr

/-- Programs that read a buffer, and fail where they leave it. -/
abbrev Reader (α : Type) : Type := StateT Cursor (Except Fault) α

namespace Cursor

/-- A cursor that has not left its buffer. -/
def Inside (cursor : Cursor) : Prop := cursor.place ≤ cursor.bytes.length

/-- The bytes from the cursor on. -/
def room (cursor : Cursor) : Nat := cursor.bytes.length - cursor.place

/-- The way from a cursor to a later one over the same buffer, on which no error is forgotten. -/
structure Moves (before after : Cursor) : Prop where
  bytes : after.bytes = before.bytes
  forward : before.place ≤ after.place
  inside : after.Inside
  error : before.error = true → after.error = true

variable {before between after : Cursor}

/-- A cursor that stays has moved. -/
theorem Moves.refl {cursor : Cursor} (inside : cursor.Inside) : Moves cursor cursor :=
  ⟨rfl, Nat.le_refl _, inside, id⟩

/-- Two ways are one. -/
theorem Moves.trans (one : Moves before between) (two : Moves between after) :
    Moves before after where
  bytes := two.bytes.trans one.bytes
  forward := Nat.le_trans one.forward two.forward
  inside := two.inside
  error := two.error ∘ one.error

/-- Room is not won on the way. -/
theorem Moves.room_le (moves : Moves before after) : after.room ≤ before.room := by
  -- The buffer is the same, and the place is no smaller.
  have forward := moves.forward
  simp only [room, moves.bytes]
  omega

/-- Room is lost on a way that is not empty. -/
theorem Moves.room_lt (moves : Moves before after) (further : before.place < after.place) :
    after.room < before.room := by
  -- The buffer is the same, and the place is greater.
  have inside := moves.inside
  simp only [Inside, moves.bytes] at inside
  simp only [room, moves.bytes]
  omega

end Cursor

section Reader

variable {α β : Type}

/-- A reader comes to an end from a cursor, with a result and a cursor that are as told. -/
def Runs (reader : Reader α) (before : Cursor) (post : α → Cursor → Prop) : Prop :=
  ∃ value after, reader before = .ok (value, after) ∧ post value after

namespace Runs

variable {reader : Reader α} {next : α → Reader β} {before : Cursor}

/-- A value is returned where the cursor stands. -/
theorem pure {value : α} {post : α → Cursor → Prop} (holds : post value before) :
    Runs (Pure.pure value) before post := ⟨value, before, rfl, holds⟩

/-- A result may be told with less. -/
theorem weaken {post wanted : α → Cursor → Prop} (runs : Runs reader before post)
    (less : ∀ value after, post value after → wanted value after) : Runs reader before wanted := by
  -- The run is the same.
  obtain ⟨value, after, ran, holds⟩ := runs
  exact ⟨value, after, ran, less value after holds⟩

/-- The second reader goes on from where the first one ends. -/
theorem bind {middle : α → Cursor → Prop} {post : β → Cursor → Prop}
    (first : Runs reader before middle)
    (rest : ∀ value between, middle value between → Runs (next value) between post) :
    Runs (reader >>= next) before post := by
  obtain ⟨value, between, ran, holds⟩ := first
  obtain ⟨result, after, ended, wanted⟩ := rest value between holds
  refine ⟨result, after, ?_, wanted⟩
  -- The sequence is decided by the outcome of its first part.
  change Except.bind (reader before) _ = _
  rw [ran]
  exact ended

/-- A branch of two. -/
theorem ite {condition : Prop} [Decidable condition] {other : Reader α}
    {post : α → Cursor → Prop} (one : condition → Runs reader before post)
    (two : ¬ condition → Runs other before post) :
    Runs (if condition then reader else other) before post := by
  split
  · exact one ‹_›
  · exact two ‹_›

end Runs

/-- A reader stays inside its buffer, and its value is as told unless there is an error. -/
def Gives (P : α → Prop) (reader : Reader α) (before : Cursor) : Prop :=
  Runs reader before fun value after => before.Moves after ∧ (after.error = false → P value)

namespace Gives

variable {P : α → Prop} {Q : β → Prop} {reader : Reader α} {next : α → Reader β}
  {before : Cursor}

/-- A value that is as told is given where the cursor stands. -/
theorem pure {value : α} (inside : before.Inside) (holds : P value) :
    Gives P (Pure.pure value) before := Runs.pure ⟨.refl inside, fun _ => holds⟩

/-- The second reader gives what it does from where the first one ends. -/
theorem bind {post : α → Cursor → Prop}
    (first : Runs reader before fun value after => before.Moves after ∧ post value after)
    (rest : ∀ value between, before.Moves between → post value between →
      Gives Q (next value) between) : Gives Q (reader >>= next) before := by
  refine Runs.bind first fun value between told => ?_
  refine (rest value between told.1 told.2).weaken fun _ _ more => ?_
  exact ⟨told.1.trans more.1, more.2⟩

/-- A branch of two. -/
theorem ite {condition : Prop} [Decidable condition] {other : Reader α}
    (one : condition → Gives P reader before) (two : ¬ condition → Gives P other before) :
    Gives P (if condition then reader else other) before := Runs.ite one two

end Gives

/-- With so much room at most, whatever it holds, a reader comes to an end inside the buffer. -/
def Safe (room : Nat) (reader : Reader α) : Prop :=
  ∀ before : Cursor, before.Inside → before.room ≤ room →
    Runs reader before fun _ after => before.Moves after

namespace Safe

variable {room : Nat} {reader : Reader α} {next : α → Reader β}

/-- A reader that gives a value stays inside its buffer. -/
theorem of_gives {P : Cursor → α → Prop} (gives : ∀ before : Cursor, before.Inside →
    before.room ≤ room → Gives (P before) reader before) : Safe room reader :=
  fun before inside within => Runs.weaken (gives before inside within) fun _ _ told => told.1

/-- A safe reader gives some value. -/
theorem gives (safe : Safe room reader) {before : Cursor} (inside : before.Inside)
    (within : before.room ≤ room) : Gives (fun _ => True) reader before :=
  Runs.weaken (safe before inside within) fun _ _ moves => ⟨moves, fun _ => trivial⟩

/-- A value is no access. -/
theorem pure (value : α) : Safe room (Pure.pure value) :=
  fun _ inside _ => Runs.pure (.refl inside)

/-- Two safe readers after each other are safe. -/
theorem bind (first : Safe room reader) (rest : ∀ value, Safe room (next value)) :
    Safe room (reader >>= next) := by
  intro before inside within
  refine (first before inside within).bind fun value between moves => ?_
  -- The second reader has no more room than the first one had.
  have left := Nat.le_trans moves.room_le within
  exact (rest value between moves.inside left).weaken fun _ _ more => moves.trans more

/-- A branch of two. -/
theorem ite {condition : Prop} [Decidable condition] {other : Reader α}
    (one : condition → Safe room reader) (two : ¬ condition → Safe room other) :
    Safe room (if condition then reader else other) := by
  split
  · exact one ‹_›
  · exact two ‹_›

end Safe

/--
A reader takes these bytes for this value, wherever they stand, and leaves what follows.

There must follow something: a reader may ask for more room than its own bytes need.
-/
def Reads (reader : Reader α) (bytes : List UInt8) (value : α) : Prop :=
  ∀ before after : List UInt8, after ≠ [] →
    reader ⟨before ++ bytes ++ after, before.length, false⟩ =
      .ok (value, ⟨before ++ bytes ++ after, before.length + bytes.length, false⟩)

namespace Reads

variable {reader : Reader α} {next : α → Reader β} {bytes more : List UInt8} {value : α}
  {result : β}

/-- A value needs no byte. -/
theorem pure (value : α) : Reads (Pure.pure value) [] value := by
  intro before after _
  rw [List.length_nil, Nat.add_zero]
  rfl

/-- Bytes of two readers. -/
theorem bind (first : Reads reader bytes value) (rest : Reads (next value) more result) :
    Reads (reader >>= next) (bytes ++ more) result := by
  intro before after some
  have one := first before (more ++ after) (by simp [some])
  have two := rest (before ++ bytes) after some
  -- Both stand in the same buffer, which is only cut at other places.
  rw [List.append_assoc before, ← List.append_assoc bytes, ← List.append_assoc] at one
  rw [List.length_append, List.append_assoc before] at two
  change Except.bind (reader _) _ = _
  rw [one]
  refine two.trans ?_
  rw [List.length_append, Nat.add_assoc]

end Reads

end Reader

end OpenwrtMisc
