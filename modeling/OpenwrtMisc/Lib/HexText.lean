import OpenwrtMisc.Lib.CString

/-! Texts in lines, and bytes that are written as two hexadecimal digits each. -/

namespace OpenwrtMisc

/-- The character that ends a line. -/
def newline : UInt8 := 0x0a

/-- The first line of a text, with the newline that ends it. -/
def firstLine : List UInt8 → List UInt8
  | [] => []
  | byte :: rest => if byte = newline then [byte] else byte :: firstLine rest

/-- The lines of a text, the last of which may have no newline. -/
def lines : List UInt8 → List (List UInt8)
  | [] => []
  | byte :: rest =>
    if byte = newline then [byte] :: lines rest
    else
      match lines rest with
      | [] => [[byte]]
      | line :: later => (byte :: line) :: later

/-- The bytes that a text of hexadecimal digits denotes, high digit first. -/
def hexBytes : List UInt8 → Option (List UInt8)
  | [] => some []
  | [_] => none
  | high :: low :: rest =>
    match digitOf 16 high, digitOf 16 low with
    | some high, some low => (hexBytes rest).map (UInt8.ofNat (16 * high + low) :: ·)
    | _, _ => none

/-- A text that is not empty has a line. -/
theorem firstLine_ne_nil {text : List UInt8} (some : text ≠ []) : firstLine text ≠ [] := by
  -- A line holds the first character in any case.
  cases text with
  | nil => exact absurd rfl some
  | cons byte rest =>
    unfold firstLine
    split <;> exact List.cons_ne_nil _ _

/-- A text starts with its first line. -/
theorem firstLine_isPrefix (text : List UInt8) : firstLine text <+: text := by
  -- The induction is on the text, up to the first newline.
  induction text with
  | nil => exact List.nil_prefix
  | cons byte rest ih =>
    unfold firstLine
    split
    · exact ⟨rest, rfl⟩
    · exact (List.prefix_cons_inj byte).mpr ih

/-- The first line of a text is taken by its length. -/
theorem take_firstLine (text : List UInt8) :
    text.take (firstLine text).length = firstLine text :=
  (List.prefix_iff_eq_take.mp (firstLine_isPrefix text)).symm

/-- The lines of a text are its first line and those of what is behind. -/
theorem lines_eq {text : List UInt8} (some : text ≠ []) :
    lines text = firstLine text :: lines (text.drop (firstLine text).length) := by
  -- The induction is on the text: the first character ends the line, or belongs to it.
  induction text with
  | nil => exact absurd rfl some
  | cons byte rest ih =>
    by_cases ends : byte = newline
    · rw [lines, firstLine, if_pos ends, if_pos ends]
      rfl
    · rw [lines, firstLine, if_neg ends, if_neg ends]
      cases rest with
      | nil => rfl
      | cons next later =>
        rw [ih (List.cons_ne_nil _ _)]
        rfl

/-- No line is empty. -/
theorem ne_nil_of_mem_lines {text line : List UInt8} (member : line ∈ lines text) : line ≠ [] := by
  -- The induction is on the text, whose first character is part of some line.
  induction text generalizing line with
  | nil => cases member
  | cons byte rest ih =>
    unfold lines at member
    split at member
    · rcases List.mem_cons.mp member with rfl | later
      · exact List.cons_ne_nil _ _
      · exact ih later
    · split at member
      · rw [List.mem_singleton.mp member]
        exact List.cons_ne_nil _ _
      · rename_i first later shape
        rcases List.mem_cons.mp member with rfl | found
        · exact List.cons_ne_nil _ _
        · exact ih (shape ▸ List.mem_cons_of_mem _ found)

/-- Inside of a line there is no newline. -/
theorem ne_newline_of_lt {text : List UInt8} {k : Nat} (inside : k + 1 < (firstLine text).length) :
    text[k]? ≠ some newline := by
  -- The induction is on the text: a newline ends the line, so none is inside.
  induction text generalizing k with
  | nil => exact absurd inside (Nat.not_lt_zero _)
  | cons byte rest ih =>
    unfold firstLine at inside
    split at inside
    · exact absurd inside (by simp)
    · rename_i other
      cases k with
      | zero => simpa using other
      | succ k =>
        rw [List.getElem?_cons_succ]
        exact ih (by simpa using inside)

/-- A line that something is behind ends with a newline. -/
theorem getLast?_firstLine {text : List UInt8} (left : (firstLine text).length < text.length) :
    (firstLine text).getLast? = some newline := by
  -- The induction is on the text, whose first line stops at a newline only.
  induction text with
  | nil => exact absurd left (Nat.lt_irrefl 0)
  | cons byte rest ih =>
    unfold firstLine at left ⊢
    split
    · rename_i ends
      rw [ends]
      rfl
    · rename_i other
      rw [if_neg other] at left
      simp only [List.length_cons, Nat.add_lt_add_iff_right] at left
      have some : rest ≠ [] := fun empty => by simp [empty, firstLine] at left
      rw [List.getLast?_cons_of_ne_nil (firstLine_ne_nil some)]
      exact ih left

/-- Inside of a line the first line is what is left of it. -/
theorem firstLine_drop {text : List UInt8} {k : Nat} (inside : k < (firstLine text).length) :
    firstLine (text.drop k) = (firstLine text).drop k := by
  -- The induction is on the text, of which the line keeps what is not dropped.
  induction text generalizing k with
  | nil => exact absurd inside (Nat.not_lt_zero _)
  | cons byte rest ih =>
    cases k with
    | zero => rfl
    | succ k =>
      unfold firstLine at inside
      split at inside
      · exact absurd inside (by simp)
      · rename_i other
        have same : firstLine (byte :: rest) = byte :: firstLine rest := by
          rw [firstLine, if_neg other]
        rw [same, List.drop_succ_cons, List.drop_succ_cons]
        exact ih (by simpa using inside)

/-- Inside of a line the lines that follow are the same. -/
theorem lines_drop {text : List UInt8} {k : Nat} (inside : k < (firstLine text).length) :
    lines (text.drop k) =
      (firstLine text).drop k :: lines (text.drop (firstLine text).length) := by
  -- What is dropped leaves the end of the line where it was.
  have shorter : k < text.length := Nat.lt_of_lt_of_le inside (firstLine_isPrefix text).length_le
  have some : text.drop k ≠ [] := fun empty => absurd (List.drop_eq_nil_iff.mp empty) (by omega)
  rw [lines_eq some, firstLine_drop inside, List.drop_drop, List.length_drop]
  have total : k + ((firstLine text).length - k) = (firstLine text).length := by omega
  rw [total]

/-- Two digits for each byte. -/
theorem length_hexBytes {text bytes : List UInt8} (read : hexBytes text = some bytes) :
    text.length = 2 * bytes.length := by
  -- The induction is on the pairs of digits.
  induction text using hexBytes.induct generalizing bytes with
  | case1 =>
    cases read
    rfl
  | case2 => cases read
  | case3 high low rest first second _ _ ih =>
    simp only [hexBytes, *, Option.map_eq_some_iff] at read
    obtain ⟨tail, found, rfl⟩ := read
    have rest := ih found
    simp only [List.length_cons]
    omega
  | case4 high low rest fails =>
    unfold hexBytes at read
    split at read
    · rename_i one two
      exact (fails _ _ one two).elim
    · cases read

/-- All characters are digits. -/
theorem isSome_of_hexBytes {text bytes : List UInt8} (read : hexBytes text = some bytes) :
    ∀ byte ∈ text, (digitOf 16 byte).isSome := by
  -- The induction is on the pairs of digits, of which each was read.
  induction text using hexBytes.induct generalizing bytes with
  | case1 => simp
  | case2 => cases read
  | case3 high low rest first second one two ih =>
    simp only [hexBytes, one, two, Option.map_eq_some_iff] at read
    obtain ⟨tail, found, rfl⟩ := read
    simp only [List.forall_mem_cons, one, two, Option.isSome_some, true_and]
    exact ih found
  | case4 high low rest fails =>
    unfold hexBytes at read
    split at read
    · rename_i one two
      exact (fails _ _ one two).elim
    · cases read

/-- Texts of whole bytes are read one behind the other. -/
theorem hexBytes_append {first second bytes : List UInt8} (count : Nat)
    (whole : first.length = 2 * count) (read : hexBytes (first ++ second) = some bytes) :
    hexBytes first = some (bytes.take count) ∧ hexBytes second = some (bytes.drop count) := by
  -- The induction is on the bytes of the first text.
  induction count generalizing first bytes with
  | zero =>
    obtain rfl := List.length_eq_zero_iff.mp whole
    exact ⟨rfl, read⟩
  | succ count ih =>
    rcases first with _ | ⟨high, _ | ⟨low, rest⟩⟩
    · simp at whole
    · simp at whole
      omega
    · simp only [List.length_cons] at whole
      rw [List.cons_append, List.cons_append, hexBytes] at read
      rw [hexBytes]
      split at read
      · simp only [Option.map_eq_some_iff] at read
        obtain ⟨tail, found, rfl⟩ := read
        obtain ⟨before, behind⟩ := ih (by omega) found
        simp only [before, Option.map_some, List.take_succ_cons, List.drop_succ_cons]
        exact ⟨trivial, behind⟩
      · cases read

/-- The digits of one byte, at its place in the text. -/
theorem hexBytes_getElem? {text bytes : List UInt8} (read : hexBytes text = some bytes) {i : Nat}
    {byte : UInt8} (found : bytes[i]? = some byte) :
    hexBytes ((text.drop (2 * i)).take 2) = some [byte] := by
  -- The text is cut in front of the byte, and behind it.
  obtain ⟨inside, rfl⟩ := List.getElem?_eq_some_iff.mp found
  have size := length_hexBytes read
  have before : (text.take (2 * i)).length = 2 * i := List.length_take_of_le (by omega)
  have one : ((text.drop (2 * i)).take 2).length = 2 * 1 := by
    rw [List.length_take, List.length_drop]
    omega
  rw [← List.take_append_drop (2 * i) text] at read
  have behind := (hexBytes_append i before read).2
  rw [← List.take_append_drop 2 (text.drop (2 * i))] at behind
  rw [(hexBytes_append 1 one behind).1, List.drop_eq_getElem_cons inside]
  rfl

/-- Two digits make one byte. -/
theorem hexBytes_pair {high low byte : UInt8} :
    hexBytes [high, low] = some [byte] ↔
      ∃ first second, digitOf 16 high = some first ∧ digitOf 16 low = some second ∧
        byte = UInt8.ofNat (16 * first + second) := by
  -- Nothing is left behind the two digits.
  unfold hexBytes
  constructor
  · intro read
    split at read
    · rename_i first second one two
      exact ⟨first, second, one, two, by simpa [hexBytes] using read.symm⟩
    · cases read
  · rintro ⟨first, second, one, two, rfl⟩
    simp [one, two, hexBytes]

/-- A digit is less than its number system. -/
theorem digitOf_lt {base digit : Nat} {byte : UInt8} (read : digitOf base byte = some digit) :
    digit < base := by
  -- A digit was compared with its base.
  simp only [digitOf, Option.ite_none_right_eq_some, Option.some.injEq] at read
  obtain ⟨small, rfl⟩ := read
  exact small

end OpenwrtMisc
