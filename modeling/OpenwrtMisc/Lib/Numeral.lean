import OpenwrtMisc.Lib.CString

/-! Numerals of C, and what `strtoul` makes of a text that is a numeral as a whole. -/

namespace OpenwrtMisc

/-- Texts of digits of a number system, one digit at least. -/
def Digits (base : Nat) (text : List UInt8) : Prop :=
  text ≠ [] ∧ ∀ byte ∈ text, (digitOf base byte).isSome

/-- The number that digits denote. -/
def valueOf (base : Nat) (digits : List UInt8) : Nat :=
  (digits.filterMap (digitOf base)).foldl (fun value digit => base * value + digit) 0

/-- Numbers without a sign, whose first characters tell the number system. -/
inductive UnsignedNumeral : List UInt8 → Nat → Prop
  | decimal {first : UInt8} {rest : List UInt8} (leading : first ≠ 0x30)
      (digits : Digits 10 (first :: rest)) :
      UnsignedNumeral (first :: rest) (valueOf 10 (first :: rest))
  | octal {rest : List UInt8} (digits : Digits 8 (0x30 :: rest)) :
      UnsignedNumeral (0x30 :: rest) (valueOf 8 (0x30 :: rest))
  | hexadecimal {mark : UInt8} {rest : List UInt8} (marked : mark = 0x78 ∨ mark = 0x58)
      (digits : Digits 16 rest) : UnsignedNumeral (0x30 :: mark :: rest) (valueOf 16 rest)

/-- Numerals: white space, a plus sign or none, and a number. -/
def IsNumeral (text : List UInt8) (value : Nat) : Prop :=
  ∃ spaces sign number, text = spaces ++ (sign ++ number) ∧ (∀ byte ∈ spaces, IsSpace byte) ∧
    (sign = [] ∨ sign = [0x2b]) ∧ UnsignedNumeral number value

/-- The number at the start of a text that has no sign, and the text behind it. -/
def scanUnsigned (text : List UInt8) : Option (Nat × List UInt8) :=
  let (base, digits) := detectBase text
  let number := digits.takeWhile fun byte => (digitOf base byte).isSome
  if number = [] then none else some (valueOf base number, digits.drop number.length)

/-- The number at the start of a text, however large: its minus sign, its value, what is behind. -/
def scanNumber (text : List UInt8) : Option (Bool × Nat × List UInt8) :=
  let (negative, unsigned) := detectSign (text.dropWhile (IsSpace ·))
  (scanUnsigned unsigned).map fun (value, rest) => (negative, value, rest)

/-- `ERANGE`. -/
def erange : Nat := 34

/--
What `strtoul` leaves in `errno`, which was 0 before.

Without a number some C libraries leave an error there and some do not.
-/
def strtoulErrno (longBits unconverted : Nat) (text : List UInt8) : Nat :=
  match scanNumber text with
  | none => unconverted
  | some (_, value, _) => if 2 ^ longBits ≤ value then erange else 0

/-- `strtoul` cuts the number that it finds to the largest one. -/
theorem strtoul_eq (longBits : Nat) (text : List UInt8) :
    strtoul longBits text = (scanNumber text).elim (0, text) fun found =>
      if 2 ^ longBits ≤ found.2.1 then (2 ^ longBits - 1, found.2.2)
      else (if found.1 then (2 ^ longBits - found.2.1) % 2 ^ longBits else found.2.1,
        found.2.2) := by
  unfold strtoul scanNumber scanUnsigned
  rcases detectSign (text.dropWhile (IsSpace ·)) with ⟨negative, unsigned⟩
  dsimp only
  rcases detectBase unsigned with ⟨base, digits⟩
  dsimp only
  -- Both stop at the same place, and without a digit at the start of the text.
  split
  · rfl
  · rfl

/-- A text is read to its end when it has digits and nothing else behind its prefix. -/
theorem scanUnsigned_whole {text : List UInt8} {value : Nat} :
    scanUnsigned text = some (value, []) ↔
      Digits (detectBase text).1 (detectBase text).2 ∧
        valueOf (detectBase text).1 (detectBase text).2 = value := by
  -- The prefix is read first, and the digits behind it in the base that it says.
  unfold scanUnsigned Digits
  generalize detectBase text = found
  obtain ⟨base, digits⟩ := found
  dsimp only
  constructor
  · intro scanned
    split at scanned
    · cases scanned
    · rename_i some
      simp only [Option.some.injEq, Prod.mk.injEq, List.drop_eq_nil_iff] at scanned
      obtain ⟨same, ends⟩ := scanned
      -- The digits that were taken are all there are.
      have taken : digits.takeWhile (fun byte => (digitOf base byte).isSome) <+: digits :=
        List.takeWhile_prefix _
      have all := taken.eq_of_length_le ends
      rw [all] at same some
      exact ⟨⟨some, List.takeWhile_eq_self_iff.mp all⟩, same⟩
  · intro given
    rcases given with ⟨⟨some, all⟩, rfl⟩
    rw [List.takeWhile_eq_self_iff.mpr all, if_neg some, List.drop_length]

/-- A number that does not start with zero is decimal. -/
theorem detectBase_decimal {first : UInt8} {rest : List UInt8} (leading : first ≠ 0x30) :
    detectBase (first :: rest) = (10, first :: rest) := by
  -- The other bases begin with a zero.
  unfold detectBase
  split <;> simp_all

/-- A zero and a mark before digits ask for the hexadecimal system. -/
theorem detectBase_hexadecimal {mark first : UInt8} {rest : List UInt8}
    (marked : mark = 0x78 ∨ mark = 0x58) (digit : (digitOf 16 first).isSome) :
    detectBase (0x30 :: mark :: first :: rest) = (16, first :: rest) := by
  simp [detectBase, marked, digit]

/-- Any other zero asks for the octal system, and belongs to the number. -/
theorem detectBase_octal {rest : List UInt8}
    (other : ∀ mark first later, rest = mark :: first :: later →
      ¬ ((mark = 0x78 ∨ mark = 0x58) ∧ (digitOf 16 first).isSome)) :
    detectBase (0x30 :: rest) = (8, 0x30 :: rest) := by
  -- The mark of the hexadecimal system is missing, or has no digit behind it.
  rcases rest with _ | ⟨mark, _ | ⟨first, later⟩⟩
  · rfl
  · rfl
  · simp only [detectBase, if_neg (other mark first later rfl)]

/-- The marks of the hexadecimal system are not octal digits. -/
theorem mark_not_octal {mark : UInt8} (marked : mark = 0x78 ∨ mark = 0x58) :
    (digitOf 8 mark).isSome = false := by
  rcases marked with rfl | rfl <;> rfl

/-- The numbers without a sign are the texts that are read to their end. -/
theorem unsignedNumeral_iff {text : List UInt8} {value : Nat} :
    UnsignedNumeral text value ↔ scanUnsigned text = some (value, []) := by
  -- The cases of either direction are the three bases.
  rw [scanUnsigned_whole]
  constructor
  · intro numeral
    cases numeral with
    | decimal leading digits =>
      rw [detectBase_decimal leading]
      exact ⟨digits, rfl⟩
    | @octal rest digits =>
      -- What follows the zero is an octal digit, so no mark.
      have plain : detectBase (0x30 :: rest) = (8, 0x30 :: rest) :=
        detectBase_octal fun mark first later shape marked => by
          have digit := digits.2 mark (by simp [shape])
          rw [mark_not_octal marked.1] at digit
          cases digit
      rw [plain]
      exact ⟨digits, rfl⟩
    | @hexadecimal mark rest marked digits =>
      obtain ⟨some, all⟩ := digits
      rcases rest with _ | ⟨first, later⟩
      · exact absurd rfl some
      · rw [detectBase_hexadecimal marked (all first List.mem_cons_self)]
        exact ⟨⟨some, all⟩, rfl⟩
  · intro given
    rcases given with ⟨digits, rfl⟩
    rcases text with _ | ⟨zero, rest⟩
    · exact absurd rfl digits.1
    · by_cases leading : zero = 0x30
      · subst leading
        by_cases prefixed : ∃ mark first later, rest = mark :: first :: later ∧
            (mark = 0x78 ∨ mark = 0x58) ∧ (digitOf 16 first).isSome
        · obtain ⟨mark, first, later, rfl, marked, digit⟩ := prefixed
          rw [detectBase_hexadecimal marked digit] at digits ⊢
          exact .hexadecimal marked digits
        · have plain : detectBase (0x30 :: rest) = (8, 0x30 :: rest) :=
            detectBase_octal fun mark first later shape marked =>
              prefixed ⟨mark, first, later, shape, marked⟩
          rw [plain] at digits ⊢
          exact .octal digits
      · rw [detectBase_decimal leading] at digits ⊢
        exact .decimal leading digits

/-- A number starts with a digit. -/
theorem UnsignedNumeral.head {text : List UInt8} {value : Nat}
    (numeral : UnsignedNumeral text value) :
    ∃ first rest, text = first :: rest ∧ IsDigit first := by
  -- The cases are the three bases.
  cases numeral with
  | @decimal first rest leading digits =>
    refine ⟨first, rest, rfl, ?_⟩
    have digit := digits.2 first List.mem_cons_self
    by_contra other
    -- Letters stand for ten and more.
    simp only [digitOf, if_neg other] at digit
    split at digit
    · simp at digit
    · split at digit <;> simp at digit
  | octal digits => exact ⟨_, _, rfl, by decide⟩
  | hexadecimal marked digits => exact ⟨_, _, rfl, by decide⟩

/-- Without a minus sign a number is not negative. -/
theorem detectSign_plain {text : List UInt8} (plain : 0x2d ∉ text) :
    (detectSign text).1 = false := by
  -- A plus sign changes nothing.
  unfold detectSign
  split
  · exact absurd List.mem_cons_self plain
  · rfl
  · rfl

/-- The numerals are the texts that are read to their end, without a minus sign. -/
theorem isNumeral_iff {text : List UInt8} {value : Nat} (plain : 0x2d ∉ text) :
    IsNumeral text value ↔ scanNumber text = some (false, value, []) := by
  -- White space and a sign come in front of the number without a sign.
  have positive : (detectSign (text.dropWhile (IsSpace ·))).1 = false :=
    detectSign_plain fun member => plain ((List.dropWhile_sublist _).mem member)
  have scanned : scanNumber text = some (false, value, []) ↔
      UnsignedNumeral (detectSign (text.dropWhile (IsSpace ·))).2 value := by
    rw [unsignedNumeral_iff]
    simp [scanNumber, positive]
  rw [scanned]
  constructor
  · intro numeral
    obtain ⟨spaces, sign, number, rfl, skipped, signed, numeral⟩ := numeral
    obtain ⟨first, rest, rfl, digit⟩ := numeral.head
    obtain ⟨notSpace, notMinus, notPlus⟩ := digit.plain
    -- The white space ends where the sign or the number starts.
    have behind : (spaces ++ (sign ++ first :: rest)).dropWhile (IsSpace ·) =
        sign ++ first :: rest := by
      have starts : (sign ++ first :: rest).dropWhile (IsSpace ·) = sign ++ first :: rest := by
        rcases signed with rfl | rfl
        · simp [notSpace]
        · simp [show ¬ IsSpace 0x2b by decide]
      rw [List.dropWhile_append, List.dropWhile_eq_nil_iff.mpr (by simpa using skipped), starts]
      rfl
    rw [behind]
    rcases signed with rfl | rfl
    · have unsigned : detectSign (first :: rest) = (false, first :: rest) := by
        unfold detectSign
        split <;> simp_all
      rw [List.nil_append, unsigned]
      exact numeral
    · exact numeral
  · intro numeral
    refine ⟨text.takeWhile (IsSpace ·), ?_⟩
    have whole := List.takeWhile_append_dropWhile (p := (IsSpace ·)) (l := text)
    have spaces : ∀ byte ∈ text.takeWhile (IsSpace ·), IsSpace byte := fun byte member => by
      simpa using List.mem_takeWhile_imp member
    generalize text.dropWhile (IsSpace ·) = behind at *
    unfold detectSign at positive numeral
    split at numeral
    · cases positive
    · exact ⟨[0x2b], _, whole.symm, spaces, .inr rfl, numeral⟩
    · exact ⟨[], _, whole.symm, spaces, .inl rfl, numeral⟩

/-- A text without a minus sign has a number that is not negative, or none. -/
theorem scanNumber_plain {text rest : List UInt8} {negative : Bool} {value : Nat}
    (plain : 0x2d ∉ text) (scanned : scanNumber text = some (negative, value, rest)) :
    negative = false := by
  -- Skipping the spaces does not bring a sign.
  have positive : (detectSign (text.dropWhile (IsSpace ·))).1 = false :=
    detectSign_plain fun member => plain ((List.dropWhile_sublist _).mem member)
  simp only [scanNumber, Option.map_eq_some_iff, Prod.mk.injEq] at scanned
  obtain ⟨_, _, same, _⟩ := scanned
  exact same.symm.trans positive

/-- A text has one value at most. -/
theorem IsNumeral.unique {text : List UInt8} {first second : Nat} (plain : 0x2d ∉ text)
    (one : IsNumeral text first) (other : IsNumeral text second) : first = second := by
  -- The value is what the scan of the text finds.
  have same := ((isNumeral_iff plain).mp one).symm.trans ((isNumeral_iff plain).mp other)
  simpa using same

/-- A numeral is not empty. -/
theorem IsNumeral.ne_nil {text : List UInt8} {value : Nat} (numeral : IsNumeral text value) :
    text ≠ [] := by
  -- A number has at least one digit.
  obtain ⟨spaces, sign, number, rfl, _, _, unsigned⟩ := numeral
  obtain ⟨first, rest, rfl, _⟩ := unsigned.head
  simp

end OpenwrtMisc
