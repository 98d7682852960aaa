import OpenwrtMisc.Lib.Numeral

/-! Numbers on the command line of the register tools. -/

namespace OpenwrtMisc.ShowGpio

/-- `LONG_MAX` and `LONG_MIN`. -/
def longMax : Int := 2 ^ 63 - 1
def longMin : Int := -2 ^ 63

/--
What both functions do with a text: the result, and `*number` after it.

The number goes through a `long` before it is assigned to the type that is asked for.
-/
def parseNumber {bits : Nat} (assign : BitVec 64 → BitVec bits) (unconverted : Nat)
    (number : BitVec bits) (str : List UInt8) : Int × BitVec bits :=
  let errno := strtoulErrno 64 unconverted str
  let value := BitVec.ofNat 64 (strtoul 64 str).1
  let endptr := (strtoul 64 str).2
  if errno = erange ∧ (value.toInt = longMax ∨ value.toInt = longMin) then (-1, number)
  else if errno ≠ 0 ∧ value.toInt = 0 then (-1, number)
  else if endptr = str then (-1, number)
  else if endptr ≠ [] then (-1, number)
  else (0, assign value)

/-- `parse_ulong`. -/
def parseUlong (unconverted : Nat) (number : BitVec 64) (str : List UInt8) : Int × BitVec 64 :=
  parseNumber id unconverted number str

/-- `parse_uint32`. -/
def parseUint32 (unconverted : Nat) (number : BitVec 32) (str : List UInt8) : Int × BitVec 32 :=
  parseNumber (BitVec.setWidth 32) unconverted number str

/-- What is expected of a call: the numerals that fit are accepted, and only these. -/
structure Parsed (bits : Nat) (str : List UInt8) (before : BitVec bits)
    (outcome : Int × BitVec bits) : Prop where
  result : outcome.1 = 0 ∨ outcome.1 = -1
  accepted : outcome.1 = 0 ↔ ∃ value, IsNumeral str value ∧ value < 2 ^ bits
  stored : ∀ value, outcome.1 = 0 → IsNumeral str value → outcome.2.toNat = value
  kept : outcome.1 = -1 → outcome.2 = before

/-- Texts that are a numeral, but of a number that does not fit. -/
def TooLarge (bits : Nat) (str : List UInt8) : Prop :=
  ∃ value, IsNumeral str value ∧ 2 ^ bits ≤ value

/-- What is no numeral is refused. -/
theorem parseNumber_refused {bits : Nat} (assign : BitVec 64 → BitVec bits) (unconverted : Nat)
    (number : BitVec bits) {str : List UInt8} (plain : 0x2d ∉ str)
    (none : ¬ ∃ value, IsNumeral str value) :
    parseNumber assign unconverted number str = (-1, number) := by
  -- Either nothing was read, or something is left behind the number.
  have ends : (strtoul 64 str).2 = str ∨ (strtoul 64 str).2 ≠ [] := by
    rw [strtoul_eq]
    cases scanned : scanNumber str with
    | none => exact .inl rfl
    | some found =>
      obtain ⟨negative, value, rest⟩ := found
      obtain rfl := scanNumber_plain plain scanned
      refine .inr fun ended => none ⟨value, (isNumeral_iff plain).mpr ?_⟩
      have behind : rest = [] := by
        dsimp only [Option.elim_some] at ended
        split at ended <;> exact ended
      rw [scanned, behind]
  unfold parseNumber
  dsimp only
  split_ifs with _ _ start left
  · rfl
  · rfl
  · rfl
  · rfl
  · rcases ends with same | other
    · exact absurd same start
    · exact absurd other left

/-- Every numeral is accepted: a number that does not fit a `long` passes for the largest one. -/
theorem parseNumber_accepted {bits value : Nat} (assign : BitVec 64 → BitVec bits)
    (unconverted : Nat) (number : BitVec bits) {str : List UInt8} (plain : 0x2d ∉ str)
    (numeral : IsNumeral str value) :
    parseNumber assign unconverted number str =
      (0, assign (BitVec.ofNat 64 (if 2 ^ 64 ≤ value then 2 ^ 64 - 1 else value))) := by
  -- The whole text is converted, so neither the end nor the error tells of a failure.
  have scanned := (isNumeral_iff plain).mp numeral
  have read : strtoul 64 str = (if 2 ^ 64 ≤ value then 2 ^ 64 - 1 else value, []) := by
    rw [strtoul_eq, scanned, Option.elim_some]
    split <;> rfl
  have error : strtoulErrno 64 unconverted str = if 2 ^ 64 ≤ value then erange else 0 := by
    unfold strtoulErrno
    rw [scanned]
  unfold parseNumber
  rw [read, error]
  dsimp only
  rw [if_neg, if_neg, if_neg, if_neg]
  · exact fun left => left rfl
  · exact fun start => numeral.ne_nil start.symm
  · -- The largest number is minus one as a `long`, so neither of the limits and not 0.
    by_cases large : 2 ^ 64 ≤ value
    · rw [if_pos large, if_pos large]
      decide
    · rw [if_neg large]
      exact fun both => both.1 rfl
  · by_cases large : 2 ^ 64 ≤ value
    · rw [if_pos large, if_pos large]
      decide
    · rw [if_neg large, if_neg large]
      exact fun both => absurd both.1 (by decide)

/-- A call does what is expected just when its text is not the numeral of a number too large. -/
theorem parsed_parseNumber {bits : Nat} {assign : BitVec 64 → BitVec bits}
    (keeps : ∀ value, value < 2 ^ bits → (assign (BitVec.ofNat 64 value)).toNat = value)
    (narrow : bits ≤ 64) (unconverted : Nat) (number : BitVec bits) {str : List UInt8}
    (plain : 0x2d ∉ str) :
    Parsed bits str number (parseNumber assign unconverted number str) ↔ ¬ TooLarge bits str := by
  -- A text that is no numeral is refused, and left out of the rest.
  by_cases found : ∃ value, IsNumeral str value
  · obtain ⟨value, numeral⟩ := found
    rw [parseNumber_accepted assign unconverted number plain numeral]
    constructor
    · intro parsed large
      obtain ⟨fitting, same, fits⟩ := parsed.accepted.mp rfl
      obtain ⟨other, again, outside⟩ := large
      obtain rfl := same.unique plain again
      omega
    · intro small
      have fits : value < 2 ^ bits := Nat.lt_of_not_le fun large => small ⟨value, numeral, large⟩
      have below : ¬ 2 ^ 64 ≤ value :=
        Nat.not_le.mpr (Nat.lt_of_lt_of_le fits (Nat.pow_le_pow_right (by decide) narrow))
      rw [if_neg below]
      refine ⟨.inl rfl, iff_of_true rfl ⟨value, numeral, fits⟩, ?_, nofun⟩
      intro other _ again
      rw [numeral.unique plain again]
      exact keeps other (numeral.unique plain again ▸ fits)
  · rw [parseNumber_refused assign unconverted number plain found]
    refine iff_of_true ⟨.inr rfl, ?_, nofun, fun _ => rfl⟩ ?_
    · exact iff_of_false nofun fun ⟨value, numeral, _⟩ => found ⟨value, numeral⟩
    · exact fun ⟨value, numeral, _⟩ => found ⟨value, numeral⟩

/-- Both functions do what is expected just when the numeral, if the text is one, fits. -/
theorem parsed_iff (str : List UInt8) (plain : 0x2d ∉ str) (unconverted : Nat)
    (ulong : BitVec 64) (uint32 : BitVec 32) :
    (Parsed 64 str ulong (parseUlong unconverted ulong str) ↔ ¬ TooLarge 64 str) ∧
      (Parsed 32 str uint32 (parseUint32 unconverted uint32 str) ↔ ¬ TooLarge 32 str) := by
  -- The assignment keeps what fits in the type of the target.
  constructor
  · refine parsed_parseNumber (fun value fits => ?_) (by decide) unconverted ulong plain
    rw [id, BitVec.toNat_ofNat, Nat.mod_eq_of_lt fits]
  · refine parsed_parseNumber (fun value fits => ?_) (by decide) unconverted uint32 plain
    rw [BitVec.toNat_setWidth, BitVec.toNat_ofNat]
    omega

/-- 2^64 is accepted as an `unsigned long` and 2^32 as an `unsigned int`, with other values. -/
theorem not_parsed_tooLarge :
    ¬ Parsed 64 (ascii "18446744073709551616") 0
        (parseUlong 0 0 (ascii "18446744073709551616")) ∧
      ¬ Parsed 32 (ascii "4294967296") 0 (parseUint32 0 0 (ascii "4294967296")) := by
  -- Both texts are numerals, and the stored value is another one.
  constructor
  · intro parsed
    have numeral : IsNumeral (ascii "18446744073709551616") (2 ^ 64) :=
      (isNumeral_iff (by decide)).mpr (by decide)
    exact absurd (parsed.stored _ (by decide) numeral) (by decide)
  · intro parsed
    have numeral : IsNumeral (ascii "4294967296") (2 ^ 32) :=
      (isNumeral_iff (by decide)).mpr (by decide)
    exact absurd (parsed.stored _ (by decide) numeral) (by decide)

/-- A register address in hexadecimal. -/
theorem parsed_iff_address :
    (Parsed 64 (ascii " +0x1804000c") 7 (parseUlong 0 7 (ascii " +0x1804000c")) ↔
        ¬ TooLarge 64 (ascii " +0x1804000c")) ∧
      (Parsed 32 (ascii " +0x1804000c") 7 (parseUint32 0 7 (ascii " +0x1804000c")) ↔
        ¬ TooLarge 32 (ascii " +0x1804000c")) :=
  parsed_iff (ascii " +0x1804000c") (by decide) 0 7 7

end OpenwrtMisc.ShowGpio
