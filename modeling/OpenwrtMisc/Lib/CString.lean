import Mathlib.Data.List.TakeWhile
import Mathlib.Algebra.Order.Ring.Nat

/-! Texts as the C library sees them: bytes up to a zero, decimal numbers and tokens. -/

namespace OpenwrtMisc

/-- The byte of an ASCII character. -/
def asciiByte (character : Char) : UInt8 := UInt8.ofNat character.toNat

/-- The bytes of an ASCII literal. -/
def ascii (text : String) : List UInt8 := text.toList.map asciiByte

/-- What a C function sees of a block: the bytes before the first zero. -/
def cString (block : List UInt8) : List UInt8 := block.takeWhile (· ≠ 0)

/-- The separator of the numbers of a dotted text. -/
def dot : UInt8 := 0x2e

/-- The tokens of a text between runs of a delimiter. -/
def strtok (delimiter : UInt8) (text : List UInt8) : List (List UInt8) :=
  (text.splitOn delimiter).filter (· ≠ [])

/-- The decimal digits of a number. -/
def decimal (n : Nat) : List UInt8 := (Nat.toDigits 10 n).map asciiByte

/-- The text of a signed number. -/
def formatInt (value : Int) : List UInt8 :=
  if value < 0 then 0x2d :: decimal value.natAbs else decimal value.natAbs

/-- The digits of the decimal system. -/
def IsDigit (byte : UInt8) : Prop := 0x30 ≤ byte ∧ byte ≤ 0x39

/-- A byte is a digit or not. -/
instance (byte : UInt8) : Decidable (IsDigit byte) := inferInstanceAs (Decidable (_ ∧ _))

/-- The number that the digits at the start of a text denote. -/
def digitsValue (text : List UInt8) : Nat :=
  (text.takeWhile (IsDigit ·)).foldl (fun value digit => 10 * value + (digit.toNat - 0x30)) 0

/-- The bytes that are skipped before a number. -/
def IsSpace (byte : UInt8) : Prop := byte = 0x20 ∨ (0x09 ≤ byte ∧ byte ≤ 0x0d)

/-- A byte is a space or not. -/
instance (byte : UInt8) : Decidable (IsSpace byte) := inferInstanceAs (Decidable (_ ∨ _))

/-- The number at the start of a text. -/
def atoi (text : List UInt8) : Int :=
  match text.dropWhile (IsSpace ·) with
  | [] => 0
  | sign :: digits =>
    if sign = 0x2d then - (digitsValue digits : Int)
    else if sign = 0x2b then digitsValue digits
    else digitsValue (sign :: digits)

/-- The value of a digit or letter in a number system. -/
def digitOf (base : Nat) (byte : UInt8) : Option Nat :=
  let value :=
    if IsDigit byte then byte.toNat - 0x30
    else if 0x61 ≤ byte ∧ byte ≤ 0x7a then byte.toNat - 0x61 + 10
    else if 0x41 ≤ byte ∧ byte ≤ 0x5a then byte.toNat - 0x41 + 10
    else base
  if value < base then some value else none

/-- The number system that the prefix of a number asks for, and the digits behind it. -/
def detectBase (text : List UInt8) : Nat × List UInt8 :=
  match text with
  | 0x30 :: mark :: first :: rest =>
    if (mark = 0x78 ∨ mark = 0x58) ∧ (digitOf 16 first).isSome then (16, first :: rest)
    else (8, text)
  | 0x30 :: _ => (8, text)
  | _ => (10, text)

/-- The sign of a number, and what is behind it. -/
def detectSign (text : List UInt8) : Bool × List UInt8 :=
  match text with
  | 0x2d :: rest => (true, rest)
  | 0x2b :: rest => (false, rest)
  | _ => (false, text)

/-- `strtoul` with base 0: the number at the start of a text, and the text behind it. -/
def strtoul (longBits : Nat) (text : List UInt8) : Nat × List UInt8 :=
  let (negative, unsigned) := detectSign (text.dropWhile (IsSpace ·))
  let (base, digits) := detectBase unsigned
  let number := digits.takeWhile fun byte => (digitOf base byte).isSome
  let value := (number.filterMap (digitOf base)).foldl (fun value digit => base * value + digit) 0
  -- Without a digit the end of the number is the start of the text.
  if number = [] then (0, text)
  else if 2 ^ longBits ≤ value then (2 ^ longBits - 1, digits.drop number.length)
  else (if negative then (2 ^ longBits - value) % 2 ^ longBits else value,
    digits.drop number.length)

/-- A byte is kept when it is stored as one. -/
theorem ofInt_toNat (byte : UInt8) : UInt8.ofInt byte.toNat = byte := by
  -- A byte is less than 256, so that nothing is cut off.
  unfold UInt8.ofInt
  have same : ((byte.toNat : Int) % 2 ^ 8).toNat = byte.toNat := by
    have small := byte.toNat_lt
    omega
  rw [same, UInt8.ofNat_toNat]

/-- What was cut at its first zero is not cut again. -/
@[simp] theorem cString_cString (block : List UInt8) : cString (cString block) = cString block := by
  -- What was kept has no zero.
  unfold cString
  rw [List.takeWhile_idem]

/-- A text without a zero is seen as a whole. -/
theorem cString_eq_self {bytes : List UInt8} (plain : 0 ∉ bytes) : cString bytes = bytes := by
  -- Every byte is kept, as none is zero.
  refine List.takeWhile_eq_self_iff.mpr fun byte member => ?_
  exact decide_eq_true fun zero => plain (zero ▸ member)

/-- A text is seen up to its first zero, so not longer than it is. -/
theorem length_cString_le (block : List UInt8) : (cString block).length ≤ block.length :=
  (List.takeWhile_sublist _).length_le

/-- The character of a digit is its byte, and one of the ten in a row. -/
theorem toNat_asciiByte_of_isDigit {character : Char} (digit : character.isDigit = true) :
    (asciiByte character).toNat = character.toNat ∧ 0x30 ≤ character.toNat ∧
      character.toNat ≤ 0x39 := by
  -- The ten digits are less than 256.
  simp only [Char.isDigit, Bool.and_eq_true, decide_eq_true_eq] at digit
  have lower : 0x30 ≤ character.toNat := digit.1
  have upper : character.toNat ≤ 0x39 := digit.2
  refine ⟨?_, lower, upper⟩
  simp only [asciiByte, UInt8.toNat_ofNat']
  omega

/-- The decimal text of a number consists of digits. -/
theorem decimal_isDigit {n : Nat} {byte : UInt8} (member : byte ∈ decimal n) : IsDigit byte := by
  obtain ⟨character, found, rfl⟩ := List.mem_map.mp member
  -- The characters are digits, and their bytes keep the order of the characters.
  have digit := Nat.isDigit_of_mem_toDigits (by decide) (by decide) found
  obtain ⟨same, lower, upper⟩ := toNat_asciiByte_of_isDigit digit
  constructor
  · rw [UInt8.le_iff_toNat_le, same]
    exact lower
  · rw [UInt8.le_iff_toNat_le, same]
    exact upper

/-- A decimal text is never empty. -/
theorem decimal_ne_nil (n : Nat) : decimal n ≠ [] := by
  simp [decimal, Nat.toDigits_ne_nil]

/-- A number below a power of ten has at most so many digits. -/
theorem length_decimal_le_iff {n count : Nat} (positive : 0 < count) :
    (decimal n).length ≤ count ↔ n < 10 ^ count := by
  -- There is a character for each digit.
  rw [decimal, List.length_map]
  exact Nat.length_toDigits_le_iff (by decide) positive

/-- The digits of a decimal text denote its number. -/
theorem digitsValue_decimal (n : Nat) : digitsValue (decimal n) = n := by
  -- Every byte of a decimal text is a digit.
  have all : (decimal n).takeWhile (IsDigit ·) = decimal n :=
    List.takeWhile_eq_self_iff.mpr fun byte member => by simpa using decimal_isDigit member
  rw [digitsValue, all, decimal, List.foldl_map]
  -- Digit by digit, the value of the byte is the value of the character.
  have same : ∀ (characters : List Char) (value : Nat), (∀ c ∈ characters, c.isDigit = true) →
      characters.foldl (fun value digit => 10 * value + ((asciiByte digit).toNat - 0x30)) value =
        Nat.ofDigitChars 10 characters value := by
    intro characters
    induction characters with
    | nil => intros; rfl
    | cons character rest ih =>
      intro value digits
      have digit := toNat_asciiByte_of_isDigit (digits character List.mem_cons_self)
      rw [List.foldl_cons, Nat.ofDigitChars_cons, digit.1]
      exact ih _ fun c later => digits c (List.mem_cons_of_mem _ later)
  rw [same _ _ fun c found => Nat.isDigit_of_mem_toDigits (by decide) (by decide) found]
  exact Nat.ofDigitChars_ten_toDigits

/-- Spaces and signs come before the digits in the order of the bytes. -/
theorem IsDigit.plain {head : UInt8} (digit : IsDigit head) :
    ¬ IsSpace head ∧ head ≠ 0x2d ∧ head ≠ 0x2b := by
  -- The digits lie between 0x30 and 0x39.
  obtain ⟨low, high⟩ := digit
  rw [UInt8.le_iff_toNat_le] at low high
  refine ⟨?_, ?_, ?_⟩
  · intro given
    rcases given with rfl | ⟨_, below⟩
    · revert low; decide
    · rw [UInt8.le_iff_toNat_le] at below
      have : (0x0d : UInt8).toNat < (0x30 : UInt8).toNat := by decide
      omega
  · rintro rfl
    revert low
    decide
  · rintro rfl
    revert low
    decide

/-- A text that starts with a digit has neither space nor sign before its number. -/
theorem atoi_of_digit {head : UInt8} {tail : List UInt8} (digit : IsDigit head) :
    atoi (head :: tail) = digitsValue (head :: tail) := by
  -- Neither a space nor a sign is skipped.
  obtain ⟨plain, minus, plus⟩ := digit.plain
  simp [atoi, plain, minus, plus]

/-- The number of a text that was printed is the number that was printed. -/
theorem atoi_formatInt (value : Int) : atoi (formatInt value) = value := by
  -- A negative number has its sign in front of the digits.
  unfold formatInt
  split
  · -- A minus sign is followed by the digits of the absolute value.
    have value : atoi (0x2d :: decimal value.natAbs) = - (value.natAbs : Int) := by
      have plain : ¬ IsSpace 0x2d := by decide
      simp [atoi, plain, digitsValue_decimal]
    omega
  · -- Without a sign the text starts with the first of its digits.
    cases shape : decimal value.natAbs with
    | nil => exact absurd shape (decimal_ne_nil _)
    | cons head tail =>
      have digit : IsDigit head := decimal_isDigit (shape ▸ List.mem_cons_self)
      rw [atoi_of_digit digit, ← shape, digitsValue_decimal]
      omega

/-- A number that is not negative is printed as its digits. -/
@[simp] theorem formatInt_natCast (n : Nat) : formatInt n = decimal n := by
  rw [formatInt, if_neg (by omega), Int.natAbs_natCast]

/-- A printed number contains no dot. -/
theorem dot_not_mem_formatInt (value : Int) : dot ∉ formatInt value := by
  -- There are only digits, and perhaps a minus sign.
  have none : ∀ n, dot ∉ decimal n := fun n member => absurd (decimal_isDigit member) (by decide)
  unfold formatInt
  split
  · rw [List.mem_cons, not_or]
    exact ⟨by decide, none _⟩
  · exact none _

/-- A printed number is not empty. -/
theorem formatInt_ne_nil (value : Int) : formatInt value ≠ [] := by
  -- A number has at least one digit.
  unfold formatInt
  split
  · simp
  · exact decimal_ne_nil _

/-- A text without the delimiter is one token. -/
theorem strtok_single {delimiter : UInt8} {token : List UInt8} (plain : delimiter ∉ token)
    (full : token ≠ []) : strtok delimiter token = [token] := by
  simp [strtok, List.splitOn_eq_singleton plain, full]

/-- A token before the delimiter is the first token. -/
theorem strtok_cons {delimiter : UInt8} {token : List UInt8} (rest : List UInt8)
    (plain : delimiter ∉ token) (full : token ≠ []) :
    strtok delimiter (token ++ delimiter :: rest) = token :: strtok delimiter rest := by
  simp [strtok, List.splitOn_append_cons_self_of_not_mem plain, full]

/-- A delimiter at the start is skipped. -/
theorem strtok_delimiter (delimiter : UInt8) (rest : List UInt8) :
    strtok delimiter (delimiter :: rest) = strtok delimiter rest := by
  -- The empty token in front of the delimiter is left out.
  have apart := List.splitOn_append_cons_self_of_not_mem (List.not_mem_nil (a := delimiter)) rest
  simp only [List.nil_append] at apart
  simp [strtok, apart]

/-- The tokens of numbers with a dot before each are the numbers. -/
theorem strtok_dotted (first : List UInt8) (plain : dot ∉ first) (full : first ≠ [])
    (values : List Int) :
    strtok dot (first ++ values.flatMap fun value => dot :: formatInt value) =
      first :: values.map formatInt := by
  -- The induction is on the numbers, with the one before them as the first token.
  induction values generalizing first with
  | nil =>
    rw [List.flatMap_nil, List.append_nil]
    exact strtok_single plain full
  | cons value rest ih =>
    rw [List.flatMap_cons, List.cons_append, strtok_cons _ plain full,
      ih _ (dot_not_mem_formatInt value) (formatInt_ne_nil value), List.map_cons]

/-- Numbers that all have a dot before them are found as well. -/
theorem strtok_flatMap (values : List Int) :
    strtok dot (values.flatMap fun value => dot :: formatInt value) = values.map formatInt := by
  -- The first delimiter is skipped, and the rest has a token in front.
  cases values with
  | nil => rfl
  | cons value rest =>
    rw [List.flatMap_cons, List.cons_append, strtok_delimiter,
      strtok_dotted _ (dot_not_mem_formatInt value) (formatInt_ne_nil value), List.map_cons]

end OpenwrtMisc
