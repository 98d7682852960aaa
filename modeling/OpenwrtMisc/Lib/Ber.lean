import Mathlib.Data.List.Basic
import Mathlib.Data.List.Induction
import Mathlib.Tactic.Ring

/-! The basic encoding rules: elements of a tag, a length and content, and how they are read. -/

namespace OpenwrtMisc.Ber

/-- The number that bytes denote, most significant byte first. -/
def bigEndian (bytes : List UInt8) : Nat :=
  bytes.foldl (fun value byte => 256 * value + byte.toNat) 0

/-- The signed number that bytes denote in two's complement. -/
def twosComplement (bytes : List UInt8) : Int :=
  match bytes with
  | [] => 0
  | head :: _ => if 0x80 ≤ head then bigEndian bytes - 256 ^ bytes.length else bigEndian bytes

/-- An element: its tag and its content. -/
structure Tlv where
  /-- The identifier octet. -/
  tag : UInt8
  /-- The content octets. -/
  content : List UInt8
  deriving DecidableEq, Repr

/-- The length at the start of the bytes in short or long form, and the bytes after it. -/
def readLength : List UInt8 → Option (Nat × List UInt8)
  | [] => none
  | first :: rest =>
    if first < 0x80 then some (first.toNat, rest)
    else
      let count := first.toNat - 0x80
      -- Neither the indefinite form nor the reserved count gives a length.
      if count = 0 ∨ count = 127 ∨ rest.length < count then none
      else some (bigEndian (rest.take count), rest.drop count)

/-- The element at the start of the bytes, and the bytes after it. -/
def readTlv : List UInt8 → Option (Tlv × List UInt8)
  | [] => none
  | tag :: bytes => do
    let (length, rest) ← readLength bytes
    if rest.length < length then none else some (⟨tag, rest.take length⟩, rest.drop length)

/-- The elements that the bytes consist of, read with some fuel. -/
def readTlvs : Nat → List UInt8 → Option (List Tlv)
  | _, [] => some []
  | 0, _ :: _ => none
  | fuel + 1, bytes => do
    let (head, rest) ← readTlv bytes
    let tail ← readTlvs fuel rest
    some (head :: tail)

/-- The elements that the bytes consist of, with nothing left over. -/
def elements (bytes : List UInt8) : Option (List Tlv) := readTlvs bytes.length bytes

/-- An element with a one-byte length field. -/
def element (tag : UInt8) (content : List UInt8) : List UInt8 :=
  tag :: UInt8.ofNat content.length :: content

/-- The groups of seven bits above the lowest one, each marked as continued. -/
def continuation : Nat → Nat → List UInt8
  | 0, _ => []
  | fuel + 1, n =>
    if n = 0 then [] else continuation fuel (n / 128) ++ [UInt8.ofNat (n % 128 + 128)]

/-- A subidentifier in as few groups of seven bits as it needs. -/
def base128 (n : Nat) : List UInt8 := continuation n (n / 128) ++ [UInt8.ofNat (n % 128)]

/-- The numbers that groups of seven bits denote, of which the leading ones may be empty. -/
def subidentifiers : Option Nat → List UInt8 → Option (List Nat)
  | none, [] => some []
  | some _, [] => none
  | pending, byte :: rest =>
    let value := 128 * pending.getD 0 + byte.toNat % 128
    if byte < 0x80 then (subidentifiers none rest).map (value :: ·)
    else subidentifiers (some value) rest

/-- A last group ends a number. -/
theorem subidentifiers_last (pending : Option Nat) {byte : UInt8} (low : byte.toNat < 128)
    (rest : List UInt8) :
    subidentifiers pending (byte :: rest) =
      (subidentifiers none rest).map ((128 * pending.getD 0 + byte.toNat) :: ·) := by
  -- A byte below 128 ends its number, whatever is pending.
  have ends : byte < 0x80 := by
    rw [UInt8.lt_iff_toNat_lt]
    exact low
  have group : byte.toNat % 128 = byte.toNat := Nat.mod_eq_of_lt low
  cases pending <;> simp only [subidentifiers, if_pos ends, group]

/-- A continued group becomes the lowest of the pending groups. -/
theorem subidentifiers_continued (pending : Option Nat) {byte : UInt8} (high : 128 ≤ byte.toNat)
    (rest : List UInt8) :
    subidentifiers pending (byte :: rest) =
      subidentifiers (some (128 * pending.getD 0 + (byte.toNat - 128))) rest := by
  -- A byte from 128 on leaves its group pending.
  have continues : ¬ byte < 0x80 := by
    rw [UInt8.lt_iff_toNat_lt]
    exact Nat.not_lt.mpr high
  have small := byte.toNat_lt
  have group : byte.toNat % 128 = byte.toNat - 128 := by omega
  cases pending <;> simp only [subidentifiers, if_neg continues, group]

/-- The groups of one number: every group but the last is marked as continued. -/
def IsSubidentifier (bytes : List UInt8) : Prop :=
  ∃ continued last, bytes = continued ++ [last] ∧ (∀ byte ∈ continued, ¬ byte < 0x80) ∧ last < 0x80

/-- A number has one last group. -/
theorem IsSubidentifier.countP {bytes : List UInt8} (number : IsSubidentifier bytes) :
    bytes.countP (· < 0x80) = 1 := by
  -- The continued groups are all marked, and the last one is not.
  obtain ⟨continued, last, rfl, more, ends⟩ := number
  have none : continued.countP (· < 0x80) = 0 := by
    rw [List.countP_eq_zero]
    exact fun byte member => by simpa using more byte member
  rw [List.countP_append, none, List.countP_singleton, if_pos (decide_eq_true ends)]

/-- Numbers have one last group each. -/
theorem countP_flatMap {α : Type} {write : α → List UInt8}
    (numbers : ∀ item, IsSubidentifier (write item)) (items : List α) :
    (items.flatMap write).countP (· < 0x80) = items.length := by
  -- The induction is on the items.
  induction items with
  | nil => rfl
  | cons item rest ih =>
    rw [List.flatMap_cons, List.countP_append, (numbers item).countP, ih, List.length_cons]
    omega

/-- A number ends with its last group, so it is told apart from what is behind it. -/
theorem IsSubidentifier.append_inj {first second behind other : List UInt8}
    (one : IsSubidentifier first) (two : IsSubidentifier second)
    (same : first ++ behind = second ++ other) : first = second ∧ behind = other := by
  -- The continued groups are taken off the front, and the last group stops that.
  have taken : ∀ {continued : List UInt8} {last : UInt8} (rest : List UInt8),
      (∀ byte ∈ continued, ¬ byte < 0x80) → last < 0x80 →
        (continued ++ last :: rest).takeWhile (fun byte => ¬ byte < 0x80) = continued := by
    intro continued last rest more ends
    rw [List.takeWhile_append_of_pos fun byte member => decide_eq_true (more byte member),
      List.takeWhile_cons_of_neg (by simpa using ends), List.append_nil]
  obtain ⟨continued, last, rfl, more, ends⟩ := one
  obtain ⟨others, final, rfl, also, closes⟩ := two
  rw [List.append_assoc, List.append_assoc, List.singleton_append, List.singleton_append] at same
  have equal : continued = others := by
    rw [← taken behind more ends, same, taken other also closes]
  subst equal
  have rest := List.append_cancel_left same
  rw [List.cons.injEq] at rest
  rw [rest.1]
  exact ⟨rfl, rest.2⟩

/-- Two ways to write numbers give the same bytes just when they agree on each of them. -/
theorem flatMap_eq_flatMap_iff {α : Type} {write rewrite : α → List UInt8}
    (numbers : ∀ item, IsSubidentifier (write item))
    (others : ∀ item, IsSubidentifier (rewrite item)) (items : List α) :
    items.flatMap write = items.flatMap rewrite ↔ ∀ item ∈ items, write item = rewrite item := by
  -- The induction is on the items.
  constructor
  · intro same
    induction items with
    | nil => exact nofun
    | cons item rest ih =>
      rw [List.flatMap_cons, List.flatMap_cons] at same
      -- A number ends at its first group that is not continued, so the first numbers agree.
      obtain ⟨head, tail⟩ := (numbers item).append_inj (others item) same
      intro other member
      rcases List.mem_cons.mp member with rfl | later
      · exact head
      · exact ih tail other later
  · exact List.flatMap_congr

/-- The groups above the lowest one are all marked as continued. -/
theorem continuation_continued (fuel n : Nat) : ∀ byte ∈ continuation fuel n, ¬ byte < 0x80 := by
  -- The induction is on the fuel, and the mark is put on every group.
  induction fuel generalizing n with
  | zero => exact nofun
  | succ fuel ih =>
    intro byte member
    rw [continuation] at member
    split at member
    · exact absurd member List.not_mem_nil
    · rcases List.mem_append.mp member with upper | group
      · exact ih (n / 128) byte upper
      · rw [List.mem_singleton.mp group, UInt8.lt_iff_toNat_lt, UInt8.toNat_ofNat']
        have mark : (0x80 : UInt8).toNat = 128 := rfl
        omega

/-- A number in minimal form has its groups in order. -/
theorem base128_isSubidentifier (n : Nat) : IsSubidentifier (base128 n) := by
  -- The last group is a remainder by 128, so that it is not marked.
  refine ⟨_, _, rfl, continuation_continued n (n / 128), ?_⟩
  rw [UInt8.lt_iff_toNat_lt, UInt8.toNat_ofNat']
  have mark : (0x80 : UInt8).toNat = 128 := rfl
  omega

/-- No groups are continued for zero. -/
theorem continuation_zero (fuel : Nat) : continuation fuel 0 = [] := by
  -- With fuel or without, there is nothing above zero.
  cases fuel with
  | zero => rfl
  | succ fuel => exact if_pos rfl

/-- A number of seven bits is one group. -/
theorem base128_small {n : Nat} (small : n < 128) : base128 n = [UInt8.ofNat n] := by
  -- There is nothing above the lowest group.
  have none : n / 128 = 0 := Nat.div_eq_of_lt small
  rw [base128, none, continuation_zero, Nat.mod_eq_of_lt small]
  rfl

/-- The groups of a number above its lowest one are pending, if there are any. -/
theorem subidentifiers_continuation : ∀ (fuel n : Nat) (rest : List UInt8), n ≤ fuel →
    subidentifiers none (continuation fuel n ++ rest) =
      subidentifiers (if n = 0 then none else some n) rest := by
  -- The higher groups are read first, and the lowest one is joined to them.
  intro fuel
  induction fuel with
  | zero =>
    intro n rest none
    rw [Nat.le_zero.mp none]
    rfl
  | succ fuel ih =>
    intro n rest enough
    rw [continuation]
    split
    · rfl
    · rename_i positive
      have group : (UInt8.ofNat (n % 128 + 128)).toNat = n % 128 + 128 := by
        rw [UInt8.toNat_ofNat']
        omega
      have joined : 128 * (if n / 128 = 0 then none else some (n / 128)).getD 0 +
          (n % 128 + 128 - 128) = n := by
        split
        · rw [Option.getD_none]
          omega
        · rw [Option.getD_some]
          omega
      rw [List.append_assoc, List.singleton_append, ih (n / 128) _ (by omega),
        subidentifiers_continued _ (by omega), group, joined]

/-- Numbers in minimal form are read back. -/
theorem subidentifiers_base128 (arcs : List Nat) :
    subidentifiers none (arcs.flatMap base128) = some arcs := by
  -- The induction is on the numbers.
  induction arcs with
  | nil => rfl
  | cons arc rest ih =>
    have group : (UInt8.ofNat (arc % 128)).toNat = arc % 128 := by
      rw [UInt8.toNat_ofNat']
      omega
    have joined : 128 * (if arc / 128 = 0 then none else some (arc / 128)).getD 0 + arc % 128 =
        arc := by
      split
      · rw [Option.getD_none]
        omega
      · rw [Option.getD_some]
        omega
    -- The lowest group ends the number, and the others follow.
    rw [List.flatMap_cons, base128, List.append_assoc, List.singleton_append,
      subidentifiers_continuation _ _ _ (Nat.div_le_self arc 128),
      subidentifiers_last _ (by omega), ih, group, joined]
    rfl

/-- A number that needs more groups begins with a continued one. -/
theorem base128_head {n : Nat} (large : 128 ≤ n) :
    ∃ group rest, base128 n = group :: rest ∧ ¬ group < 0x80 := by
  -- There is a group above the lowest one, as the number does not fit into that.
  cases upper : continuation n (n / 128) with
  | nil =>
    obtain ⟨fuel, rfl⟩ := Nat.exists_eq_add_of_le' large
    rw [continuation, if_neg (by omega)] at upper
    exact absurd (List.append_eq_nil_iff.mp upper).2 (List.cons_ne_nil _ _)
  | cons group rest =>
    refine ⟨group, rest ++ [UInt8.ofNat (n % 128)], by rw [base128, upper, List.cons_append], ?_⟩
    exact continuation_continued n (n / 128) group (upper ▸ List.mem_cons_self)

/-- So many groups above the lowest one are enough for a number. -/
theorem lt_length_continuation : ∀ (fuel n : Nat), n ≤ fuel →
    n < 128 ^ (continuation fuel n).length := by
  -- Each group takes seven bits of the number off.
  intro fuel
  induction fuel with
  | zero =>
    intro n none
    rw [Nat.le_zero.mp none]
    decide
  | succ fuel ih =>
    intro n enough
    rw [continuation]
    split
    · rename_i zero
      rw [zero]
      decide
    · have upper := ih (n / 128) (by omega)
      rw [List.length_append, List.length_singleton, Nat.pow_succ]
      omega

/-- The groups of a number are enough for it. -/
theorem lt_length_base128 (n : Nat) : n < 128 ^ (base128 n).length := by
  -- The lowest group is one more digit to base 128.
  have upper := lt_length_continuation n (n / 128) (Nat.div_le_self n 128)
  rw [base128, List.length_append, List.length_singleton, Nat.pow_succ]
  omega

/-- A number takes no more groups above the lowest one than its size asks for. -/
theorem length_continuation_le : ∀ (fuel n count : Nat), n < 128 ^ count →
    (continuation fuel n).length ≤ count := by
  -- Each group takes seven bits of the number off.
  intro fuel
  induction fuel with
  | zero => exact fun _ _ _ => Nat.zero_le _
  | succ fuel ih =>
    intro n count below
    rw [continuation]
    split
    · exact Nat.zero_le _
    · cases count with
      | zero => omega
      | succ count =>
        rw [Nat.pow_succ] at below
        have upper := ih (n / 128) count (by omega)
        rw [List.length_append, List.length_singleton]
        omega

/-- A number takes no more groups than its size asks for. -/
theorem length_base128_le_of_lt {n count : Nat} (below : n < 128 ^ (count + 1)) :
    (base128 n).length ≤ count + 1 := by
  -- What is above the lowest group is less by one digit.
  rw [Nat.pow_succ] at below
  have upper := length_continuation_le n (n / 128) count (by omega)
  rw [base128, List.length_append, List.length_singleton]
  omega

/-- No bytes denote zero. -/
@[simp] theorem bigEndian_nil : bigEndian [] = 0 := rfl

/-- Bytes behind others denote the lower digits to base 256. -/
theorem bigEndian_append (first second : List UInt8) :
    bigEndian (first ++ second) = bigEndian first * 256 ^ second.length + bigEndian second := by
  -- The digits are taken from the end, so the second list shrinks from its end.
  induction second using List.reverseRecOn with
  | nil => simp [bigEndian]
  | append_singleton second byte ih =>
    have step : ∀ bytes : List UInt8, bigEndian (bytes ++ [byte]) =
        256 * bigEndian bytes + byte.toNat := fun bytes => by simp [bigEndian]
    rw [← List.append_assoc, step, step, ih, List.length_append, List.length_singleton]
    ring

/-- The first byte is the digit of the highest weight. -/
theorem bigEndian_cons (head : UInt8) (tail : List UInt8) :
    bigEndian (head :: tail) = head.toNat * 256 ^ tail.length + bigEndian tail := by
  -- A single byte is its own number.
  have single : bigEndian [head] = head.toNat := by simp [bigEndian]
  rw [← single]
  exact bigEndian_append [head] tail

/-- So many bytes denote a number below the same power of 256. -/
theorem bigEndian_lt (bytes : List UInt8) : bigEndian bytes < 256 ^ bytes.length := by
  induction bytes with
  | nil => simp
  | cons head tail ih =>
    have digit := head.toNat_lt
    rw [bigEndian_cons, List.length_cons, Nat.pow_succ]
    -- The first byte is at most 255, and the others stay below one of its units.
    have scaled : head.toNat * 256 ^ tail.length ≤ 255 * 256 ^ tail.length :=
      Nat.mul_le_mul_right _ (by omega)
    omega

/-- A number that starts with a low byte is not negative. -/
theorem twosComplement_of_low {head : UInt8} {tail : List UInt8} (low : head.toNat < 128) :
    twosComplement (head :: tail) = bigEndian (head :: tail) := by
  -- The sign is the highest bit of the first byte.
  have sign : ¬ 0x80 ≤ head := by
    rw [UInt8.le_iff_toNat_le]
    exact Nat.not_le.mpr low
  rw [twosComplement, if_neg sign]

/-- A number that starts with a high byte is negative. -/
theorem twosComplement_of_high {head : UInt8} {tail : List UInt8} (high : 128 ≤ head.toNat) :
    twosComplement (head :: tail) =
      bigEndian (head :: tail) - 256 ^ (head :: tail).length := by
  -- The sign is the highest bit of the first byte.
  have sign : 0x80 ≤ head := by
    rw [UInt8.le_iff_toNat_le]
    exact high
  rw [twosComplement, if_pos sign]

/-- A number is in minimal form when its first nine bits are not all the same. -/
def Minimal : List UInt8 → Prop
  | [] => False
  | [_] => True
  | first :: second :: _ =>
    ¬ (first = 0x00 ∧ second < 0x80) ∧ ¬ (first = 0xff ∧ ¬ second < 0x80)

/-- Whether a number is in minimal form can be computed. -/
instance : DecidablePred Minimal
  | [] => inferInstanceAs (Decidable False)
  | [_] => inferInstanceAs (Decidable True)
  | first :: second :: _ =>
    inferInstanceAs (Decidable (¬ (first = 0x00 ∧ second < 0x80) ∧
      ¬ (first = 0xff ∧ ¬ second < 0x80)))

/-- A number in minimal form would not fit one byte less. -/
theorem Minimal.large {first second : UInt8} {tail : List UInt8}
    (minimal : Minimal (first :: second :: tail)) :
    twosComplement (first :: second :: tail) < -(128 * 256 ^ tail.length : Nat) ∨
      (128 * 256 ^ tail.length : Nat) ≤ twosComplement (first :: second :: tail) := by
  -- The two leading digits are not those of a sign alone.
  obtain ⟨zeros, ones⟩ := minimal
  rw [UInt8.lt_iff_toNat_lt, ← UInt8.toNat_inj] at zeros ones
  have mark : (0x80 : UInt8).toNat = 128 := rfl
  have low : (0x00 : UInt8).toNat = 0 := rfl
  have full : (0xff : UInt8).toNat = 255 := rfl
  rw [mark, low] at zeros
  rw [mark, full] at ones
  have digit := first.toNat_lt
  have next := second.toNat_lt
  have rest := bigEndian_lt tail
  have value : bigEndian (first :: second :: tail) =
      first.toNat * (256 * 256 ^ tail.length) + second.toNat * 256 ^ tail.length +
        bigEndian tail := by
    rw [bigEndian_cons, bigEndian_cons, List.length_cons, Nat.pow_succ, Nat.add_assoc,
      Nat.mul_comm (256 ^ tail.length) 256]
  have size : 256 ^ (first :: second :: tail).length = 256 * (256 * 256 ^ tail.length) := by
    rw [List.length_cons, List.length_cons, Nat.pow_succ, Nat.pow_succ]
    ring
  generalize 256 ^ tail.length = weight at rest value size ⊢
  generalize bigEndian tail = lower at rest value
  -- The two leading digits are compared with those of the nearest shorter number.
  by_cases negative : 128 ≤ first.toNat
  · refine .inl ?_
    rw [twosComplement_of_high negative, value]
    have power : ((256 : Int) ^ (first :: second :: tail).length) =
        ((256 * (256 * weight) : Nat) : Int) := by
      rw [← size]
      push_cast
      rfl
    rw [power]
    by_cases top : first.toNat = 255
    · have second_le : second.toNat * weight ≤ 127 * weight := Nat.mul_le_mul_right _ (by omega)
      rw [top]
      omega
    · have first_le : first.toNat * (256 * weight) ≤ 254 * (256 * weight) :=
        Nat.mul_le_mul_right _ (by omega)
      have second_le : second.toNat * weight ≤ 255 * weight := Nat.mul_le_mul_right _ (by omega)
      omega
  · refine .inr ?_
    rw [twosComplement_of_low (by omega), value]
    by_cases none : first.toNat = 0
    · have second_le : 128 * weight ≤ second.toNat * weight := Nat.mul_le_mul_right _ (by omega)
      rw [none]
      omega
    · have first_le : 1 * (256 * weight) ≤ first.toNat * (256 * weight) :=
        Nat.mul_le_mul_right _ (by omega)
      omega

/-- A number in minimal form that fits one byte has one byte. -/
theorem Minimal.length_of_small {content : List UInt8} (minimal : Minimal content)
    (low : -128 ≤ twosComplement content) (high : twosComplement content < 128) :
    content.length = 1 := by
  -- A content is empty, of one byte, or of more.
  rcases content with _ | ⟨first, _ | ⟨second, tail⟩⟩
  · exact minimal.elim
  · rfl
  · -- With more bytes it would not be small.
    have large := minimal.large
    have weight : 0 < 256 ^ tail.length := Nat.pow_pos (by decide)
    omega

/-- An element takes two bytes more than its content. -/
@[simp] theorem length_element (tag : UInt8) (content : List UInt8) :
    (element tag content).length = content.length + 2 := rfl

/-- A length of at most 127 is read from its one byte. -/
theorem readLength_short {length : Nat} (short : length < 128) (rest : List UInt8) :
    readLength (UInt8.ofNat length :: rest) = some (length, rest) := by
  -- A byte below 128 is the length itself.
  have value : (UInt8.ofNat length).toNat = length := by
    rw [UInt8.toNat_ofNat']
    omega
  have low : UInt8.ofNat length < 0x80 := by
    rw [UInt8.lt_iff_toNat_lt, value]
    exact short
  simp only [readLength, if_pos low, value]

/-- An element with short content is read back. -/
theorem readTlv_element {tag : UInt8} {content : List UInt8} (short : content.length < 128)
    (rest : List UInt8) : readTlv (element tag content ++ rest) = some (⟨tag, content⟩, rest) := by
  -- The length is read back, and as many bytes are there.
  have enough : ¬ (content ++ rest).length < content.length := by
    rw [List.length_append]
    omega
  simp only [element, List.cons_append, readTlv, readLength_short short, Option.bind_eq_bind,
    Option.bind_some, if_neg enough, List.take_left, List.drop_left]

/-- A length field takes at least one byte. -/
theorem readLength_length {bytes left : List UInt8} {length : Nat}
    (measured : readLength bytes = some (length, left)) : left.length < bytes.length := by
  -- In either form the first byte is gone.
  cases bytes with
  | nil => cases measured
  | cons first tail =>
    simp only [readLength] at measured
    split at measured
    · simp only [Option.some.injEq, Prod.mk.injEq] at measured
      simp only [← measured.2, List.length_cons]
      omega
    · split at measured
      · cases measured
      · simp only [Option.some.injEq, Prod.mk.injEq] at measured
        simp only [← measured.2, List.length_drop, List.length_cons]
        omega

/-- An element and what follows it are shorter together than what the element was read from. -/
theorem readTlv_content {bytes rest : List UInt8} {item : Tlv}
    (read : readTlv bytes = some (item, rest)) :
    item.content.length + rest.length < bytes.length := by
  cases bytes with
  | nil => cases read
  | cons tag bytes =>
    simp only [readTlv, Option.bind_eq_bind, Option.bind_eq_some_iff] at read
    obtain ⟨⟨length, left⟩, measured, read⟩ := read
    -- The content is cut from what follows the length field.
    have shorter := readLength_length measured
    simp only [Option.ite_none_left_eq_some, Option.some.injEq, Prod.mk.injEq] at read
    obtain ⟨_, rfl, rfl⟩ := read
    simp only [List.length_take, List.length_drop, List.length_cons]
    omega

/-- What follows an element is shorter than what the element was read from. -/
theorem readTlv_length {bytes rest : List UInt8} {head : Tlv}
    (read : readTlv bytes = some (head, rest)) : rest.length < bytes.length := by
  -- The tag and the length are gone in any case.
  have both := readTlv_content read
  omega

/-- Any fuel that covers the bytes reads the same elements. -/
theorem readTlvs_fuel : ∀ (fuel other : Nat) (bytes : List UInt8), bytes.length ≤ fuel →
    bytes.length ≤ other → readTlvs fuel bytes = readTlvs other bytes := by
  -- Every element read leaves fewer bytes, so both fuels still cover the rest.
  intro fuel
  induction fuel with
  | zero =>
    intro other bytes enough _
    rw [List.length_eq_zero_iff.mp (Nat.le_zero.mp enough)]
    cases other <;> rfl
  | succ fuel ih =>
    intro other bytes enough also
    cases bytes with
    | nil => cases other <;> rfl
    | cons tag tail =>
      cases other with
      | zero => simp at also
      | succ other =>
        simp only [readTlvs]
        cases read : readTlv (tag :: tail) with
        | none => rfl
        | some result =>
          obtain ⟨head, rest⟩ := result
          have shorter := readTlv_length read
          have same := ih other rest (by omega) (by omega)
          simp only [Option.bind_eq_bind, Option.bind_some, same]

/-- The elements of bytes that begin with one are that one and those of the rest. -/
theorem elements_of_readTlv {bytes rest : List UInt8} {head : Tlv}
    (read : readTlv bytes = some (head, rest)) :
    elements bytes = (elements rest).map (head :: ·) := by
  have shorter := readTlv_length read
  cases bytes with
  | nil => cases read
  | cons tag tail =>
    -- The rest is shorter, so the fuel that is left is enough for it.
    have same : readTlvs tail.length rest = elements rest :=
      readTlvs_fuel _ _ _ (by simpa [Nat.lt_succ_iff] using shorter) (Nat.le_refl _)
    simp only [elements, List.length_cons, readTlvs, read, Option.bind_eq_bind, Option.bind_some,
      same]
    cases readTlvs rest.length rest <;> rfl

/-- An element with short content is read as the first of the elements. -/
theorem elements_element {tag : UInt8} {content : List UInt8} (short : content.length < 128)
    (rest : List UInt8) :
    elements (element tag content ++ rest) = (elements rest).map (⟨tag, content⟩ :: ·) :=
  elements_of_readTlv (readTlv_element short rest)

/-- One element with short content is read as the only one. -/
theorem elements_single {tag : UInt8} {content : List UInt8} (short : content.length < 128) :
    elements (element tag content) = some [⟨tag, content⟩] := by
  -- Nothing follows the element.
  have single := @elements_element tag content short []
  rwa [List.append_nil] at single

/-- Elements with short content, written one behind the other, are read back. -/
theorem elements_flatMap {items : List Tlv} (short : ∀ item ∈ items, item.content.length < 128) :
    elements (items.flatMap fun item => element item.tag item.content) = some items := by
  -- The induction is on the items, the first of which is read off the front.
  induction items with
  | nil => rfl
  | cons item rest ih =>
    rw [List.flatMap_cons, elements_element (short item List.mem_cons_self),
      ih fun other later => short other (List.mem_cons_of_mem _ later)]
    rfl

/-- Bytes that consist of one element are read as that element with nothing behind it. -/
theorem readTlv_of_elements {bytes : List UInt8} {item : Tlv}
    (read : elements bytes = some [item]) : readTlv bytes = some (item, []) := by
  -- The first element is the only one, so nothing comes behind it.
  cases first : readTlv bytes with
  | none =>
    cases bytes with
    | nil => cases read
    | cons tag tail => simp [elements, readTlvs, first] at read
  | some result =>
    obtain ⟨head, rest⟩ := result
    rw [elements_of_readTlv first, Option.map_eq_some_iff] at read
    obtain ⟨tail, none, same⟩ := read
    simp only [List.cons.injEq] at same
    obtain ⟨rfl, rfl⟩ := same
    -- No elements are left only when no bytes are.
    cases rest with
    | nil => rfl
    | cons tag others =>
      simp only [elements, List.length_cons, readTlvs] at none
      cases next : readTlv (tag :: others) with
      | none => simp [next] at none
      | some result =>
        rw [next, Option.bind_eq_bind, Option.bind_some, Option.bind_eq_bind,
          Option.bind_eq_some_iff] at none
        obtain ⟨tail, _, absurd⟩ := none
        cases absurd

/-- A one-byte length field above 127 that is read at all counts bytes of the content as length. -/
theorem readTlv_long {tag : UInt8} {content : List UInt8} {other : Tlv}
    (long : 127 < content.length) (read : readTlv (element tag content) = some (other, [])) :
    ∃ count, 0 < count ∧ count ≤ content.length ∧
      bigEndian (content.take count) + count = content.length := by
  -- The length byte is read as the first one of a long form.
  simp only [readTlv, element, Option.bind_eq_bind, Option.bind_eq_some_iff] at read
  obtain ⟨⟨length, left⟩, measured, read⟩ := read
  simp only [Option.ite_none_left_eq_some, Option.some.injEq, Prod.mk.injEq] at read
  obtain ⟨enough, _, rest⟩ := read
  -- Nothing is left behind the element, so the length that was read is that of all bytes behind it.
  have exact : left.length = length := by
    have none := congrArg List.length rest
    simp only [List.length_drop, List.length_nil] at none
    omega
  simp only [readLength] at measured
  split at measured
  · -- A byte below 128 is a length below 128.
    rename_i low
    simp only [Option.some.injEq, Prod.mk.injEq] at measured
    obtain ⟨rfl, rfl⟩ := measured
    rw [UInt8.lt_iff_toNat_lt] at low
    have bound : (0x80 : UInt8).toNat = 128 := rfl
    omega
  · split at measured
    · cases measured
    · rename_i counted
      simp only [Option.some.injEq, Prod.mk.injEq] at measured
      obtain ⟨rfl, rfl⟩ := measured
      refine ⟨(UInt8.ofNat content.length).toNat - 0x80, by omega, by omega, ?_⟩
      rw [← exact, List.length_drop]
      omega

/-- None of the elements that bytes consist of is longer than the bytes. -/
theorem elements_content : ∀ (fuel : Nat) {bytes : List UInt8} {items : List Tlv},
    readTlvs fuel bytes = some items → ∀ item ∈ items, item.content.length ≤ bytes.length := by
  -- The first element is not longer than the bytes, and the others are in the shorter rest.
  intro fuel
  induction fuel with
  | zero =>
    intro bytes items read
    cases bytes with
    | nil =>
      cases read
      exact nofun
    | cons => cases read
  | succ fuel ih =>
    intro bytes items read
    cases bytes with
    | nil =>
      cases read
      exact nofun
    | cons tag bytes =>
      simp only [readTlvs, Option.bind_eq_bind, Option.bind_eq_some_iff, Option.some.injEq] at read
      obtain ⟨⟨head, rest⟩, first, tail, others, rfl⟩ := read
      intro item member
      rcases List.mem_cons.mp member with rfl | later
      · have both := readTlv_content first
        omega
      · exact Nat.le_trans (ih others item later) (Nat.le_of_lt (readTlv_length first))

end OpenwrtMisc.Ber
