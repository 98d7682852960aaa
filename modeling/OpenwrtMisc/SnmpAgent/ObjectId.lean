import OpenwrtMisc.SnmpAgent.Decode
import OpenwrtMisc.SnmpAgent.Encode
import Mathlib.Tactic.SplitIfs

/-! Object identifiers below 1.3: their bytes, their texts, and the way between the two. -/

namespace OpenwrtMisc.SnmpAgent

open Ber

/-- The content octets of the OID 1.3 with further subidentifiers. -/
def oidOctets (arcs : List Nat) : List UInt8 := 0x2b :: arcs.flatMap base128

/-- The dotted text of the OID 1.3 with further subidentifiers. -/
def oidText (arcs : List Nat) : List UInt8 :=
  ascii "1.3" ++ arcs.flatMap fun arc => dot :: decimal arc

/-- A number and its seven lower bits are joined without a carry. -/
theorem or_group (high low : Nat) (small : low < 128) (fits : high * 128 + low < 2 ^ 32) :
    BitVec.ofNat 32 (high * 128) ||| BitVec.ofNat 32 low = BitVec.ofNat 32 (high * 128 + low) := by
  -- The seven lower bits of the number above are zero.
  apply BitVec.eq_of_toNat_eq
  have joined := Nat.two_pow_add_eq_or_of_lt (i := 7) (b := low) small high
  have order : 2 ^ 7 * high = high * 128 := by omega
  rw [order] at joined
  rw [BitVec.toNat_or, BitVec.toNat_ofNat, BitVec.toNat_ofNat, BitVec.toNat_ofNat,
    Nat.mod_eq_of_lt (by omega), Nat.mod_eq_of_lt (by omega), Nat.mod_eq_of_lt fits, joined]

/-- The continued groups of a number become the pending word of the decoder. -/
theorem oidArcs_continuation : ∀ (fuel n : Nat) (rest : List UInt8), n ≤ fuel → n * 128 < 2 ^ 32 →
    oidArcs 0 (continuation fuel n ++ rest) = oidArcs (BitVec.ofNat 32 (n * 128)) rest := by
  -- The groups are produced from the lowest one, so the induction peels that one off.
  intro fuel
  induction fuel with
  | zero =>
    intro n rest enough _
    rw [Nat.le_zero.mp enough]
    rfl
  | succ fuel ih =>
    intro n rest enough fits
    by_cases none : n = 0
    · subst none
      rfl
    · have group : (UInt8.ofNat (n % 128 + 128)).toNat = n % 128 + 128 := by
        rw [UInt8.toNat_ofNat']
        omega
      have continued : 0x80 ≤ UInt8.ofNat (n % 128 + 128) := by
        rw [UInt8.le_iff_toNat_le, group]
        exact Nat.le_add_left _ _
      -- The decoder takes the mark of the byte off and finds the group that it was made of.
      have low : (UInt8.ofNat (n % 128 + 128) &&& 0x7f).toNat = n % 128 := by
        have mask : (0x7f : UInt8).toNat = 2 ^ 7 - 1 := rfl
        rw [UInt8.toNat_and, mask, Nat.and_two_pow_sub_one_eq_mod, group]
        omega
      have digits : n / 128 * 128 + n % 128 = n := by omega
      have shifted : BitVec.ofNat 32 n <<< 7 = BitVec.ofNat 32 (n * 128) := by
        apply BitVec.eq_of_toNat_eq
        rw [BitVec.toNat_shiftLeft, BitVec.toNat_ofNat, BitVec.toNat_ofNat, Nat.shiftLeft_eq]
        omega
      rw [continuation, if_neg none, List.append_assoc, List.singleton_append,
        ih (n / 128) _ (by omega) (by omega), oidArcs, if_pos continued, low,
        or_group _ _ (by omega) (by omega), digits, shifted]

/-- A number in minimal form is decoded to its word. -/
theorem oidArcs_base128 {n : Nat} (fits : n < 2 ^ 32) (rest : List UInt8) :
    oidArcs 0 (base128 n ++ rest) = BitVec.ofNat 32 n :: oidArcs 0 rest := by
  have low : (UInt8.ofNat (n % 128)).toNat = n % 128 := by
    rw [UInt8.toNat_ofNat']
    omega
  -- The lowest group carries no mark, so it ends the number.
  have last : ¬ 0x80 ≤ UInt8.ofNat (n % 128) := by
    rw [UInt8.le_iff_toNat_le, low]
    exact Nat.not_le.mpr (Nat.mod_lt _ (by decide))
  have digits : n / 128 * 128 + n % 128 = n := by omega
  rw [base128, List.append_assoc, List.singleton_append,
    oidArcs_continuation n (n / 128) _ (by omega) (by omega), oidArcs, if_neg last, low,
    or_group _ _ (by omega) (by omega), digits]

/-- Numbers in minimal form are decoded to their words. -/
theorem oidArcs_flatMap {arcs : List Nat} (fits : ∀ arc ∈ arcs, arc < 2 ^ 32) :
    oidArcs 0 (arcs.flatMap base128) = arcs.map (BitVec.ofNat 32) := by
  -- The induction is on the numbers.
  induction arcs with
  | nil => rfl
  | cons arc rest ih =>
    rw [List.flatMap_cons, oidArcs_base128 (fits arc List.mem_cons_self),
      ih fun other later => fits other (List.mem_cons_of_mem _ later), List.map_cons]

/-- A number that fits a word is the value of its word. -/
theorem toNat_word {n : Nat} (small : n < 2 ^ 32) : (BitVec.ofNat 32 n).toNat = n :=
  (BitVec.toNat_ofNat n 32).trans (Nat.mod_eq_of_lt small)

/-- A number below half the range is printed as it is. -/
theorem dotted_ofNat {n : Nat} (small : n < 2 ^ 31) :
    dotted (BitVec.ofNat 32 n) = dot :: decimal n := by
  -- The signed value is the number itself.
  have value : (BitVec.ofNat 32 n).toInt = n := by
    have word := @toNat_word n (by omega)
    rw [BitVec.toInt_eq_toNat_of_lt (by rw [word]; omega), word]
  rw [dotted, value, formatInt_natCast]

/-- The texts of small numbers are collected to the text of the OID. -/
theorem flatMap_dotted {arcs : List Nat} (small : ∀ arc ∈ arcs, arc < 2 ^ 31) :
    (arcs.map (BitVec.ofNat 32)).flatMap dotted = arcs.flatMap fun arc => dot :: decimal arc := by
  -- Each number is printed as it is.
  rw [List.flatMap_map]
  exact List.flatMap_congr fun arc member => dotted_ofNat (small arc member)

/-- Bytes that are decoded to small numbers are the OID of these numbers, if the text fits. -/
theorem oidField_nodes {arcs : List Nat} {nodes : List UInt8}
    (decoded : oidArcs 0 nodes = arcs.map (BitVec.ofNat 32))
    (small : ∀ arc ∈ arcs, arc < 1000000) (text : (oidText arcs).length < oidTextSize)
    (short : nodes.length + 1 < 256) (rest : List UInt8) :
    OidField (UInt8.ofNat (nodes.length + 1) :: 0x2b :: (nodes ++ rest)) (oidText arcs) rest := by
  -- The numbers are small, so each of them is printed without a sign and fits its buffer.
  have halves : ∀ arc ∈ arcs, arc < 2 ^ 31 :=
    fun arc member => Nat.lt_trans (small arc member) (by decide)
  have printed := flatMap_dotted halves
  -- The length byte is at least one, so the byte less one does not wrap.
  have size : nodes.length = (UInt8.ofNat (nodes.length + 1) - 1).toNat := by
    have value : (UInt8.ofNat (nodes.length + 1)).toNat = nodes.length + 1 := by
      rw [UInt8.toNat_ofNat']
      omega
    rw [toNat_length_sub_one (by omega), value, Nat.add_sub_cancel]
  have fits : TextFits (oidPrefix 0x2b) (oidArcs 0 nodes) := by
    refine ⟨?_, ?_⟩
    · rw [decoded]
      intro word member
      obtain ⟨arc, found, rfl⟩ := List.mem_map.mp member
      -- Six digits and the dot leave room for the final zero.
      have digits := (@length_decimal_le_iff arc 6 (by decide)).mpr (small arc found)
      rw [dotted_ofNat (halves arc found), List.length_cons, numberSize]
      omega
    · rw [decoded, printed]
      exact text
  have field := @OidField.sized (UInt8.ofNat (nodes.length + 1)) 0x2b _ rest size fits
  rw [decoded, printed] at field
  exact field

/-- An OID whose numbers and text fit their buffers is decoded to its text. -/
theorem oidField_octets {arcs : List Nat} (small : ∀ arc ∈ arcs, arc < 1000000)
    (text : (oidText arcs).length < oidTextSize) (short : (oidOctets arcs).length < 256)
    (rest : List UInt8) :
    OidField (UInt8.ofNat (oidOctets arcs).length :: (oidOctets arcs ++ rest)) (oidText arcs)
      rest := by
  -- The decoded words are those of the numbers.
  have decoded : oidArcs 0 (arcs.flatMap base128) = arcs.map (BitVec.ofNat 32) :=
    oidArcs_flatMap fun arc member => Nat.lt_trans (small arc member) (by decide)
  exact oidField_nodes decoded small text short rest

/-- A mask of the bits from one on is clear of exactly the numbers below that bit. -/
theorem and_highMask_eq_zero {bits : Nat} (inside : bits ≤ 32) (value : BitVec 32) :
    value &&& BitVec.ofNat 32 (2 ^ 32 - 2 ^ bits) = 0 ↔ value.toNat < 2 ^ bits := by
  -- The mask has the bits from that one to the end of the word.
  have mask : ∀ i, (2 ^ 32 - 2 ^ bits).testBit i = (decide (i < 32) && decide (bits ≤ i)) := by
    intro i
    have positive := Nat.two_pow_pos bits
    have shape : 2 ^ 32 - 2 ^ bits = 2 ^ 32 - (2 ^ bits - 1 + 1) := by omega
    have below : 2 ^ bits - 1 < 2 ^ 32 :=
      Nat.lt_of_lt_of_le (Nat.sub_lt positive (by decide)) (Nat.pow_le_pow_right (by decide) inside)
    rw [shape, Nat.testBit_two_pow_sub_succ below, Nat.testBit_two_pow_sub_one]
    by_cases low : i < bits <;> simp [low, Nat.not_lt.mp, Nat.not_le.mpr]
  constructor
  · intro clear
    refine Nat.lt_pow_two_of_testBit _ fun i high => ?_
    by_cases word : i < 32
    · have bit := congrArg (fun bits : BitVec 32 => bits.getLsbD i) clear
      simp only [BitVec.getLsbD_and, BitVec.getLsbD_ofNat, mask, word, high, decide_true,
        Bool.and_true, BitVec.ofNat_eq_ofNat, Nat.zero_testBit] at bit
      exact bit
    · exact BitVec.getLsbD_of_ge value i (Nat.not_lt.mp word)
  · intro small
    refine BitVec.eq_of_getLsbD_eq fun i word => ?_
    simp only [BitVec.getLsbD_and, BitVec.getLsbD_ofNat, mask, word, decide_true, Bool.true_and,
      BitVec.ofNat_eq_ofNat, Nat.zero_testBit, Bool.and_false]
    by_cases high : bits ≤ i
    · have bit : value.getLsbD i = false :=
        Nat.testBit_lt_two_pow (Nat.lt_of_lt_of_le small (Nat.pow_le_pow_right (by decide) high))
      rw [bit, Bool.false_and]
    · simp [high]

/-- The thresholds of the encoder; the third is lower than what three groups could hold. -/
theorem oidItemLength_eq (value : BitVec 32) :
    oidItemLength value =
      if value.toNat < 2 ^ 7 then 1 else if value.toNat < 2 ^ 14 then 2
      else if value.toNat < 2 ^ 17 then 3 else if value.toNat < 2 ^ 28 then 4 else 5 := by
  -- Each mask of the source leaves nothing just below a power of two.
  have first := @and_highMask_eq_zero 7 (by decide) value
  have second := @and_highMask_eq_zero 14 (by decide) value
  have third := @and_highMask_eq_zero 17 (by decide) value
  have fourth := @and_highMask_eq_zero 28 (by decide) value
  unfold oidItemLength
  simp only [← first, ← second, ← third, ← fourth]
  rfl

/-- The encoder writes at least one group. -/
theorem oidItemLength_pos (value : BitVec 32) : 1 ≤ oidItemLength value := by
  -- One to five groups.
  rw [oidItemLength_eq]
  split_ifs <;> decide

/-- The groups that the encoder writes before others. -/
theorem encodeArcLoop_append (j : Nat) (value : BitVec 32) (written : List UInt8) :
    encodeArcLoop j value written = encodeArcLoop j value [] ++ written := by
  -- The induction is on the groups, each of which is put in front of what was written.
  induction j generalizing value written with
  | zero => rfl
  | succ j ih =>
    rw [encodeArcLoop, encodeArcLoop, ih _ (_ :: written), ih _ [_], List.append_assoc]
    rfl

/-- The encoder writes as many groups as it is asked to. -/
theorem length_encodeArc (value : BitVec 32) :
    (encodeArc value).length = oidItemLength value := by
  -- The loop writes a group in each of its turns, and the last group is written before it.
  have loop : ∀ (j : Nat) (value : BitVec 32) (written : List UInt8),
      (encodeArcLoop j value written).length = j + written.length := by
    intro j
    induction j with
    | zero => intro _ _; exact (Nat.zero_add _).symm
    | succ j ih =>
      intro value written
      rw [encodeArcLoop, ih, List.length_cons]
      omega
  have positive := oidItemLength_pos value
  rw [encodeArc, loop, List.length_singleton]
  omega

/-- A group is the seven bits above those that were taken off before. -/
theorem toNat_group (value : BitVec 32) :
    (UInt8.ofNat (value &&& 0x7f).toNat).toNat = value.toNat % 128 := by
  -- The mask keeps the remainder by 128.
  have mask : (0x7f : BitVec 32).toNat = 2 ^ 7 - 1 := rfl
  rw [BitVec.toNat_and, mask, Nat.and_two_pow_sub_one_eq_mod, UInt8.toNat_ofNat']
  omega

/-- A group with its continuation mark. -/
theorem toNat_continued (value : BitVec 32) :
    (UInt8.ofNat (value &&& 0x7f).toNat ||| 0x80).toNat = value.toNat % 128 + 128 := by
  -- The mark is the bit above the group.
  have small : value.toNat % 128 < 2 ^ 7 := Nat.mod_lt _ (by decide)
  have mark : (0x80 : UInt8).toNat = 2 ^ 7 * 1 := rfl
  rw [UInt8.toNat_or, toNat_group, mark, Nat.or_comm, ← Nat.two_pow_add_eq_or_of_lt small]
  omega

/-- The bits above the lowest group are the number without its lowest digit to base 128. -/
theorem toNat_shift_group (value : BitVec 32) : (value >>> 7).toNat = value.toNat / 128 := by
  rw [BitVec.toNat_ushiftRight, Nat.shiftRight_eq_div_pow]

/-- The lowest digit to base 128 is read behind the digits above it. -/
theorem digits_succ (pending value j : Nat) :
    128 * (pending * 128 ^ j + value / 128 % 128 ^ j) + value % 128 =
      pending * 128 ^ (j + 1) + value % 128 ^ (j + 1) := by
  -- The value is split into its lowest digit and those above it.
  have digit : value % (128 * 128 ^ j) = value % 128 + 128 * (value / 128 % 128 ^ j) := Nat.mod_mul
  rw [Nat.pow_succ, Nat.mul_comm (128 ^ j) 128, digit]
  generalize value / 128 % 128 ^ j = high
  generalize 128 ^ j = weight
  ring

/-- The continued groups of the encoder are read as the number above its lowest group. -/
theorem subidentifiers_encodeArcLoop : ∀ (j : Nat) (value : BitVec 32) (pending : Nat)
    (written : List UInt8),
    subidentifiers (some pending) (encodeArcLoop j value written) =
      subidentifiers (some (pending * 128 ^ j + value.toNat / 128 % 128 ^ j)) written := by
  -- Induction on the groups that are still to be written.
  intro j
  induction j with
  | zero =>
    intro value pending written
    rw [encodeArcLoop, Nat.pow_zero, Nat.mod_one, Nat.mul_one, Nat.add_zero]
  | succ j ih =>
    intro value pending written
    -- The last group to be written is the first to be read, and more groups stand before it.
    have high : 128 ≤ (UInt8.ofNat (value >>> 7 &&& 0x7f).toNat ||| 0x80).toNat := by
      rw [toNat_continued]
      exact Nat.le_add_left _ _
    have shifted := toNat_shift_group value
    rw [encodeArcLoop, ih, subidentifiers_continued _ high, toNat_continued, shifted,
      Option.getD_some]
    rw [Nat.add_sub_cancel, digits_succ]

/-- The number of groups is enough for the value. -/
theorem toNat_lt_oidItemLength (value : BitVec 32) :
    value.toNat < 128 ^ oidItemLength value := by
  -- The number of groups is chosen by the highest bit of the word.
  have word := value.isLt
  rw [oidItemLength_eq]
  split_ifs <;> omega

/-- What the encoder writes for a number is read as that number. -/
theorem subidentifiers_encodeArc (value : BitVec 32) (rest : List UInt8) :
    subidentifiers none (encodeArc value ++ rest) =
      (subidentifiers none rest).map (value.toNat :: ·) := by
  -- The loop writes the upper groups, and the last one has no bit for a further group.
  have bound := toNat_lt_oidItemLength value
  have low : (UInt8.ofNat (value &&& 0x7f).toNat).toNat < 128 := by
    rw [toNat_group]
    exact Nat.mod_lt _ (by decide)
  -- Nothing is pending before the first group, which counts like a pending zero.
  have start : ∀ (byte : UInt8) (tail : List UInt8),
      subidentifiers none (byte :: tail) = subidentifiers (some 0) (byte :: tail) := by
    intro byte tail
    simp only [subidentifiers, Option.getD_none, Option.getD_some]
  obtain ⟨byte, tail, shape⟩ : ∃ byte tail, encodeArc value ++ rest = byte :: tail := by
    cases shape : encodeArc value with
    | nil =>
      have length := length_encodeArc value
      rw [shape, List.length_nil] at length
      exact absurd (oidItemLength_pos value) (by rw [← length]; decide)
    | cons byte tail => exact ⟨byte, tail ++ rest, rfl⟩
  have whole : encodeArc value ++ rest = encodeArcLoop (oidItemLength value - 1) value
      (UInt8.ofNat (value &&& 0x7f).toNat :: rest) := by
    rw [encodeArc, encodeArcLoop_append, encodeArcLoop_append _ _ (_ :: rest), List.append_assoc]
    rfl
  have positive : oidItemLength value - 1 + 1 = oidItemLength value :=
    Nat.sub_add_cancel (oidItemLength_pos value)
  rw [shape, start, ← shape, whole, subidentifiers_encodeArcLoop, subidentifiers_last _ low,
    toNat_group, Option.getD_some, digits_succ, positive, Nat.zero_mul, Nat.zero_add,
    Nat.mod_eq_of_lt bound]

/-- What the encoder writes for numbers is read as those numbers. -/
theorem subidentifiers_flatMap {arcs : List Nat} (fits : ∀ arc ∈ arcs, arc < 2 ^ 32) :
    subidentifiers none (arcs.flatMap fun arc => encodeArc (BitVec.ofNat 32 arc)) = some arcs := by
  -- The induction is on the numbers, each of which ends with a byte without a mark.
  induction arcs with
  | nil => rfl
  | cons arc rest ih =>
    rw [List.flatMap_cons, subidentifiers_encodeArc,
      ih fun other later => fits other (List.mem_cons_of_mem _ later),
      toNat_word (fits arc List.mem_cons_self)]
    rfl

/-- The numbers of the text of an OID are found again. -/
theorem strtok_oidText (arcs : List Nat) :
    strtok dot (oidText arcs) = decimal 1 :: decimal 3 :: arcs.map decimal := by
  -- The first two numbers are in the text as the others are, so all are printed alike.
  have shape : oidText arcs = decimal 1 ++
      ((3 :: arcs).map fun n : Nat => (n : Int)).flatMap fun value => dot :: formatInt value := by
    rw [List.flatMap_map, List.flatMap_cons, oidText]
    simp only [formatInt_natCast]
    rfl
  rw [shape, strtok_dotted _ (by decide) (by decide), List.map_map, List.map_cons]
  simp only [Function.comp_def, formatInt_natCast]

/-- The encoder writes the numbers of an OID in their order, the first two as one byte. -/
theorem oidContent_oidText (arcs : List Nat) :
    oidContent (oidText arcs) =
      0x2b :: arcs.flatMap fun arc => encodeArc (BitVec.ofNat 32 arc) := by
  have number : ∀ n : Nat, atoi (decimal n) = n := by
    intro n
    have printed := atoi_formatInt n
    rwa [formatInt_natCast] at printed
  -- The first two tokens are 1 and 3, and each of the others is encoded from its number.
  have head : UInt8.ofNat (BitVec.ofInt 32 (atoi (decimal 1) * 40 + atoi (decimal 3))).toNat =
      0x2b := by decide
  have bytes : ∀ n : Nat, arcBytes (decimal n) = encodeArc (BitVec.ofNat 32 n) := by
    intro n
    rw [arcBytes, number, BitVec.ofInt_natCast]
  simp only [oidContent, strtok_oidText, head, List.flatMap_map, bytes]

/-- A number takes no more bytes than its text with the dot. -/
theorem length_encodeArc_le {arc : Nat} (small : arc < 2 ^ 32) :
    (encodeArc (BitVec.ofNat 32 arc)).length ≤ (dot :: decimal arc).length := by
  -- The thresholds are compared with the powers of ten below them.
  have word := toNat_word small
  have digits : ∀ count, 0 < count → 10 ^ count ≤ arc → count < (decimal arc).length := by
    intro count positive large
    exact Nat.not_le.mp fun few =>
      Nat.not_le.mpr ((length_decimal_le_iff positive).mp few) large
  have one : 0 < (decimal arc).length := List.length_pos_of_ne_nil (decimal_ne_nil arc)
  rw [length_encodeArc, oidItemLength_eq, word, List.length_cons]
  -- Every further group comes with at least one more digit.
  split_ifs with first second third
  · omega
  · omega
  · have more := digits 2 (by decide) (by omega)
    omega
  · have more := digits 3 (by decide) (by omega)
    omega
  · have more := digits 4 (by decide) (by omega)
    omega

/-- The encoder writes at most twice as many groups as a number needs. -/
theorem length_encodeArc_le_base128 {arc : Nat} (small : arc < 2 ^ 32) :
    (encodeArc (BitVec.ofNat 32 arc)).length ≤ 2 * (base128 arc).length := by
  have enough := lt_length_base128 arc
  rw [length_encodeArc, oidItemLength_eq, toNat_word small]
  -- One group is right for seven bits, and two are at least half of four.
  obtain one | two | more : (base128 arc).length ≤ 1 ∨ (base128 arc).length = 2 ∨
      3 ≤ (base128 arc).length := by omega
  · have seven : 128 ^ (base128 arc).length ≤ 128 ^ 1 := Nat.pow_le_pow_right (by decide) one
    have group : (base128 arc).length ≠ 0 := by simp [base128]
    rw [if_pos (by omega)]
    omega
  · rw [two] at enough ⊢
    split_ifs <;> omega
  · split_ifs <;> omega

/-- Items that each take no more room take no more room together. -/
theorem length_flatMap_le {α β : Type} {write rewrite : α → List β} {items : List α}
    (shorter : ∀ item ∈ items, (write item).length ≤ (rewrite item).length) :
    (items.flatMap write).length ≤ (items.flatMap rewrite).length := by
  -- The induction is on the items.
  induction items with
  | nil => exact Nat.le_refl _
  | cons item rest ih =>
    have head := shorter item List.mem_cons_self
    have tail := ih fun other later => shorter other (List.mem_cons_of_mem _ later)
    rw [List.flatMap_cons, List.flatMap_cons, List.length_append, List.length_append]
    omega

/-- Numbers take no more bytes than their texts. -/
theorem length_flatMap_encodeArc {arcs : List Nat} (small : ∀ arc ∈ arcs, arc < 2 ^ 32) :
    (arcs.flatMap fun arc => encodeArc (BitVec.ofNat 32 arc)).length ≤
      (arcs.flatMap fun arc => dot :: decimal arc).length :=
  length_flatMap_le fun arc member => length_encodeArc_le (small arc member)

/-- The text of an OID can be encoded. -/
theorem encodable_oidText {arcs : List Nat} (small : ∀ arc ∈ arcs, arc < 2 ^ 32) :
    Encodable (oidText arcs) := by
  -- The text begins with 1.3, and every number takes at most as many bytes as characters.
  have sizes := length_flatMap_encodeArc small
  refine ⟨?_, ?_⟩
  · rw [strtok_oidText]
    exact Nat.le_add_left 2 _
  · have start : (ascii "1.3").length = 3 := by decide
    rw [oidContent_oidText, oidText, List.length_cons, List.length_append, start]
    omega

/-- Different OIDs have different texts. -/
theorem oidText_injective : Function.Injective oidText := by
  -- The numbers are the tokens of the text.
  intro first second same
  have tokens := congrArg (strtok dot) same
  rw [strtok_oidText, strtok_oidText] at tokens
  have decimals : first.map decimal = second.map decimal := by simpa using tokens
  refine List.map_injective_iff.mpr (fun n m equal => ?_) decimals
  have value := congrArg digitsValue equal
  rwa [digitsValue_decimal, digitsValue_decimal] at value

/-- As many groups as a number needs are its minimal groups. -/
theorem encodeArcLoop_eq_continuation : ∀ (j : Nat) (value : BitVec 32) (fuel : Nat),
    value.toNat / 128 ≤ fuel → (j = 0 ∨ 128 ^ j ≤ value.toNat) → value.toNat < 128 ^ (j + 1) →
      encodeArcLoop j value [] = continuation fuel (value.toNat / 128) := by
  -- Induction on the groups, each a digit of the number to the base 128.
  intro j
  induction j with
  | zero =>
    intro value fuel _ _ small
    have none : value.toNat / 128 = 0 := Nat.div_eq_of_lt (by simpa using small)
    rw [none, continuation_zero]
    rfl
  | succ j ih =>
    intro value fuel enough needed small
    -- The bounds of the shifted number are those of the number, a digit lower.
    have large : 128 ^ j * 128 ≤ value.toNat := by
      rw [← Nat.pow_succ]
      exact needed.resolve_left (Nat.succ_ne_zero j)
    have top : value.toNat < 128 ^ (j + 1) * 128 := by
      rw [← Nat.pow_succ]
      exact small
    have weight : 1 ≤ 128 ^ j := Nat.one_le_pow _ _ (by decide)
    have shifted := toNat_shift_group value
    cases fuel with
    | zero => omega
    | succ fuel =>
      have group : UInt8.ofNat (value >>> 7 &&& 0x7f).toNat ||| 0x80 =
          UInt8.ofNat (value.toNat / 128 % 128 + 128) := by
        apply UInt8.toNat_inj.mp
        rw [toNat_continued, shifted, UInt8.toNat_ofNat']
        omega
      have rest := ih (value >>> 7) fuel (by omega) (.inr (by omega)) (by omega)
      rw [shifted] at rest
      rw [encodeArcLoop, encodeArcLoop_append, rest, continuation, if_neg (by omega), group]

/-- Outside the gap above its third threshold the groups of the encoder are the minimal ones. -/
theorem encodeArc_minimal {arc : Nat} (small : arc < 2 ^ 32)
    (outside : arc < 2 ^ 17 ∨ 2 ^ 21 ≤ arc) :
    encodeArc (BitVec.ofNat 32 arc) = base128 arc := by
  -- The last group is the same in both, so the groups before it are compared.
  have word := toNat_word small
  have last : UInt8.ofNat (BitVec.ofNat 32 arc &&& 0x7f).toNat = UInt8.ofNat (arc % 128) := by
    apply UInt8.toNat_inj.mp
    rw [toNat_group, word, UInt8.toNat_ofNat']
    omega
  -- Outside the gap the loop has as many turns as there are groups above the lowest one.
  have groups : encodeArcLoop (oidItemLength (BitVec.ofNat 32 arc) - 1) (BitVec.ofNat 32 arc) [] =
      continuation arc (arc / 128) := by
    have minimal := encodeArcLoop_eq_continuation (oidItemLength (BitVec.ofNat 32 arc) - 1)
      (BitVec.ofNat 32 arc) arc
    rw [word, oidItemLength_eq, word] at minimal
    rw [oidItemLength_eq, word]
    refine minimal (Nat.div_le_self _ _) ?_ ?_
    · split_ifs <;> omega
    · split_ifs <;> omega
  rw [encodeArc, encodeArcLoop_append, groups, last, base128]

/-- Below the third threshold of the encoder its groups are the minimal ones. -/
theorem encodeArc_eq_base128 {arc : Nat} (small : arc < 2 ^ 17) :
    encodeArc (BitVec.ofNat 32 arc) = base128 arc :=
  encodeArc_minimal (by omega) (.inl small)

/-- In the gap above the third threshold the encoder writes a group that is not needed. -/
theorem length_gap {arc : Nat} (large : 2 ^ 17 ≤ arc) (small : arc < 2 ^ 21) :
    (encodeArc (BitVec.ofNat 32 arc)).length = 4 ∧ (base128 arc).length = 3 := by
  have word := @toNat_word arc (by omega)
  -- Two groups above the lowest one are enough.
  have upper := encodeArcLoop_eq_continuation 2 (BitVec.ofNat 32 arc) arc
    (by rw [word]; omega) (.inr (by rw [word]; omega)) (by rw [word]; omega)
  rw [word] at upper
  constructor
  · rw [length_encodeArc, oidItemLength_eq, word, if_neg (by omega), if_neg (by omega),
      if_neg (by omega), if_pos (by omega)]
  · rw [base128, ← upper]
    rfl

/-- The minimal form of a number is not longer than what the encoder writes, nor than its text. -/
theorem length_base128_le {arc : Nat} (small : arc < 2 ^ 32) :
    (base128 arc).length ≤ (dot :: decimal arc).length := by
  -- The encoder's form has one more group at the numbers of the gap, and the same ones elsewhere.
  have written := length_encodeArc_le small
  by_cases gap : 2 ^ 17 ≤ arc ∧ arc < 2 ^ 21
  · obtain ⟨four, three⟩ := length_gap gap.1 gap.2
    omega
  · rwa [← encodeArc_minimal small (by omega)]

/-- An OID whose numbers are all below that threshold is encoded to the bytes it came in. -/
theorem oidContent_eq_octets {arcs : List Nat} (small : ∀ arc ∈ arcs, arc < 2 ^ 17) :
    oidContent (oidText arcs) = oidOctets arcs := by
  -- Below the gap the encoder writes the minimal form.
  rw [oidContent_oidText, oidOctets]
  exact congrArg _ (List.flatMap_congr fun arc member => encodeArc_eq_base128 (small arc member))

end OpenwrtMisc.SnmpAgent
