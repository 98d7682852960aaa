import OpenwrtMisc.SnmpAgent.Encode
import Mathlib.Tactic.NormNum

/-! The words of the agent denote the numbers that their bytes are read as. -/

namespace OpenwrtMisc.SnmpAgent

open Ber

/-- The lowest byte of a word. -/
theorem toNat_lowByte (value : BitVec 32) : (lowByte value).toNat = value.toNat % 256 := by
  rw [lowByte, UInt8.toNat_ofNat']

/-- A byte of a word from a bit on. -/
theorem toNat_lowByte_shift (value : BitVec 32) (bits : Nat) :
    (lowByte (value >>> bits)).toNat = value.toNat / 2 ^ bits % 256 := by
  rw [toNat_lowByte, BitVec.toNat_ushiftRight, Nat.shiftRight_eq_div_pow]

/-- The four bytes of a word denote it. -/
theorem bigEndian_wordBytes (value : BitVec 32) : bigEndian (wordBytes value) = value.toNat := by
  -- Each byte is eight bits of the word.
  have word := value.isLt
  have first := toNat_lowByte_shift value 24
  have second := toNat_lowByte_shift value 16
  have third := toNat_lowByte_shift value 8
  have last := toNat_lowByte value
  simp only [wordBytes, bigEndian, List.foldl_cons, List.foldl_nil, first, second, third, last]
  omega

/-- The four bytes of a word denote its signed value. -/
theorem twosComplement_wordBytes (value : BitVec 32) :
    twosComplement (wordBytes value) = value.toInt := by
  have word := value.isLt
  have whole := bigEndian_wordBytes value
  have head := toNat_lowByte_shift value 24
  rw [wordBytes] at whole ⊢
  -- The highest bit of the first byte is the sign of the word.
  by_cases negative : 2 ^ 31 ≤ value.toNat
  · rw [twosComplement_of_high (by rw [head]; omega), whole, BitVec.toInt_eq_toNat_cond,
      if_neg (by omega)]
    norm_num
  · rw [twosComplement_of_low (by rw [head]; omega), whole,
      BitVec.toInt_eq_toNat_of_lt (by omega)]

/-- The content of an INTEGER denotes the signed value of its word. -/
theorem twosComplement_integerContent (value : BitVec 32) :
    twosComplement (integerContent value) = value.toInt := by
  -- One, two or four bytes, each with the sign in its first bit.
  have word := value.isLt
  unfold integerContent
  split
  · exact twosComplement_wordBytes value
  · -- Below the thresholds the number is not negative, and its first byte is low.
    rename_i small
    rw [BitVec.toInt_eq_toNat_of_lt (by omega)]
    split
    · have head := toNat_lowByte_shift value 8
      rw [twosComplement_of_low (by rw [head]; omega)]
      simp only [bigEndian, List.foldl_cons, List.foldl_nil, head, toNat_lowByte]
      omega
    · have head := toNat_lowByte value
      rw [twosComplement_of_low (by rw [head]; omega)]
      simp only [bigEndian, List.foldl_cons, List.foldl_nil, head]
      omega

/-- One more byte is shifted in below the others. -/
theorem shiftedWord_append (content : List UInt8) (byte : UInt8) :
    shiftedWord (content ++ [byte]) = shiftedWord content <<< 8 ||| BitVec.ofNat 32 byte.toNat := by
  simp [shiftedWord]

/-- Up to four bytes that are shifted together keep the number that they denote. -/
theorem toNat_shiftedWord {content : List UInt8} (short : content.length ≤ 4) :
    (shiftedWord content).toNat = bigEndian content := by
  -- Induction on the bytes from the last one on, which is shifted in last.
  induction content using List.reverseRecOn with
  | nil => rfl
  | append_singleton content byte ih =>
    rw [List.length_append, List.length_singleton] at short
    have high := ih (by omega)
    have digit := byte.toNat_lt
    have bound : bigEndian content < 256 ^ 3 :=
      Nat.lt_of_lt_of_le (bigEndian_lt content) (Nat.pow_le_pow_right (by decide) (by omega))
    have single : bigEndian [byte] = byte.toNat := by simp [bigEndian]
    -- The byte fills the eight bits that the shift has cleared.
    have joined := Nat.two_pow_add_eq_or_of_lt (i := 8) digit (bigEndian content)
    have order : 2 ^ 8 * bigEndian content = bigEndian content <<< 8 := by
      rw [Nat.shiftLeft_eq, Nat.mul_comm]
    rw [order] at joined
    have left : bigEndian content <<< 8 < 2 ^ 32 := by
      rw [Nat.shiftLeft_eq]
      omega
    have weight : 256 ^ [byte].length = 2 ^ 8 := rfl
    rw [shiftedWord_append, BitVec.toNat_or, BitVec.toNat_shiftLeft, BitVec.toNat_ofNat, high,
      Nat.mod_eq_of_lt left, Nat.mod_eq_of_lt (by omega), ← joined, bigEndian_append, single,
      Nat.shiftLeft_eq, weight]

/-- A number of 32 bits in minimal form has one to four bytes. -/
theorem length_of_minimal {content : List UInt8} (minimal : Minimal content)
    (low : -2 ^ 31 ≤ twosComplement content) (high : twosComplement content < 2 ^ 31) :
    1 ≤ content.length ∧ content.length ≤ 4 := by
  rcases content with _ | ⟨first, _ | ⟨second, tail⟩⟩
  · exact minimal.elim
  · exact ⟨by simp, by simp⟩
  · refine ⟨by simp, ?_⟩
    by_contra more
    simp only [List.length_cons] at more
    -- A fifth byte would mean that four are not enough.
    have weight : 256 ^ 3 ≤ 256 ^ tail.length := Nat.pow_le_pow_right (by decide) (by omega)
    have large := minimal.large
    generalize 256 ^ tail.length = scale at weight large
    omega

/-- The decoder is right about a number exactly when it is not negative or has all four bytes. -/
theorem toInt_shiftedWord_iff {content : List UInt8} (minimal : Minimal content)
    (low : -2 ^ 31 ≤ twosComplement content) (high : twosComplement content < 2 ^ 31) :
    (shiftedWord content).toInt = twosComplement content ↔
      0 ≤ twosComplement content ∨ twosComplement content < -2 ^ 23 := by
  -- The bytes are shifted together without a sign, so the two differ unless the first bit of the
  -- word is the sign.
  obtain ⟨_, short⟩ := length_of_minimal minimal low high
  have word := toNat_shiftedWord short
  have bound := bigEndian_lt content
  rcases content with _ | ⟨first, tail⟩
  · exact minimal.elim
  have digits := bigEndian_cons first tail
  rcases Nat.lt_or_ge first.toNat 128 with sign | sign
  · -- No bit is lost of a number that is not negative.
    rw [twosComplement_of_low sign] at high ⊢
    refine iff_of_true ?_ (.inl (by omega))
    rw [BitVec.toInt_eq_toNat_of_lt (by omega), word]
  · have least : 128 * 256 ^ tail.length ≤ first.toNat * 256 ^ tail.length :=
      Nat.mul_le_mul_right _ sign
    rw [List.length_cons] at short
    obtain three | fewer : tail.length = 3 ∨ tail.length ≤ 2 := by omega
    · -- With four bytes the sign is the highest bit of the word, and three would not be enough.
      obtain ⟨second, rest, rfl⟩ := List.exists_cons_of_length_pos (by omega : 0 < tail.length)
      have large := minimal.large
      rw [List.length_cons] at three
      have two : rest.length = 2 := by omega
      rw [twosComplement_of_high sign] at large ⊢
      rw [List.length_cons, List.length_cons, two] at bound large ⊢
      rw [List.length_cons, two] at least digits
      refine iff_of_true ?_ (.inr (by omega))
      rw [BitVec.toInt_eq_toNat_cond, if_neg (by omega), word]
      norm_num
    · -- With fewer bytes the decoder fills the upper ones with zeros.
      have weight : 256 ^ (tail.length + 1) ≤ 256 ^ 3 :=
        Nat.pow_le_pow_right (by decide) (by omega)
      have scale : 256 ^ (tail.length + 1) = 256 * 256 ^ tail.length := by
        rw [Nat.pow_succ, Nat.mul_comm]
      rw [twosComplement_of_high sign]
      rw [List.length_cons] at bound ⊢
      have power : ((256 : Int) ^ (tail.length + 1)) = ((256 ^ (tail.length + 1) : Nat) : Int) := by
        push_cast
        rfl
      rw [power]
      refine iff_of_false (fun same => ?_) (by omega)
      rw [BitVec.toInt_eq_toNat_of_lt (by omega), word] at same
      omega

end OpenwrtMisc.SnmpAgent
