import Mathlib.Data.Nat.Log
import Mathlib.Tactic.Ring

/-! Numbers in groups of four bits, the highest group first. -/

namespace OpenwrtMisc.Nibbles

/-- The group of a number at a position. -/
def digit (n i : Nat) : Nat := n / 16 ^ i % 16

/-- The groups of a number from a position down. -/
def digits (n : Nat) : Nat → List Nat
  | 0 => [digit n 0]
  | i + 1 => digit n (i + 1) :: digits n i

/-- The number that follows from the groups behind another one. -/
def extend (n : Nat) (groups : List Nat) : Nat := groups.foldl (fun n group => 16 * n + group) n

/-- A group has four bits. -/
theorem digit_lt (n i : Nat) : digit n i < 16 := Nat.mod_lt _ (by decide)

/-- The highest group of a number is what is left of it. -/
theorem digit_eq_div {n i : Nat} (small : n < 16 ^ (i + 1)) : digit n i = n / 16 ^ i := by
  -- The quotient is less than the base already.
  have below : n / 16 ^ i < 16 := by
    rw [Nat.div_lt_iff_lt_mul (Nat.pow_pos (by decide))]
    rw [Nat.pow_succ] at small
    omega
  exact Nat.mod_eq_of_lt below

/-- A group is taken out of a number with a mask. -/
theorem mask_and (n i : Nat) : 15 * 16 ^ i &&& n = digit n i * 16 ^ i := by
  -- The mask is four ones at the place of the group.
  have power : (16 : Nat) ^ i = 2 ^ (4 * i) := by rw [Nat.pow_mul]
  have four : (15 : Nat) = 2 ^ 4 - 1 := rfl
  rw [digit, power, ← Nat.shiftLeft_eq, ← Nat.shiftLeft_eq, ← Nat.shiftRight_eq_div_pow, four]
  -- Both sides have the bits of the number at the four places of the group.
  refine Nat.eq_of_testBit_eq fun j => ?_
  have sixteen : (2 : Nat) ^ 4 - 1 + 1 = 2 ^ 4 := rfl
  rw [Nat.testBit_and, Nat.testBit_shiftLeft, Nat.testBit_shiftLeft, Nat.testBit_two_pow_sub_one]
  rw [show (16 : Nat) = 2 ^ 4 from rfl, Nat.testBit_mod_two_pow, Nat.testBit_shiftRight]
  by_cases above : 4 * i ≤ j
  · have there : 4 * i + (j - 4 * i) = j := by omega
    simp [above, there]
  · simp [above]

/-- The number of groups from a position down. -/
@[simp] theorem length_digits (n i : Nat) : (digits n i).length = i + 1 := by
  -- The induction is on the position of the first group.
  induction i with
  | zero => rfl
  | succ i ih => rw [digits, List.length_cons, ih]

/-- Groups behind a number are put to it. -/
theorem extend_digits (n i before : Nat) :
    extend before (digits n i) = before * 16 ^ (i + 1) + n % 16 ^ (i + 1) := by
  induction i generalizing before with
  | zero => simp [extend, digits, digit, Nat.mul_comm]
  | succ i ih =>
    have first : extend before (digits n (i + 1)) =
        extend (16 * before + digit n (i + 1)) (digits n i) := rfl
    -- The first group is what the remainder has above the other ones.
    have split : n % 16 ^ (i + 1 + 1) = n % 16 ^ (i + 1) + 16 ^ (i + 1) * digit n (i + 1) := by
      rw [Nat.pow_succ 16 (i + 1), Nat.mod_mul]
      rfl
    rw [first, ih, split]
    ring

/-- The groups of a number denote it. -/
theorem extend_zero_digits {n i : Nat} (small : n < 16 ^ (i + 1)) : extend 0 (digits n i) = n := by
  rw [extend_digits, Nat.zero_mul, Nat.zero_add, Nat.mod_eq_of_lt small]

end OpenwrtMisc.Nibbles
