import Mathlib.Algebra.Order.Field.Basic
import Mathlib.Algebra.Order.Floor.Ring
import Mathlib.Tactic.Linarith
import Mathlib.Tactic.Ring

/-! Rounding to the nearest integer, and the integer part of a number that has a half added. -/

namespace OpenwrtMisc.Rounding

universe u

variable {K : Type u} [Field K] [LinearOrder K] [IsStrictOrderedRing K] [FloorRing K]

/-- The integer part of a number, which is rounded towards zero. -/
def trunc (x : K) : ℤ := if 0 ≤ x then ⌊x⌋ else ⌈x⌉

/-- An integer is nearest to a number, and of two nearest ones it is the one away from zero. -/
structure NearestAway (x : K) (n : ℤ) : Prop where
  near : |x - n| ≤ 1 / 2
  tie : |x - n| = 1 / 2 → |x| < |(n : K)|

/-- The nearest integer of an integer is itself. -/
theorem nearestAway_intCast {v n : ℤ} : NearestAway (v : K) n ↔ n = v := by
  -- The number itself is at no distance.
  constructor
  · intro nearest
    -- Two integers that are at most a half apart are the same.
    have near := abs_le.mp nearest.near
    have below : (v : K) < n + 1 := by linarith
    have above : (n : K) < v + 1 := by linarith
    norm_cast at below above
    omega
  · rintro rfl
    have zero : |(n : K) - n| = 0 := by rw [sub_self, abs_zero]
    exact ⟨by rw [zero]; norm_num, fun half => by rw [zero] at half; norm_num at half⟩

omit [IsStrictOrderedRing K] in
/-- A number that is not negative is rounded down. -/
theorem trunc_of_nonneg {x : K} (nonneg : 0 ≤ x) :
    (trunc x : K) ≤ x ∧ x < trunc x + 1 ∧ 0 ≤ trunc x := by
  -- Towards zero is down here.
  rw [trunc, if_pos nonneg]
  exact ⟨Int.floor_le x, Int.lt_floor_add_one x, Int.floor_nonneg.mpr nonneg⟩

/-- A negative number is rounded up. -/
theorem trunc_of_neg {x : K} (neg : x < 0) : (trunc x : K) < x + 1 ∧ x ≤ trunc x := by
  -- Towards zero is up here.
  rw [trunc, if_neg (not_le.mpr neg)]
  exact ⟨Int.ceil_lt_add_one x, Int.le_ceil x⟩

/--
Adding a half and taking the integer part gives the nearest integer just above minus a half.

At minus a half the tie goes to zero, and below it the result is one too large.
-/
theorem nearestAway_trunc_add_half (x : K) : NearestAway x (trunc (x + 1 / 2)) ↔ -(1 / 2) < x := by
  -- The integer part is taken towards zero, so the sign of the sum decides.
  rcases lt_or_ge (x + 1 / 2) 0 with neg | nonneg
  · -- The integer part is too large by a half at least.
    obtain ⟨_, above⟩ := trunc_of_neg neg
    refine iff_of_false (fun nearest => ?_) (by linarith)
    have near := abs_le.mp nearest.near
    have half : (trunc (x + 1 / 2) : K) = x + 1 / 2 := by linarith
    have tie : |x - trunc (x + 1 / 2)| = 1 / 2 := by
      rw [half, abs_of_nonpos (by linarith)]
      ring
    have away := nearest.tie tie
    rw [half, abs_of_neg (by linarith), abs_of_neg neg] at away
    linarith
  · obtain ⟨below, above, least⟩ := trunc_of_nonneg nonneg
    have bound : (0 : K) ≤ trunc (x + 1 / 2) := Int.cast_nonneg least
    constructor
    · -- At minus a half the integer part is zero, which is not away from zero.
      intro nearest
      refine lt_of_le_of_ne (by linarith) fun equal => ?_
      have zero : (trunc (x + 1 / 2) : K) = 0 := by linarith
      have away := nearest.tie (by rw [zero, sub_zero, ← equal, abs_neg, abs_of_pos (by norm_num)])
      rw [zero, abs_zero] at away
      exact absurd (abs_nonneg x) (not_le.mpr away)
    · intro low
      refine ⟨abs_le.mpr ⟨by linarith, by linarith⟩, fun tie => ?_⟩
      -- A tie is met from below, because the number is less than a half above its integer part.
      have half : (trunc (x + 1 / 2) : K) = x + 1 / 2 := by
        rcases abs_choice (x - trunc (x + 1 / 2)) with same | minus
        · linarith
        · linarith
      -- The integer part is not zero then, so the number is positive.
      have one : (1 : K) ≤ trunc (x + 1 / 2) := by
        have positive : (0 : K) < trunc (x + 1 / 2) := by linarith
        exact_mod_cast Int.cast_pos.mp positive
      rw [half, abs_of_nonneg nonneg]
      exact abs_lt.mpr ⟨by linarith, by linarith⟩

end OpenwrtMisc.Rounding
