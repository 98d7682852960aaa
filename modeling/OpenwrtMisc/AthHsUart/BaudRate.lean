import Mathlib.Algebra.Order.Ring.Nat
import Mathlib.Order.Interval.Finset.Nat
import OpenwrtMisc.Lib.Search

/-! The search for the scale and the step of a baud rate in the AR934x high-speed UART driver. -/

namespace OpenwrtMisc.AthHsUart

open Search

/-- `AR934X_HS_UART_MAX_SCALE` and `AR934X_HS_UART_MAX_STEP`. -/
def maxScale : Nat := 0xff
def maxStep : Nat := 0x3333

/-- `AR934X_HS_UART_MIN_BAUD` and `AR934X_HS_UART_MAX_BAUD`. -/
def minBaudRate : Nat := 300
def maxBaudRate : Nat := 30000000

/-- A result in `unsigned int`, and in `u64`. -/
def u32 (value : Nat) : Nat := value % 2 ^ 32
def u64 (value : Nat) : Nat := value % 2 ^ 64

/-- A value in `int`, and in the `long` of the same width that the processor has. -/
def s32 (value : Int) : Int := value.bmod (2 ^ 32)

/-- `ar934x_hs_uart_get_baud`. -/
def getBaud (clk scale step : Nat) : Nat :=
  let div := u32 ((2 <<< 16) * u32 (scale + 1))
  let t := u64 (clk * step)
  let t := u64 (t + div / 2)
  u32 (t / div)

/-- The step that a turn of the search computes for its scale. -/
def stepFor (clk baud tscale : Nat) : Nat :=
  u64 (u32 (baud * u32 (tscale + 1)) * (2 <<< 16)) / clk

/-- `diff` of a turn. -/
def diffFor (clk baud tscale : Nat) : Int :=
  s32 (s32 (getBaud clk tscale (u32 (stepFor clk baud tscale)) - baud)).natAbs

/-- `*scale` and `*step`. -/
structure ScaleStep where
  scale : Nat
  step : Nat
  deriving DecidableEq, Repr

/-- The condition of the `break`. -/
def TooLarge (clk baud tscale : Nat) : Prop := stepFor clk baud tscale > maxStep

instance (clk baud : Nat) : DecidablePred (TooLarge clk baud) := fun _ =>
  inferInstanceAs (Decidable (_ > _))

/-- What a turn has to offer, and what it makes of `*scale`, `*step` and `min_diff`. -/
def offerFor (clk baud tscale : Nat) : Held ScaleStep Int :=
  ⟨⟨tscale, stepFor clk baud tscale⟩, diffFor clk baud tscale⟩

def searchTurn (clk baud tscale : Nat) (held : Held ScaleStep Int) : Held ScaleStep Int :=
  (offerFor clk baud tscale).offer held

/-- `ar934x_hs_uart_get_scale_step`. -/
def getScaleStep (clk baud : Nat) : ScaleStep :=
  (scan (TooLarge clk baud) (searchTurn clk baud) maxScale 0 ⟨⟨0, 0⟩, s32 baud⟩).choice

/-- `min_baud` and `max_baud`, as `ar934x_hs_uart_probe` sets them for a clock. -/
def minBaud (clk : Nat) : Nat := max (getBaud clk maxScale 1) minBaudRate
def maxBaud (clk : Nat) : Nat := min (getBaud clk 0 maxStep) maxBaudRate

/-- The step of a scale, without any wrapping. -/
def exactStep (clk baud scale : Nat) : Nat := baud * (scale + 1) * 2 ^ 17 / clk

/-- The difference of a rate from the one that is asked for, without any wrapping. -/
def exactDiff (clk baud scale step : Nat) : Int := (getBaud clk scale step : Int) - baud

/-- The turns of the search that compare their difference. -/
def Compared (clk baud tscale : Nat) : Prop :=
  tscale < maxScale ∧ Reached (TooLarge clk baud) (tscale + 1)

/-- What is expected of the arithmetic of a search. -/
structure NoOverflow (clk baud : Nat) : Prop where
  product : ∀ tscale, tscale < maxScale → Reached (TooLarge clk baud) tscale →
    baud * (tscale + 1) < 2 ^ 32
  divisor : ∀ tscale, Compared clk baud tscale → 2 ^ 17 * (tscale + 1) < 2 ^ 32
  difference : ∀ tscale, Compared clk baud tscale →
    -2 ^ 31 ≤ exactDiff clk baud tscale (exactStep clk baud tscale) ∧
      exactDiff clk baud tscale (exactStep clk baud tscale) < 2 ^ 31

/-- What is expected of the result of a search. -/
structure BestRate (clk baud : Nat) (found : ScaleStep) : Prop where
  scale : found.scale ≤ 254
  stepLow : 1 ≤ found.step
  stepHigh : found.step ≤ 0x3333
  step : found.step = exactStep clk baud found.scale
  best : ∀ scale, scale ≤ 254 → exactStep clk baud scale ≤ 0x3333 →
    (exactDiff clk baud found.scale found.step).natAbs ≤
      (exactDiff clk baud scale (exactStep clk baud scale)).natAbs

/-- A clock, and a rate between the ones of the probe. -/
structure Clocked (clk baud : Nat) : Prop where
  clkLow : 65536 < clk
  clkHigh : clk < 2 ^ 32
  baudLow : minBaud clk ≤ baud
  baudHigh : baud ≤ maxBaud clk

/-- A value that fits is its own result. -/
theorem u32_eq {value : Nat} (fits : value < 2 ^ 32) : u32 value = value :=
  Nat.mod_eq_of_lt fits

/-- So is one of 64 bits. -/
theorem u64_eq {value : Nat} (fits : value < 2 ^ 64) : u64 value = value :=
  Nat.mod_eq_of_lt fits

/-- So is a signed one. -/
theorem s32_eq {value : Int} (low : -2 ^ 31 ≤ value) (high : value < 2 ^ 31) :
    s32 value = value := by
  -- The half-open range of an `int` is the one of the balanced remainder.
  unfold s32
  exact Int.bmod_eq_of_le (by omega) (by omega)

/-- The rate without any wrapping, for a step that the search can choose. -/
theorem getBaud_eq {clk scale step : Nat} (clkHigh : clk < 2 ^ 32) (scaleHigh : scale ≤ 255)
    (stepHigh : step ≤ 13107) :
    getBaud clk scale step = (clk * step + 2 ^ 16 * (scale + 1)) / (2 ^ 17 * (scale + 1)) := by
  -- No product reaches the width that it is computed in.
  have product : clk * step ≤ 2 ^ 32 * 13107 := Nat.mul_le_mul (by omega) stepHigh
  have next : u32 (scale + 1) = scale + 1 := u32_eq (by omega)
  have div : u32 ((2 <<< 16) * (scale + 1)) = 2 ^ 17 * (scale + 1) := u32_eq (by omega)
  have half : 2 ^ 17 * (scale + 1) / 2 = 2 ^ 16 * (scale + 1) := by omega
  -- The quotient is below the widest product over the smallest divisor.
  have quotient : (clk * step + 2 ^ 16 * (scale + 1)) / (2 ^ 17 * (scale + 1)) < 2 ^ 32 := by
    rw [Nat.div_lt_iff_lt_mul (by omega)]
    omega
  unfold getBaud
  simp only [next, div, half]
  have exact : u64 (clk * step) = clk * step := u64_eq (by omega)
  rw [exact, u64_eq (by omega), u32_eq quotient]

/-- The step of a turn is exact when its product does not wrap. -/
theorem stepFor_eq {clk baud tscale : Nat} (below : tscale < maxScale)
    (product : baud * (tscale + 1) < 2 ^ 32) :
    stepFor clk baud tscale = exactStep clk baud tscale := by
  -- Neither the product with the rate nor the one with the clock reaches its width.
  unfold maxScale at below
  have next : u32 (tscale + 1) = tscale + 1 := u32_eq (by omega)
  unfold stepFor exactStep
  rw [next, u32_eq product, u64_eq (by omega)]
  rfl

/-- The products of the turns that are reached do not wrap. -/
theorem product_lt {clk baud tscale : Nat} (clkLow : 0 < clk) (clkHigh : clk < 2 ^ 32)
    (baudHigh : baud ≤ maxBaudRate) (below : tscale < maxScale)
    (reached : Reached (TooLarge clk baud) tscale) : baud * (tscale + 1) < 2 ^ 32 := by
  unfold maxBaudRate at baudHigh
  -- The induction is on the scale: the step before was not too large, so its product is small.
  induction tscale with
  | zero => omega
  | succ tscale ih =>
    have inside : tscale < maxScale := Nat.lt_of_succ_lt below
    have before := ih inside fun earlier less => reached earlier (by omega)
    have goes : stepFor clk baud tscale ≤ maxStep := not_lt.mp (reached tscale (by omega))
    rw [stepFor_eq inside before] at goes
    unfold exactStep maxStep at goes
    rw [← Nat.lt_succ_iff, Nat.div_lt_iff_lt_mul clkLow] at goes
    rw [Nat.mul_succ]
    omega

/-- A rate with the step of its scale is never above the rate that is asked for. -/
theorem getBaud_le {clk baud scale : Nat} (clkHigh : clk < 2 ^ 32) (scaleHigh : scale ≤ 255)
    (stepHigh : exactStep clk baud scale ≤ 13107) :
    getBaud clk scale (exactStep clk baud scale) ≤ baud := by
  -- The step is rounded down, and half of the divisor does not make up for a whole one.
  have rounded : clk * exactStep clk baud scale ≤ baud * (scale + 1) * 2 ^ 17 := Nat.mul_div_le _ _
  have shape : baud * (2 ^ 17 * (scale + 1)) = baud * (scale + 1) * 2 ^ 17 := by
    rw [Nat.mul_comm (2 ^ 17), Nat.mul_assoc]
  rw [getBaud_eq clkHigh scaleHigh stepHigh, ← Nat.lt_succ_iff, Nat.div_lt_iff_lt_mul (by omega),
    Nat.succ_mul, shape]
  omega

/-- A rate with a step of at least one is not zero. -/
theorem getBaud_pos {clk baud scale : Nat} (clkHigh : clk < 2 ^ 32) (baudLow : 0 < baud)
    (scaleHigh : scale ≤ 255) (stepLow : 1 ≤ exactStep clk baud scale)
    (stepHigh : exactStep clk baud scale ≤ 13107) (clkLow : 0 < clk) :
    0 < getBaud clk scale (exactStep clk baud scale) := by
  -- The step is at least half of the quotient that it is rounded from.
  have above : baud * (scale + 1) * 2 ^ 17 < clk * (exactStep clk baud scale + 1) :=
    Nat.lt_mul_div_succ _ clkLow
  have twice : clk * (exactStep clk baud scale + 1) ≤ clk * (2 * exactStep clk baud scale) :=
    Nat.mul_le_mul (Nat.le_refl _) (by omega)
  have least : scale + 1 ≤ baud * (scale + 1) := Nat.le_mul_of_pos_left _ baudLow
  rw [Nat.mul_left_comm] at twice
  rw [getBaud_eq clkHigh scaleHigh stepHigh]
  exact Nat.div_pos (by omega) (by omega)

/-- Without a step there is no rate. -/
theorem getBaud_zero {clk scale : Nat} (clkHigh : clk < 2 ^ 32) (scaleHigh : scale ≤ 255) :
    getBaud clk scale 0 = 0 := by
  -- The product is zero.
  rw [getBaud_eq clkHigh scaleHigh (by omega)]
  exact Nat.div_eq_of_lt (by omega)

/-- A larger scale has at least the step of a smaller one. -/
theorem exactStep_mono {clk baud first second : Nat} (le : first ≤ second) :
    exactStep clk baud first ≤ exactStep clk baud second := by
  -- The divisor and the factors are the same.
  refine Nat.div_le_div_right (Nat.mul_le_mul_right _ ?_)
  exact Nat.mul_le_mul_left _ (by omega)

section Clock

variable {clk baud : Nat} (clocked : Clocked clk baud)

include clocked

/-- The rate is at least the lowest one of the driver, and at most the highest one. -/
theorem Clocked.bounds : 300 ≤ baud ∧ baud ≤ maxBaudRate :=
  ⟨le_trans (Nat.le_max_right _ _) clocked.baudLow,
    le_trans clocked.baudHigh (Nat.min_le_right _ _)⟩

/-- The clock is not zero. -/
theorem Clocked.pos : 0 < clk := Nat.lt_trans (by omega) clocked.clkLow

/-- A turn that compares has the exact step of its scale, which is small enough. -/
theorem Clocked.step_eq {tscale : Nat} (compared : Compared clk baud tscale) :
    stepFor clk baud tscale = exactStep clk baud tscale ∧ exactStep clk baud tscale ≤ 13107 := by
  -- The loop did not end before, so the step of the scale in front was small enough.
  obtain ⟨below, reached⟩ := compared
  have product := product_lt clocked.pos clocked.clkHigh clocked.bounds.2 below
    fun earlier less => reached earlier (by omega)
  have exact : stepFor clk baud tscale = exactStep clk baud tscale := stepFor_eq below product
  have goes : stepFor clk baud tscale ≤ maxStep := not_lt.mp (reached tscale (by omega))
  exact ⟨exact, exact ▸ goes⟩

/-- A turn that compares finds how far its rate lies below the rate that is asked for. -/
theorem Clocked.diff_eq {tscale : Nat} (compared : Compared clk baud tscale) :
    getBaud clk tscale (exactStep clk baud tscale) ≤ baud ∧
      diffFor clk baud tscale =
        (exactDiff clk baud tscale (exactStep clk baud tscale)).natAbs := by
  obtain ⟨exact, small⟩ := clocked.step_eq compared
  have scaleHigh : tscale ≤ 255 := Nat.le_of_lt compared.1
  have above := getBaud_le clocked.clkHigh scaleHigh small
  have high : baud ≤ 30000000 := clocked.bounds.2
  refine ⟨above, ?_⟩
  -- Neither the difference nor its absolute value leaves the range of an `int`.
  have narrow : u32 (exactStep clk baud tscale) = exactStep clk baud tscale := u32_eq (by omega)
  have fits : s32 ((getBaud clk tscale (exactStep clk baud tscale) : Int) - baud) =
      (getBaud clk tscale (exactStep clk baud tscale) : Int) - baud := s32_eq (by omega) (by omega)
  unfold diffFor exactDiff
  rw [exact, narrow, fits, s32_eq (by omega) (by omega)]

/-- Every scale with a small enough step is compared, because the step grows with the scale. -/
theorem Clocked.compared {scale : Nat} (scaleHigh : scale ≤ 254)
    (stepHigh : exactStep clk baud scale ≤ 13107) : Compared clk baud scale := by
  have below : scale < maxScale := Nat.lt_succ_of_le scaleHigh
  refine ⟨below, ?_⟩
  -- The induction is on the turns up to the scale, none of which leaves the loop.
  have up : ∀ turn, turn ≤ scale + 1 → Reached (TooLarge clk baud) turn := by
    intro turn
    induction turn with
    | zero => exact fun _ earlier less => absurd less (Nat.not_lt_zero _)
    | succ turn ih =>
      intro le
      have reached := ih (by omega)
      have inside : turn < maxScale := by omega
      have product := product_lt clocked.pos clocked.clkHigh clocked.bounds.2 inside reached
      refine reached.next (not_lt.mpr ?_)
      rw [stepFor_eq inside product]
      exact le_trans (exactStep_mono (by omega)) stepHigh
  exact up (scale + 1) (Nat.le_refl _)

/-- The step of the first scale is small enough, because the rate is at most `max_baud`. -/
theorem Clocked.step_zero : exactStep clk baud 0 ≤ 13107 := by
  have high : baud ≤ getBaud clk 0 13107 := le_trans clocked.baudHigh (Nat.min_le_left _ _)
  rw [getBaud_eq clocked.clkHigh (by omega) (by omega)] at high
  have rounded := Nat.le_of_lt_succ (Nat.lt_succ_of_le high)
  rw [Nat.le_div_iff_mul_le (by omega)] at rounded
  have clkLow := clocked.clkLow
  -- Rounding to the nearest rate adds less than one clock.
  unfold exactStep
  rw [← Nat.lt_succ_iff, Nat.div_lt_iff_lt_mul clocked.pos]
  omega

/-- Some scale has a step of at least one that is small enough. -/
theorem Clocked.exists_scale :
    ∃ scale, scale ≤ 254 ∧ 1 ≤ exactStep clk baud scale ∧ exactStep clk baud scale ≤ 13107 := by
  have low := clocked.bounds.1
  have high := clocked.clkHigh
  -- At the last scale the step is at least one, so there is a first scale with such a step.
  have last : 1 ≤ exactStep clk baud 254 := Nat.div_pos (by omega) clocked.pos
  have some : ∃ scale, 1 ≤ exactStep clk baud scale := ⟨254, last⟩
  refine ⟨Nat.find some, Nat.find_min' some last, Nat.find_spec some, ?_⟩
  rcases zero : Nat.find some with _ | before
  · exact clocked.step_zero
  · -- Before it the step is zero, and one scale more adds less than one clock.
    have none : exactStep clk baud before < 1 := not_le.mp (Nat.find_min some (by omega))
    have one : baud ≤ baud * (before + 1) := Nat.le_mul_of_pos_right _ (by omega)
    unfold exactStep at none ⊢
    rw [Nat.div_lt_iff_lt_mul clocked.pos] at none
    have twice : baud * (before + 1 + 1) ≤ 2 * (baud * (before + 1)) := by
      have split : baud * (before + 1 + 1) = baud * (before + 1) + baud := Nat.mul_succ _ _
      omega
    have small : baud * (before + 1 + 1) * 2 ^ 17 < 2 * clk := by
      calc baud * (before + 1 + 1) * 2 ^ 17
        _ ≤ 2 * (baud * (before + 1)) * 2 ^ 17 := Nat.mul_le_mul_right _ twice
        _ = 2 * (baud * (before + 1) * 2 ^ 17) := Nat.mul_assoc ..
        _ < 2 * clk := by omega
    have less := (Nat.div_lt_iff_lt_mul clocked.pos).mpr small
    omega

end Clock

/-- What a turn that compares has to offer, without any wrapping. -/
def exactOffer (clk baud scale : Nat) : Held ScaleStep Int :=
  ⟨⟨scale, exactStep clk baud scale⟩, (exactDiff clk baud scale (exactStep clk baud scale)).natAbs⟩

/-- What the search holds before its first turn, for a rate that fits an `int`. -/
def noOffer (baud : Nat) : Held ScaleStep Int := ⟨⟨0, 0⟩, baud⟩

/-- A search holds the best of the exact offers of the scales whose step is small enough. -/
theorem Clocked.search {clk baud : Nat} (clocked : Clocked clk baud) :
    ∃ last, last ≤ maxScale ∧ Reached (TooLarge clk baud) last ∧
      Least (noOffer baud) (exactOffer clk baud) last
        (scan (TooLarge clk baud) (searchTurn clk baud) maxScale 0 (noOffer baud)) ∧
      ∀ scale, scale ≤ 254 → exactStep clk baud scale ≤ 13107 → scale < last := by
  have start : Reached (TooLarge clk baud) 0 := fun _ less => absurd less (Nat.not_lt_zero _)
  -- A turn of the loop makes the exact offer of its scale.
  have keeps : ∀ here held, here < 0 + maxScale → Reached (TooLarge clk baud) (here + 1) →
      Least (noOffer baud) (exactOffer clk baud) here held →
        Least (noOffer baud) (exactOffer clk baud) (here + 1) (searchTurn clk baud here held) := by
    intro here held below reached least
    have compared : Compared clk baud here := ⟨by omega, reached⟩
    have offer : offerFor clk baud here = exactOffer clk baud here := by
      unfold offerFor exactOffer
      rw [(clocked.step_eq compared).1, (clocked.diff_eq compared).2]
    unfold searchTurn
    exact offer ▸ least.offer
  obtain ⟨last, within, reached, least, leaves⟩ := scan_rule start Least.start keeps
  refine ⟨last, by omega, reached, least, fun scale scaleHigh small => ?_⟩
  have compared := clocked.compared scaleHigh small
  -- The loop cannot have been left at a scale that is compared, nor before it.
  by_contra notBefore
  exact compared.2 last (by omega) (leaves (by have := compared.1; omega))

/-- The arithmetic of a search does not overflow. -/
theorem Clocked.noOverflow {clk baud : Nat} (clocked : Clocked clk baud) : NoOverflow clk baud where
  product _ := product_lt clocked.pos clocked.clkHigh clocked.bounds.2
  divisor tscale compared := by
    have below : tscale < 255 := compared.1
    omega
  difference tscale compared := by
    -- The rate of a turn lies between zero and the one that is asked for.
    have above := (clocked.diff_eq compared).1
    have high : baud ≤ 30000000 := clocked.bounds.2
    unfold exactDiff
    omega

/-- The search starts with the rate itself as the difference to beat. -/
theorem getScaleStep_eq {clk baud : Nat} (high : baud ≤ 30000000) :
    getScaleStep clk baud =
      (scan (TooLarge clk baud) (searchTurn clk baud) maxScale 0 (noOffer baud)).choice := by
  -- As an equality of functions this unfolds the search, and runs none of its turns.
  have search : getScaleStep = fun clk baud =>
    (scan (TooLarge clk baud) (searchTurn clk baud) maxScale 0 ⟨⟨0, 0⟩, s32 baud⟩).choice := rfl
  rw [search, noOffer]
  beta_reduce
  rw [s32_eq (by omega) (by omega)]

/-- The best of the exact offers is the best one of the scales whose step is small enough. -/
theorem Clocked.bestRate_of_least {clk baud last : Nat} {held : Held ScaleStep Int}
    (clocked : Clocked clk baud) (within : last ≤ maxScale)
    (reached : Reached (TooLarge clk baud) last)
    (least : Least (noOffer baud) (exactOffer clk baud) last held)
    (covers : ∀ scale, scale ≤ 254 → exactStep clk baud scale ≤ 13107 → scale < last) :
    BestRate clk baud held.choice := by
  have high : baud ≤ 30000000 := clocked.bounds.2
  have low := clocked.bounds.1
  -- Some scale has a rate that is not zero, and beats what the search starts with.
  obtain ⟨good, goodHigh, stepLow, stepHigh⟩ := clocked.exists_scale
  have compared := clocked.compared goodHigh stepHigh
  have below := (clocked.diff_eq compared).1
  have positive := getBaud_pos clocked.clkHigh (by omega) (by omega) stepLow stepHigh clocked.pos
  have beats : held.cost < baud := by
    have cost : held.cost ≤ (exactDiff clk baud good (exactStep clk baud good)).natAbs :=
      least.least good (covers good goodHigh stepHigh)
    unfold exactDiff at cost
    omega
  rcases least.offered with same | ⟨scale, before, rfl, cheaper⟩
  · -- So what is held is not what the search started with.
    subst same
    exact absurd beats (lt_irrefl _)
  · have chosen : Compared clk baud scale := by
      refine ⟨by omega, ?_⟩
      exact fun earlier less => reached earlier (by omega)
    have scaleHigh : scale < 255 := chosen.1
    have small := (clocked.step_eq chosen).2
    refine ⟨Nat.le_of_lt_succ scaleHigh, ?_, small, rfl, ?_⟩
    · -- A step of zero would make the difference as large as the rate.
      by_contra none
      have zero : exactStep clk baud scale = 0 := Nat.lt_one_iff.mp (not_le.mp none)
      have cost : ((exactDiff clk baud scale (exactStep clk baud scale)).natAbs : Int) < baud :=
        cheaper
      unfold exactDiff at cost
      rw [zero, getBaud_zero clocked.clkHigh (by omega)] at cost
      omega
    · intro other otherHigh otherSmall
      exact Int.ofNat_le.mp (least.least other (covers other otherHigh otherSmall))

/-- A search ends with the best one of the scales whose step is small enough. -/
theorem Clocked.bestRate {clk baud : Nat} (clocked : Clocked clk baud) :
    BestRate clk baud (getScaleStep clk baud) := by
  -- The search compares all scales up to the last one that is small enough.
  obtain ⟨last, within, reached, least, covers⟩ := clocked.search
  rw [getScaleStep_eq clocked.bounds.2]
  exact clocked.bestRate_of_least within reached least covers

/--
For a clock above 65536 and a rate between the ones of the probe, nothing overflows in the search,
and it ends with the nearest rate of all scales whose step is small enough.
-/
theorem getScaleStep_best (clk baud : Nat) (clkLow : 65536 < clk) (clkHigh : clk < 2 ^ 32)
    (baudLow : minBaud clk ≤ baud) (baudHigh : baud ≤ maxBaud clk) :
    NoOverflow clk baud ∧ BestRate clk baud (getScaleStep clk baud) := by
  -- Both parts are about the clock and the rate that the probe allows.
  have clocked : Clocked clk baud := ⟨clkLow, clkHigh, baudLow, baudHigh⟩
  exact ⟨clocked.noOverflow, clocked.bestRate⟩

/-- The rate of the console, on a board with a clock of 40 MHz. -/
theorem getScaleStep_console :
    NoOverflow 40000000 115200 ∧ BestRate 40000000 115200 (getScaleStep 40000000 115200) :=
  getScaleStep_best 40000000 115200 (by decide) (by decide) (by decide) (by decide)

end OpenwrtMisc.AthHsUart
