import Mathlib.Data.List.Basic

/-! Cyclic redundancy checks of any width, bit by bit from the low end. -/

namespace OpenwrtMisc.Crc

variable {w : Nat}

/-- One bit of the division: the remainder moves down, and takes the divisor off for a low bit. -/
def bitStep (poly crc : BitVec w) : BitVec w :=
  if crc.getLsbD 0 then (crc >>> 1) ^^^ poly else crc >>> 1

/-- So many bits of the division. -/
def bitSteps (poly : BitVec w) : Nat → BitVec w → BitVec w
  | 0, crc => crc
  | count + 1, crc => bitSteps poly count (bitStep poly crc)

/-- A byte that goes in at the low end. -/
def byteStep (poly crc : BitVec w) (byte : UInt8) : BitVec w :=
  bitSteps poly 8 (crc ^^^ byte.toBitVec.setWidth w)

/-- The remainder after some bytes. -/
def remainder (poly crc : BitVec w) (bytes : List UInt8) : BitVec w :=
  bytes.foldl (byteStep poly) crc

/-- Bytes side by side, the first one lowest. -/
def pack : List UInt8 → BitVec w
  | [] => 0#w
  | byte :: rest => byte.toBitVec.setWidth w ^^^ (pack rest <<< 8)

/-- The remainder after two runs of bytes. -/
theorem remainder_append (poly crc : BitVec w) (first second : List UInt8) :
    remainder poly crc (first ++ second) = remainder poly (remainder poly crc first) second :=
  List.foldl_append

/-- Bits after bits. -/
theorem bitSteps_add (poly crc : BitVec w) (first second : Nat) :
    bitSteps poly (first + second) crc = bitSteps poly second (bitSteps poly first crc) := by
  -- The induction is on the steps of the first part.
  induction first generalizing crc with
  | zero => rw [Nat.zero_add]; rfl
  | succ first ih => rw [Nat.succ_add, bitSteps, ih, bitSteps]

/-- The division is linear. -/
theorem bitStep_xor (poly a b : BitVec w) :
    bitStep poly (a ^^^ b) = bitStep poly a ^^^ bitStep poly b := by
  unfold bitStep
  rw [BitVec.getLsbD_xor, BitVec.ushiftRight_xor_distrib]
  -- Where both remainders take the divisor off, their difference does not.
  cases a.getLsbD 0 <;> cases b.getLsbD 0
  · rfl
  · simp only [Bool.false_xor, if_true, Bool.false_eq_true, if_false, BitVec.xor_assoc]
  · simp only [Bool.xor_false, if_true, Bool.false_eq_true, if_false]
    rw [BitVec.xor_assoc, BitVec.xor_comm (b >>> 1), ← BitVec.xor_assoc]
  · have twice : ∀ x y : BitVec w, x ^^^ poly ^^^ (y ^^^ poly) = x ^^^ y := by
      intro x y
      rw [BitVec.xor_comm y, BitVec.xor_assoc x, ← BitVec.xor_assoc poly, BitVec.xor_self,
        BitVec.zero_xor]
    simp only [Bool.xor_self, Bool.false_eq_true, if_false, if_true, twice]

/-- A difference goes its own way. -/
theorem bitSteps_xor (poly : BitVec w) (count : Nat) (a b : BitVec w) :
    bitSteps poly count (a ^^^ b) = bitSteps poly count a ^^^ bitSteps poly count b := by
  -- The induction is on the steps, each of which is linear.
  induction count generalizing a b with
  | zero => rfl
  | succ count ih => rw [bitSteps, bitStep_xor, ih, bitSteps, bitSteps]

/-- Low bits that are clear only move out. -/
theorem bitSteps_shiftLeft (poly crc : BitVec w) (count : Nat) :
    bitSteps poly count (crc <<< count) = (crc <<< count) >>> count := by
  -- Where the low bits are clear, no divisor is taken off.
  have clear : ∀ k (x : BitVec w), (∀ i < k, x.getLsbD i = false) →
      bitSteps poly k x = x >>> k := by
    intro k
    induction k with
    | zero => exact fun x _ => (BitVec.ushiftRight_zero x).symm
    | succ k ih =>
      intro x low
      have first : x.getLsbD 0 = false := low 0 (Nat.succ_pos k)
      have step : bitStep poly x = x >>> 1 := by
        rw [bitStep, first, if_neg Bool.false_ne_true]
      rw [bitSteps, step, ih, ← BitVec.shiftRight_add, Nat.add_comm]
      intro i below
      rw [BitVec.getLsbD_ushiftRight]
      exact low (1 + i) (by omega)
  refine clear count _ fun i below => ?_
  rw [BitVec.getLsbD_shiftLeft, decide_eq_true below]
  simp

/-- A divisor whose top bit is set loses nothing. -/
theorem bitStep_injective {poly : BitVec w} (top : poly.getLsbD (w - 1) = true) :
    Function.Injective (bitStep poly) := by
  -- By linearity, it is enough that nothing but zero becomes zero.
  have kernel : ∀ x : BitVec w, bitStep poly x = 0#w → x = 0#w := by
    intro x gone
    have positive : 0 < w := by
      by_contra none
      have zero : w = 0 := by omega
      rw [BitVec.getLsbD_of_ge poly (w - 1) (by omega)] at top
      cases top
    unfold bitStep at gone
    split at gone
    · have high := congrArg (fun y : BitVec w => y.getLsbD (w - 1)) gone
      rw [BitVec.getLsbD_xor, BitVec.getLsbD_ushiftRight,
        BitVec.getLsbD_of_ge x (1 + (w - 1)) (by omega), top] at high
      simp at high
    · rename_i even
      refine BitVec.eq_of_getLsbD_eq fun i below => ?_
      rw [BitVec.getLsbD_zero]
      cases i with
      | zero => exact Bool.eq_false_iff.mpr even
      | succ i =>
        have moved := congrArg (fun y : BitVec w => y.getLsbD i) gone
        rw [BitVec.getLsbD_ushiftRight, Nat.add_comm] at moved
        simpa using moved
  intro a b same
  have zero := kernel (a ^^^ b) (by rw [bitStep_xor, same, BitVec.xor_self])
  exact BitVec.xor_eq_zero_iff.mp zero

/-- So does any number of its steps. -/
theorem bitSteps_injective {poly : BitVec w} (top : poly.getLsbD (w - 1) = true) (count : Nat) :
    Function.Injective (bitSteps poly count) := by
  -- The induction is on the steps, each of which can be taken back.
  induction count with
  | zero => exact fun _ _ same => same
  | succ count ih => exact fun _ _ same => bitStep_injective top (ih same)

/-- A byte goes in by a table of the bytes, while the rest of the remainder moves down. -/
theorem byteStep_table (poly crc : BitVec w) (byte : UInt8) :
    byteStep poly crc byte =
      (crc >>> 8) ^^^
        bitSteps poly 8 (((crc ^^^ byte.toBitVec.setWidth w).setWidth 8).setWidth w) := by
  -- The high byte of the remainder has nothing of the new byte in it.
  have high : (byte.toBitVec.setWidth w) >>> 8 = 0#w := by
    refine BitVec.eq_of_getLsbD_eq fun i below => ?_
    rw [BitVec.getLsbD_ushiftRight, BitVec.getLsbD_setWidth, BitVec.getLsbD_of_ge _ _ (by omega)]
    simp
  -- The low byte and the rest go their own ways.
  have split : ∀ x : BitVec w, x = ((x >>> 8) <<< 8) ^^^ (x.setWidth 8).setWidth w := by
    intro x
    refine BitVec.eq_of_getLsbD_eq fun i below => ?_
    rw [BitVec.getLsbD_xor, BitVec.getLsbD_shiftLeft, BitVec.getLsbD_ushiftRight,
      BitVec.getLsbD_setWidth, BitVec.getLsbD_setWidth]
    by_cases low : i < 8
    · simp [low, below]
    · simp [low, below, Nat.add_sub_cancel' (Nat.le_of_not_lt low)]
  have back : ∀ x : BitVec w, ((x >>> 8) <<< 8) >>> 8 = x >>> 8 := by
    intro x
    refine BitVec.eq_of_getLsbD_eq fun i below => ?_
    simp only [BitVec.getLsbD_ushiftRight, BitVec.getLsbD_shiftLeft]
    by_cases inside : 8 + i < w
    · simp [inside]
    · simp [inside, BitVec.getLsbD_of_ge x (8 + i) (by omega)]
  unfold byteStep
  conv_lhs => rw [split (crc ^^^ byte.toBitVec.setWidth w)]
  rw [bitSteps_xor, bitSteps_shiftLeft, back, BitVec.ushiftRight_xor_distrib, high,
    BitVec.xor_zero]

/-- A byte is nothing but its eight bits. -/
theorem setWidth_high (byte : UInt8) {i : Nat} (high : 8 ≤ i) :
    (byte.toBitVec.setWidth w).getLsbD i = false := by
  rw [BitVec.getLsbD_setWidth, BitVec.getLsbD_of_ge _ _ high, Bool.and_false]

/-- Bytes side by side reach as far as they are long. -/
theorem pack_high (bytes : List UInt8) {i : Nat} (high : 8 * bytes.length ≤ i) :
    (pack bytes : BitVec w).getLsbD i = false := by
  -- The induction is on the bytes, each of which has eight bits.
  induction bytes generalizing i with
  | nil => exact BitVec.getLsbD_zero
  | cons byte rest ih =>
    rw [List.length_cons] at high
    rw [pack, BitVec.getLsbD_xor, setWidth_high byte (by omega), BitVec.getLsbD_shiftLeft,
      ih (by omega), Bool.and_false, Bool.false_xor]

/-- Behind the first byte come the others. -/
theorem pack_shift {byte : UInt8} {rest : List UInt8} (fits : 8 * (byte :: rest).length ≤ w) :
    (pack (byte :: rest) : BitVec w) >>> 8 = pack rest := by
  -- Bit by bit, the first byte is shifted out, and nothing is lost at the other end.
  rw [List.length_cons] at fits
  refine BitVec.eq_of_getLsbD_eq fun i below => ?_
  rw [pack, BitVec.getLsbD_ushiftRight, BitVec.getLsbD_xor, setWidth_high byte (by omega),
    Bool.false_xor, BitVec.getLsbD_shiftLeft, Nat.add_sub_cancel_left]
  by_cases inside : 8 + i < w
  · simp [inside]
  · rw [pack_high rest (i := i) (by omega), Bool.and_false]

/-- Bytes that fit beside each other go in at once. -/
theorem remainder_eq_pack (poly crc : BitVec w) (bytes : List UInt8) (fits : 8 * bytes.length ≤ w) :
    remainder poly crc bytes = bitSteps poly (8 * bytes.length) (crc ^^^ pack bytes) := by
  -- The later bytes may be mixed in before the first one was divided, by linearity.
  induction bytes generalizing crc with
  | nil =>
    rw [pack, BitVec.xor_zero]
    rfl
  | cons byte rest ih =>
    have count : 8 * (byte :: rest).length = 8 + 8 * rest.length := by
      rw [List.length_cons]
      omega
    have back : (pack rest : BitVec w) <<< 8 >>> 8 = pack rest := by
      refine Eq.trans ?_ (pack_shift fits)
      rw [pack, BitVec.ushiftRight_xor_distrib]
      refine BitVec.eq_of_getLsbD_eq fun i _ => ?_
      rw [BitVec.getLsbD_xor, BitVec.getLsbD_ushiftRight (byte.toBitVec.setWidth w),
        setWidth_high byte (by omega), Bool.false_xor]
    calc
      remainder poly crc (byte :: rest) = remainder poly (byteStep poly crc byte) rest := rfl
      _ = bitSteps poly (8 * rest.length) (byteStep poly crc byte ^^^ pack rest) :=
        ih _ (by omega)
      _ = bitSteps poly (8 * rest.length)
          (bitSteps poly 8 (crc ^^^ byte.toBitVec.setWidth w ^^^ (pack rest <<< 8))) := by
        rw [bitSteps_xor poly 8, bitSteps_shiftLeft, back]
        rfl
      _ = bitSteps poly (8 * (byte :: rest).length) (crc ^^^ pack (byte :: rest)) := by
        rw [count, bitSteps_add, pack, BitVec.xor_assoc]

/-- Bytes side by side are told apart. -/
theorem pack_injective {first second : List UInt8} (length : first.length = second.length)
    (fits : 8 * first.length ≤ w) (same : (pack first : BitVec w) = pack second) :
    first = second := by
  -- The induction is on the bytes of the first list.
  induction first generalizing second with
  | nil => exact (List.length_eq_zero_iff.mp length.symm).symm
  | cons byte rest ih =>
    cases second with
    | nil => cases length
    | cons other more =>
      have lengths : rest.length = more.length := Nat.succ.inj length
      -- The first bytes are shifted out of both, and are what remains of the difference.
      have tails : (pack rest : BitVec w) = pack more := by
        rw [← pack_shift fits, same, pack_shift (by rwa [← length])]
      rw [List.length_cons] at fits
      have heads : byte.toBitVec.setWidth w = other.toBitVec.setWidth w := by
        rw [pack, pack, tails] at same
        exact (BitVec.xor_left_inj _).mp same
      have bytes : byte = other := by
        refine UInt8.toBitVec_inj.mp (BitVec.eq_of_getLsbD_eq fun i below => ?_)
        have bit := congrArg (fun x : BitVec w => x.getLsbD i) heads
        simpa [BitVec.getLsbD_setWidth, show i < w by omega] using bit
      rw [bytes, ih lengths (by omega) tails]

section Detection

variable {poly : BitVec w} (top : poly.getLsbD (w - 1) = true)

include top

/-- A difference of two remainders is kept by the bytes that follow. -/
theorem remainder_injective (bytes : List UInt8) :
    Function.Injective fun crc => remainder poly crc bytes := by
  -- The induction is on the bytes, each of which keeps a difference.
  induction bytes with
  | nil => exact fun _ _ same => same
  | cons byte rest ih =>
    intro a b same
    have step : byteStep poly a byte = byteStep poly b byte := ih same
    exact (BitVec.xor_left_inj _).mp (bitSteps_injective top 8 step)

/-- A change of bytes that fit beside each other changes the remainder. -/
theorem remainder_burst (crc : BitVec w) (before after : List UInt8) {burst other : List UInt8}
    (length : burst.length = other.length) (fits : 8 * burst.length ≤ w) :
    remainder poly crc (before ++ burst ++ after) = remainder poly crc (before ++ other ++ after) ↔
      burst = other := by
  -- What is in front is the same, and what is behind keeps a difference.
  constructor
  · intro same
    rw [remainder_append, remainder_append, remainder_append, remainder_append] at same
    have middle := remainder_injective top after same
    rw [remainder_eq_pack _ _ burst fits, remainder_eq_pack _ _ other (length ▸ fits),
      length] at middle
    exact pack_injective length fits ((BitVec.xor_right_inj _).mp (bitSteps_injective top _ middle))
  · rintro rfl
    rfl

end Detection

end OpenwrtMisc.Crc
