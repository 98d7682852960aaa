import Mathlib.Data.List.Basic
import Mathlib.Data.List.Perm.Subperm

/-! Bit masks of a fixed width: single bits, contiguous spans, the highest bit, and the weight. -/

namespace OpenwrtMisc.BitMask

variable {w : Nat}

/-- Two masks of one width are equal when they agree on every bit. -/
theorem ext {a b : BitVec w} (same : ∀ i, a.getLsbD i = b.getLsbD i) : a = b :=
  BitVec.eq_of_getLsbD_eq fun i _ => same i

/-- A mask that is not zero has a bit. -/
theorem exists_getLsbD {mask : BitVec w} (nonzero : mask ≠ 0) : ∃ i, mask.getLsbD i = true := by
  -- Without any bit the mask would be zero.
  by_contra none
  apply nonzero
  refine ext fun i => ?_
  have clear : mask.getLsbD i = false := (Bool.not_eq_true _).mp fun set => none ⟨i, set⟩
  rw [clear]
  exact (BitVec.getLsbD_zero ..).symm

/-- Every bit of the first mask is a bit of the second. -/
def Subset (a b : BitVec w) : Prop := a &&& b = a

instance (a b : BitVec w) : Decidable (Subset a b) := inferInstanceAs (Decidable (_ = _))

/-- Inclusion of masks, read bit by bit. -/
theorem subset_iff {a b : BitVec w} :
    Subset a b ↔ ∀ i, a.getLsbD i = true → b.getLsbD i = true := by
  -- Two masks are equal when their bits are.
  constructor
  · intro included i set
    have bits := congrArg (fun mask => mask.getLsbD i) included
    simpa [set] using bits
  · intro included
    refine ext fun i => ?_
    have here := included i
    cases set : a.getLsbD i <;> simp_all

/-- Only the empty mask is included in the empty mask. -/
theorem subset_zero {a : BitVec w} : Subset a 0 ↔ a = 0 := by
  -- The meet with the empty mask is empty.
  show a &&& 0#w = a ↔ a = 0#w
  rw [BitVec.and_zero, eq_comm]

/-- The mask with bit `i` alone, empty when the bit lies outside the width. -/
abbrev bit (i : Nat) : BitVec w := BitVec.twoPow w i

/-- A mask meets a single bit exactly when it has that bit. -/
theorem and_bit_ne_zero {mask : BitVec w} {i : Nat} :
    mask &&& bit i ≠ 0 ↔ mask.getLsbD i = true := by
  -- The two directions are about the one bit.
  constructor
  · intro meets
    -- With the bit clear, the two masks have no bit in common.
    cases set : mask.getLsbD i with
    | true => rfl
    | false =>
      refine absurd (ext fun j => ?_) meets
      rw [BitVec.getLsbD_and, BitVec.getLsbD_twoPow]
      by_cases same : i = j
      · simp [← same, set]
      · simp [same]
  · intro set zero
    have inside := BitVec.lt_of_getLsbD set
    have clear : (mask &&& bit i).getLsbD i = (0 : BitVec w).getLsbD i := by rw [zero]
    rw [BitVec.getLsbD_and, BitVec.getLsbD_twoPow, set] at clear
    simp [inside] at clear

/-- A mask that meets a single bit has this bit in common with it. -/
theorem and_bit_of_ne_zero {mask : BitVec w} {i : Nat} (meets : mask &&& bit i ≠ 0) :
    mask &&& bit i = bit i := by
  -- The bit is set, and the other positions are clear on both sides.
  have set := and_bit_ne_zero.mp meets
  refine ext fun j => ?_
  rw [BitVec.getLsbD_and, BitVec.getLsbD_twoPow]
  by_cases same : i = j
  · simp [← same, set]
  · simp [same]

/-- Setting a bit inside the width changes that bit alone. -/
theorem getLsbD_set (mask : BitVec w) {i : Nat} (inside : i < w) (j : Nat) :
    (mask ||| bit i).getLsbD j = (mask.getLsbD j || decide (j = i)) := by
  -- The bit is the one, or another one.
  rw [BitVec.getLsbD_or, BitVec.getLsbD_twoPow]
  by_cases same : j = i
  · simp [same, inside]
  · simp [same, Ne.symm same]

/-- Clearing a bit changes that bit alone. -/
theorem getLsbD_clear (mask : BitVec w) (i j : Nat) :
    (mask &&& ~~~(bit i)).getLsbD j = (mask.getLsbD j && decide (j ≠ i)) := by
  -- The bit is the one, another one, or outside of the width.
  rw [BitVec.getLsbD_and, BitVec.getLsbD_not, BitVec.getLsbD_twoPow]
  by_cases inside : j < w
  · by_cases same : j = i
    · simp [same]
    · simp [same, Ne.symm same, inside]
  · simp [BitVec.getLsbD_of_ge mask j (by omega)]

/-- Clearing the bits of a list, one after the other, changes these bits alone. -/
theorem getLsbD_foldl_clear (bits : List Nat) (mask : BitVec w) (j : Nat) :
    (bits.foldl (fun mask i => mask &&& ~~~(bit i)) mask).getLsbD j = true ↔
      mask.getLsbD j = true ∧ j ∉ bits := by
  -- The induction follows the list, with the mask that is left so far.
  induction bits generalizing mask with
  | nil => simp
  | cons head tail ih =>
    rw [List.foldl_cons, ih, getLsbD_clear, Bool.and_eq_true, decide_eq_true_eq, List.mem_cons,
      not_or, and_assoc]

/-- A bit that was clear counts as one more when it is set. -/
theorem toNat_getLsbD_set {mask : BitVec w} {i : Nat} (inside : i < w)
    (unset : mask.getLsbD i = false) (j : Nat) :
    ((mask ||| bit i).getLsbD j).toNat = (mask.getLsbD j).toNat + if j = i then 1 else 0 := by
  -- Only the bit that is set counts for more than before.
  rw [getLsbD_set mask inside]
  by_cases same : j = i
  · simp [same, unset]
  · simp [same]

/-- A bit that was set counts as one fewer when it is cleared. -/
theorem toNat_getLsbD_clear {mask : BitVec w} {i : Nat} (set : mask.getLsbD i = true) (j : Nat) :
    (mask.getLsbD j).toNat =
      ((mask &&& ~~~(bit i)).getLsbD j).toNat + if j = i then 1 else 0 := by
  -- Only the bit that is cleared counts for less than before.
  rw [getLsbD_clear]
  by_cases same : j = i
  · simp [same, set]
  · simp [same]

/-- Adding a bit to a mask gives that bit alone just for the empty mask and for the bit itself. -/
theorem or_bit_eq {mask : BitVec w} (i : Nat) :
    mask ||| bit i = bit i ↔ mask = 0 ∨ mask = bit i := by
  -- The two directions are about the other bits.
  constructor
  · intro absorbed
    -- All other bits of the mask are clear, so only this one decides.
    have others : ∀ j, j ≠ i → mask.getLsbD j = false := by
      intro j different
      have bits := congrArg (fun other => other.getLsbD j) absorbed
      have clear : (bit i : BitVec w).getLsbD j = false := by
        simp [BitVec.getLsbD_twoPow, Ne.symm different]
      simpa [clear] using bits
    cases set : mask.getLsbD i with
    | false =>
      refine Or.inl (ext fun j => ?_)
      by_cases same : j = i
      · simp [same, set]
      · simp [others j same]
    | true =>
      refine Or.inr (ext fun j => ?_)
      by_cases same : j = i
      · have inside := BitVec.lt_of_getLsbD set
        simp [same, set, inside]
      · simp [others j same, Ne.symm same]
  · intro given
    rcases given with rfl | rfl
    · exact BitVec.zero_or
    · exact BitVec.or_self

/-- The mask of the `count` consecutive bits from `start` on. -/
def span (start : Nat) : Nat → BitVec w
  | 0 => 0
  | count + 1 => span start count ||| bit (start + count)

/-- A bit of a span lies in its interval and within the width. -/
theorem getLsbD_span (start count i : Nat) :
    (span start count : BitVec w).getLsbD i = true ↔
      start ≤ i ∧ i < start + count ∧ i < w := by
  -- Each bit added to the span is the one just past its upper end.
  induction count with
  | zero => simp [span]; omega
  | succ count ih =>
    simp only [span, BitVec.getLsbD_or, Bool.or_eq_true, ih, BitVec.getLsbD_twoPow,
      Bool.and_eq_true, decide_eq_true_eq]
    omega

/-- The bits of a span as a computation. -/
theorem getLsbD_span_eq (start count i : Nat) :
    (span start count : BitVec w).getLsbD i =
      decide (start ≤ i ∧ i < start + count ∧ i < w) := by
  rw [Bool.eq_iff_iff, getLsbD_span, decide_eq_true_eq]

/-- An empty span is the zero mask, and the only one that starts inside the width. -/
theorem span_eq_zero {start count : Nat} (inside : start + count ≤ w) :
    (span start count : BitVec w) = 0 ↔ count = 0 := by
  constructor
  · intro zero
    by_contra positive
    -- The first bit of a span that is not empty is set.
    have bits := (getLsbD_span (w := w) start count start).mpr (by omega)
    simp [zero] at bits
  · intro same
    subst same
    rfl

/-- Spans of one start are ordered by their length. -/
theorem span_inj {start first second : Nat} (firstInside : start + first ≤ w)
    (secondInside : start + second ≤ w)
    (same : (span start first : BitVec w) = span start second) : first = second := by
  -- The bit just past the shorter span would tell the two masks apart.
  rcases Nat.lt_trichotomy first second with less | equal | greater
  · have inSecond := (getLsbD_span (w := w) start second (start + first)).mpr (by omega)
    rw [← same, getLsbD_span] at inSecond
    omega
  · exact equal
  · have inFirst := (getLsbD_span (w := w) start first (start + second)).mpr (by omega)
    rw [same, getLsbD_span] at inFirst
    omega

/-- A field that is taken down to bit zero and back up is the part of the word that it covers. -/
theorem shiftDown_up (word : BitVec w) (start count : Nat) :
    (word >>> start &&& span 0 count) <<< start = word &&& span start count := by
  -- A bit below the start is clear on both sides, and every other one went down and up again.
  refine ext fun i => ?_
  rw [BitVec.getLsbD_shiftLeft, BitVec.getLsbD_and, BitVec.getLsbD_ushiftRight, BitVec.getLsbD_and,
    getLsbD_span_eq, getLsbD_span_eq]
  by_cases low : i < start
  · simp [low, Nat.not_le.mpr low]
  · have back : start + (i - start) = i := by omega
    by_cases high : i < w
    · simp [low, high, back, show i - start < count ↔ i < start + count by omega,
        show i - start < w by omega, Nat.not_lt.mp low]
    · simp [high]

/-- A field that is moved up and back down is the low part of the word. -/
theorem shiftUp_down (word : BitVec w) {start count : Nat} (inside : start + count ≤ w) :
    (word <<< start &&& span start count) >>> start = word &&& span 0 count := by
  -- Bit by bit, the positions below the count are moved there and back.
  refine ext fun i => ?_
  rw [BitVec.getLsbD_ushiftRight, BitVec.getLsbD_and, BitVec.getLsbD_shiftLeft, BitVec.getLsbD_and,
    getLsbD_span_eq, getLsbD_span_eq]
  by_cases small : i < count
  · simp [small, show start + i < w by omega, show i < w by omega]
  · simp [small]

/-- The mask of all bits that some mask of a list has. -/
def union (masks : List (BitVec w)) : BitVec w := masks.foldr (· ||| ·) 0

/-- A bit of a union is a bit of one of the masks. -/
theorem getLsbD_union (masks : List (BitVec w)) (i : Nat) :
    (union masks).getLsbD i = masks.any fun mask => mask.getLsbD i := by
  -- The induction is on the masks.
  induction masks with
  | nil => exact BitVec.getLsbD_zero
  | cons mask rest ih => rw [List.any_cons, ← ih, ← BitVec.getLsbD_or]; rfl

/-- The union of two lists is the union of their unions. -/
theorem union_append (first second : List (BitVec w)) :
    union (first ++ second) = union first ||| union second := by
  -- Bit by bit, one of all the masks is one of the first or of the second.
  refine ext fun i => ?_
  rw [BitVec.getLsbD_or, getLsbD_union, getLsbD_union, getLsbD_union, List.any_append]

/-- A union is empty when all of its masks are. -/
theorem union_eq_zero {masks : List (BitVec w)} : union masks = 0 ↔ ∀ mask ∈ masks, mask = 0 := by
  -- The induction is on the masks.
  induction masks with
  | nil => exact iff_of_true rfl fun _ member => absurd member List.not_mem_nil
  | cons mask rest ih =>
    rw [List.forall_mem_cons, ← ih]
    exact BitVec.or_eq_zero_iff

/-- The position after the highest set bit below `bound`, zero when there is none. -/
def flsBelow (mask : BitVec w) : Nat → Nat
  | 0 => 0
  | bound + 1 => if mask.getLsbD bound then bound + 1 else flsBelow mask bound

/-- The position after the highest set bit, zero for the zero mask. -/
def fls (mask : BitVec w) : Nat := flsBelow mask w

/-- A set bit with no higher one below the bound is the one that is found. -/
theorem flsBelow_eq {mask : BitVec w} {top : Nat} (set : mask.getLsbD top = true) :
    ∀ bound, top < bound → (∀ i, top < i → i < bound → mask.getLsbD i = false) →
      flsBelow mask bound = top + 1 := by
  intro bound
  induction bound with
  | zero => omega
  | succ bound ih =>
    intro inside clear
    simp only [flsBelow]
    -- The bit is the highest one below the bound, or the highest one is clear.
    by_cases last : top = bound
    · simp [← last, set]
    · rw [if_neg (by simp [clear bound (by omega) (by omega)])]
      exact ih (by omega) fun i above below => clear i above (by omega)

/-- The highest bit of a nonempty span is its last one. -/
theorem fls_span {start count : Nat} (positive : 0 < count) (inside : start + count ≤ w) :
    fls (span start count : BitVec w) = start + count := by
  -- The last bit of the span is set, and none above it.
  have set := (getLsbD_span (w := w) start count (start + count - 1)).mpr (by omega)
  rw [fls, flsBelow_eq set w (by omega)]
  · omega
  · intro i above _
    rw [← Bool.not_eq_true, getLsbD_span]
    omega

/-- No bit is set from the found position on. -/
theorem getLsbD_of_flsBelow_le {mask : BitVec w} {bound i : Nat} (above : flsBelow mask bound ≤ i)
    (below : i < bound) : mask.getLsbD i = false := by
  -- The search goes down from the bound, over bits that are clear.
  induction bound with
  | zero => exact absurd below (Nat.not_lt_zero i)
  | succ bound ih =>
    rw [flsBelow] at above
    by_cases set : mask.getLsbD bound = true
    · rw [if_pos set] at above
      omega
    · rw [if_neg set] at above
      rcases Nat.lt_succ_iff_lt_or_eq.mp below with lower | same
      · exact ih above lower
      · rw [same]
        exact (Bool.not_eq_true _).mp set

/-- No bit is set from the position after the highest one on. -/
theorem getLsbD_of_fls_le {mask : BitVec w} {i : Nat} (above : fls mask ≤ i) :
    mask.getLsbD i = false := by
  -- A position is inside the width, where the search went over it, or outside.
  by_cases inside : i < w
  · exact getLsbD_of_flsBelow_le above inside
  · exact BitVec.getLsbD_of_ge mask i (Nat.not_lt.mp inside)

/-- A bit that is set above all others is the highest one. -/
theorem fls_set {mask : BitVec w} {i : Nat} (inside : i < w)
    (clear : ∀ j, i < j → mask.getLsbD j = false) : fls (mask ||| bit i) = i + 1 := by
  -- The bit is set, and the ones above are as clear as before.
  have set : (mask ||| bit i).getLsbD i = true := by
    rw [getLsbD_set mask inside, decide_eq_true rfl, Bool.or_true]
  apply flsBelow_eq set w inside
  intro j above _
  rw [getLsbD_set mask inside, clear j above, Bool.false_or]
  exact decide_eq_false (Nat.ne_of_gt above)

/-- The number of set bits. -/
def hweight (mask : BitVec w) : Nat := (List.range w).countP mask.getLsbD

/-- A mask's weight splits along any second mask. -/
theorem hweight_split (mask part : BitVec w) :
    hweight mask = hweight (part &&& mask) + hweight (mask &&& ~~~part) := by
  unfold hweight
  induction List.range w with
  | nil => rfl
  | cons i rest ih =>
    -- Each position contributes to exactly one of the two parts.
    have head : mask.getLsbD i = true → i < w := BitVec.lt_of_getLsbD
    simp only [List.countP_cons, ih, BitVec.getLsbD_and, BitVec.getLsbD_not]
    cases set : mask.getLsbD i
    · simp
    · cases part.getLsbD i <;> simp [head set] <;> omega

/-- A mask whose bits all occur in a list is no heavier than the list is long. -/
theorem hweight_le_length {mask : BitVec w} {entries : List Nat}
    (listed : ∀ i, mask.getLsbD i = true → i ∈ entries) : hweight mask ≤ entries.length := by
  unfold hweight
  rw [List.countP_eq_length_filter]
  -- The positions of the bits are different, so the list has each of them at least once.
  have nodup : ((List.range w).filter mask.getLsbD).Nodup := List.nodup_range.filter _
  have subset : (List.range w).filter mask.getLsbD ⊆ entries := by
    intro i member
    exact listed i (List.mem_filter.mp member).2
  exact (List.subperm_of_subset nodup subset).length_le

/-- The first word, with the bits of the mask taken from the second one. -/
def blend (mask first second : BitVec w) : BitVec w := first &&& ~~~mask ||| second &&& mask

/-- A blended word, read bit by bit. -/
theorem getLsbD_blend (mask first second : BitVec w) (i : Nat) :
    (blend mask first second).getLsbD i =
      if mask.getLsbD i then second.getLsbD i else first.getLsbD i := by
  -- Outside the width no word has a bit, and the mask says nothing there.
  have outside : w ≤ i → first.getLsbD i = false := BitVec.getLsbD_of_ge first i
  rw [blend, BitVec.getLsbD_or, BitVec.getLsbD_and, BitVec.getLsbD_and, BitVec.getLsbD_not]
  by_cases inside : i < w
  · cases mask.getLsbD i <;> simp [inside]
  · rw [BitVec.getLsbD_of_ge mask i (Nat.not_lt.mp inside), outside (Nat.not_lt.mp inside)]
    simp

/-- Setting the bits of a mask takes them from the mask. -/
theorem or_eq_blend (word mask : BitVec w) : word ||| mask = blend mask word mask := by
  -- Bit by bit, the mask decides which side is taken.
  refine ext fun i => ?_
  rw [getLsbD_blend, BitVec.getLsbD_or]
  cases mask.getLsbD i <;> simp

/-- Clearing the bits of a mask takes them from the empty word. -/
theorem and_not_eq_blend (word mask : BitVec w) : word &&& ~~~mask = blend mask word 0 := by
  -- The empty word adds nothing.
  show _ = word &&& ~~~mask ||| 0#w &&& mask
  rw [BitVec.zero_and, BitVec.or_zero]

/-- Bits that are taken in turn are taken at once, the last ones first. -/
theorem blend_blend (first second word earlier later : BitVec w) :
    blend second (blend first word earlier) later =
      blend (first ||| second) word (blend second earlier later) := by
  -- Bit by bit, there are four cases of the two masks.
  refine ext fun i => ?_
  rw [getLsbD_blend, getLsbD_blend, getLsbD_blend, getLsbD_blend, BitVec.getLsbD_or]
  cases first.getLsbD i <;> cases second.getLsbD i <;> rfl

/-- Two words have the same bits under a mask. -/
def AgreeOn (mask first second : BitVec w) : Prop := first &&& mask = second &&& mask

instance (mask first second : BitVec w) : Decidable (AgreeOn mask first second) :=
  inferInstanceAs (Decidable (_ = _))

/-- Agreement under a mask, read bit by bit. -/
theorem agreeOn_iff {mask first second : BitVec w} :
    AgreeOn mask first second ↔
      ∀ i, mask.getLsbD i = true → first.getLsbD i = second.getLsbD i := by
  -- Two masked words are equal when their bits are.
  constructor
  · intro agree i set
    have bits := congrArg (fun word => word.getLsbD i) agree
    simpa [set] using bits
  · intro agree
    refine ext fun i => ?_
    rw [BitVec.getLsbD_and, BitVec.getLsbD_and]
    cases set : mask.getLsbD i
    · rw [Bool.and_false, Bool.and_false]
    · rw [agree i set]

end OpenwrtMisc.BitMask
